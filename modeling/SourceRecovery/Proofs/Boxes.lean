import Mathlib.Data.List.Basic
import SourceRecovery.Proofs.Console
import SourceRecovery.Proofs.Files.Path
import SourceRecovery.Proofs.Text.Tail
import SourceRecovery.Server.Recovery

/-!
# Boxes that are rectangles

The rows of a box are as long as each other if no text in it is wider than the widest box. A wider
text gets no blanks, and its row sticks out. The box that stands above the recovery of a platform
holds the path of its image, which is as long as it comes.
-/

namespace SourceRecovery

variable {title subtitle : String} {rows : List String} {n : ℕ} {w : World}

/-! ### The rows of a box -/

namespace Box

lemma length_cells (count : ℕ) (c : Char) : (cells count c).length = count := by
  simp [cells, ← String.length_toList]

lemma mem_cells {count : ℕ} {c d : Char} (h : d ∈ (cells count c).toList) : d = c := by
  rw [cells, String.toList_ofList] at h
  exact List.eq_of_mem_replicate h

/-- Blanks fill the width around a text, unless the text is wider. -/
lemma length_centered (width : ℕ) (s : String) :
    (centered width s).length = max width s.length := by
  simp only [centered, String.length_append, length_cells]
  omega

/-- A text fits into its box if it is not wider than the widest box. -/
lemma length_le_width_iff {s : String} (h : s = title ∨ s = subtitle) :
    s.length ≤ width title subtitle ↔ s.length ≤ 80 := by
  rcases h with rfl | rfl <;> simp only [width] <;> omega

lemma forall_mem_lines {P : String → Prop} : (∀ row ∈ lines title subtitle, P row) ↔
    P ("╔" ++ cells (width title subtitle) '═' ++ "╗") ∧
    P ("║" ++ centered (width title subtitle) title ++ "║") ∧
    (subtitle ≠ "" → P ("║" ++ centered (width title subtitle) subtitle ++ "║")) ∧
    P ("╚" ++ cells (width title subtitle) '═' ++ "╝") := by
  by_cases h : subtitle = "" <;> simp [lines, h]

lemma length_border (left right : String) (hleft : left.length = 1) (hright : right.length = 1) :
    (left ++ cells n '═' ++ right).length = n + 2 := by
  rw [String.length_append, String.length_append, length_cells, hleft, hright]
  omega

/-- A row with a text is as long as the border if the text fits. -/
lemma length_row_iff {s : String} (h : s = title ∨ s = subtitle) :
    ("║" ++ centered (width title subtitle) s ++ "║").length = width title subtitle + 2 ↔
      s.length ≤ 80 := by
  have hside : "║".length = 1 := rfl
  rw [← length_le_width_iff h, String.length_append, String.length_append, length_centered, hside]
  omega

/-- All rows of a box have one length if each of its texts fits. -/
lemma exists_length_iff : (∃ n, ∀ row ∈ lines title subtitle, row.length = n) ↔
    title.length ≤ 80 ∧ subtitle.length ≤ 80 := by
  have hborder (left right : String) (hleft : left.length = 1) (hright : right.length = 1) :=
    length_border (n := width title subtitle) left right hleft hright
  simp only [forall_mem_lines]
  constructor
  · rintro ⟨n, htop, htitle, hsubtitle, -⟩
    obtain rfl : n = width title subtitle + 2 := htop.symm.trans (hborder _ _ rfl rfl)
    refine ⟨(length_row_iff (.inl rfl)).mp htitle, ?_⟩
    by_cases hempty : subtitle = ""
    · simp [hempty]
    · exact (length_row_iff (.inr rfl)).mp (hsubtitle hempty)
  · rintro ⟨htitle, hsubtitle⟩
    exact ⟨_, hborder _ _ rfl rfl, (length_row_iff (.inl rfl)).mpr htitle,
      fun _ => (length_row_iff (.inr rfl)).mpr hsubtitle, hborder _ _ rfl rfl⟩

lemma notMem_lines (ht : '\n' ∉ title.toList) (hs : '\n' ∉ subtitle.toList) :
    ∀ row ∈ lines title subtitle, '\n' ∉ row.toList := by
  have hcells (count : ℕ) {c : Char} (hc : c ≠ '\n') : '\n' ∉ (cells count c).toList :=
    fun h => hc (mem_cells h).symm
  have hcentered {s : String} (h : '\n' ∉ s.toList) (width : ℕ) :
      '\n' ∉ (centered width s).toList := by
    simp [centered, h, hcells]
  rw [forall_mem_lines]
  simp [hcells, hcentered ht, hcentered hs]

end Box

/-! ### Rectangles -/

/-- A text is a rectangle of rows in the blue of a palette: its lines are the rows, which all have
one length. -/
def IsRectangle (p : Palette) (text : String) : Prop :=
  ∃ rows : List String,
    Text.IsLines text.toList (rows.map fun row => (p.blue ++ row ++ p.plain ++ "\n").toList) ∧
    ∃ n, ∀ row ∈ rows, row.length = n

/-- Rows as they are written in the blue of a palette. -/
def rowsText (p : Palette) (rows : List String) : String :=
  String.join (rows.map fun row => p.blue ++ row ++ p.plain ++ "\n")

lemma isLines_rowsText (on : Bool) (h : ∀ row ∈ rows, '\n' ∉ row.toList) :
    Text.IsLines (rowsText (.ofFlag on) rows).toList (rows.map fun row =>
      ((Palette.ofFlag on).blue ++ row ++ (Palette.ofFlag on).plain ++ "\n").toList) := by
  have hcolors : '\n' ∉ (Palette.ofFlag on).blue.toList ∧
      '\n' ∉ (Palette.ofFlag on).plain.toList := by
    cases on <;> decide
  have hrows : ∀ row ∈ rows.map fun row => (Palette.ofFlag on).blue ++ row ++
      (Palette.ofFlag on).plain, '\n' ∉ row.toList := by
    rw [List.forall_mem_map]
    intro row hrow
    simp [hcolors, h row hrow]
  have hlines := Text.isLines_join hrows
  rwa [List.map_map, List.map_map] at hlines

/-- Rows are a rectangle if they have one length. -/
lemma isRectangle_rowsText_iff (on : Bool) (h : ∀ row ∈ rows, '\n' ∉ row.toList) :
    IsRectangle (.ofFlag on) (rowsText (.ofFlag on) rows) ↔
      ∃ n, ∀ row ∈ rows, row.length = n := by
  have hinjective : Function.Injective fun row : String =>
      ((Palette.ofFlag on).blue ++ row ++ (Palette.ofFlag on).plain ++ "\n").toList := by
    intro row row' hrow
    simpa [String.toList_inj] using hrow
  constructor
  · rintro ⟨rows', hlines, hlength⟩
    have hrows := (Text.isLines_iff.mp hlines).trans
      (Text.isLines_iff.mp (isLines_rowsText on h)).symm
    obtain rfl := List.map_injective_iff.mpr hinjective hrows
    exact hlength
  · intro hlength
    exact ⟨rows, isLines_rowsText on h, hlength⟩

/-! ### Boxes on the console -/

/-- The world once a text is written to the console. -/
def World.shown (text : String) (w : World) : World :=
  { w with console := { w.console with output := w.console.output ++ text } }

namespace Console

/-- A box as it is written in the blue of a palette. -/
def boxText (p : Palette) (title subtitle : String) : String :=
  rowsText p (Box.lines title subtitle)

lemma run_box (title subtitle : String) (w : World) :
    (box title subtitle).run w =
      .ok () (w.shown (boxText (.ofFlag w.console.colored) title subtitle)) := by
  have hpalette : palette.run w = .ok (.ofFlag w.console.colored) w := rfl
  rw [box, Action.run_bind_of_ok hpalette]
  exact run_forM_line (fun row => (Palette.ofFlag w.console.colored).blue ++ row ++
    (Palette.ofFlag w.console.colored).plain) _ w

/-- A box is a rectangle if its title and its subtitle fit into the widest one. -/
lemma isRectangle_boxText_iff (on : Bool) (ht : '\n' ∉ title.toList)
    (hs : '\n' ∉ subtitle.toList) :
    IsRectangle (.ofFlag on) (boxText (.ofFlag on) title subtitle) ↔
      title.length ≤ 80 ∧ subtitle.length ≤ 80 := by
  rw [boxText, isRectangle_rowsText_iff on (Box.notMem_lines ht hs), Box.exists_length_iff]

end Console

namespace Server

variable {reader : ImageReader} {d : Decompiler} {common path : String} {platform : Platform}
  {search : List String}

/-- The title of the box that stands above the recovery of a platform. -/
def heading (platform : Platform) : String := s!"Decompiling {platform.name} server assembly"

lemma heading_fits (platform : Platform) :
    (heading platform).length ≤ 80 ∧ '\n' ∉ (heading platform).toList := by
  cases platform <;> decide

/-- Above the recovery of a platform stands a box with the path of its image. -/
lemma run_recoverPlatform (h : imageLocation common platform = .ok (path, search)) :
    (recoverPlatform reader d common platform).run w =
      (do
        let i ← identify reader path
        discard (Decompiler.run reader d Console.confirm i
          { Decompiler.Options.standard with search }) : Action Unit).run
        (w.shown
          ("\n" ++ Console.boxText (.ofFlag w.console.colored) (heading platform) path)) := by
  have hline : (Console.line "").run w = .ok () (w.shown "\n") := rfl
  have hbox : (Console.box (heading platform) path).run (w.shown "\n") = .ok () (w.shown
      ("\n" ++ Console.boxText (.ofFlag w.console.colored) (heading platform) path)) := by
    rw [Console.run_box]
    simp only [World.shown, String.append_assoc]
  rw [recoverPlatform, h, Action.run_bind_of_ok (Action.run_ofExcept_ok _ _)]
  dsimp only
  rw [Action.run_bind_of_ok hline]
  exact Action.run_bind_of_ok hbox

/-- A box is written below what is on the console, and is a rectangle if and only if its title and
its subtitle have at most 80 characters. The box above the recovery of a platform, which goes on
below it, is one if and only if the path of the image has. -/
theorem boxes_isRectangle_iff (w : World) :
    (∀ title subtitle, '\n' ∉ title.toList → '\n' ∉ subtitle.toList → ∃ text,
      (Console.box title subtitle).run w = .ok () (w.shown text) ∧
      (IsRectangle (.ofFlag w.console.colored) text ↔
        title.length ≤ 80 ∧ subtitle.length ≤ 80)) ∧
    ∀ reader d common platform path search, imageLocation common platform = .ok (path, search) →
      '\n' ∉ path.toList → ∃ text,
        (recoverPlatform reader d common platform).run w =
          (do
            let i ← identify reader path
            discard (Decompiler.run reader d Console.confirm i
              { Decompiler.Options.standard with search }) : Action Unit).run
            (w.shown ("\n" ++ text)) ∧
        (IsRectangle (.ofFlag w.console.colored) text ↔ path.length ≤ 80) := by
  constructor
  · intro title subtitle ht hs
    exact ⟨_, Console.run_box title subtitle w, Console.isRectangle_boxText_iff _ ht hs⟩
  · intro reader d common platform path search hlocation hpath
    obtain ⟨hfits, hunbroken⟩ := heading_fits platform
    refine ⟨_, run_recoverPlatform hlocation, ?_⟩
    rw [Console.isRectangle_boxText_iff _ hunbroken hpath, and_iff_right hfits]

theorem boxes_isRectangle_iff_sample :
    (∃ text, (Console.box "Title" "").run (World.sample [] []) =
      .ok () ((World.sample [] []).shown text) ∧ IsRectangle .colorless text) ∧
    ∃ text, (recoverPlatform (fun _ => .error .noMetadata) (fun _ => pure ()) "/srv/1449"
        .windows).run (World.sample [] []) =
      .error (.file .notFound "/srv/1449/Windows/TerrariaServer.exe" none)
        ((World.sample [] []).shown ("\n" ++ text)) ∧ IsRectangle .colorless text := by
  constructor
  · obtain ⟨text, hrun, hiff⟩ := (boxes_isRectangle_iff (World.sample [] [])).1 "Title" ""
      (by decide) (by decide)
    exact ⟨text, hrun, hiff.mpr (by decide)⟩
  · obtain ⟨text, hrun, hiff⟩ := (boxes_isRectangle_iff (World.sample [] [])).2
      (fun _ => .error .noMetadata) (fun _ => pure ()) "/srv/1449" .windows
      "/srv/1449/Windows/TerrariaServer.exe" [] rfl (by decide)
    exact ⟨text, hrun, hiff.mpr (by decide)⟩

/-- Below a directory without a slash at its end, the path of an image is the directory with an
ending of its platform. -/
lemma exists_imageLocation {steps : List String} {searched : Bool}
    (h : imageDirectory platform = some (steps, searched)) (hne : common ≠ "")
    (hslash : Path.endsInSlash common = false) : ∃ search, imageLocation common platform =
      .ok (common ++ String.join ((steps ++ [imageName]).map ("/" ++ ·)), search) := by
  have hnames : ∀ n ∈ steps ++ [imageName], Path.IsName n := by
    have hall : ∀ n ∈ steps ++ [imageName], n ≠ "" ∧ n ≠ "." ∧ n ≠ ".." ∧ '/' ∉ n.toList := by
      cases platform <;> cases h <;> decide
    intro n hn
    obtain ⟨hempty, hdot, hdots, hno⟩ := hall n hn
    exact ⟨hempty, hdot, hdots, hno⟩
  refine ⟨if searched then [Path.joinAll common steps] else [], ?_⟩
  rw [← Path.joinAll_eq hnames hne hslash, Path.joinAll, List.foldl_concat, imageLocation, h]
  rfl

/-- The path of an image on a Mac is wider than the widest box. -/
theorem box_not_rectangle_sample :
    ∃ path search text, imageLocation "/srv/terraria-server-1449" .mac = .ok (path, search) ∧
      (Console.box (heading .mac) path).run (World.sample [] []) =
        .ok () ((World.sample [] []).shown text) ∧ ¬ IsRectangle .colorless text := by
  obtain ⟨search, hlocation⟩ : ∃ search, imageLocation "/srv/terraria-server-1449" .mac =
      .ok ("/srv/terraria-server-1449/Mac/Terraria Server.app/Contents/MacOS/TerrariaServer.exe",
        search) := by
    have hmac : imageDirectory .mac =
        some (["Mac", "Terraria Server.app", "Contents", "MacOS"], true) := rfl
    have hne : "/srv/terraria-server-1449" ≠ "" := by decide
    simpa [imageName] using exists_imageLocation hmac hne (by decide)
  refine ⟨_, search, _, hlocation, Console.run_box _ _ _, fun h => ?_⟩
  have hunbroken := (heading_fits .mac).2
  have hfits := (Console.isRectangle_boxText_iff false hunbroken (by decide)).mp h
  exact absurd hfits.2 (by decide)

end Server

end SourceRecovery

import SourceRecovery.Decompiler.Basic
import SourceRecovery.Proofs.Files.Operations
import SourceRecovery.Proofs.Project
import SourceRecovery.Proofs.Text.Line

/-!
# Fixing up the project file on disk

The project file is read and decoded before it is opened for writing, so that it is either fixed up
as a whole or not touched. Fixing up puts in no carriage return, so that a file that was fixed up is
read back as the text that was written, and fixing it up again is fixing up that text again.
-/

namespace SourceRecovery.Decompiler

open SourceRecovery.Action SourceRecovery.Path SourceRecovery.Text

variable {output name p : String} {w v : World} {f : File} {s : String}

/-- A path leads to a text: the system can be given the path, there are directories all the way, and
at its end is a file with the encoding of the text. -/
structure LeadsToText (w : World) (p : String) (f : File) (s : String) : Prop where
  plain : IsPlain p
  front : ∀ q ∈ (places w.directory p).dropLast, w.tree.get? q = some .directory
  file : w.tree.get? (destination w.directory p) = some (.file f)
  encoded : f.data = encode s

/-- The file that is at a place gets a content, and nothing else in the world is changed. -/
structure Rewrites (place : List String) (data : Bytes) (w v : World) : Prop where
  onlyTree : w.OnlyTree v
  file : ∃ f, w.tree.get? place = some (.file f) ∧
    v.tree.get? place = some (.file ⟨data, f.executable, w.now⟩)
  others : ∀ q ≠ place, v.tree.get? q = w.tree.get? q

/-! ### Reading -/

lemma endsInSlash_projectPath (output name : String) :
    endsInSlash (projectPath output name) = false := by
  rw [projectPath, join_append (by decide), endsInSlash, String.toList_append]
  simp

/-- Reading a text changes nothing. -/
lemma keeps_readText (p : String) : Keeps (· = ·) (Files.readText p) := by
  refine .bind (Files.keeps_read p) fun data => ?_
  split
  · exact .pure _
  · exact .throwing _

/-- Where a path leads to no text, reading one fails. -/
lemma exists_readText_error (h : ¬ ∃ f s, LeadsToText w p f s) :
    ∃ e, (Files.readText p).run w = .error e w := by
  cases hr : (Files.readText p).run w with
  | ok text v =>
    obtain ⟨-, hplain, hfront, f, decoded, hf, hdecode, -⟩ := Files.readText_eq_ok hr
    exact absurd ⟨f, decoded, hplain, hfront, hf, decode?_eq_some_iff.mp hdecode⟩ h
  | error e v =>
    have hsame : w = v := (keeps_readText p).of_error hr
    exact ⟨e, by rw [← hsame]⟩

lemma LeadsToText.find (h : LeadsToText w (projectPath output name) f s) :
    w.tree.find w.directory (projectPath output name) = .ok (.file f) :=
  FileTree.find_eq_file.mpr ⟨h.plain, h.front, endsInSlash_projectPath _ _, h.file⟩

/-! ### Rewriting -/

/-- The world with another content in the file at a place. -/
def withContent (w : World) (place : List String) (f : File) (data : Bytes) : World :=
  { w with tree := w.tree.put place (.file ⟨data, f.executable, w.now⟩) }

lemma LeadsToText.ne_nil (h : LeadsToText w p f s) : destination w.directory p ≠ [] := by
  intro hnil
  have hfile := h.file
  rw [hnil, FileTree.get?_nil] at hfile
  cases hfile

lemma LeadsToText.rewrites (h : LeadsToText w p f s) (data : Bytes) :
    Rewrites (destination w.directory p) data w
      (withContent w (destination w.directory p) f data) where
  onlyTree := ⟨_, rfl⟩
  file := ⟨f, h.file, FileTree.get?_put_self _ _ h.ne_nil⟩
  others _ hq := FileTree.get?_put_of_ne _ _ hq

/-- The path leads to the text that was written. -/
lemma LeadsToText.withContent (h : LeadsToText w p f s) (t : String) :
    LeadsToText (withContent w (destination w.directory p) f (encode t)) p
      ⟨encode t, f.executable, w.now⟩ t where
  plain := h.plain
  front q hq := by
    have hne : q ≠ destination w.directory p := by
      rintro rfl
      have hdirectory := h.front _ hq
      rw [h.file] at hdirectory
      cases hdirectory
    exact ((h.rewrites (encode t)).others q hne).trans (h.front q hq)
  file := FileTree.get?_put_self _ _ h.ne_nil
  encoded := rfl

/-- A project file that holds a text is fixed up. -/
lemma run_fixUpProject (h : LeadsToText w (projectPath output name) f s) :
    (fixUpProject output name).run w = .ok (projectPath output name)
      (withContent w (destination w.directory (projectPath output name)) f
        (encode (Project.fixUp (withLineFeeds s)))) := by
  have hread : w.tree.read w.directory (projectPath output name) = .ok (encode s) := by
    simp only [FileTree.read, h.find, bind, Except.bind, h.encoded]
  have hwrite : (Files.write (projectPath output name)
      (encode (Project.fixUp (withLineFeeds s)))).run w =
        .ok () (withContent w (destination w.directory (projectPath output name)) f
          (encode (Project.fixUp (withLineFeeds s)))) := by
    rw [Files.run_write, FileTree.write_of_find h.find]
    rfl
  rw [fixUpProject, run_bind_of_ok (Files.run_readText hread), unifyNewlines_eq,
    run_bind_of_ok hwrite]
  rfl

/-! ### Fixing up again -/

lemma not_mem_fixUp (h : '\r' ∉ s.toList) : '\r' ∉ (Project.fixUp s).toList := by
  intro hin
  rcases Project.mem_fixUp hin with hin | hin | hin
  · exact h hin
  · simp [Project.targetFramework] at hin
  · simp [Project.bothReferences, Project.xmlReference, Project.coreReference] at hin

/-- What was written is read back without any newline to be unified. -/
lemma withLineFeeds_fixUp (s : String) :
    withLineFeeds (Project.fixUp (withLineFeeds s)) = Project.fixUp (withLineFeeds s) :=
  withLineFeeds_eq_self (not_mem_fixUp (not_mem_withLineFeeds s))

lemma encode_inj {s t : String} : encode s = encode t ↔ s = t := by
  refine ⟨fun h => ?_, congrArg encode⟩
  rw [← Option.some_inj, ← decode?_encode s, h, decode?_encode]

/-- A project file that cannot be opened or decoded makes fixing up fail, with nothing changed. Any
other one gets, and is all that gets, the encoding of its text with line feeds, fixed up; and fixing
up again succeeds, and leaves these bytes exactly if no client profile is left in them. -/
theorem fixUpProject_exact (output name : String) (w : World) :
    ((¬ ∃ f s, LeadsToText w (projectPath output name) f s) →
      ∃ e, (fixUpProject output name).run w = .error e w) ∧
    ∀ f s, LeadsToText w (projectPath output name) f s →
      ∃ v u data, (fixUpProject output name).run w = .ok (projectPath output name) v ∧
        Rewrites (destination w.directory (projectPath output name))
          (encode (Project.fixUp (withLineFeeds s))) w v ∧
        (fixUpProject output name).run v = .ok (projectPath output name) u ∧
        Rewrites (destination w.directory (projectPath output name)) data v u ∧
        (data = encode (Project.fixUp (withLineFeeds s)) ↔
          ¬ Occurs Project.clientProfile (Project.fixUp (withLineFeeds s))) := by
  refine ⟨fun h => ?_, fun f s h => ?_⟩
  · obtain ⟨e, he⟩ := exists_readText_error h
    exact ⟨e, run_bind_of_error he⟩
  · have hagain := h.withContent (Project.fixUp (withLineFeeds s))
    have hrun := run_fixUpProject hagain
    rw [withLineFeeds_fixUp] at hrun
    refine ⟨_, _, _, run_fixUpProject h, h.rewrites _, hrun, hagain.rewrites _, ?_⟩
    rw [encode_inj]
    exact Project.fixUp_fixUp_iff _

/-- A project file of one empty line, which ends in a carriage return and a line feed. -/
def lineSample : World := World.sample [(["Game.csproj"], .file ⟨encode "\r\n", true, 0⟩)] []

lemma projectPath_sample : projectPath "" "Game" = "Game.csproj" := by decide +kernel

lemma leadsToText_lineSample :
    LeadsToText lineSample (projectPath "" "Game") ⟨encode "\r\n", true, 0⟩ "\r\n" := by
  have hfind : lineSample.tree.find ["w"] "Game.csproj" =
      .ok (.file ⟨encode "\r\n", true, 0⟩) := rfl
  obtain ⟨hplain, hfront, -, hfile⟩ := FileTree.find_eq_file.mp hfind
  rw [projectPath_sample]
  exact ⟨hplain, hfront, hfile, rfl⟩

/-- Where there is no project file, fixing up fails. The line is written with a line feed alone, and
stays so. -/
theorem fixUpProject_exact_sample :
    (∃ e, (fixUpProject "" "Game").run (World.sample [] []) = .error e (World.sample [] [])) ∧
    ∃ v u, (fixUpProject "" "Game").run lineSample = .ok "Game.csproj" v ∧
      Rewrites ["w", "Game.csproj"] (encode "\n") lineSample v ∧
      (fixUpProject "" "Game").run v = .ok "Game.csproj" u ∧
      Rewrites ["w", "Game.csproj"] (encode "\n") v u := by
  have hplace (w : World) (hw : w.directory = ["w"]) :
      destination w.directory (projectPath "" "Game") = ["w", "Game.csproj"] := by
    rw [hw, projectPath_sample]
    decide +kernel
  constructor
  · refine (fixUpProject_exact "" "Game" (World.sample [] [])).1 ?_
    rintro ⟨f, s, h⟩
    have hfile := h.file
    rw [hplace _ rfl] at hfile
    cases hfile
  · obtain ⟨v, u, data, hrun, hrewrites, hagain, hrewrites', hkept⟩ :=
      (fixUpProject_exact "" "Game" lineSample).2 _ _ leadsToText_lineSample
    have hread : withLineFeeds "\r\n" = "\n" := by decide +kernel
    have hfixed : Project.fixUp "\n" = "\n" := by decide +kernel
    have hnone := ((Project.fixUp_eq_self_iff "\n").mp hfixed).1
    rw [hread, hfixed] at hrewrites hkept
    rw [hkept.mpr hnone] at hrewrites'
    rw [hplace _ rfl] at hrewrites hrewrites'
    rw [projectPath_sample] at hrun hagain
    exact ⟨v, u, hrun, hrewrites, hagain, hrewrites'⟩

end SourceRecovery.Decompiler

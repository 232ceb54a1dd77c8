import SourceRecovery.Proofs.Catalog.Loading
import SourceRecovery.Proofs.Console
import SourceRecovery.Proofs.Number.Numeral
import SourceRecovery.Server.Selection

/-!
# The selection of a build

The operator is asked until an answer selects a build. Every answer in front of it is used up with a
menu and a warning of its own, and no answer behind it is touched; without such an answer the input
ends and nothing is selected. The number on a line of the menu selects the build of that line.
-/

namespace SourceRecovery.Server

open SourceRecovery.Action

variable {c : Catalog} {b : Build} {answer : String} {refused answers : List String}
  {left rest : List (Option String)} {w : World}

/-! ### Answers -/

/-- An answer selects a build: without the blanks at its ends it reads as the number of the
build. -/
def Selects (c : Catalog) (answer : String) (b : Build) : Prop :=
  ∃ k : Int, Numeral.read (Text.trim answer) = .ok k ∧ 0 ≤ k ∧ k < c.builds.length ∧
    c.builds[k.toNat]? = some b

/-- The warning about an answer that selects no build. -/
def warning (answer : String) : String :=
  match Numeral.read (Text.trim answer) with
  | .error _ => s!"Not a number: {Text.quote (Text.trim answer)}"
  | .ok _ => s!"Out of range: {Text.trim answer}"

lemma choice_of_selects (h : Selects c answer b) : choice c (Text.trim answer) = .build b := by
  obtain ⟨k, hread, hnonneg, -, hb⟩ := h
  simp only [choice, hread, Catalog.build?, if_neg (Int.not_lt.mpr hnonneg), hb]

lemma choice_ne_build (h : ∀ b, ¬Selects c answer b) (b : Build) :
    choice c (Text.trim answer) ≠ .build b := by
  intro hchoice
  cases hread : Numeral.read (Text.trim answer) with
  | error cause => simp [choice, hread] at hchoice
  | ok k =>
    simp only [choice, hread, Catalog.build?] at hchoice
    split at hchoice
    · rename_i b' hb
      split_ifs at hb with hneg
      have hlt := (List.getElem?_eq_some_iff.mp hb).1
      exact h b' ⟨k, hread, by omega, by omega, hb⟩
    · cases hchoice

lemma warning_of_notNumber (h : choice c (Text.trim answer) = .notNumber) :
    warning answer = s!"Not a number: {Text.quote (Text.trim answer)}" := by
  cases hread : Numeral.read (Text.trim answer) with
  | error cause => simp only [warning, hread]
  | ok k =>
    simp only [choice, hread] at h
    split at h <;> cases h

lemma warning_of_outOfRange (h : choice c (Text.trim answer) = .outOfRange) :
    warning answer = s!"Out of range: {Text.trim answer}" := by
  cases hread : Numeral.read (Text.trim answer) with
  | error cause => simp [choice, hread] at h
  | ok k => simp only [warning, hread]

/-! ### Rounds -/

/-- What is shown in front of an answer: the lines of the menu and the question. -/
def menuText (c : Catalog) : String := String.join ((menu c ++ [buildQuestion]).map (· ++ "\n"))

/-- What is shown for answers that are refused: a menu and a warning for each. -/
def refusalText (p : Palette) (c : Catalog) (refused : List String) : String :=
  String.join (refused.map fun answer => menuText c ++ Console.logText p .warn (warning answer))

/-- The world once some answers were refused and others are left. -/
def refusing (c : Catalog) (refused : List String) (left : List (Option String)) (w : World) :
    World :=
  { w with
    answers := left
    console := { w.console with
      output := w.console.output ++ refusalText (.ofFlag w.console.colored) c refused }
    journal := w.journal ++ List.replicate refused.length (.asked buildQuestion) }

/-- The world once some answers were refused and one more was asked for. -/
def asking (c : Catalog) (refused : List String) (left : List (Option String)) (w : World) :
    World :=
  { w with
    answers := left
    console := { w.console with
      output :=
        w.console.output ++ refusalText (.ofFlag w.console.colored) c refused ++ menuText c }
    journal := w.journal ++ List.replicate (refused.length + 1) (.asked buildQuestion) }

lemma refusing_nil (w : World) : refusing c [] w.answers w = w := by
  simp [refusing, refusalText]

lemma refusing_refusing : refusing c answers left (refusing c [answer] rest w) =
    refusing c (answer :: answers) left w := by
  simp [refusing, refusalText, List.replicate_succ, String.append_assoc]

lemma asking_refusing : asking c [] left (refusing c refused rest w) = asking c refused left w := by
  simp [asking, refusing, refusalText, List.replicate_succ']

/-- A round shows the menu and takes the next answer. -/
lemma run_round (bound : ℕ) (w : World) : (selectWithin c (bound + 1)).run w =
    match w.answers.headD none with
    | none => .error (.declined "no version selected") (asking c [] w.answers.tail w)
    | some answer => match choice c (Text.trim answer) with
      | .build b => .ok b (asking c [] w.answers.tail w)
      | _ => (selectWithin c bound).run (refusing c [answer] w.answers.tail w) := by
  have hask : (Console.ask buildQuestion).run { w with console := { w.console with
      output := w.console.output ++ String.join ((menu c).map (· ++ "\n")) } } =
        .ok (w.answers.headD none) (asking c [] w.answers.tail w) := by
    simp [Console.ask, World.note, Console.line, Console.write, World.nextAnswer, asking,
      refusalText, menuText, String.append_assoc]
  rw [selectWithin, run_bind_of_ok (Console.run_forM_line (fun l => l) (menu c) w),
    run_bind_of_ok hask]
  cases w.answers.headD none with
  | none => rfl
  | some answer =>
    have hwarn (msg : String) (hmsg : warning answer = msg) :
        (Console.warn msg).run (asking c [] w.answers.tail w) =
          .ok () (refusing c [answer] w.answers.tail w) := by
      rw [Console.warn, Console.run_log, ← hmsg]
      simp [asking, refusing, refusalText, Console.logged, String.append_assoc]
    dsimp only
    cases hchoice : choice c (Text.trim answer) with
    | build b => rfl
    | notNumber => exact run_bind_of_ok (hwarn _ (warning_of_notNumber hchoice))
    | outOfRange => exact run_bind_of_ok (hwarn _ (warning_of_outOfRange hchoice))

/-- Answers that select nothing are refused one after another. -/
lemma run_selectWithin_refusing (hrefused : ∀ answer ∈ refused, ∀ b, ¬Selects c answer b)
    (hw : w.answers = refused.map some ++ left) (bound : ℕ) :
    (selectWithin c (refused.length + bound)).run w =
      (selectWithin c bound).run (refusing c refused left w) := by
  induction refused generalizing w with
  | nil =>
    rw [List.map_nil, List.nil_append] at hw
    rw [← hw, refusing_nil, List.length_nil, Nat.zero_add]
  | cons answer refused ih =>
    have hfirst := choice_ne_build (hrefused answer (.head _))
    have hround : (selectWithin c (refused.length + bound + 1)).run w =
        (selectWithin c (refused.length + bound)).run
          (refusing c [answer] (refused.map some ++ left) w) := by
      rw [run_round, hw, List.map_cons, List.cons_append, List.headD_cons, List.tail_cons]
      dsimp only
      cases hchoice : choice c (Text.trim answer) with
      | build b => exact absurd hchoice (hfirst b)
      | notNumber => rfl
      | outOfRange => rfl
    rw [List.length_cons, Nat.add_right_comm, hround,
      ih (fun a ha => hrefused a (.tail _ ha)) rfl, refusing_refusing]

/-- The bound on the rounds leaves one for each answer and one more. -/
lemma run_select_refusing (hrefused : ∀ answer ∈ refused, ∀ b, ¬Selects c answer b)
    (hw : w.answers = refused.map some ++ left) :
    (select c).run w = (selectWithin c (left.length + 1)).run (refusing c refused left w) := by
  have hbound : w.answers.length + 1 = refused.length + (left.length + 1) := by
    simp [hw, Nat.add_assoc]
  have hselect : (select c).run w = (selectWithin c (w.answers.length + 1)).run w := rfl
  rw [hselect, hbound, run_selectWithin_refusing hrefused hw]

/-- The first answer that selects a build ends the selection. -/
lemma run_select_of_selects (hrefused : ∀ answer ∈ refused, ∀ b, ¬Selects c answer b)
    (hb : Selects c answer b) (hw : w.answers = refused.map some ++ some answer :: left) :
    (select c).run w = .ok b (asking c refused left w) := by
  rw [run_select_refusing hrefused hw, run_round]
  simp only [refusing, List.headD_cons, List.tail_cons, choice_of_selects hb]
  exact congrArg _ asking_refusing

/-- Where no answer selects a build, the selection ends with the input. -/
lemma run_select_of_closed (hrefused : ∀ answer ∈ refused, ∀ b, ¬Selects c answer b)
    (hleft : left.headD none = none) (hw : w.answers = refused.map some ++ left) :
    (select c).run w = .error (.declined "no version selected") (asking c refused left.tail w) := by
  rw [run_select_refusing hrefused hw, run_round]
  simp only [refusing, hleft]
  exact congrArg _ asking_refusing

/-! ### The numbers of the menu -/

/-- The number on a line of the menu: what stands in front of the point, without blanks. -/
def numberOn (line : String) : String :=
  Text.trim (String.ofList (line.toList.takeWhile (· ≠ '.')))

lemma numberOn_menuLine (i : ℕ) (b : Build) : numberOn (menuLine i b) = i.repr := by
  have hline : (menuLine i b).toList = (Box.cells (3 - i.repr.length) ' ' ++ i.repr).toList ++
      '.' :: ("    " ++ rightAligned 6 b.version).toList := by
    simp [menuLine, rightAligned, toString]
  have hpoint : ∀ ch ∈ (Box.cells (3 - i.repr.length) ' ' ++ i.repr).toList,
      decide (ch ≠ '.') = true := by
    intro ch hch
    rw [String.toList_append, List.mem_append] at hch
    rcases hch with hch | hch
    · rw [Box.cells, String.toList_ofList] at hch
      rw [List.eq_of_mem_replicate hch]
      rfl
    · have hdigit := Numeral.isDigit_of_mem_repr hch
      refine decide_eq_true fun hdot => ?_
      rw [hdot] at hdigit
      exact absurd hdigit (by decide)
  have hnumber : numberOn (menuLine i b) =
      Text.trim (Box.cells (3 - i.repr.length) ' ' ++ i.repr ++ "") := by
    rw [numberOn, hline, List.takeWhile_append_of_pos hpoint, List.takeWhile_cons_of_neg (by simp),
      List.append_nil, String.ofList_toList, String.append_empty]
  rw [hnumber]
  refine Text.trim_append (fun ch hch => ?_) (by simp) fun ch hch =>
    Text.isBlank_of_isDigit (Numeral.isDigit_of_mem_repr hch)
  rw [Box.cells, String.toList_ofList] at hch
  rw [List.eq_of_mem_replicate hch]
  rfl

lemma getElem?_menu {i : ℕ} (hb : c.builds[i]? = some b) :
    (menu c)[i + 1]? = some (menuLine i b) := by
  simp [menu, hb]

/-- The number on a line of the menu selects the build of that line, with any blanks around it. -/
lemma selects_numberOn {i : ℕ} {before after : String} (hb : c.builds[i]? = some b)
    (hlength : i.repr.length ≤ Numeral.maxDigits)
    (hbefore : ∀ ch ∈ before.toList, Text.isBlank ch = true)
    (hafter : ∀ ch ∈ after.toList, Text.isBlank ch = true) :
    Selects c (before ++ numberOn (menuLine i b) ++ after) b := by
  have hlt := (List.getElem?_eq_some_iff.mp hb).1
  refine ⟨i, ?_, Int.natCast_nonneg i, by exact_mod_cast hlt, by rwa [Int.toNat_natCast]⟩
  rw [numberOn_menuLine, Text.trim_append hbefore hafter fun ch hch =>
    Text.isBlank_of_isDigit (Numeral.isDigit_of_mem_repr hch), Numeral.read_repr hlength]

/-- The numbers of a catalog that was accepted are short enough to be read. -/
lemma length_repr_le_of_ofJson {data : Json} {urlTemplate : Option String}
    (h : Catalog.ofJson data urlTemplate = .ok c) {i : ℕ} (hi : i < c.builds.length) :
    i.repr.length ≤ Numeral.maxDigits := by
  obtain ⟨ms, rfl⟩ : ∃ ms, data = .object ms := by
    cases data with
    | object ms => exact ⟨ms, rfl⟩
    | _ => cases h
  obtain ⟨⟨entries, -, -, hbuilds⟩, -⟩ := Catalog.ofJson_eq_ok.mp h
  obtain ⟨hlength, hnumbered⟩ := Catalog.exists_numbered_of_buildsOf hbuilds
  obtain ⟨key, v, b, hkey, -⟩ := hnumbered i (hlength ▸ hi)
  have hmem : (key, v) ∈ Catalog.numbered entries (i : Int) := by simp [hkey]
  have hread : Numeral.read key = .ok (i : Int) := of_decide_eq_true (List.mem_filter.mp hmem).2
  have hdigits := Numeral.length_repr_le_of_read hread
  rwa [Int.natAbs_natCast] at hdigits

/-- Given lines up to where the input is closed, the first of them that selects a build ends the
selection with that build: under a menu for each line so far and a warning for each in front of it,
and with the lines behind it left. Without such a line all of them are used up, and the selection is
declined under one more menu. The number on a line of the menu selects the build of that line, as
far as it can be read, which holds for all numbers of a catalog that was accepted. -/
theorem select_exact (c : Catalog) {lines : List String} (hw : w.answers = lines.map some ++ rest)
    (hclosed : rest.headD none = none) :
    (∀ front answer back b, lines = front ++ answer :: back →
      (∀ a ∈ front, ∀ b, ¬Selects c a b) → Selects c answer b →
      (select c).run w = .ok b (asking c front (back.map some ++ rest) w)) ∧
    ((∀ a ∈ lines, ∀ b, ¬Selects c a b) →
      (select c).run w =
        .error (.declined "no version selected") (asking c lines rest.tail w)) ∧
    (∀ i b, c.builds[i]? = some b → i.repr.length ≤ Numeral.maxDigits →
      ∃ line, (menu c)[i + 1]? = some line ∧ ∀ before after : String,
        (∀ ch ∈ before.toList, Text.isBlank ch = true) →
        (∀ ch ∈ after.toList, Text.isBlank ch = true) →
        Selects c (before ++ numberOn line ++ after) b) ∧
    ∀ data urlTemplate, Catalog.ofJson data urlTemplate = .ok c →
      ∀ i < c.builds.length, i.repr.length ≤ Numeral.maxDigits := by
  refine ⟨fun front answer back b hlines hfront hb => ?_, fun hnone => ?_, fun i b hb hlength => ?_,
    fun data urlTemplate h i hi => length_repr_le_of_ofJson h hi⟩
  · apply run_select_of_selects hfront hb
    simp [hw, hlines]
  · exact run_select_of_closed hnone hclosed hw
  · exact ⟨menuLine i b, getElem?_menu hb, fun before after => selects_numberOn hb hlength⟩

/-- A catalog of two builds. -/
def twoBuilds : Catalog := ⟨[⟨"1423", none⟩, ⟨"1449", some 36⟩], .text "u", .text "f"⟩

theorem select_exact_sample :
    (select twoBuilds).run (World.sample [] [some "abc", some "-1", some " 1\t", some "0"]) =
      .ok ⟨"1449", some 36⟩ (asking twoBuilds ["abc", "-1"] [some "0"]
        (World.sample [] [some "abc", some "-1", some " 1\t", some "0"])) ∧
    (select twoBuilds).run (World.sample [] [some "abc", none, some "0"]) =
      .error (.declined "no version selected") (asking twoBuilds ["abc"] [some "0"]
        (World.sample [] [some "abc", none, some "0"])) ∧
    ∃ line, (menu twoBuilds)[2]? = some line ∧
      Selects twoBuilds (" " ++ numberOn line ++ "\t") ⟨"1449", some 36⟩ := by
  have hword (b : Build) : ¬Selects twoBuilds "abc" b := by
    rintro ⟨k, hread, -⟩
    have hmalformed : Numeral.read (Text.trim "abc") = .error (.malformed "abc") := by decide
    cases hmalformed.symm.trans hread
  have hnegative (b : Build) : ¬Selects twoBuilds "-1" b := by
    rintro ⟨k, hread, hnonneg, -⟩
    have hminus : Numeral.read (Text.trim "-1") = .ok (-1) := by decide
    cases hminus.symm.trans hread
    exact absurd hnonneg (by decide)
  have hone : Selects twoBuilds " 1\t" ⟨"1449", some 36⟩ :=
    ⟨1, by decide, by decide, by decide, rfl⟩
  have hfound : (World.sample [] [some "abc", some "-1", some " 1\t", some "0"]).answers =
      ["abc", "-1", " 1\t", "0"].map some ++ [] := rfl
  have hclosed : (World.sample [] [some "abc", none, some "0"]).answers =
      ["abc"].map some ++ [none, some "0"] := rfl
  refine ⟨?_, ?_, ?_⟩
  · refine (select_exact twoBuilds hfound rfl).1 ["abc", "-1"] " 1\t" ["0"] _ rfl (fun a ha b => ?_)
      hone
    simp only [List.mem_cons, List.not_mem_nil, or_false] at ha
    rcases ha with rfl | rfl
    · exact hword b
    · exact hnegative b
  · refine (select_exact twoBuilds hclosed rfl).2.1 fun a ha b => ?_
    obtain rfl := List.mem_singleton.mp ha
    exact hword b
  · obtain ⟨line, hline, hselects⟩ := (select_exact twoBuilds hclosed rfl).2.2.1 1
      ⟨"1449", some 36⟩ rfl (by decide)
    have hspace : ∀ ch ∈ " ".toList, Text.isBlank ch = true := by
      simp only [String.reduceToList, List.mem_singleton, forall_eq]
      decide
    have htab : ∀ ch ∈ "\t".toList, Text.isBlank ch = true := by
      simp only [String.reduceToList, List.mem_singleton, forall_eq]
      decide
    exact ⟨line, hline, hselects " " "\t" hspace htab⟩

end SourceRecovery.Server

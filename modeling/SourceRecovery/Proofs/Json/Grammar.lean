import Mathlib.Data.List.Basic
import SourceRecovery.Json.Reader
import SourceRecovery.Text.Line

/-!
# The grammar of catalog files

The texts that write a value, told rule by rule and apart from the reader: `Writes d cs v` says
that the characters `cs` write the value `v` with containers nested at most `d` deep. White space
stands around the marks of a container, and the same value is written however the newlines in it
are.
-/

namespace SourceRecovery.Json

/-! ### White space -/

/-- Characters that are white space, if there are any. -/
def IsBlank (cs : List Char) : Prop := ∀ c ∈ cs, isSpace c = true

/-- The end of a value: nothing follows, or what follows belongs to no value. -/
def Ends (rest : List Char) : Prop :=
  ∀ c ∈ rest.head?, isSpace c = true ∨ c = ',' ∨ c = ']' ∨ c = '}'

lemma isBlank_nil : IsBlank [] := by simp [IsBlank]

/-- White space in front of a mark that ends a value is an end too. -/
lemma IsBlank.ends {blanks rest : List Char} (h : IsBlank blanks) (hr : Ends rest) :
    Ends (blanks ++ rest) := by
  cases blanks with
  | nil => exact hr
  | cons b blanks =>
    rintro c ⟨⟩
    exact .inl (h b (.head _))

/-- Skipping white space stops at what is none. -/
lemma skipSpace_append {blanks rest : List Char} (h : IsBlank blanks)
    (hr : ∀ c ∈ rest.head?, isSpace c = false) : skipSpace (blanks ++ rest) = rest := by
  rw [skipSpace, List.dropWhile_append_of_pos h]
  cases rest with
  | nil => rfl
  | cons c rest => simp [hr c rfl]

lemma skipSpace_cons {blanks rest : List Char} {c : Char} (h : IsBlank blanks)
    (hc : isSpace c = false) : skipSpace (blanks ++ c :: rest) = c :: rest := by
  refine skipSpace_append h ?_
  rintro _ ⟨⟩
  exact hc

/-! ### Texts -/

/-- What the characters between the quotes of a text stand for: most for themselves, an escape for
the character of its letter or of its code. -/
inductive Spells : List Char → List Char → Prop
  | nil : Spells [] []
  | plain {c : Char} {cs ds : List Char} (hc : 0x20 ≤ c.toNat) (hquote : c ≠ '"')
      (hescape : c ≠ '\\') (h : Spells cs ds) : Spells (c :: cs) (c :: ds)
  | letter {l c : Char} {cs ds : List Char} (hl : escaped? l = some c) (h : Spells cs ds) :
      Spells ('\\' :: l :: cs) (c :: ds)
  | code {a b c d : Char} {n : ℕ} {cs ds : List Char} (hn : hexValue4? a b c d = some n)
      (h : Spells cs ds) : Spells ('\\' :: 'u' :: a :: b :: c :: d :: cs) (ofCode n :: ds)

/-- A text in quotes. -/
inductive IsQuoted : List Char → String → Prop
  | mk {inside ds : List Char} (h : Spells inside ds) :
      IsQuoted ('"' :: (inside ++ ['"'])) (String.ofList (joinPairs ds))

/-- Whether a character stands for itself between quotes. -/
def isOrdinary (c : Char) : Bool := 0x20 ≤ c.toNat && c ≠ '"' && c ≠ '\\'

lemma spells_self {cs : List Char} (h : cs.all isOrdinary = true) : Spells cs cs := by
  induction cs with
  | nil => exact .nil
  | cons c cs ih =>
    simp only [List.all_cons, isOrdinary, Bool.and_eq_true, decide_eq_true_eq] at h
    obtain ⟨⟨⟨hc, hquote⟩, hescape⟩, hcs⟩ := h
    exact .plain hc hquote hescape (ih hcs)

/-- A text of ordinary characters without halves of pairs is written as it is. -/
lemma isQuoted_of_ordinary {s : String} (h : s.toList.all isOrdinary = true)
    (hpairs : joinPairs s.toList = s.toList) : IsQuoted ('"' :: (s.toList ++ ['"'])) s := by
  have hquoted := IsQuoted.mk (spells_self h)
  rwa [hpairs, String.ofList_toList] at hquoted

/-! ### Numbers -/

def IsDigits (ds : List Char) : Prop := ds ≠ [] ∧ ∀ d ∈ ds, d.isDigit = true

/-- The digits of a whole number: a zero only stands on its own in front. -/
def IsWhole (ds : List Char) : Prop := IsDigits ds ∧ (ds.head? = some '0' → ds = ['0'])

/-- The sign of a number. -/
def minus (negative : Bool) : List Char := if negative then ['-'] else []

/-- A point with decimal places, or neither. -/
inductive IsFraction : List Char → List Char → Prop
  | absent : IsFraction [] []
  | point {places : List Char} (h : IsDigits places) : IsFraction ('.' :: places) places

/-- A power of ten, or none. -/
inductive IsPower : List Char → Int → Prop
  | absent : IsPower [] 0
  | bare {e : Char} {ds : List Char} (he : e = 'e' ∨ e = 'E') (h : IsDigits ds) :
      IsPower (e :: ds) (ofDigits ds)
  | positive {e : Char} {ds : List Char} (he : e = 'e' ∨ e = 'E') (h : IsDigits ds) :
      IsPower (e :: '+' :: ds) (ofDigits ds)
  | negative {e : Char} {ds : List Char} (he : e = 'e' ∨ e = 'E') (h : IsDigits ds) :
      IsPower (e :: '-' :: ds) (-ofDigits ds)

/-- A number. One without a fraction and a power is an integer, and has no more digits than a
numeral may have. -/
inductive IsNumber : List Char → Json → Prop
  | int {negative : Bool} {whole : List Char} (h : IsWhole whole)
      (hl : whole.length ≤ Numeral.maxDigits) :
      IsNumber (minus negative ++ whole)
        (.int (if negative then -(ofDigits whole : Int) else ofDigits whole))
  | real {negative : Bool} {whole point places power : List Char} {shift : Int}
      (h : IsWhole whole) (hpoint : IsFraction point places) (hpower : IsPower power shift)
      (hne : point ≠ [] ∨ power ≠ []) :
      IsNumber (minus negative ++ (whole ++ (point ++ power)))
        (.real (decimal negative (ofDigits (whole ++ places)) (shift - places.length)))

/-! ### Values -/

/-- A value that is no container. -/
inductive IsSimple : List Char → Json → Prop
  | text {cs : List Char} {s : String} (h : IsQuoted cs s) : IsSimple cs (.text s)
  | number {cs : List Char} {v : Json} (h : IsNumber cs v) : IsSimple cs v
  | word {cs : List Char} {v : Json} (h : (cs, v) ∈ words) : IsSimple cs v

/-- Parts with commas between them, up to the mark that closes their container. -/
inductive IsSequence {α : Type} (W : List Char → α → Prop) : List Char → List α → Prop
  | last {cs blanks : List Char} {a : α} (h : W cs a) (hb : IsBlank blanks) :
      IsSequence W (cs ++ blanks) [a]
  | cons {cs before after rest : List Char} {a : α} {as : List α} (h : W cs a)
      (hbefore : IsBlank before) (hafter : IsBlank after) (hrest : IsSequence W rest as) :
      IsSequence W (cs ++ (before ++ ',' :: (after ++ rest))) (a :: as)

/-- A member of an object: its name, a colon and its value. -/
inductive IsMember (W : List Char → Json → Prop) : List Char → String × Json → Prop
  | mk {quoted before after cs : List Char} {name : String} {v : Json} (hn : IsQuoted quoted name)
      (hbefore : IsBlank before) (hafter : IsBlank after) (h : W cs v) :
      IsMember W (quoted ++ (before ++ ':' :: (after ++ cs))) (name, v)

/-- A value whose parts are written as `W` says. -/
inductive IsLayer (W : List Char → Json → Prop) : List Char → Json → Prop
  | simple {cs : List Char} {v : Json} (h : IsSimple cs v) : IsLayer W cs v
  | noItems {blanks : List Char} (hb : IsBlank blanks) :
      IsLayer W ('[' :: (blanks ++ [']'])) (.list [])
  | items {blanks cs : List Char} {vs : List Json} (hb : IsBlank blanks)
      (h : IsSequence W cs vs) : IsLayer W ('[' :: (blanks ++ (cs ++ [']']))) (.list vs)
  | noMembers {blanks : List Char} (hb : IsBlank blanks) :
      IsLayer W ('{' :: (blanks ++ ['}'])) (.object [])
  | members {blanks cs : List Char} {ms : List (String × Json)} (hb : IsBlank blanks)
      (h : IsSequence (IsMember W) cs ms) :
      IsLayer W ('{' :: (blanks ++ (cs ++ ['}']))) (.object ms)

/-- The characters write the value, with containers nested at most to a depth. -/
def Writes : ℕ → List Char → Json → Prop
  | 0 => IsSimple
  | depth + 1 => IsLayer (Writes depth)

/-- The text of a value, with white space around it. -/
def IsText (s : String) (v : Json) : Prop :=
  ∃ before cs after, IsBlank before ∧ Writes maxDepth cs v ∧ IsBlank after ∧
    s.toList = before ++ (cs ++ after)

/-! ### How texts start -/

lemma IsQuoted.head? {cs : List Char} {s : String} (h : IsQuoted cs s) : cs.head? = some '"' := by
  cases h
  rfl

lemma IsWhole.exists_head? {ds : List Char} (h : IsWhole ds) :
    ∃ d, ds.head? = some d ∧ d.isDigit = true := by
  obtain ⟨⟨hne, hd⟩, -⟩ := h
  cases ds with
  | nil => exact absurd rfl hne
  | cons d ds => exact ⟨d, rfl, hd d (.head _)⟩

/-- A character that may start a value: no white space, no mark that closes a container and no
byte order mark. -/
def Starts (c : Char) : Prop := isSpace c = false ∧ c ≠ ']' ∧ c ≠ '}' ∧ c ≠ '\uFEFF'

lemma starts_of_isDigit {c : Char} (h : c.isDigit = true) : Starts c := by
  refine ⟨?_, ?_, ?_, ?_⟩
  · by_contra hs
    simp only [isSpace, Bool.not_eq_false, Bool.or_eq_true, decide_eq_true_eq] at hs
    rcases hs with ((rfl | rfl) | rfl) | rfl <;> simp at h
  all_goals
    rintro rfl
    simp at h

/-- What a number starts with: a digit, or a minus and then a digit. -/
lemma IsNumber.exists_cons {cs : List Char} {v : Json} (h : IsNumber cs v) :
    ∃ negative d ds, cs = minus negative ++ d :: ds ∧ d.isDigit = true := by
  have key : ∀ (negative : Bool) {whole : List Char} (rest : List Char), IsWhole whole →
      ∃ d ds, minus negative ++ (whole ++ rest) = minus negative ++ d :: ds ∧
        d.isDigit = true := by
    intro negative whole rest hw
    obtain ⟨d, hd, hdigit⟩ := hw.exists_head?
    obtain ⟨ds, rfl⟩ := List.head?_eq_some_iff.mp hd
    exact ⟨d, ds ++ rest, rfl, hdigit⟩
  cases h with
  | @int negative whole hw =>
    obtain ⟨d, ds, heq, hd⟩ := key negative [] hw
    exact ⟨negative, d, ds, by simpa using heq, hd⟩
  | @real negative whole point places power shift hw =>
    obtain ⟨d, ds, heq, hd⟩ := key negative (point ++ power) hw
    exact ⟨negative, d, ds, heq, hd⟩

/-- The words by their characters. -/
lemma words_eq : words =
    [(['n', 'u', 'l', 'l'], .null), (['t', 'r', 'u', 'e'], .bool true),
      (['f', 'a', 'l', 's', 'e'], .bool false), (['N', 'a', 'N'], .real .undefined),
      (['I', 'n', 'f', 'i', 'n', 'i', 't', 'y'], .real (.infinite false)),
      (['-', 'I', 'n', 'f', 'i', 'n', 'i', 't', 'y'], .real (.infinite true))] := by
  simp [words]

lemma IsSimple.exists_head? {cs : List Char} {v : Json} (h : IsSimple cs v) :
    ∃ c, cs.head? = some c ∧ Starts c := by
  cases h with
  | text h => exact ⟨'"', h.head?, by simp [Starts, isSpace]⟩
  | number h =>
    obtain ⟨negative, d, ds, rfl, hd⟩ := h.exists_cons
    cases negative with
    | true => exact ⟨'-', rfl, by simp [Starts, isSpace]⟩
    | false => exact ⟨d, rfl, starts_of_isDigit hd⟩
  | word h =>
    have hwords : ∀ w ∈ words, ∃ c, w.1.head? = some c ∧ Starts c := by
      simp [words_eq, Starts, isSpace]
    exact hwords _ h

lemma Writes.exists_head? {depth : ℕ} {cs : List Char} {v : Json} (h : Writes depth cs v) :
    ∃ c, cs.head? = some c ∧ Starts c := by
  cases depth with
  | zero => exact IsSimple.exists_head? h
  | succ depth =>
    cases h with
    | simple h => exact h.exists_head?
    | noItems | items => exact ⟨'[', rfl, by simp [Starts, isSpace]⟩
    | noMembers | members => exact ⟨'{', rfl, by simp [Starts, isSpace]⟩

/-- Parts that each start with a character that starts a value. -/
def IsStarting {α : Type} (W : List Char → α → Prop) : Prop :=
  ∀ ⦃cs a⦄, W cs a → ∃ c, cs.head? = some c ∧ Starts c

lemma isStarting_writes (depth : ℕ) : IsStarting (Writes depth) := fun _ _ => Writes.exists_head?

lemma isStarting_isMember (W : List Char → Json → Prop) : IsStarting (IsMember W) := by
  rintro _ _ ⟨⟨_⟩, _, _, _⟩
  exact ⟨'"', rfl, by simp [Starts, isSpace]⟩

variable {α : Type} {W : List Char → α → Prop} {cs : List Char} {as : List α}

lemma IsSequence.exists_head? (h : IsSequence W cs as) (hW : IsStarting W) :
    ∃ c, cs.head? = some c ∧ Starts c := by
  cases h with
  | last h | cons h =>
    obtain ⟨c, hc, hs⟩ := hW h
    exact ⟨c, by simp [List.head?_append, hc], hs⟩

/-- Each of the parts takes at least one character. -/
lemma IsSequence.length_le (h : IsSequence W cs as) (hW : IsStarting W) :
    as.length ≤ cs.length := by
  induction h with
  | @last cs blanks a h hb =>
    obtain ⟨c, hc, -⟩ := hW h
    obtain ⟨tail, rfl⟩ := List.head?_eq_some_iff.mp hc
    simp
  | @cons cs before after rest a as h hbefore hafter hrest ih =>
    simp only [List.length_append, List.length_cons]
    omega

/-- White space is skipped up to where parts start. -/
lemma skipSpace_of_starts {blanks : List Char} (rest : List Char) (hb : IsBlank blanks)
    (h : ∃ c, cs.head? = some c ∧ Starts c) : skipSpace (blanks ++ (cs ++ rest)) = cs ++ rest := by
  refine skipSpace_append hb fun c hc => ?_
  obtain ⟨d, hd, hs⟩ := h
  simp only [List.head?_append, hd, Option.some_or, Option.mem_def, Option.some.injEq] at hc
  exact hc ▸ hs.1

end SourceRecovery.Json

import SourceRecovery.Proofs.Failing
import SourceRecovery.Proofs.Number.Rounding
import SourceRecovery.Template.Expansion

/-!
# Templates that overreach

A template can be well formed and still not be expanded: it may ask for a part that a value lacks,
or for a form that a number or an object does not fit. Such a template fails where a flawed one is
told what is wrong with it. What fails is the first field from the left that cannot be replaced, in
the template itself or in the format of a field.
-/

namespace SourceRecovery.Template

variable {values : Values} {name format cs : List Char} {v : Value} {n : Int} {spec : FormatSpec}

/-- A failure that is not a flaw of the template. -/
def Unflawed (e : Failure) : Prop := ∀ flaw, e ≠ .flawed flaw

@[simp] lemma not_unflawed (flaw : Flaw) : ¬ Unflawed (.flawed flaw) := fun h => h flaw rfl

@[simp] lemma not_failsWith_orFlawed {α : Type} (r : Except Flaw α) :
    ¬ FailsWith Unflawed (orFlawed r) := by
  cases r <;> simp [orFlawed]

lemma orFlawed_eq_ok {α : Type} {r : Except Flaw α} {a : α} : orFlawed r = .ok a ↔ r = .ok a := by
  cases r <;> simp [orFlawed]

/-! ### Forms of numbers -/

/-- A number exceeds a specification: it is to be a character and has none, or it is to be shown
in double precision and is beyond its range. -/
inductive Exceeds (n : Int) (spec : FormatSpec) : Prop
  | character (htype : spec.type = 'c') (hprecision : spec.precision = none)
      (hzero : spec.zeroSign = false) (hsign : spec.sign = none)
      (halternate : spec.alternate = false) (h : n < 0 ∨ 0x10FFFF < n)
  | real (htype : spec.type ∈ ['e', 'E', 'f', 'F', 'g', 'G', '%'])
      (hprecision : spec.precision.getD 0 ≤ 0x7FFFFFFF) (h : Binary64.ceiling ≤ n.natAbs)

lemma failsWith_renderCharacter : FailsWith Unflawed (renderCharacter spec n) ↔
    spec.sign = none ∧ spec.alternate = false ∧ (n < 0 ∨ 0x10FFFF < n) := by
  unfold renderCharacter
  cases hs : spec.sign with
  | some style => simp
  | none =>
    cases ha : spec.alternate with
    | true => simp
    | false => by_cases h : n < 0 ∨ 0x10FFFF < n <;> simp [h, Unflawed]

lemma failsWith_renderReal : FailsWith Unflawed (renderReal spec n) ↔
    spec.precision.getD 0 ≤ 0x7FFFFFFF ∧ Binary64.ceiling ≤ n.natAbs := by
  have hrange := Binary64.isSome_quotient?_iff n Nat.one_pos
  rw [Nat.mul_one] at hrange
  unfold renderReal Binary64.ofInt?
  by_cases hp : spec.precision.getD 0 > 0x7FFFFFFF
  · simp [hp]
  · cases hq : Binary64.quotient? n 1 with
    | none =>
      have hbeyond : Binary64.ceiling ≤ n.natAbs := by simpa [hq] using hrange
      simp [hp, hbeyond, Unflawed, not_lt.mp hp]
    | some x =>
      have hwithin : n.natAbs < Binary64.ceiling := by simpa [hq] using hrange
      simp [hp, not_le.mpr hwithin]

lemma exceeds_iff : Exceeds n spec ↔
    spec.type = 'c' ∧ spec.precision = none ∧ spec.zeroSign = false ∧
        FailsWith Unflawed (renderCharacter spec n) ∨
      spec.type ∈ ['e', 'E', 'f', 'F', 'g', 'G', '%'] ∧ FailsWith Unflawed (renderReal spec n) := by
  rw [failsWith_renderCharacter, failsWith_renderReal]
  constructor
  · rintro (⟨ht, hp, hz, hs, ha, h⟩ | ⟨ht, hp, h⟩)
    · exact .inl ⟨ht, hp, hz, hs, ha, h⟩
    · exact .inr ⟨ht, hp, h⟩
  · rintro (⟨ht, hp, hz, hs, ha, h⟩ | ⟨ht, hp, h⟩)
    · exact .character ht hp hz hs ha h
    · exact .real ht hp h

/-- What an integer format does not admit is a flaw, in front of whatever is laid out. -/
lemma failsWith_asInteger {laidOut : Except Failure (List Char)} :
    FailsWith Unflawed (if spec.precision.isSome then .error (.flawed .precisionOnNumber)
      else if spec.zeroSign then .error (.flawed .zeroSignOnNumber) else laidOut) ↔
    spec.precision = none ∧ spec.zeroSign = false ∧ FailsWith Unflawed laidOut := by
  cases spec.precision with
  | some places => simp
  | none => cases spec.zeroSign <;> simp

@[simp] lemma not_failsWith_renderDecimal : ¬ FailsWith Unflawed (renderDecimal spec n) := by
  unfold renderDecimal
  cases Numeral.write n <;> simp

lemma failsWith_renderNumber : FailsWith Unflawed (renderNumber spec n) ↔ Exceeds n spec := by
  rw [exceeds_iff]
  unfold renderNumber
  dsimp only
  split
  all_goals simp_all [failsWith_asInteger]

@[simp] lemma not_failsWith_digitsOf : ¬ FailsWith Unflawed (digitsOf n) := by
  unfold digitsOf
  cases Numeral.write n <;> simp

/-! ### Parts of values -/

lemma hasMember_of_numberMember? {m : Int} (h : numberMember? n name = some m) :
    Kind.number.hasMember name = true := by
  unfold numberMember? at h
  split_ifs at h with hreal himag hone
  · rcases hreal with rfl | rfl <;> decide +kernel
  · rw [himag]
    decide +kernel
  · rw [hone]
    decide +kernel

variable [Objects]

/-- A value lacks the part that a step leads to: a text or a number has the members of its kind
only and no keys, and a number has nothing that is counted. Of an object it is known. -/
inductive Lacks : Value → Access → Prop
  | textMember (cs : List Char) {name : List Char} (h : Kind.text.hasMember name = false) :
      Lacks (.text cs) (.member name)
  | textKey (cs name : List Char) : Lacks (.text cs) (.key name)
  | numberMember (n : Int) {name : List Char} (h : Kind.number.hasMember name = false) :
      Lacks (.number n) (.member name)
  | numberIndex (n : Int) (i : ℕ) : Lacks (.number n) (.index i)
  | numberKey (n : Int) (name : List Char) : Lacks (.number n) (.key name)
  | object {id : ℕ} {step : Access} (h : FailsWith Unflawed (Objects.part id step)) :
      Lacks (.object id) step

lemma failsWith_numberMember : FailsWith Unflawed ((Value.number n).part (.member name)) ↔
    Kind.number.hasMember name = false := by
  cases hnumber : numberMember? n name with
  | some m => simp [Value.part, hnumber, hasMember_of_numberMember? hnumber]
  | none => cases h : Kind.number.hasMember name <;> simp [Value.part, hnumber, h, Unflawed]

lemma failsWith_textMember : FailsWith Unflawed ((Value.text cs).part (.member name)) ↔
    Kind.text.hasMember name = false := by
  cases h : Kind.text.hasMember name <;> simp [Value.part, h, Unflawed]

lemma failsWith_part {step : Access} : FailsWith Unflawed (v.part step) ↔ Lacks v step := by
  constructor
  · intro h
    cases v with
    | text cs =>
      cases step with
      | member name => exact .textMember cs (failsWith_textMember.mp h)
      | key name => exact .textKey cs name
      | index i =>
        unfold Value.part at h
        cases hc : cs[i]? <;> simp [hc] at h
    | number n =>
      cases step with
      | index i => exact .numberIndex n i
      | key name => exact .numberKey n name
      | member name => exact .numberMember n (failsWith_numberMember.mp h)
    | object id => exact .object h
  · intro h
    cases h with
    | textMember cs h => exact failsWith_textMember.mpr h
    | numberMember n h => exact failsWith_numberMember.mpr h
    | textKey | numberIndex | numberKey => exact failsWith_error.mpr nofun
    | object h => exact h

/-! ### Names of fields -/

/-- What the name of a field starts with, up to its first step. -/
def base (name : List Char) : List Char := name.takeWhile fun c => c ≠ '.' && c ≠ '['

/-- The value that a name starts from. -/
def start (values : Values) (name : List Char) : Except Failure Value := do
  match ← orFlawed (index? (base name)) with
  | some n => throw (.flawed (.positional n))
  | none =>
    if base name = [] then throw (.flawed (.positional 0))
    else match values.lookup (base name) with
      | none => throw (.flawed (.unknownName (String.ofList (base name))))
      | some v => return v

/-- The steps that a name takes from its value. -/
def steps (name : List Char) : List (Except Flaw Access) :=
  accesses (name.drop (base name).length).length (name.drop (base name).length)

/-- The part of a value that steps lead to. -/
def walk (v : Value) (steps : List (Except Flaw Access)) : Except Failure Value :=
  steps.foldlM (fun v step => do v.part (← orFlawed step)) v

lemma resolve_eq (values : Values) (name : List Char) :
    resolve values name = start values name >>= fun v => walk v (steps name) := by
  have hbase : (name.takeWhile fun c => c ≠ '.' && c ≠ '[') = base name := rfl
  unfold resolve
  dsimp only
  rw [hbase]
  unfold start walk steps
  cases orFlawed (index? (base name)) with
  | error e => rfl
  | ok found =>
    cases found with
    | some n => rfl
    | none =>
      simp only [bind, Except.bind]
      split_ifs
      · rfl
      · cases values.lookup (base name) <;> rfl

omit [Objects] in
lemma not_failsWith_start : ¬ FailsWith Unflawed (start values name) := by
  unfold start
  rw [failsWith_bind]
  rintro (h | ⟨found, -, h⟩)
  · exact not_failsWith_orFlawed _ h
  · cases found with
    | some n => simp at h
    | none =>
      dsimp only at h
      split_ifs at h
      · simp at h
      · cases hv : values.lookup (base name) <;> simp [hv] at h

/-- The name of a field leads to a value that lacks the part of its next step. -/
def Misses (values : Values) (name : List Char) : Prop :=
  ∃ v front step back u, start values name = .ok v ∧ steps name = front ++ .ok step :: back ∧
    walk v front = .ok u ∧ Lacks u step

lemma failsWith_resolve : FailsWith Unflawed (resolve values name) ↔ Misses values name := by
  rw [resolve_eq, failsWith_bind]
  simp only [not_failsWith_start, false_or, walk, failsWith_foldlM, failsWith_bind,
    not_failsWith_orFlawed, orFlawed_eq_ok, failsWith_part]
  constructor
  · rintro ⟨v, hv, front, _, back, u, hsteps, hu, step, rfl, h⟩
    exact ⟨v, front, step, back, u, hv, hsteps, hu, h⟩
  · rintro ⟨v, front, step, back, u, hv, hsteps, hu, h⟩
    exact ⟨v, hv, front, _, back, u, hsteps, hu, step, rfl, h⟩

/-! ### Forms of values -/

/-- A conversion gives a text. -/
lemma convert_eq_ok {c : Char} {u : Value} (h : v.convert c = .ok u) : ∃ cs, u = .text cs := by
  unfold Value.convert at h
  split_ifs at h
  cases v with
  | text cs =>
    cases h
    exact ⟨_, rfl⟩
  | number n =>
    obtain ⟨digits, -, hu⟩ := exists_of_map_eq_ok h
    exact ⟨digits, hu.symm⟩
  | object id =>
    obtain ⟨text, -, hu⟩ := exists_of_map_eq_ok h
    exact ⟨text, hu.symm⟩

/-- Only objects can lack the text that a conversion asks for. -/
lemma failsWith_convert {c : Char} : FailsWith Unflawed (v.convert c) ↔
    ∃ id, v = .object id ∧ c ∈ conversions ∧ FailsWith Unflawed (Objects.convert id c) := by
  unfold Value.convert
  by_cases hc : c ∈ conversions
  · rw [if_neg (not_not.mpr hc)]
    cases v <;> simp [failsWith_map, hc]
  · simp [hc]

/-- A text has a form for every format that is right for it. A number or an object need not. -/
lemma failsWith_render : FailsWith Unflawed (v.render format) ↔
    (∃ n spec, v = .number n ∧ format ≠ [] ∧ FormatSpec.read .number format = .ok spec ∧
      Exceeds n spec) ∨
    ∃ id, v = .object id ∧ FailsWith Unflawed (Objects.render id format) := by
  unfold Value.render
  by_cases hempty : format = []
  · cases v <;> simp [hempty]
  · cases v with
    | text cs => simp [hempty]
    | number n => simp [hempty, failsWith_bind, orFlawed_eq_ok, failsWith_renderNumber]
    | object id => simp

/-! ### Fields and templates -/

/-- The format of a field once the fields in it are expanded. -/
def formatOf (expandFormat : List Char → Except Failure (List Char)) (f : Field) :
    Except Failure (List Char) :=
  if f.nested then expandFormat f.format else .ok f.format

/-- The value of a field once it is converted. -/
def converted (v : Value) : Option Char → Except Failure Value
  | none => .ok v
  | some c => v.convert c

/-- A field overreaches: its name misses a part, a field of its format overreaches, the number
that it stands for exceeds its format, or the object that it stands for has no text for its
conversion or its format. Before a format is looked at, there is a value to lay out. -/
inductive FieldOverreaches (values : Values) (expandFormat : List Char → Except Failure (List Char))
    (inFormat : List Char → Prop) (f : Field) : Prop
  | name (h : Misses values f.name)
  | conversion {id : ℕ} {c : Char} (hv : resolve values f.name = .ok (.object id))
      (hc : c ∈ conversions) (hconversion : f.conversion = some c)
      (h : FailsWith Unflawed (Objects.convert id c))
  | nested {v u : Value} (hv : resolve values f.name = .ok v)
      (hu : converted v f.conversion = .ok u) (hnested : f.nested = true) (h : inFormat f.format)
  | layout {n : Int} {format : List Char} {spec : FormatSpec}
      (hv : resolve values f.name = .ok (.number n)) (hconversion : f.conversion = none)
      (hformat : formatOf expandFormat f = .ok format)
      (hne : format ≠ []) (hspec : FormatSpec.read .number format = .ok spec)
      (h : Exceeds n spec)
  | objectLayout {id : ℕ} {format : List Char}
      (hv : resolve values f.name = .ok (.object id)) (hconversion : f.conversion = none)
      (hformat : formatOf expandFormat f = .ok format)
      (h : FailsWith Unflawed (Objects.render id format))

lemma expandField_eq (expandFormat : List Char → Except Failure (List Char)) (values : Values)
    (f : Field) : expandField expandFormat values f = (do
      let v ← resolve values f.name
      let u ← converted v f.conversion
      let format ← formatOf expandFormat f
      u.render format) := by
  unfold expandField converted formatOf
  cases f.conversion <;> cases f.nested <;> rfl

/-- A value that is converted is a text, unless there is no conversion. -/
lemma converted_eq_ok {conversion : Option Char} {u : Value}
    (h : converted v conversion = .ok u) : conversion = none ∧ u = v ∨ ∃ cs, u = .text cs := by
  cases conversion with
  | none =>
    cases h
    exact .inl ⟨rfl, rfl⟩
  | some c => exact .inr (convert_eq_ok h)

lemma failsWith_converted {conversion : Option Char} :
    FailsWith Unflawed (converted v conversion) ↔ ∃ id c, v = .object id ∧ c ∈ conversions ∧
      conversion = some c ∧ FailsWith Unflawed (Objects.convert id c) := by
  cases conversion with
  | none => simp [converted]
  | some c =>
    rw [converted, failsWith_convert]
    constructor
    · rintro ⟨id, rfl, hc, h⟩
      exact ⟨id, c, rfl, hc, rfl, h⟩
    · rintro ⟨id, _, rfl, hc, ⟨⟩, h⟩
      exact ⟨id, rfl, hc, h⟩

lemma failsWith_expandField {expandFormat : List Char → Except Failure (List Char)}
    {inFormat : List Char → Prop}
    (hformat : ∀ cs, FailsWith Unflawed (expandFormat cs) ↔ inFormat cs) (values : Values)
    (f : Field) : FailsWith Unflawed (expandField expandFormat values f) ↔
      FieldOverreaches values expandFormat inFormat f := by
  rw [expandField_eq, failsWith_bind, failsWith_resolve]
  simp only [failsWith_bind, failsWith_converted, failsWith_render]
  constructor
  · rintro (h | ⟨v, hv, ⟨id, c, rfl, hc, hconversion, h⟩ | ⟨u, hu, h | ⟨format, hf, h⟩⟩⟩)
    · exact .name h
    · exact .conversion hv hc hconversion h
    · unfold formatOf at h
      split_ifs at h with hnested
      · exact .nested hv hu hnested ((hformat _).mp h)
      · exact absurd h (not_failsWith_ok _)
    · rcases h with ⟨n, spec, rfl, hne, hspec, h⟩ | ⟨id, rfl, h⟩
      · obtain ⟨hnone, rfl⟩ | ⟨cs, hcs⟩ := converted_eq_ok hu
        · exact .layout hv hnone hf hne hspec h
        · cases hcs
      · obtain ⟨hnone, rfl⟩ | ⟨cs, hcs⟩ := converted_eq_ok hu
        · exact .objectLayout hv hnone hf h
        · cases hcs
  · intro h
    cases h with
    | name h => exact .inl h
    | conversion hv hc hconversion h =>
      exact .inr ⟨_, hv, .inl ⟨_, _, rfl, hc, hconversion, h⟩⟩
    | nested hv hu hnested h =>
      refine .inr ⟨_, hv, .inr ⟨_, hu, .inl ?_⟩⟩
      rw [formatOf, if_pos hnested]
      exact (hformat _).mpr h
    | layout hv hnone hf hne hspec h =>
      exact .inr ⟨_, hv, .inr ⟨_, by rw [hnone]; rfl, .inr ⟨_, hf,
        .inl ⟨_, _, rfl, hne, hspec, h⟩⟩⟩⟩
    | objectLayout hv hnone hf h =>
      exact .inr ⟨_, hv, .inr ⟨_, by rw [hnone]; rfl, .inr ⟨_, hf, .inr ⟨_, rfl, h⟩⟩⟩⟩

/-- A piece of a template with its field replaced. -/
def expandPiece (expandFormat : List Char → Except Failure (List Char)) (values : Values)
    (found : Except Flaw Piece) : Except Failure (List Char) := do
  let p ← orFlawed found
  match p.field with
  | none => return p.literal
  | some f => return p.literal ++ (← expandField expandFormat values f)

lemma expandTo_succ (values : Values) (depth : ℕ) (cs : List Char) :
    expandTo values (depth + 1) cs = do
      let parts ← (pieces cs.length cs).mapM (expandPiece (expandTo values depth) values)
      return parts.flatten := rfl

lemma failsWith_expandPiece {expandFormat : List Char → Except Failure (List Char)}
    {found : Except Flaw Piece} :
    FailsWith Unflawed (expandPiece expandFormat values found) ↔
      ∃ p f, found = .ok p ∧ p.field = some f ∧
        FailsWith Unflawed (expandField expandFormat values f) := by
  unfold expandPiece
  rw [failsWith_bind]
  simp only [not_failsWith_orFlawed, false_or, orFlawed_eq_ok]
  constructor
  · rintro ⟨p, rfl, h⟩
    cases hf : p.field with
    | none => simp [hf] at h
    | some f =>
      simp only [hf, failsWith_bind_pure] at h
      exact ⟨p, f, rfl, hf, h⟩
  · rintro ⟨p, f, rfl, hf, h⟩
    refine ⟨p, rfl, ?_⟩
    simpa only [hf, failsWith_bind_pure] using h

/-- A template overreaches: the first of its fields that cannot be replaced does. Nothing is nested
deeper than a number of levels. -/
def Overreaches (values : Values) : ℕ → List Char → Prop
  | 0, _ => False
  | depth + 1, cs => ∃ front p f back,
      pieces cs.length cs = front ++ .ok p :: back ∧
      (∀ found ∈ front, ∃ text, expandPiece (expandTo values depth) values found = .ok text) ∧
      p.field = some f ∧
      FieldOverreaches values (expandTo values depth) (Overreaches values depth) f

/-- Expanding a template fails without telling a flaw if and only if the template overreaches. -/
theorem failsWith_expandTo (values : Values) (depth : ℕ) (cs : List Char) :
    FailsWith Unflawed (expandTo values depth cs) ↔ Overreaches values depth cs := by
  induction depth generalizing cs with
  | zero => simp [expandTo, Overreaches]
  | succ depth ih =>
    rw [expandTo_succ, failsWith_bind_pure, failsWith_mapM]
    simp only [failsWith_expandPiece, failsWith_expandField ih, Overreaches]
    constructor
    · rintro ⟨front, _, back, hpieces, hfront, p, f, rfl, hf, h⟩
      exact ⟨front, p, f, back, hpieces, hfront, hf, h⟩
    · rintro ⟨front, p, f, back, hpieces, hfront, hf, h⟩
      exact ⟨front, _, back, hpieces, hfront, p, f, rfl, hf, h⟩

lemma failsWith_expand (values : Values) (template : String) :
    FailsWith Unflawed (expand values template) ↔ Overreaches values 2 template.toList := by
  rw [expand, failsWith_bind_pure, failsWith_expandTo]

end SourceRecovery.Template

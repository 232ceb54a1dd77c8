import SourceRecovery.Proofs.Json.Grammar

/-!
# What is read

A text of the grammar is read as the value that it writes, unless an object in it is refused. The
objects are checked in the order in which they close, and the first one that is refused ends the
reading.
-/

namespace SourceRecovery.Json

variable {ε : Type} {check : List (String × Json) → Except ε Unit} {rest : List Char}

/-! ### Texts -/

lemma escaped?_ne {l c : Char} (h : escaped? l = some c) : l ≠ 'u' := by
  rintro rfl
  simp [escaped?] at h

/-- A text is read up to its closing quote, whatever follows. -/
lemma characters_append {cs ds : List Char} (h : Spells cs ds) (start read rest : List Char) :
    characters (ε := ε) start read (cs ++ '"' :: rest) =
      .ok (String.ofList (joinPairs (read.reverse ++ ds)), rest) := by
  induction h generalizing read with
  | nil => simp [characters]
  | plain hc hquote hescape _ ih =>
    rw [List.cons_append, characters]
    · simp [Nat.not_lt.mpr hc, ih]
    all_goals simp_all
  | letter hl _ ih =>
    rw [List.cons_append, List.cons_append, characters]
    · simp [hl, ih]
    all_goals simp_all [escaped?_ne hl]
  | @code a b c d n cs ds hn _ ih =>
    -- The reader wants one character more behind the code; here it is at least the quote.
    obtain ⟨e, tail, htail⟩ : ∃ e tail, cs ++ '"' :: rest = e :: tail := by cases cs <;> simp
    specialize ih (ofCode n :: read)
    simp only [List.cons_append, htail] at ih ⊢
    simp [characters, hn, ih]

/-! ### Numbers -/

/-- What follows does not go on with digits. -/
def NoDigit (rest : List Char) : Prop := ∀ c ∈ rest.head?, c.isDigit = false

lemma takeWhile_digits {ds : List Char} (h : ∀ d ∈ ds, d.isDigit = true) (hr : NoDigit rest) :
    (ds ++ rest).takeWhile Char.isDigit = ds := by
  rw [List.takeWhile_append_of_pos h]
  cases rest with
  | nil => simp
  | cons c rest => simp [hr c rfl]

lemma dropWhile_digits {ds : List Char} (h : ∀ d ∈ ds, d.isDigit = true) (hr : NoDigit rest) :
    (ds ++ rest).dropWhile Char.isDigit = rest := by
  rw [List.dropWhile_append_of_pos h]
  cases rest with
  | nil => rfl
  | cons c rest => simp [hr c rfl]

/-- No number goes on where a value ends. -/
lemma Ends.notMem {c : Char} (hr : Ends rest) (hc : c ∈ rest.head?) :
    c.isDigit = false ∧ c ≠ '.' ∧ c ≠ 'e' ∧ c ≠ 'E' := by
  rcases hr c hc with h | rfl | rfl | rfl
  · simp only [isSpace, Bool.or_eq_true, decide_eq_true_eq] at h
    rcases h with ((rfl | rfl) | rfl) | rfl <;> decide
  all_goals decide

lemma IsFraction.append {point places : List Char} (h : IsFraction point places)
    (hr : NoDigit rest) (hdot : '.' ∉ rest.head?) :
    ∃ p, fraction (point ++ rest) = (p, rest) ∧ p.getD [] = places ∧ (p = none ↔ point = []) := by
  cases h with
  | absent =>
    refine ⟨none, ?_, rfl, by simp⟩
    rw [List.nil_append, fraction.eq_def]
    split
    · simp at hdot
    · rfl
  | point h =>
    obtain ⟨hne, hd⟩ := h
    refine ⟨some places, ?_, rfl, by simp⟩
    cases places with
    | nil => simp at hne
    | cons d ds =>
      have htake := takeWhile_digits hd hr
      have hdrop := dropWhile_digits hd hr
      simp only [List.cons_append] at htake hdrop ⊢
      simp [fraction, hd d (.head _), htake, hdrop]

/-- The power of ten that is read from the sign and the digits of an exponent. -/
def shiftOf (power : Option (Bool × List Char)) : Int :=
  if (power.getD (false, [])).1 then -ofDigits (power.getD (false, [])).2
  else ofDigits (power.getD (false, [])).2

lemma sign_of_isDigits {ds : List Char} (h : IsDigits ds) :
    Numeral.sign (ds ++ rest) = (false, ds ++ rest) := by
  obtain ⟨hne, hd⟩ := h
  cases ds with
  | nil => simp at hne
  | cons d ds =>
    have := hd d (.head _)
    rw [List.cons_append, Numeral.sign]
    all_goals
      rintro tail ⟨⟩
      simp at this

lemma IsPower.append {power : List Char} {shift : Int} (h : IsPower power shift)
    (hr : Ends rest) :
    ∃ p, exponent (power ++ rest) = (p, rest) ∧ shiftOf p = shift ∧ (p = none ↔ power = []) := by
  have hno : NoDigit rest := fun c hc => (hr.notMem hc).1
  cases h with
  | absent =>
    refine ⟨none, ?_, by simp [shiftOf, ofDigits, Numeral.ofDigits], by simp⟩
    cases rest with
    | nil => rfl
    | cons c rest =>
      obtain ⟨-, -, he, hE⟩ := hr.notMem (c := c) rfl
      simp [exponent, he, hE]
  | @bare e ds he h =>
    refine ⟨some (false, ds), ?_, by simp [shiftOf], by simp⟩
    simp [exponent, he, sign_of_isDigits h, takeWhile_digits h.2 hno, dropWhile_digits h.2 hno, h.1]
  | @positive e ds he h =>
    refine ⟨some (false, ds), ?_, by simp [shiftOf], by simp⟩
    simp [exponent, he, Numeral.sign, takeWhile_digits h.2 hno, dropWhile_digits h.2 hno, h.1]
  | @negative e ds he h =>
    refine ⟨some (true, ds), ?_, by simp [shiftOf], by simp⟩
    simp [exponent, he, Numeral.sign, takeWhile_digits h.2 hno, dropWhile_digits h.2 hno, h.1]

/-- A number with a sign and whole digits, by what is read after them. -/
lemma number_append {negative : Bool} {whole tail middle : List Char} (h : IsWhole whole)
    (ht : NoDigit tail) {places : Option (List Char)} {power : Option (Bool × List Char)}
    (hplaces : fraction tail = (places, middle)) (hpower : exponent middle = (power, rest)) :
    number (ε := ε) (minus negative ++ (whole ++ tail)) =
      if places = none ∧ power = none then
        if Numeral.maxDigits < whole.length then .error (.numeral (.tooLong whole.length))
        else .ok (.int (if negative then -(ofDigits whole : Int) else ofDigits whole), rest)
      else .ok (.real (decimal negative (ofDigits (whole ++ places.getD []))
        (shiftOf power - (places.getD []).length)), rest) := by
  obtain ⟨⟨hne, hd⟩, hzero⟩ := h
  obtain ⟨d, ds, rfl⟩ := List.exists_cons_of_ne_nil hne
  have hminus : d ≠ '-' := by
    rintro rfl
    simp at hd
  have htake : (d :: (ds ++ tail)).takeWhile Char.isDigit = d :: ds := takeWhile_digits hd ht
  by_cases h0 : d = '0'
  · subst h0
    obtain ⟨rfl⟩ := hzero rfl
    cases negative <;> simp [number, minus, hplaces, hpower, shiftOf]
  · cases negative <;> simp [number, minus, hplaces, hpower, shiftOf, hminus, h0, htake]

/-- A power of ten goes on with no digit and no point before it. -/
lemma IsPower.notMem {power : List Char} {shift : Int} {c : Char} (h : IsPower power shift)
    (hr : Ends rest) (hc : c ∈ (power ++ rest).head?) : c.isDigit = false ∧ c ≠ '.' := by
  cases h with
  | absent => exact ⟨(hr.notMem hc).1, (hr.notMem hc).2.1⟩
  | bare he | positive he | negative he =>
    cases hc
    rcases he with rfl | rfl <;> decide

/-- A number is read up to where it ends. -/
lemma IsNumber.append {cs : List Char} {v : Json} (h : IsNumber cs v) (hr : Ends rest) :
    number (ε := ε) (cs ++ rest) = .ok (v, rest) := by
  have hno : NoDigit rest := fun c hc => (hr.notMem hc).1
  cases h with
  | @int negative whole hw hl =>
    obtain ⟨places, hplaces, -, hnone⟩ :=
      IsFraction.absent.append hno fun hc => (hr.notMem hc).2.1 rfl
    obtain ⟨power, hpower, -, hnone'⟩ := IsPower.absent.append hr
    rw [List.append_assoc, number_append hw hno hplaces hpower,
      if_pos ⟨hnone.mpr rfl, hnone'.mpr rfl⟩, if_neg (Nat.not_lt.mpr hl)]
  | @real negative whole point places power shift hw hpoint hpower hne =>
    have hmiddle : NoDigit (power ++ rest) := fun c hc => (hpower.notMem hr hc).1
    have htail : NoDigit (point ++ (power ++ rest)) := by
      cases hpoint with
      | absent => exact hmiddle
      | point =>
        rintro c ⟨⟩
        decide
    obtain ⟨found, hfound, hplaces, hnone⟩ :=
      hpoint.append hmiddle fun hc => (hpower.notMem hr hc).2 rfl
    obtain ⟨found', hfound', hshift, hnone'⟩ := hpower.append hr
    have hsome : ¬(found = none ∧ found' = none) := by
      rw [hnone, hnone']
      tauto
    simp only [List.append_assoc]
    rw [number_append hw htail hfound hfound', if_neg hsome, hplaces, hshift]

/-! ### Values that are no containers -/

/-- A word is read, whatever follows. -/
lemma scalar_of_word {cs : List Char} {v : Json} (h : (cs, v) ∈ words) :
    scalar (ε := ε) (cs ++ rest) = .ok (v, rest) := by
  have hwords : ∀ w ∈ words, scalar (ε := ε) (w.1 ++ rest) = .ok (w.2, rest) := by
    simp [words_eq, scalar, List.isPrefixOf]
  exact hwords _ h

/-- No word starts like a number. -/
lemma scalar_of_number {cs : List Char} {v : Json} (h : IsNumber cs v) (hr : Ends rest) :
    scalar (ε := ε) (cs ++ rest) = .ok (v, rest) := by
  rw [← h.append hr]
  obtain ⟨negative, d, ds, rfl, hd⟩ := h.exists_cons
  have hne : ∀ c, c.isDigit = false → c ≠ d := by
    rintro _ hc rfl
    simp [hc] at hd
  cases negative <;> simp [scalar, words_eq, minus, List.isPrefixOf, hne]

/-- What starts with no quote and opens no container is read as a number or a word. -/
lemma value_of_scalar {depth : ℕ} {cs : List Char} {v : Json}
    (hhead : ∃ c, cs.head? = some c ∧ c ≠ '"' ∧ c ≠ '[' ∧ c ≠ '{')
    (h : scalar (ε := ε) (cs ++ rest) = .ok (v, rest)) :
    value check depth (cs ++ rest) = .ok (v, rest) := by
  obtain ⟨c, hc, hquote, hlist, hobject⟩ := hhead
  obtain ⟨tail, rfl⟩ := List.head?_eq_some_iff.mp hc
  rw [← h, List.cons_append]
  cases depth <;> (rw [value]; all_goals simp_all)

/-- A value that is no container is read whatever the objects are checked for. -/
lemma value_of_isSimple {depth : ℕ} {cs : List Char} {v : Json} (h : IsSimple cs v)
    (hr : Ends rest) : value check depth (cs ++ rest) = .ok (v, rest) := by
  cases h with
  | text h =>
    obtain ⟨h⟩ := h
    simp [value, characters_append h]
  | number h =>
    refine value_of_scalar ?_ (scalar_of_number h hr)
    obtain ⟨negative, d, ds, rfl, hd⟩ := h.exists_cons
    cases negative with
    | true => exact ⟨'-', rfl, by decide⟩
    | false =>
      refine ⟨d, rfl, ?_, ?_, ?_⟩
      all_goals
        rintro rfl
        simp at hd
  | word h =>
    have hwords : ∀ w ∈ words, ∃ c, w.1.head? = some c ∧ c ≠ '"' ∧ c ≠ '[' ∧ c ≠ '{' := by
      simp [words_eq]
    exact value_of_scalar (hwords _ h) (scalar_of_word h)

/-! ### Checks -/

mutual

/-- What a check says of the objects within a value, in the order in which they close. -/
def checked (check : List (String × Json) → Except ε Unit) : Json → Except ε Unit
  | .list vs => checkedItems check vs
  | .object ms => do
    checkedMembers check ms
    check ms
  | _ => .ok ()

/-- What a check says of the objects within the items of a list. -/
def checkedItems (check : List (String × Json) → Except ε Unit) : List Json → Except ε Unit
  | [] => .ok ()
  | v :: vs => do
    checked check v
    checkedItems check vs

/-- What a check says of the objects within the values of members. -/
def checkedMembers (check : List (String × Json) → Except ε Unit) :
    List (String × Json) → Except ε Unit
  | [] => .ok ()
  | (_, v) :: ms => do
    checked check v
    checkedMembers check ms

end

/-- What is read where a check accepts it. -/
def granted {α : Type} (r : Except ε Unit) (a : α) : Reading ε α :=
  match r with
  | .ok () => .ok a
  | .error cause => .error (.refused cause)

/-- Reading on where a check accepts what is read first. -/
lemma granted_bind {α β : Type} {r s : Except ε Unit} {a : α} {b : β} {f : α → Reading ε β}
    (h : f a = granted s b) : granted r a >>= f = granted (r >>= fun _ => s) b := by
  cases r with
  | error cause => rfl
  | ok => exact h

/-! ### Containers -/

variable {W : List Char → Json → Prop} {item : List Char → Reading ε (Json × List Char)}

/-- What `W` says a value is written as is read as that value, if the check accepts it. -/
def Reads (check : List (String × Json) → Except ε Unit) (W : List Char → Json → Prop)
    (item : List Char → Reading ε (Json × List Char)) : Prop :=
  ∀ ⦃cs v rest⦄, W cs v → Ends rest → item (cs ++ rest) = granted (checked check v) (v, rest)

lemma ends_cons {c : Char} (h : c = ',' ∨ c = ']' ∨ c = '}') : Ends (c :: rest) := by
  rintro _ ⟨⟩
  exact .inr h

lemma items_append (hread : Reads check W item) (hstart : IsStarting W) {cs : List Char}
    {vs : List Json} (h : IsSequence W cs vs) {n : ℕ} (hn : vs.length ≤ n) (read : List Json)
    (rest : List Char) : items item n read (cs ++ ']' :: rest) =
      granted (checkedItems check vs) (read.reverse ++ vs, rest) := by
  induction h generalizing n read with
  | @last cs blanks v h hb =>
    obtain ⟨n, rfl⟩ := Nat.exists_eq_add_of_le' hn
    have hends : Ends (blanks ++ ']' :: rest) := hb.ends (ends_cons (by simp))
    rw [List.append_assoc, List.length_singleton, items, hread h hends]
    refine granted_bind ?_
    simp only [skipSpace_cons hb (c := ']') (by decide)]
    simp [checkedItems, granted]
  | @cons cs before after more v vs h hbefore hafter hrest ih =>
    obtain ⟨n, rfl⟩ := Nat.exists_eq_add_of_le' hn
    have hends : Ends (before ++ ',' :: (after ++ (more ++ ']' :: rest))) :=
      hbefore.ends (ends_cons (by simp))
    have hskip := skipSpace_of_starts (']' :: rest) hafter (hrest.exists_head? hstart)
    simp only [List.append_assoc, List.cons_append, List.length_cons]
    rw [← Nat.add_assoc, items, hread h hends]
    refine granted_bind ?_
    simp only [skipSpace_cons hbefore (c := ',') (by decide), hskip]
    rw [ih (by omega)]
    simp

/-- The name of a member is read up to its colon, and then its value. -/
lemma members_succ {n : ℕ} {read : List (String × Json)} {quoted before after cs : List Char}
    {name : String} {v : Json} (hread : Reads check W item) (hstart : IsStarting W)
    (hn : IsQuoted quoted name) (hbefore : IsBlank before) (hafter : IsBlank after) (h : W cs v)
    (hends : Ends rest) :
    members item (n + 1) read (quoted ++ (before ++ ':' :: (after ++ (cs ++ rest)))) =
      (granted (checked check v) (v, rest) >>= fun (v, rest) =>
        match skipSpace rest with
        | '}' :: rest => .ok (((name, v) :: read).reverse, rest)
        | ',' :: rest => members item n ((name, v) :: read) (skipSpace rest)
        | rest => .error (.flawed .commaExpected rest)) := by
  obtain ⟨hn⟩ := hn
  have hskip := skipSpace_of_starts rest hafter (hstart h)
  simp only [List.cons_append, List.append_assoc, List.nil_append]
  rw [members, characters_append hn]
  simp only [bind, Except.bind]
  simp only [skipSpace_cons hbefore (c := ':') (by decide), hskip, hread h hends]
  rfl

lemma members_append (hread : Reads check W item) (hstart : IsStarting W) {cs : List Char}
    {ms : List (String × Json)} (h : IsSequence (IsMember W) cs ms) {n : ℕ} (hn : ms.length ≤ n)
    (read : List (String × Json)) (rest : List Char) : members item n read (cs ++ '}' :: rest) =
      granted (checkedMembers check ms) (read.reverse ++ ms, rest) := by
  induction h generalizing n read with
  | @last cs blanks m h hb =>
    obtain ⟨n, rfl⟩ := Nat.exists_eq_add_of_le' hn
    have hends : Ends (blanks ++ '}' :: rest) := hb.ends (ends_cons (by simp))
    obtain ⟨hname, hbefore, hafter, h⟩ := h
    simp only [List.append_assoc, List.cons_append, List.length_singleton]
    rw [members_succ hread hstart hname hbefore hafter h hends]
    refine granted_bind ?_
    simp only [skipSpace_cons hb (c := '}') (by decide)]
    simp [checkedMembers, granted]
  | @cons cs before after more m ms h hbefore hafter hrest ih =>
    obtain ⟨n, rfl⟩ := Nat.exists_eq_add_of_le' hn
    have hends : Ends (before ++ ',' :: (after ++ (more ++ '}' :: rest))) :=
      hbefore.ends (ends_cons (by simp))
    have hskip := skipSpace_of_starts ('}' :: rest) hafter
      (hrest.exists_head? (isStarting_isMember W))
    obtain ⟨hname, hcolon, hvalue, h⟩ := h
    simp only [List.append_assoc, List.cons_append, List.length_cons]
    rw [← Nat.add_assoc, members_succ hread hstart hname hcolon hvalue h hends]
    refine granted_bind ?_
    simp only [skipSpace_cons hbefore (c := ',') (by decide), hskip]
    rw [ih (by omega)]
    simp

lemma IsSimple.checked_eq {cs : List Char} {v : Json} (h : IsSimple cs v) :
    checked check v = .ok () := by
  cases h with
  | text => rfl
  | number h => cases h <;> rfl
  | word h =>
    have hwords : ∀ w ∈ words, checked check w.2 = .ok () := by simp [words_eq, checked]
    exact hwords _ h

variable {depth : ℕ}

lemma value_list {blanks cs : List Char} {vs : List Json}
    (hread : Reads check (Writes depth) (value check depth)) (hb : IsBlank blanks)
    (h : IsSequence (Writes depth) cs vs) :
    value check (depth + 1) ('[' :: (blanks ++ (cs ++ ']' :: rest))) =
      granted (checkedItems check vs) (.list vs, rest) := by
  have hstart := isStarting_writes depth
  obtain ⟨c, hc, hs⟩ := h.exists_head? hstart
  have hskip := skipSpace_of_starts (']' :: rest) hb ⟨c, hc, hs⟩
  -- Each item takes a character of the text left, so the bound on their number is not reached.
  have hlength : vs.length ≤ (cs ++ ']' :: rest).length + 1 := by
    have := h.length_le hstart
    simp only [List.length_append]
    omega
  have hitems := items_append hread hstart h hlength [] rest
  obtain ⟨tail, rfl⟩ := List.head?_eq_some_iff.mp hc
  simp only [List.cons_append] at hskip hitems ⊢
  simp only [value, hskip]
  split
  · rename_i heq
    exact absurd (List.cons.inj heq).1 hs.2.1
  · rw [hitems]
    cases checkedItems check vs <;> rfl

lemma value_object {blanks cs : List Char} {ms : List (String × Json)}
    (hread : Reads check (Writes depth) (value check depth)) (hb : IsBlank blanks)
    (h : IsSequence (IsMember (Writes depth)) cs ms) :
    value check (depth + 1) ('{' :: (blanks ++ (cs ++ '}' :: rest))) =
      granted (checked check (.object ms)) (.object ms, rest) := by
  have hstart := isStarting_writes depth
  obtain ⟨c, hc, hs⟩ := h.exists_head? (isStarting_isMember _)
  have hskip := skipSpace_of_starts ('}' :: rest) hb ⟨c, hc, hs⟩
  have hlength : ms.length ≤ (cs ++ '}' :: rest).length + 1 := by
    have := h.length_le (isStarting_isMember _)
    simp only [List.length_append]
    omega
  have hmembers := members_append hread hstart h hlength [] rest
  obtain ⟨tail, rfl⟩ := List.head?_eq_some_iff.mp hc
  simp only [List.cons_append] at hskip hmembers ⊢
  simp only [value, hskip]
  split
  · rename_i heq
    exact absurd (List.cons.inj heq).1 hs.2.2.1
  · rw [hmembers, checked]
    refine granted_bind ?_
    dsimp only [List.reverse_nil, List.nil_append]
    cases check ms <;> rfl

/-- Whatever is written as the grammar says is read as the value that it writes, if the check
accepts all objects in it. -/
lemma reads_writes : ∀ depth, Reads check (Writes depth) (value check depth)
  | 0, cs, v, rest, h, hr => by rw [value_of_isSimple h hr, IsSimple.checked_eq h, granted]
  | depth + 1, cs, v, rest, h, hr => by
    cases h with
    | simple h => rw [value_of_isSimple h hr, h.checked_eq, granted]
    | noItems hb =>
      simp [value, skipSpace_cons (c := ']') hb (by decide), checked, checkedItems, granted]
    | items hb h => simpa [checked] using value_list (reads_writes depth) hb h
    | noMembers hb =>
      simp only [List.cons_append, List.append_assoc, List.nil_append, value,
        skipSpace_cons (c := '}') hb (by decide)]
      simp only [checked, checkedMembers, bind, Except.bind, pure, Except.pure]
      cases check [] <;> rfl
    | members hb h => simpa using value_object (reads_writes depth) hb h

/-- The text of a value is read as that value, if the check accepts all objects in it. -/
theorem read_eq {s : String} {v : Json} (h : IsText s v) :
    read check s = granted (checked check v) v := by
  obtain ⟨before, cs, after, hbefore, hw, hafter, hs⟩ := h
  obtain ⟨c, hc, hstart⟩ := hw.exists_head?
  have hmark : s.toList.head? ≠ some '\uFEFF' := by
    rw [hs]
    cases before with
    | nil => simpa [List.head?_append, hc] using hstart.2.2.2
    | cons b before =>
      rintro ⟨⟩
      exact absurd (hbefore _ (.head _)) (by decide)
  have hends : Ends (after ++ []) := hafter.ends (by simp [Ends])
  have hskip : skipSpace (after ++ []) = [] := skipSpace_append hafter (by simp)
  rw [List.append_nil] at hends hskip
  rw [read, if_neg hmark, hs, skipSpace_of_starts after hbefore ⟨c, hc, hstart⟩,
    reads_writes maxDepth hw hends]
  cases checked check v with
  | error cause => rfl
  | ok => simp [granted, bind, Except.bind, pure, Except.pure, hskip]

end SourceRecovery.Json

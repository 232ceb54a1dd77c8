import Mathlib.Tactic.Common
import SourceRecovery.Files.Operations

/-!
# The components of paths

How joining paths and taking off their last name shows in their components, and the places that a
path passes through when it is followed from a working directory.
-/

namespace SourceRecovery

namespace Path

variable {p q n : String} {cwd base cs : List String}

/-! ### Components -/

@[simp] lemma components_empty : components "" = [] := by simp [components]

/-- A slash separates components. -/
lemma components_append_slash (p q : String) :
    components (p ++ "/" ++ q) = components p ++ components q := by
  have h : (p ++ "/" ++ q).toList = p.toList ++ '/' :: q.toList := by simp
  simp only [components, h, List.splitOn_append_cons_self, List.filter_append, List.map_append]

/-- A slash at the end adds no component. -/
lemma components_append_slash_end (p : String) : components (p ++ "/") = components p := by
  have h := components_append_slash p ""
  simpa using h

/-- A name without a slash is its only component. -/
lemma components_name (h : '/' ∉ n.toList) (hn : n ≠ "") : components n = [n] := by
  have ht : n.toList ≠ [] := by simpa using hn
  simp [components, List.splitOn_eq_singleton h, ht]

lemma eq_append_slash (h : endsInSlash p = true) : ∃ q, p = q ++ "/" := by
  simp only [endsInSlash, decide_eq_true_eq] at h
  obtain ⟨cs, hcs⟩ := List.getLast?_eq_some_iff.mp h
  exact ⟨String.ofList cs, by rw [← String.toList_inj, hcs]; simp⟩

/-- Joining a relative path adds its components. -/
lemma components_join (h : isAbsolute q = false) :
    components (join p q) = components p ++ components q := by
  simp only [join, h, Bool.false_eq_true, if_false]
  split_ifs with hp
  · rcases Bool.or_eq_true_iff.mp hp with he | hs
    · rw [String.isEmpty_iff] at he
      simp [he]
    · obtain ⟨r, rfl⟩ := eq_append_slash hs
      rw [components_append_slash, components_append_slash_end]
  · exact components_append_slash p q

lemma mem_join {c : Char} (h : c ∈ (join p q).toList) :
    c ∈ p.toList ∨ c = '/' ∨ c ∈ q.toList := by
  unfold join at h
  split_ifs at h
  · exact .inr (.inr h)
  · rcases List.mem_append.mp (String.toList_append ▸ h) with h | h
    · exact .inl h
    · exact .inr (.inr h)
  · simp only [String.toList_append, List.mem_append] at h
    rcases h with (h | h) | h
    · exact .inl h
    · exact .inr (.inl (by simpa using h))
    · exact .inr (.inr h)

/-- Joining a relative path does not change where a path starts. -/
lemma isAbsolute_join (h : isAbsolute q = false) : isAbsolute (join p q) = isAbsolute p := by
  simp only [join, h, Bool.false_eq_true, if_false]
  by_cases he : p = ""
  · subst he
    simpa [isAbsolute] using h
  · have ht : p.toList ≠ [] := by simpa using he
    obtain ⟨c, cs, hcs⟩ := List.exists_cons_of_ne_nil ht
    split_ifs <;> simp [isAbsolute, hcs]

lemma isAbsolute_of_no_slash (h : '/' ∉ n.toList) : isAbsolute n = false := by
  simp only [isAbsolute, decide_eq_false_iff_not]
  exact fun hh => h (List.mem_of_mem_head? hh)

/-- A path that does not start with a slash has a component. -/
lemma components_ne_nil (hp : p ≠ "") (ha : isAbsolute p = false) : components p ≠ [] := by
  have hsplit := List.takeWhile_append_dropWhile (l := p.toList) (p := (· ≠ '/'))
  have hfront : '/' ∉ p.toList.takeWhile (· ≠ '/') := by
    intro h
    simpa using List.all_eq_true.mp List.all_takeWhile _ h
  have hne : p.toList.takeWhile (· ≠ '/') ≠ [] := by
    have ht : p.toList ≠ [] := by simpa using hp
    obtain ⟨c, cs, hcs⟩ := List.exists_cons_of_ne_nil ht
    have hc : c ≠ '/' := by simpa [isAbsolute, hcs] using ha
    simp [hcs, hc]
  generalize p.toList.takeWhile (· ≠ '/') = front at hsplit hfront hne
  have hname : components (String.ofList front) = [String.ofList front] :=
    components_name (by simpa using hfront) (by simpa using hne)
  cases hd : p.toList.dropWhile (· ≠ '/') with
  | nil =>
    rw [hd, List.append_nil] at hsplit
    have hp' : p = String.ofList front := by rw [hsplit, String.ofList_toList]
    simp [hp', hname]
  | cons c rest =>
    have hhead := List.head?_dropWhile_not (· ≠ '/') p.toList
    rw [hd] at hhead
    have hc : c = '/' := by simpa using hhead
    rw [hd, hc] at hsplit
    have hp' : p = String.ofList front ++ "/" ++ String.ofList rest := by
      rw [← String.toList_inj, ← hsplit]
      simp
    simp [hp', components_append_slash, hname]

/-! ### The last name of a path and what is in front of it -/

/-- The characters up to the last slash and the last name make up a path. -/
lemma frontChars_append_nameChars (cs : List Char) : frontChars cs ++ nameChars cs = cs := by
  rw [frontChars, nameChars, ← List.reverse_append, List.takeWhile_append_dropWhile,
    List.reverse_reverse]

lemma slash_notMem_nameChars (cs : List Char) : '/' ∉ nameChars cs := by
  intro h
  have hall := List.all_takeWhile (l := cs.reverse) (p := fun c => decide (c ≠ '/'))
  rw [nameChars, List.mem_reverse] at h
  simpa using List.all_eq_true.mp hall _ h

lemma slash_notMem_name (p : String) : '/' ∉ (name p).toList := by
  simpa [name] using slash_notMem_nameChars p.toList

/-- What stands in front of the last name ends in a slash. -/
lemma getLast?_frontChars {cs : List Char} (h : frontChars cs ≠ []) :
    (frontChars cs).getLast? = some '/' := by
  have hne : cs.reverse.dropWhile (· ≠ '/') ≠ [] := by simpa [frontChars] using h
  have hhead := List.head_dropWhile_not (· ≠ '/') hne
  rw [frontChars, List.getLast?_reverse, List.head?_eq_some_head hne]
  simpa using hhead

/-- Only slashes are taken off the end. -/
lemma exists_trimSlashes_append (cs : List Char) :
    ∃ k, cs = trimSlashes cs ++ List.replicate k '/' := by
  refine ⟨(cs.reverse.takeWhile (· = '/')).length, ?_⟩
  have hall : ∀ c ∈ cs.reverse.takeWhile (· = '/'), c = '/' := by
    intro c hc
    simpa using List.all_eq_true.mp List.all_takeWhile c hc
  have h := congrArg List.reverse
    (List.takeWhile_append_dropWhile (l := cs.reverse) (p := (· = '/')))
  rw [List.reverse_append, List.reverse_reverse] at h
  conv_lhs => rw [← h]
  rw [trimSlashes, List.eq_replicate_of_mem hall]
  simp

lemma name_trimSlashes_ne_empty {cs : List Char} (h : trimSlashes cs ≠ []) :
    name (String.ofList (trimSlashes cs)) ≠ "" := by
  have hne : cs.reverse.dropWhile (· = '/') ≠ [] := by simpa [trimSlashes] using h
  have hhead := List.head_dropWhile_not (· = '/') hne
  obtain ⟨c, rest, hcs⟩ := List.exists_cons_of_ne_nil hne
  have hc : c ≠ '/' := by simpa [hcs] using hhead
  simp [name, nameChars, trimSlashes, hcs, hc]

/-- Slashes at the end of a path add no component. -/
lemma components_append_slashes (bare : List Char) (k : ℕ) :
    components (String.ofList (bare ++ List.replicate k '/')) =
      components (String.ofList bare) := by
  induction k with
  | zero => simp
  | succ k ih =>
    have h : String.ofList (bare ++ List.replicate (k + 1) '/') =
        String.ofList (bare ++ List.replicate k '/') ++ "/" := by
      rw [← String.toList_inj]
      simp [List.replicate_succ']
    rw [h, components_append_slash_end, ih]

lemma components_ofList_trimSlashes (cs : List Char) :
    components (String.ofList (trimSlashes cs)) = components (String.ofList cs) := by
  obtain ⟨k, hk⟩ := exists_trimSlashes_append cs
  conv_rhs => rw [hk]
  exact (components_append_slashes _ k).symm

/-- The components of a path are those in front of its last name, and that name. -/
lemma components_eq_parent (p : String) :
    components p = components (parent p) ++ components (name p) := by
  have hparent : components (parent p) = components (String.ofList (frontChars p.toList)) := by
    simp only [parent]
    split_ifs
    · rfl
    · exact components_ofList_trimSlashes _
  have hp : p = String.ofList (frontChars p.toList) ++ name p := by
    rw [← String.toList_inj]
    simp [name, frontChars_append_nameChars]
  rw [hparent]
  by_cases hf : frontChars p.toList = []
  · conv_lhs => rw [hp]
    simp [hf]
  · obtain ⟨front, hfront⟩ := eq_append_slash
      (p := String.ofList (frontChars p.toList)) (by simp [endsInSlash, getLast?_frontChars hf])
    rw [hfront] at hp ⊢
    conv_lhs => rw [hp]
    rw [components_append_slash, components_append_slash_end]

/-- Between what is in front of the last name and that name there are only slashes. -/
lemma exists_parent_append (p : String) :
    ∃ k, p.toList = (parent p).toList ++ List.replicate k '/' ++ (name p).toList := by
  have hchars := frontChars_append_nameChars p.toList
  obtain ⟨k, hk⟩ := exists_trimSlashes_append (frontChars p.toList)
  simp only [parent, name, String.toList_ofList]
  split_ifs
  · exact ⟨0, by rw [List.replicate_zero, List.append_nil, hchars]⟩
  · exact ⟨k, by rw [← hk, hchars]⟩

/-- A path has the characters of what is in front of its last name, slashes, and that name's. -/
lemma mem_of_parent {c : Char} (h : c ∈ p.toList) :
    c ∈ (parent p).toList ∨ c = '/' ∨ c ∈ (name p).toList := by
  obtain ⟨k, hp⟩ := exists_parent_append p
  rw [hp, List.mem_append, List.mem_append] at h
  rcases h with (h | h) | h
  · exact .inl h
  · exact .inr (.inl (List.eq_of_mem_replicate h))
  · exact .inr (.inr h)

lemma name_subset (p : String) : (name p).toList ⊆ p.toList := by
  obtain ⟨k, h⟩ := exists_parent_append p
  rw [h]
  exact List.subset_append_right _ _

lemma parent_isPrefix (p : String) : (parent p).toList <+: p.toList := by
  obtain ⟨k, h⟩ := exists_parent_append p
  exact ⟨List.replicate k '/' ++ (name p).toList, by rw [h, List.append_assoc]⟩

lemma length_parent_lt (h : name p ≠ "") : (parent p).length < p.length := by
  obtain ⟨k, hp⟩ := exists_parent_append p
  have hlen := congrArg List.length hp
  have hname : (name p).toList ≠ [] := by simpa using h
  have hpos := List.length_pos_iff.mpr hname
  simp only [List.length_append, String.length_toList] at hlen hpos
  omega

/-- What is in front of the last name starts where the path does. -/
lemma isAbsolute_parent (h : parent p ≠ "") : isAbsolute (parent p) = isAbsolute p := by
  obtain ⟨rest, hp⟩ := parent_isPrefix p
  have hne : (parent p).toList ≠ [] := by simpa using h
  obtain ⟨c, cs, hcs⟩ := List.exists_cons_of_ne_nil hne
  simp [isAbsolute, ← hp, hcs]

@[simp] lemma parent_empty : parent "" = "" := by simp [parent, frontChars, trimSlashes]

end Path

namespace Files

open SourceRecovery.Path

variable {p : String}

/-- The components of a path whose last step has a name. -/
lemma components_eq_lastStep (h : (lastStep p).2 ≠ "") :
    components p = components (lastStep p).1 ++ [(lastStep p).2] := by
  have hname (q : String) (hq : name q ≠ "") :
      components q = components (parent q) ++ [name q] := by
    rw [components_eq_parent q, components_name (slash_notMem_name q) hq]
  unfold lastStep at h ⊢
  split_ifs at h ⊢ with hp
  · rw [components_eq_parent p, hp, components_empty, List.append_nil, hname _ h]
  · exact hname p hp

/-- A path whose last step has no name leads nowhere. -/
lemma components_eq_nil_of_lastStep (h : (lastStep p).2 = "") : components p = [] := by
  unfold lastStep at h
  split_ifs at h with hp
  · rw [components_eq_parent p, hp, components_empty, List.append_nil]
    simp only [parent] at h ⊢
    split_ifs at h ⊢ with ht
    · rw [← components_ofList_trimSlashes, ht, String.ofList_nil, components_empty]
    · exact absurd h (name_trimSlashes_ne_empty ht)
  · exact absurd h hp

lemma length_lastStep_lt (h : (lastStep p).2 ≠ "") : (lastStep p).1.length < p.length := by
  unfold lastStep at h ⊢
  split_ifs at h ⊢ with hp
  · have hlen := List.IsPrefix.length_le (parent_isPrefix p)
    simp only [String.length_toList] at hlen
    exact Nat.lt_of_lt_of_le (length_parent_lt h) hlen
  · exact length_parent_lt hp

lemma lastStep_isPrefix (p : String) : (lastStep p).1.toList <+: p.toList := by
  unfold lastStep
  split_ifs
  · exact (parent_isPrefix _).trans (parent_isPrefix p)
  · exact parent_isPrefix p

lemma mem_of_lastStep {c : Char} (h : c ∈ p.toList) :
    c ∈ (lastStep p).1.toList ∨ c = '/' ∨ c ∈ (lastStep p).2.toList := by
  unfold lastStep
  split_ifs with hp
  · rcases mem_of_parent h with h | h | h
    · exact mem_of_parent h
    · exact .inr (.inl h)
    · simp [hp] at h
  · exact mem_of_parent h

lemma slash_notMem_lastStep (p : String) : '/' ∉ (lastStep p).2.toList := by
  unfold lastStep
  split_ifs
  · exact slash_notMem_name _
  · exact slash_notMem_name p

lemma lastStep_subset (p : String) : (lastStep p).2.toList ⊆ p.toList := by
  unfold lastStep
  split_ifs
  · exact List.Subset.trans (name_subset _) (parent_isPrefix p).subset
  · exact name_subset p

lemma isAbsolute_lastStep (h : (lastStep p).1 ≠ "") :
    isAbsolute (lastStep p).1 = isAbsolute p := by
  unfold lastStep at h ⊢
  split_ifs at h ⊢ with hp
  · have hparent : parent p ≠ "" := by
      intro he
      rw [he, parent_empty] at h
      exact h rfl
    rw [isAbsolute_parent h, isAbsolute_parent hparent]
  · exact isAbsolute_parent h

end Files

namespace Path

variable {p q n : String} {cwd base cs : List String}

/-! ### Places -/

/-- The places that a path passes through, from where it starts to where it leads. -/
def places (cwd : List String) (p : String) : List (List String) :=
  (components p).scanl step (origin cwd p)

/-- The place that a path leads to. -/
def destination (cwd : List String) (p : String) : List String :=
  settle (origin cwd p) (components p)

lemma places_ne_nil (cwd : List String) (p : String) : places cwd p ≠ [] := List.scanl_ne_nil

/-- The last place that a path passes through is the one that it leads to. -/
lemma dropLast_places_append (cwd : List String) (p : String) :
    (places cwd p).dropLast ++ [destination cwd p] = places cwd p := by
  have hlast : (places cwd p).getLast (places_ne_nil cwd p) = destination cwd p := by
    simp [places, destination, settle, List.getLast_scanl]
  rw [← hlast, List.dropLast_concat_getLast]

lemma destination_mem_places (cwd : List String) (p : String) :
    destination cwd p ∈ places cwd p := by
  rw [← dropLast_places_append]
  simp

lemma origin_mem_places (cwd : List String) (p : String) : origin cwd p ∈ places cwd p := by
  cases h : components p <;> simp [places, h]

/-- A path that has a component starts at a place in front of the one it leads to. -/
lemma origin_mem_dropLast (cwd : List String) (h : components p ≠ []) :
    origin cwd p ∈ (places cwd p).dropLast := by
  obtain ⟨c, cs, hcs⟩ := List.exists_cons_of_ne_nil h
  have hne : cs.scanl step (step (origin cwd p) c) ≠ [] := List.scanl_ne_nil
  rw [places, hcs, List.scanl_cons, List.dropLast_cons_of_ne_nil hne]
  exact List.mem_cons_self

/-- One more component adds one more place. -/
lemma places_append_component (ho : origin cwd q = origin cwd p)
    (hc : components q = components p ++ [n]) :
    places cwd q = places cwd p ++ [step (destination cwd p) n] := by
  rw [places, places, destination, settle, hc, ho, List.scanl_append]
  simp

lemma destination_append_component (ho : origin cwd q = origin cwd p)
    (hc : components q = components p ++ [n]) :
    destination cwd q = step (destination cwd p) n := by
  simp [destination, settle, hc, ho]

/-- A name that leads on: one component of its own. -/
structure IsName (n : String) : Prop where
  ne_empty : n ≠ ""
  ne_dot : n ≠ "."
  ne_dots : n ≠ ".."
  no_slash : '/' ∉ n.toList

lemma IsName.step (h : IsName n) (at_ : List String) : Path.step at_ n = at_ ++ [n] := by
  simp [Path.step, h.ne_dot, h.ne_dots]

/-- A text with an ending of some length is a name if there is no slash in it. -/
lemma isName_append {ending : String} (h : '/' ∉ n.toList) (he : '/' ∉ ending.toList)
    (hl : 3 ≤ ending.length) : IsName (n ++ ending) := by
  have hlen (s : String) (hs : s.length < 3) : n ++ ending ≠ s := by
    intro heq
    have := congrArg String.length heq
    rw [String.length_append] at this
    omega
  exact ⟨hlen _ (by decide), hlen _ (by decide), hlen _ (by decide), by simp [h, he]⟩

lemma origin_join (h : IsName n) : origin cwd (join p n) = origin cwd p := by
  simp only [origin, isAbsolute_join (isAbsolute_of_no_slash h.no_slash)]

lemma components_join_name (h : IsName n) : components (join p n) = components p ++ [n] := by
  rw [components_join (isAbsolute_of_no_slash h.no_slash), components_name h.no_slash h.ne_empty]

lemma destination_join (h : IsName n) : destination cwd (join p n) = destination cwd p ++ [n] := by
  rw [destination_append_component (origin_join h) (components_join_name h), h.step]

lemma places_join (h : IsName n) :
    places cwd (join p n) = places cwd p ++ [destination cwd p ++ [n]] := by
  rw [places_append_component (origin_join h) (components_join_name h), h.step]

lemma nameChars_append {front cs : List Char} (hf : front = [] ∨ front.getLast? = some '/')
    (h : '/' ∉ cs) : nameChars (front ++ cs) = cs := by
  have htake : front.reverse.takeWhile (· ≠ '/') = [] := by
    rcases hf with rfl | hlast
    · rfl
    · obtain ⟨front, rfl⟩ := List.getLast?_eq_some_iff.mp hlast
      simp
  have hall : ∀ c ∈ cs.reverse, decide (c ≠ '/') = true := by
    intro c hc
    simp only [decide_eq_true_eq]
    rintro rfl
    exact h (List.mem_reverse.mp hc)
  rw [nameChars, List.reverse_append, List.takeWhile_append_of_pos hall, htake]
  simp

/-- The last part of a path below another one. -/
lemma name_join (h : IsName n) : name (join p n) = n := by
  obtain ⟨front, hf, hp⟩ : ∃ front : List Char,
      (front = [] ∨ front.getLast? = some '/') ∧ (join p n).toList = front ++ n.toList := by
    simp only [join, isAbsolute_of_no_slash h.no_slash, Bool.false_eq_true, if_false]
    split_ifs with hp
    · refine ⟨p.toList, ?_, by simp⟩
      simpa [endsInSlash] using hp
    · exact ⟨p.toList ++ ['/'], by simp, by simp⟩
  rw [name, hp, nameChars_append hf h.no_slash, String.ofList_toList]

/-! ### Longer last names -/

/-- A path that does not end in a slash ends in a name. -/
lemma name_ne_empty (hp : p ≠ "") (h : endsInSlash p = false) : name p ≠ "" := by
  intro hn
  have hname : nameChars p.toList = [] := by simpa [name] using hn
  have hfront : frontChars p.toList = p.toList := by
    simpa [hname] using frontChars_append_nameChars p.toList
  have hne : frontChars p.toList ≠ [] := by simpa [hfront] using hp
  have hlast := getLast?_frontChars hne
  rw [hfront] at hlast
  simp [endsInSlash, hlast] at h

lemma name_append {ending : String} (h : '/' ∉ ending.toList) :
    name (p ++ ending) = name p ++ ending := by
  have hall : ∀ c ∈ ending.toList.reverse, decide (c ≠ '/') = true := by
    intro c hc
    simp only [decide_eq_true_eq]
    rintro rfl
    exact h (List.mem_reverse.mp hc)
  rw [← String.toList_inj]
  simp only [name, nameChars, String.toList_append, String.toList_ofList, List.reverse_append,
    List.takeWhile_append_of_pos hall, List.reverse_reverse]

lemma endsInSlash_of_name (h : name p ≠ "") : endsInSlash p = false := by
  by_contra hs
  obtain ⟨q, rfl⟩ := eq_append_slash (by simpa using hs)
  exact h (by simp [name, nameChars])

/-- Below a directory without a slash at its end, each of some names stands behind a slash. -/
lemma joinAll_eq {names : List String} (h : ∀ n ∈ names, IsName n) (hne : p ≠ "")
    (hslash : endsInSlash p = false) :
    joinAll p names = p ++ String.join (names.map ("/" ++ ·)) := by
  induction names generalizing p with
  | nil => simp [joinAll]
  | cons n names ih =>
    obtain ⟨hn, hnames⟩ := List.forall_mem_cons.mp h
    have hjoin : join p n = p ++ "/" ++ n := by
      simp [join, isAbsolute_of_no_slash hn.no_slash, hne, hslash]
    have hsome : join p n ≠ "" := by simp [hjoin]
    have hrest : endsInSlash (join p n) = false :=
      endsInSlash_of_name (by rw [name_join hn]; exact hn.ne_empty)
    calc joinAll p (n :: names) = joinAll (join p n) names := rfl
      _ = join p n ++ String.join (names.map ("/" ++ ·)) := ih hnames hsome hrest
      _ = p ++ String.join ((n :: names).map ("/" ++ ·)) := by
        rw [hjoin]
        simp [String.append_assoc]

lemma isAbsolute_append {ending : String} (h : isAbsolute ending = false) :
    isAbsolute (n ++ ending) = isAbsolute n := by
  by_cases hn : n = ""
  · subst hn
    rw [String.empty_append, h]
    rfl
  · have ht : n.toList ≠ [] := by simpa using hn
    obtain ⟨c, cs, hcs⟩ := List.exists_cons_of_ne_nil ht
    simp [isAbsolute, hcs]

lemma join_append {ending : String} (h : isAbsolute ending = false) :
    join p (n ++ ending) = join p n ++ ending := by
  simp only [join, isAbsolute_append h]
  split_ifs
  · rfl
  · rw [String.append_assoc]
  · simp only [String.append_assoc]

lemma parent_append {ending : String} (h : '/' ∉ ending.toList) :
    parent (p ++ ending) = parent p := by
  have hall : ∀ c ∈ ending.toList.reverse, decide (c ≠ '/') = true := by
    intro c hc
    simp only [decide_eq_true_eq]
    rintro rfl
    exact h (List.mem_reverse.mp hc)
  have hfront : frontChars (p ++ ending).toList = frontChars p.toList := by
    rw [frontChars, String.toList_append, List.reverse_append,
      List.dropWhile_append_of_pos hall, frontChars]
  simp only [parent, hfront]

/-- A path that starts with a slash has it in front of its last name. -/
lemma parent_ne_empty (h : isAbsolute p = true) : parent p ≠ "" := by
  have hfront : frontChars p.toList ≠ [] := by
    intro hf
    have hp := frontChars_append_nameChars p.toList
    rw [hf, List.nil_append] at hp
    refine slash_notMem_nameChars p.toList ?_
    rw [hp]
    exact List.mem_of_mem_head? (by simpa [isAbsolute] using h)
  simp only [parent]
  split_ifs with ht
  · simpa using hfront
  · simpa using ht

/-- A path starts where what is in front of its last name does. -/
lemma origin_parent (cwd : List String) (p : String) : origin cwd (parent p) = origin cwd p := by
  by_cases hp : parent p = ""
  · have ha : isAbsolute p = false := by
      by_contra ha
      exact parent_ne_empty (by simpa using ha) hp
    rw [hp, origin, origin, ha]
    rfl
  · rw [origin, origin, isAbsolute_parent hp]

/-- A path that has a last name passes through one more place than what is in front of it. -/
lemma places_eq_parent (cwd : List String) (h : name p ≠ "") :
    places cwd p = places cwd (parent p) ++ [step (destination cwd (parent p)) (name p)] :=
  places_append_component (origin_parent cwd p).symm
    (by rw [components_eq_parent p, components_name (slash_notMem_name p) h])

lemma dropLast_places_eq_parent (cwd : List String) (h : name p ≠ "") :
    (places cwd p).dropLast = places cwd (parent p) := by
  rw [places_eq_parent cwd h, List.dropLast_concat]

lemma destination_eq_parent (cwd : List String) (h : name p ≠ "") :
    destination cwd p = step (destination cwd (parent p)) (name p) :=
  destination_append_component (origin_parent cwd p).symm
    (by rw [components_eq_parent p, components_name (slash_notMem_name p) h])

/-- A path with an ending of some length ends in a name. -/
lemma isName_name_append {ending : String} (he : '/' ∉ ending.toList) (hl : 3 ≤ ending.length) :
    IsName (name (p ++ ending)) := by
  rw [name_append he]
  exact isName_append (slash_notMem_name p) he hl

/-- A path with an ending passes through the places of what is in front of its last name. -/
lemma dropLast_places_append_ending {ending : String} (cwd : List String) (p : String)
    (he : '/' ∉ ending.toList) (hl : 3 ≤ ending.length) :
    (places cwd (p ++ ending)).dropLast = places cwd (parent p) := by
  rw [dropLast_places_eq_parent cwd (isName_name_append he hl).ne_empty, parent_append he]

/-- A path without a last name passes through the places of what is in front of it. -/
lemma places_of_name_eq_empty (cwd : List String) (h : name p = "") :
    places cwd p = places cwd (parent p) := by
  rw [places, places, origin_parent, components_eq_parent p, h, components_empty, List.append_nil]

lemma isPrefix_join (h : isAbsolute q = false) : p.toList <+: (join p q).toList := by
  simp only [join, h, Bool.false_eq_true, if_false]
  split_ifs
  · exact ⟨q.toList, by simp⟩
  · exact ⟨'/' :: q.toList, by simp⟩

lemma subset_join (p q : String) : q.toList ⊆ (join p q).toList := by
  intro c hc
  unfold join
  split_ifs <;> simp [hc]

end Path

namespace Files

open SourceRecovery.Path

lemma lastStep_join {p n : String} (h : IsName n) : (lastStep (join p n)).2 = n := by
  rw [lastStep, name_join h, if_neg h.ne_empty]

lemma origin_lastStep {p : String} {cwd : List String} (h : (lastStep p).1 ≠ "") :
    origin cwd (lastStep p).1 = origin cwd p := by
  simp only [origin, isAbsolute_lastStep h]

/-- The places of a path are those of what is in front of its last step, and one more. -/
lemma places_eq_lastStep {p : String} (cwd : List String) (hhead : (lastStep p).1 ≠ "")
    (hname : (lastStep p).2 ≠ "") :
    places cwd p =
      places cwd (lastStep p).1 ++ [step (destination cwd (lastStep p).1) (lastStep p).2] :=
  places_append_component (origin_lastStep hhead).symm (components_eq_lastStep hname)

end Files

end SourceRecovery

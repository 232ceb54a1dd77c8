import SourceRecovery.Project
import SourceRecovery.Proofs.Text.Replace

/-!
# What fixing up leaves of a project file

The elements that are replaced, and what replaces them, are apart from each other, so that each
step can be told by itself. A project file that is fixed up has no more of the old framework and
has the needed reference wherever it can be put in. A client profile is left if it was torn, and
only then does fixing up again change anything.
-/

namespace SourceRecovery.Project

open SourceRecovery.Text

variable {cs q : List Char} {s : String}

/-- What is put in front of the reference to the core: the needed one and the end of its line. -/
def insertion : String := xmlReference ++ "\n    "

/-! ### The elements of project files -/

/-- What fixing up reads and writes, compared with each other character by character. -/
lemma elements_compared :
    (Unbordered clientProfile.toList ∧ Unbordered xmlReference.toList) ∧
      (∀ q ∈ [legacyFramework.toList, targetFramework.toList, coreReference.toList,
        bothReferences.toList], Apart clientProfile.toList q) ∧
      (∀ q ∈ [targetFramework.toList, coreReference.toList, bothReferences.toList],
        Apart legacyFramework.toList q) ∧
      (Apart coreReference.toList insertion.toList ∧ Apart xmlReference.toList "\n    ".toList) ∧
      targetFramework.toList.length = legacyFramework.toList.length ∧
      insertion.toList.length < clientProfile.toList.length := by
  simp only [clientProfile, legacyFramework, targetFramework, coreReference, insertion,
    bothReferences, xmlReference, String.toList_append, String.reduceToList]
  decide +kernel

lemma unbordered_clientProfile : Unbordered clientProfile.toList := elements_compared.1.1

lemma unbordered_xmlReference : Unbordered xmlReference.toList := elements_compared.1.2

/-- The client profile is apart from all else that fixing up reads or writes. -/
lemma apart_clientProfile : ∀ q ∈ [legacyFramework.toList, targetFramework.toList,
    coreReference.toList, bothReferences.toList], Apart clientProfile.toList q :=
  elements_compared.2.1

/-- The old framework is apart from all that fixing up reads or writes after it is replaced. -/
lemma apart_legacyFramework : ∀ q ∈ [targetFramework.toList, coreReference.toList,
    bothReferences.toList], Apart legacyFramework.toList q :=
  elements_compared.2.2.1

lemma apart_coreReference : Apart coreReference.toList insertion.toList :=
  elements_compared.2.2.2.1.1

lemma apart_xmlReference : Apart xmlReference.toList "\n    ".toList :=
  elements_compared.2.2.2.1.2

lemma length_targetFramework : targetFramework.toList.length = legacyFramework.toList.length :=
  elements_compared.2.2.2.2.1

lemma length_insertion_lt : insertion.toList.length < clientProfile.toList.length :=
  elements_compared.2.2.2.2.2

lemma clientProfile_ne_nil : clientProfile.toList ≠ [] :=
  List.ne_nil_of_length_pos (Nat.zero_lt_of_lt length_insertion_lt)

lemma legacyFramework_ne_nil : legacyFramework.toList ≠ [] :=
  (apart_clientProfile _ (by simp)).ne_nil clientProfile_ne_nil

lemma coreReference_ne_nil : coreReference.toList ≠ [] :=
  (apart_clientProfile _ (by simp)).ne_nil clientProfile_ne_nil

lemma toList_bothReferences :
    bothReferences.toList = insertion.toList ++ coreReference.toList := by
  simp [bothReferences, insertion]

/-! ### Raising the framework -/

lemma not_infix_retargetChars : ¬ legacyFramework.toList <:+: retargetChars cs :=
  not_infix_replaceAll legacyFramework_ne_nil (apart_legacyFramework _ (by simp))

lemma retargetChars_eq_self (hclient : ¬ clientProfile.toList <:+: cs)
    (hlegacy : ¬ legacyFramework.toList <:+: cs) : retargetChars cs = cs := by
  rw [retargetChars, replaceAll_eq_self clientProfile_ne_nil hclient,
    replaceAll_eq_self legacyFramework_ne_nil hlegacy]

/-- Raising the framework neither makes nor removes a client profile: one is left if it was torn. -/
lemma infix_retargetChars_iff :
    clientProfile.toList <:+: retargetChars cs ↔ IsTorn clientProfile.toList cs := by
  rw [retargetChars, infix_replaceAll_iff legacyFramework_ne_nil clientProfile_ne_nil
      (apart_clientProfile _ (by simp)) (apart_clientProfile _ (by simp)),
    infix_delete_iff unbordered_clientProfile clientProfile_ne_nil]

/-- Only deleting client profiles changes the length. -/
lemma exists_length_retargetChars (cs : List Char) :
    ∃ n, (retargetChars cs).length + n * clientProfile.toList.length = cs.length ∧
      (n = 0 → ¬ clientProfile.toList <:+: cs) := by
  obtain ⟨n, hdeleted, hn⟩ := exists_length_replaceAll clientProfile_ne_nil [] cs
  obtain ⟨m, hraised, -⟩ := exists_length_replaceAll legacyFramework_ne_nil targetFramework.toList
    (replaceAll clientProfile.toList [] cs)
  refine ⟨n, ?_, hn⟩
  rw [length_targetFramework] at hraised
  rw [List.length_nil, Nat.mul_zero, Nat.add_zero] at hdeleted
  rw [retargetChars]
  omega

/-! ### Putting the reference in -/

/-- The needed reference is there or cannot be put in, and nothing is done; or it is put in front
of the first reference to the core. -/
lemma referenceChars_cases (cs : List Char) :
    (xmlReference.toList <:+: cs ∨ ¬ coreReference.toList <:+: cs) ∧ referenceChars cs = cs ∨
      ¬ xmlReference.toList <:+: cs ∧ ∃ front back, ¬ coreReference.toList <:+: front ∧
        cs = front ++ (coreReference.toList ++ back) ∧
        referenceChars cs = front ++ (bothReferences.toList ++ back) := by
  by_cases hxml : xmlReference.toList <:+: cs
  · exact .inl ⟨.inl hxml, if_pos (occursIn_iff.mpr hxml)⟩
  · have hput : referenceChars cs =
        replaceFirst coreReference.toList bothReferences.toList cs :=
      if_neg (mt occursIn_iff.mp hxml)
    rw [hput]
    by_cases hcore : coreReference.toList <:+: cs
    · obtain ⟨front, back, hfront, hcs, hreplace⟩ :=
        exists_replaceFirst coreReference_ne_nil hcore
      exact .inr ⟨hxml, front, back, hfront, hcs, hreplace _⟩
    · exact .inl ⟨.inr hcore, replaceFirst_eq_self coreReference_ne_nil hcore⟩

lemma length_referenceChars_le (cs : List Char) :
    (referenceChars cs).length ≤ cs.length + insertion.toList.length := by
  rcases referenceChars_cases cs with ⟨-, heq⟩ | ⟨-, front, back, -, rfl, heq⟩
  · rw [heq]
    omega
  · rw [heq, toList_bothReferences]
    simp only [List.length_append]
    omega

/-- What is apart from both references occurs as before. -/
lemma infix_referenceChars_iff (hcore : Apart q coreReference.toList)
    (hboth : Apart q bothReferences.toList) : q <:+: referenceChars cs ↔ q <:+: cs := by
  rcases referenceChars_cases cs with ⟨-, heq⟩ | ⟨-, front, back, -, rfl, heq⟩
  · rw [heq]
  · rw [heq, hboth.infix_append_iff, hcore.infix_append_iff]

lemma infix_xmlReference_of_coreReference (h : coreReference.toList <:+: referenceChars cs) :
    xmlReference.toList <:+: referenceChars cs := by
  rcases referenceChars_cases cs with ⟨hxml | hcore, heq⟩ | ⟨-, front, back, -, -, heq⟩
  · rwa [heq]
  · exact absurd (heq ▸ h) hcore
  · rw [heq, toList_bothReferences, insertion]
    exact ⟨front, "\n    ".toList ++ (coreReference.toList ++ back), by simp⟩

lemma referenceChars_eq_self (h : xmlReference.toList <:+: cs ∨ ¬ coreReference.toList <:+: cs) :
    referenceChars cs = cs := by
  rcases referenceChars_cases cs with ⟨-, heq⟩ | ⟨hxml, front, back, -, rfl, -⟩
  · exact heq
  · exact absurd (List.infix_append' front _ back) (h.resolve_left hxml)

/-! ### Fixing up -/

lemma toList_fixUp (s : String) :
    (fixUp s).toList = referenceChars (retargetChars s.toList) := by
  simp [fixUp]

/-- Characters come in with the framework and the references only. -/
lemma mem_fixUp {c : Char} (h : c ∈ (fixUp s).toList) :
    c ∈ s.toList ∨ c ∈ targetFramework.toList ∨ c ∈ bothReferences.toList := by
  have hraised (hc : c ∈ retargetChars s.toList) : c ∈ s.toList ∨ c ∈ targetFramework.toList := by
    rcases mem_replaceAll legacyFramework_ne_nil hc with hc | hc
    · exact .inl ((mem_replaceAll clientProfile_ne_nil hc).resolve_right List.not_mem_nil)
    · exact .inr hc
  rw [toList_fixUp] at h
  rcases referenceChars_cases (retargetChars s.toList) with ⟨-, heq⟩ | ⟨-, front, back, -, hcs, heq⟩
  · rw [heq] at h
    exact (hraised h).imp_right .inl
  · rw [heq, List.mem_append, List.mem_append] at h
    rw [hcs] at hraised
    rcases h with h | h | h
    · exact (hraised (by simp [h])).imp_right .inl
    · exact .inr (.inr h)
    · exact (hraised (by simp [h])).imp_right .inl

/-- The text of a project file without client profiles and with the framework raised. -/
def retargeted (s : String) : String := String.ofList (retargetChars s.toList)

lemma not_occurs_legacyFramework (s : String) : ¬ Occurs legacyFramework (fixUp s) := by
  rw [occurs_iff, toList_fixUp, infix_referenceChars_iff (apart_legacyFramework _ (by simp))
    (apart_legacyFramework _ (by simp))]
  exact not_infix_retargetChars

lemma occurs_xmlReference (h : Occurs coreReference (fixUp s)) :
    Occurs xmlReference (fixUp s) := by
  rw [occurs_iff, toList_fixUp] at h ⊢
  exact infix_xmlReference_of_coreReference h

/-- A client profile is left if it was torn. -/
lemma occurs_clientProfile_iff (s : String) :
    Occurs clientProfile (fixUp s) ↔ IsTorn clientProfile.toList s.toList := by
  rw [occurs_iff, toList_fixUp, infix_referenceChars_iff (apart_clientProfile _ (by simp))
    (apart_clientProfile _ (by simp)), infix_retargetChars_iff]

/-- Deleting a client profile takes out more than what can be put in. -/
lemma not_occurs_of_fixUp_eq_self (h : fixUp s = s) : ¬ Occurs clientProfile s := by
  obtain ⟨n, hlen, hn⟩ := exists_length_retargetChars s.toList
  have hle := length_referenceChars_le (retargetChars s.toList)
  rw [← toList_fixUp, h] at hle
  rw [occurs_iff]
  refine hn ?_
  by_contra hpos
  have hmore := Nat.le_mul_of_pos_left clientProfile.toList.length (Nat.pos_of_ne_zero hpos)
  have hless := length_insertion_lt
  omega

/-- A project file that needs none of the steps is left as it is, and no other one. -/
lemma fixUp_eq_self_iff (s : String) : fixUp s = s ↔
    ¬ Occurs clientProfile s ∧ ¬ Occurs legacyFramework s ∧
      (Occurs xmlReference s ∨ ¬ Occurs coreReference s) := by
  constructor
  · intro h
    have hlegacy := not_occurs_legacyFramework s
    have hput := or_not_of_imp (occurs_xmlReference (s := s))
    rw [h] at hlegacy hput
    exact ⟨not_occurs_of_fixUp_eq_self h, hlegacy, hput⟩
  · simp only [occurs_iff]
    rintro ⟨hclient, hlegacy, hxml⟩
    rw [← String.toList_inj, toList_fixUp, retargetChars_eq_self hclient hlegacy,
      referenceChars_eq_self hxml]

/-- Fixing up again does nothing if no client profile is left. -/
lemma fixUp_fixUp_iff (s : String) :
    fixUp (fixUp s) = fixUp s ↔ ¬ Occurs clientProfile (fixUp s) := by
  have hput : Occurs xmlReference (fixUp s) ∨ ¬ Occurs coreReference (fixUp s) :=
    or_not_of_imp occurs_xmlReference
  rw [fixUp_eq_self_iff, and_iff_left ⟨not_occurs_legacyFramework s, hput⟩]

/-- The needed reference stands in a text at most once, and with the end of its line right in
front of the first reference to the core. -/
structure IsPutIn (s : String) : Prop where
  once : AtMostOnce xmlReference s
  first : ∀ front back, s = front ++ xmlReference ++ back →
    IsFirst coreReference (front ++ xmlReference ++ "\n    ") s

/-- Where the needed reference is put in and was missing, it stands nowhere else. -/
lemma eq_front_of_put {front back x y : List Char}
    (h : ¬ xmlReference.toList <:+: front ++ (coreReference.toList ++ back))
    (heq : front ++ (bothReferences.toList ++ back) = x ++ (xmlReference.toList ++ y)) :
    x = front := by
  rw [toList_bothReferences, insertion, String.toList_append, List.append_assoc,
    List.append_assoc] at heq
  refine unbordered_xmlReference.eq_of_append (fun hin => h ?_) (fun hin => h ?_) heq
  · exact hin.trans (List.prefix_append front _).isInfix
  · rcases apart_xmlReference.front_or_back (x := []) hin with hin | hin
    · exact absurd (List.infix_nil.mp hin) (by simp [xmlReference])
    · exact hin.trans (List.suffix_append front _).isInfix

/-- Where the needed reference is missing, it is put in as far as it can be. -/
lemma isPutIn_fixUp (h : ¬ Occurs xmlReference (retargeted s)) : IsPutIn (fixUp s) := by
  rw [occurs_iff, retargeted, String.toList_ofList] at h
  have hcases := referenceChars_cases (retargetChars s.toList)
  rw [← toList_fixUp] at hcases
  rcases hcases with ⟨-, heq⟩ | ⟨-, front, back, hfront, hcs, heq⟩
  · rw [← heq, ← occurs_iff] at h
    exact ⟨fun x y _ _ hs _ => absurd ⟨x, y, hs⟩ h, fun x y hs => absurd ⟨x, y, hs⟩ h⟩
  · rw [hcs] at h
    have hplace (x y : String) (hs : fixUp s = x ++ xmlReference ++ y) : x.toList = front :=
      eq_front_of_put h (heq.symm.trans (eq_append_iff.mp hs))
    refine ⟨fun x y x' y' hs hs' => ?_,
      fun x y hs => ⟨⟨String.ofList back, ?_⟩, fun x' y' hs' => ?_⟩⟩
    · rw [← String.toList_inj, hplace x y hs, hplace x' y' hs']
    · rw [eq_append_iff, heq, toList_bothReferences, insertion, ← hplace x y hs]
      simp
    · rw [eq_append_iff, heq, toList_bothReferences, List.append_assoc] at hs'
      have hle := apart_coreReference.length_le hfront hs'
      rw [← hplace x y hs] at hle
      simp only [insertion, List.length_append, String.length_toList, String.length_append] at hle ⊢
      omega

/-! ### What holds of every project file -/

/-- A project file that is fixed up has settled, and holds no client profile, if and only if it held
no torn one. -/
theorem settles_iff (s : String) :
    (fixUp (fixUp s) = fixUp s ↔ ¬ IsTorn clientProfile.toList s.toList) ∧
      (¬ Occurs clientProfile (fixUp s) ↔ ¬ IsTorn clientProfile.toList s.toList) := by
  rw [fixUp_fixUp_iff, occurs_clientProfile_iff]
  exact ⟨.rfl, .rfl⟩

/-- A client profile inside another one. -/
def tornSample : String :=
  "<TargetFrameworkProfile>Cli" ++ clientProfile ++ "ent</TargetFrameworkProfile>"

/-- Of a client profile inside another one the inner one is deleted, so that the outer one is left,
and fixing up again changes the text once more. -/
theorem not_settled_sample :
    fixUp (fixUp tornSample) ≠ fixUp tornSample ∧ Occurs clientProfile (fixUp tornSample) := by
  have hjoined :
      "<TargetFrameworkProfile>Cli" ++ "ent</TargetFrameworkProfile>" = clientProfile := by
    decide +kernel
  have htorn := isTorn_inside (s := "<TargetFrameworkProfile>Cli")
    (t := "ent</TargetFrameworkProfile>") (by decide) (by decide)
  rw [hjoined] at htorn
  have hleft := (occurs_clientProfile_iff tornSample).mpr htorn
  exact ⟨fun h => (fixUp_fixUp_iff tornSample).mp h hleft, hleft⟩

/-- What fixing up does to a project file: the old framework is gone, the needed reference is there
where the core is referred to, and it is put in where it was missing. Exactly the project files that
need none of this are left as they are, among them all that are fixed up and hold no client
profile. -/
theorem fixUp_exact (s : String) :
    ¬ Occurs legacyFramework (fixUp s) ∧
      (Occurs coreReference (fixUp s) → Occurs xmlReference (fixUp s)) ∧
      (¬ Occurs xmlReference (retargeted s) → IsPutIn (fixUp s)) ∧
      (fixUp s = s ↔ ¬ Occurs clientProfile s ∧ ¬ Occurs legacyFramework s ∧
        (Occurs xmlReference s ∨ ¬ Occurs coreReference s)) ∧
      (fixUp (fixUp s) = fixUp s ↔ ¬ Occurs clientProfile (fixUp s)) :=
  ⟨not_occurs_legacyFramework s, occurs_xmlReference, isPutIn_fixUp, fixUp_eq_self_iff s,
    fixUp_fixUp_iff s⟩

/-- A reference to the core alone: the needed reference is put in once, right in front of it. -/
theorem fixUp_exact_sample :
    fixUp coreReference = bothReferences ∧ ¬ Occurs xmlReference (retargeted coreReference) ∧
      ¬ Occurs legacyFramework (fixUp coreReference) ∧ IsPutIn (fixUp coreReference) := by
  obtain ⟨hlegacy, -, hput, -⟩ := fixUp_exact coreReference
  have hxml : ¬ xmlReference.toList <:+: coreReference.toList := by
    rw [← occursIn_iff]
    simp only [xmlReference, coreReference, String.reduceToList]
    decide +kernel
  have hsame : retargetChars coreReference.toList = coreReference.toList :=
    retargetChars_eq_self
      ((apart_clientProfile _ (by simp)).not_inside clientProfile_ne_nil)
      ((apart_legacyFramework _ (by simp)).not_inside legacyFramework_ne_nil)
  have hmissing : ¬ Occurs xmlReference (retargeted coreReference) := by
    rwa [occurs_iff, retargeted, String.toList_ofList, hsame]
  refine ⟨?_, hmissing, hlegacy, hput hmissing⟩
  rw [← String.toList_inj, toList_fixUp, hsame, referenceChars,
    if_neg (mt occursIn_iff.mp hxml)]
  simpa using replaceFirst_append_self coreReference_ne_nil []

end SourceRecovery.Project

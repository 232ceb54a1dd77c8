import SourceRecovery.Proofs.Files.Walk
import SourceRecovery.Proofs.Resolver

/-!
# The directories of a resolver

A resolver is set up with some directories, and gets more of them while the program moves from one
working directory to another. Whatever happens, it searches the absolute forms that the
directories had when they were given, in the order in which they were given, each once.

The places that the directories were given at are kept in a record beside the resolver, which the
resolver itself does not look at.
-/

namespace SourceRecovery.Resolver

open SourceRecovery.Path

/-- A working directory as the system tells it: names one below the other. -/
structure Place where
  components : List String
  names : ∀ c ∈ components, IsName c

/-- A resolver in the working directory that the program is in. -/
structure Setup where
  place : Place
  resolver : Resolver

/-- What happens to a resolver. -/
inductive Act where
  /-- The program enters another working directory. -/
  | enter (place : Place)
  /-- A directory is added. -/
  | add (directory : String)

/-- A directory as it was given, and the working directory it was given in. -/
structure Request where
  place : Place
  directory : String

/-- What the directory of a request was when it was given, as an absolute path in normal form. -/
def Request.form (q : Request) : String :=
  normal (join (ofComponents q.place.components) q.directory)

namespace Setup

/-- A resolver that is set up in a working directory. -/
def start (place : Place) (ds : List String) (strict : Bool) : Setup :=
  ⟨place, ofDirectories place.components ds strict⟩

def step (s : Setup) : Act → Setup
  | .enter place => { s with place }
  | .add d => { s with resolver := s.resolver.add s.place.components d }

def run (s : Setup) (acts : List Act) : Setup := acts.foldl step s

end Setup

/-- The directories that are added from a working directory on. -/
def requests (place : Place) : List Act → List Request
  | [] => []
  | .enter place :: acts => requests place acts
  | .add d :: acts => ⟨place, d⟩ :: requests place acts

/-- The directories that a resolver is given: those it is set up with and those that are added. -/
def given (place : Place) (ds : List String) (acts : List Act) : List Request :=
  (ds.map fun d => ⟨place, d⟩) ++ requests place acts

/-! ### Each directory once -/

lemma isPrefix_insert (ds : List String) (d : String) : ds <+: insert ds d := by
  unfold insert
  split_ifs
  · exact List.prefix_rfl
  · exact List.prefix_append ds [d]

lemma insert_of_mem {ds : List String} {d : String} (h : d ∈ ds) : insert ds d = ds := by
  simp [insert, h]

/-! ### The forms of requests -/

variable {q q' : Request} {s : Setup} {qs : List Request}

lemma Request.form_eq_absolute (q : Request) :
    q.form = absolute q.place.components q.directory :=
  (absolute_eq_normal q.place.names q.directory).symm

/-- The form of a request is the same in every working directory. -/
lemma Request.form_form (q : Request) (place : Place) : Request.form ⟨place, q.form⟩ = q.form := by
  rw [Request.form_eq_absolute, Request.form_eq_absolute q]
  exact absolute_absolute q.place.names q.directory place.components

/-- Requests have the same form if they lead to the same place after the same slashes. -/
lemma Request.form_eq_form_iff : q.form = q'.form ↔ root q.directory = root q'.directory ∧
    destination q.place.components q.directory = destination q'.place.components q'.directory := by
  rw [Request.form_eq_absolute, Request.form_eq_absolute]
  exact absolute_eq_absolute_iff q.place.names q'.place.names

/-! ### One step -/

/-- A resolver searches what was given to it, in this order and each form once. -/
def Setup.Searches (s : Setup) (qs : List Request) : Prop :=
  s.resolver.directories = (qs.map Request.form).eraseDups

lemma searches_start (place : Place) (ds : List String) (strict : Bool) :
    (Setup.start place ds strict).Searches (ds.map fun d => ⟨place, d⟩) := by
  have hforms : Request.form ∘ (fun d => ⟨place, d⟩) = absolute place.components :=
    funext fun d => Request.form_eq_absolute ⟨place, d⟩
  rw [Setup.Searches, Setup.start, ofDirectories_eq, List.map_map, hforms]

/-- A step adds to what a resolver searches what is given in this step. -/
lemma Setup.Searches.step (h : s.Searches qs) (a : Act) :
    (s.step a).Searches (qs ++ requests s.place [a]) := by
  cases a with
  | enter place => simpa [requests, Searches, Setup.step] using h
  | add d =>
    rw [Searches, Setup.step, add, requests, requests, List.map_append, List.map_singleton,
      ← insert_eraseDups, ← h, Request.form_eq_absolute]

/-- A step only adds directories, and that at the end. -/
lemma isPrefix_step (s : Setup) (a : Act) :
    s.resolver.directories <+: (s.step a).resolver.directories := by
  cases a with
  | enter place => exact List.prefix_rfl
  | add d => exact isPrefix_insert _ _

/-- Adding a directory whose form is searched already changes nothing. -/
lemma step_add_of_mem {d : String} (h : Request.form ⟨s.place, d⟩ ∈ s.resolver.directories) :
    s.step (.add d) = s := by
  rw [Request.form_eq_absolute] at h
  rw [Setup.step, add, insert_of_mem h]

/-! ### All steps -/

/-- What is given in a step comes before what is given after it. -/
lemma requests_cons (s : Setup) (a : Act) (acts : List Act) :
    requests s.place (a :: acts) = requests s.place [a] ++ requests (s.step a).place acts := by
  cases a <;> rfl

lemma Setup.Searches.run (h : s.Searches qs) (acts : List Act) :
    (s.run acts).Searches (qs ++ requests s.place acts) := by
  induction acts generalizing s qs with
  | nil => simpa [requests, Setup.run] using h
  | cons a acts ih =>
    rw [requests_cons, ← List.append_assoc]
    exact ih (h.step a)

lemma isPrefix_run (s : Setup) (acts : List Act) :
    s.resolver.directories <+: (s.run acts).resolver.directories := by
  induction acts generalizing s with
  | nil => exact List.prefix_rfl
  | cons a acts ih => exact (isPrefix_step s a).trans (ih (s.step a))

lemma strict_run (s : Setup) (acts : List Act) :
    (s.run acts).resolver.strict = s.resolver.strict := by
  induction acts generalizing s with
  | nil => rfl
  | cons a acts ih =>
    rw [Setup.run, List.foldl_cons, ← Setup.run, ih]
    cases a <;> rfl

/-- A resolver and what it was given: the directories it searches, and what becomes of them. -/
structure IsOrdered (s : Setup) (qs : List Request) : Prop where
  /-- The forms that were given are searched in this order, without the later occurrences. -/
  order : s.resolver.directories = (qs.map Request.form).eraseDups
  distinct : s.resolver.directories.Nodup
  isAbsolute : ∀ d ∈ s.resolver.directories, isAbsolute d = true
  /-- They are in the form that they would be given in any working directory. -/
  settled : ∀ d ∈ s.resolver.directories, ∀ place, Request.form ⟨place, d⟩ = d
  /-- Whatever happens next, they stay where they are. -/
  kept : ∀ acts, s.resolver.directories <+: (s.run acts).resolver.directories
  /-- A directory is searched already if one was given that leads to the same place. -/
  known : ∀ d, Request.form ⟨s.place, d⟩ ∈ s.resolver.directories ↔
    ∃ q ∈ qs, root q.directory = root d ∧
      destination q.place.components q.directory = destination s.place.components d
  /-- Adding it again in whatever spelling changes nothing. -/
  unchanged : ∀ d, Request.form ⟨s.place, d⟩ ∈ s.resolver.directories → s.step (.add d) = s

lemma Setup.Searches.isOrdered (h : s.Searches qs) : IsOrdered s qs := by
  have hform {d : String} (hd : d ∈ s.resolver.directories) : ∃ q ∈ qs, q.form = d := by
    rwa [h, List.mem_eraseDups, List.mem_map] at hd
  constructor
  case order => exact h
  case distinct => exact h ▸ nodup_eraseDups _
  case isAbsolute =>
    intro d hd
    obtain ⟨q, -, rfl⟩ := hform hd
    rw [Request.form_eq_absolute]
    exact isAbsolute_absolute _ _
  case settled =>
    intro d hd place
    obtain ⟨q, -, rfl⟩ := hform hd
    exact q.form_form place
  case kept => exact isPrefix_run s
  case known =>
    intro d
    rw [h, List.mem_eraseDups, List.mem_map]
    simp only [Request.form_eq_form_iff]
  case unchanged => exact fun d => step_add_of_mem

/-- However a resolver is set up and whatever happens to it, the directories that it searches are
distinct absolute paths in normal form, in the order in which they were given. -/
theorem isOrdered_run (place : Place) (ds : List String) (strict : Bool) (acts : List Act) :
    IsOrdered ((Setup.start place ds strict).run acts) (given place ds acts) :=
  ((searches_start place ds strict).run acts).isOrdered

end SourceRecovery.Resolver

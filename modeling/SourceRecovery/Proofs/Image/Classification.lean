import SourceRecovery.Proofs.Image.Release

/-!
# Classifying images

An image is classified by its metadata. It is refused for the first of three reasons: it cannot be
read, it declares no method to start with, or it states no release number. Otherwise the platform
is told by the type that declares that method, and the side by the declared name. The order of the
types does not matter as long as no method is declared twice.
-/

namespace SourceRecovery

variable {fullName : String} {p : Platform}

/-! ### Platforms and the types that launch them -/

/-- The full name of the type that a platform is launched by. -/
def Platform.launchType? : Platform → Option String
  | .windows => some "Terraria.WindowsLaunch"
  | .linux => some "Terraria.LinuxLaunch"
  | .mac => some "Terraria.MacLaunch"
  | .unknown => none

/-- A type launches a platform: it has the name for it, or the platform is unknown and no platform
is launched by a type of this name. -/
def Platform.IsLaunchedBy (p : Platform) (fullName : String) : Prop :=
  p.launchType? = some fullName ∨ p = .unknown ∧ ∀ q : Platform, q.launchType? ≠ some fullName

/-- No two platforms are launched by the same type. -/
lemma Platform.IsLaunchedBy.unique {q : Platform} (hp : p.IsLaunchedBy fullName)
    (hq : q.IsLaunchedBy fullName) : p = q := by
  rcases hp with hp | ⟨rfl, hp⟩
  · rcases hq with hq | ⟨rfl, hq⟩
    · have hsame := hp.trans hq.symm
      revert hsame
      cases p <;> cases q <;> decide
    · exact absurd hp (hq p)
  · rcases hq with hq | ⟨rfl, -⟩
    · exact absurd hq (hp q)
    · rfl

lemma Platform.isLaunchedBy_ofLaunchType (fullName : String) :
    (ofLaunchType fullName).IsLaunchedBy fullName := by
  unfold ofLaunchType
  split_ifs with hwindows hlinux hmac
  · exact .inl (congrArg some hwindows.symm)
  · exact .inl (congrArg some hlinux.symm)
  · exact .inl (congrArg some hmac.symm)
  · refine .inr ⟨rfl, fun q hq => ?_⟩
    cases q with
    | windows => exact hwindows (Option.some.inj hq).symm
    | linux => exact hlinux (Option.some.inj hq).symm
    | mac => exact hmac (Option.some.inj hq).symm
    | unknown => cases hq

lemma Platform.ofLaunchType_eq_iff : ofLaunchType fullName = p ↔ p.IsLaunchedBy fullName :=
  ⟨fun h => h ▸ isLaunchedBy_ofLaunchType fullName, (isLaunchedBy_ofLaunchType fullName).unique⟩

/-- What an identity tells: all of it but the bytes of the image and the view that they were read
through. -/
def Identity.facts (i : Identity) : String × Side × Platform × Version × Int :=
  (i.name, i.side, i.platform, i.version, i.release)

namespace Image.Metadata

variable {m m' : Metadata}
  {read : Bytes → Except ImageError Metadata} {image image' : Bytes}

/-! ### The entry point -/

/-- The row of the method that an image starts with, where its token names a method. -/
def entryRow (m : Metadata) : ℕ := m.entryToken % 0x1000000

/-- An image declares no method to start with: its entry point is native, its token is zero or that
of another table, or no type declares the method. -/
def LacksEntry (m : Metadata) : Prop :=
  m.nativeEntry = true ∨ m.entryToken = 0 ∨ m.entryToken / 0x1000000 ≠ Schema.methodDef ∨
    ∀ t ∈ m.types, t.methods.contains m.entryRow = false

/-- A type is the first one that declares the method that an image starts with. -/
def IsOwner (m : Metadata) (t : TypeRow) : Prop :=
  IsFirst (fun t => t.methods.contains m.entryRow = true) m.types t

lemma entryPoint_eq (m : Metadata) : m.entryPoint =
    if m.nativeEntry = true ∨ m.entryToken = 0 ∨ m.entryToken / 0x1000000 ≠ Schema.methodDef then
      none
    else (m.types.find? fun t => t.methods.contains m.entryRow).map TypeRow.fullName := by
  simp only [entryPoint, entryMethod, entryRow]
  split_ifs
  · rfl
  · exact Option.map_eq_bind.symm

lemma entryPoint_eq_none_iff : m.entryPoint = none ↔ m.LacksEntry := by
  rw [entryPoint_eq, LacksEntry]
  split_ifs with hforeign
  · rcases hforeign with h | h | h <;> simp [h]
  · simp only [not_or] at hforeign
    simp [hforeign]

/-- An image that declares a method to start with has a first type that declares it. -/
lemma exists_isOwner (h : ¬m.LacksEntry) :
    ∃ t, m.IsOwner t ∧ m.entryPoint = some t.fullName := by
  cases hentry : m.entryPoint with
  | none => exact absurd (entryPoint_eq_none_iff.mp hentry) h
  | some fullName =>
    rw [entryPoint_eq] at hentry
    split_ifs at hentry
    obtain ⟨t, ht, rfl⟩ := Option.map_eq_some_iff.mp hentry
    refine ⟨t, find?_eq_some_iff_isFirst.mp ?_, rfl⟩
    simpa using ht

/-! ### Another order of the types -/

/-- No method is declared by two types. -/
def DeclaresApart (m : Metadata) : Prop :=
  m.types.Pairwise fun s t =>
    ∀ row, ¬(s.methods.contains row = true ∧ t.methods.contains row = true)

/-- Metadata have the same types in another order, which does not change the first one with the name
of the type that declares the release number, and agree in all else that a classification asks
for. -/
structure Rearranges (m m' : Metadata) : Prop where
  nativeEntry : m'.nativeEntry = m.nativeEntry
  entryToken : m'.entryToken = m.entryToken
  modules : m'.modules = m.modules
  assemblies : m'.assemblies = m.assemblies
  fields : m'.fields = m.fields
  constants : m'.constants = m.constants
  types : m'.types.Perm m.types
  releaseType : ∀ t, m'.IsReleaseType t ↔ m.IsReleaseType t

lemma Rearranges.entryPoint_eq (h : m.Rearranges m') (hapart : m.DeclaresApart) :
    m'.entryPoint = m.entryPoint := by
  have howner : (m'.types.find? fun t => t.methods.contains m.entryRow) =
      m.types.find? fun t => t.methods.contains m.entryRow :=
    find?_of_perm h.types (hapart.imp fun hst => hst m.entryRow)
  have hrow : m'.entryRow = m.entryRow := by rw [entryRow, entryRow, h.entryToken]
  rw [Metadata.entryPoint_eq, Metadata.entryPoint_eq, h.nativeEntry, h.entryToken, hrow, howner]

lemma Rearranges.release_eq (h : m.Rearranges m') : m'.view.release = m.view.release := by
  refine release_congr h.fields ?_ fun _ _ _ _ => by rw [h.constants]
  ext t
  exact find?_eq_some_iff_isFirst.trans
    ((h.releaseType t).trans find?_eq_some_iff_isFirst.symm)

lemma Rearranges.moduleName_eq (h : m.Rearranges m') : m'.moduleName = m.moduleName := by
  rw [moduleName, moduleName, h.assemblies, h.modules]

lemma Rearranges.version_eq (h : m.Rearranges m') : m'.version = m.version := by
  rw [version, version, h.assemblies]

/-! ### Classification -/

lemma reader_of_ok (h : read image = .ok m) : reader read image = .ok m.view := by
  rw [reader, h]
  rfl

/-- What an identity of an image is, given its metadata. -/
def identity (m : Metadata) (image : Bytes) (fullName : String) (v : Int) : Identity where
  image
  name := m.moduleName
  side := .ofModule m.moduleName
  platform := .ofLaunchType fullName
  version := m.version
  release := v
  view := m.view

/-- A classification asks for the entry point first, and for the release number then. -/
lemma classify_eq (h : read image = .ok m) : Identity.classify (reader read) image =
    match m.entryPoint with
    | none => .error (.noEntryPoint m.moduleName)
    | some fullName =>
      match m.view.release with
      | .error cause => .error (.release cause)
      | .ok v => .ok (m.identity image fullName v) := by
  rw [Identity.classify, reader_of_ok h]
  rfl

lemma classify_eq_noEntryPoint_iff (h : read image = .ok m) :
    (∃ name, Identity.classify (reader read) image = .error (.noEntryPoint name)) ↔
      m.LacksEntry := by
  rw [classify_eq h, ← entryPoint_eq_none_iff]
  cases m.entryPoint with
  | none => simp
  | some fullName => cases m.view.release <;> simp

lemma classify_eq_release_iff (h : read image = .ok m) (hentry : ¬m.LacksEntry) :
    (∃ cause, Identity.classify (reader read) image = .error (.release cause)) ↔
      ∀ v, ¬m.States v := by
  obtain ⟨t, -, ht⟩ := exists_isOwner hentry
  rw [classify_eq h, ht, ← release_eq_error_iff]
  cases m.view.release <;> simp

lemma Rearranges.facts_classify (h : m.Rearranges m') (hapart : m.DeclaresApart)
    (hread : read image = .ok m) (hread' : read image' = .ok m') :
    Identity.facts <$> Identity.classify (reader read) image' =
      Identity.facts <$> Identity.classify (reader read) image := by
  rw [classify_eq hread, classify_eq hread', h.entryPoint_eq hapart, h.release_eq, h.moduleName_eq]
  cases m.entryPoint with
  | none => rfl
  | some fullName =>
    cases m.view.release with
    | error cause => rfl
    | ok v =>
      refine congrArg Except.ok ?_
      simp only [Identity.facts, identity, h.moduleName_eq, h.version_eq]

/-- However images are read as metadata, an image that cannot be read is refused as such. Any other
one is refused for its entry point if and only if it declares no method to start with, and else for
its release number if and only if it states none. Otherwise its platform is the one that the first
type declaring that method launches, and its side is told by the declared name. Where no method is
declared twice, the types may be in any order that keeps the first one with the release number. -/
theorem classify_exact (read : Bytes → Except ImageError Metadata) (image : Bytes) :
    (∀ cause, read image = .error cause →
      Identity.classify (reader read) image = .error (.image cause)) ∧
    ∀ m, read image = .ok m →
      ((∃ name, Identity.classify (reader read) image = .error (.noEntryPoint name)) ↔
        m.LacksEntry) ∧
      (¬m.LacksEntry →
        ((∃ cause, Identity.classify (reader read) image = .error (.release cause)) ↔
          ∀ v, ¬m.States v) ∧
        ∀ v, m.States v → ∃ t i, m.IsOwner t ∧
          Identity.classify (reader read) image = .ok i ∧ i.release = v ∧
          (∀ p, i.platform = p ↔ p.IsLaunchedBy t.fullName) ∧
          i.name = m.moduleName ∧ i.side = .ofModule m.moduleName) ∧
      ∀ image' m', read image' = .ok m' → m.Rearranges m' → m.DeclaresApart →
        Identity.facts <$> Identity.classify (reader read) image' =
          Identity.facts <$> Identity.classify (reader read) image := by
  refine ⟨fun cause h => ?_, fun m h => ⟨classify_eq_noEntryPoint_iff h, fun hentry =>
    ⟨classify_eq_release_iff h hentry, fun v hv => ?_⟩, fun image' m' h' harranged hapart =>
    harranged.facts_classify hapart h h'⟩⟩
  · rw [Identity.classify, reader, h]
    rfl
  · obtain ⟨t, howner, ht⟩ := exists_isOwner hentry
    refine ⟨t, m.identity image t.fullName v, howner, ?_, rfl,
      fun p => Platform.ofLaunchType_eq_iff, rfl, rfl⟩
    rw [classify_eq h, ht, release_eq_ok_iff.mpr hv]

/-- An image that starts in the type for Linux, which comes in front of the one with the release
number. -/
def launchedSample : Metadata := { decoyedSample with
  entryToken := 0x6000002
  types := [⟨"LinuxLaunch", "Terraria", [], [1, 2]⟩, ⟨"Main", "Terraria", [1, 2], [4, 3]⟩] }

/-- The same image with its types the other way round. -/
def launchedSample' : Metadata :=
  { launchedSample with types := launchedSample.types.reverse }

/-- A way to read these two images and nothing else. -/
def readSample (image : Bytes) : Except ImageError Metadata :=
  if image = [0] then .ok launchedSample
  else if image = [1] then .ok launchedSample'
  else .error .noMetadata

theorem classify_exact_sample :
    readSample [] = .error .noMetadata ∧
      Identity.classify (reader readSample) [] = .error (.image .noMetadata) ∧
    readSample [0] = .ok launchedSample ∧ ¬launchedSample.LacksEntry ∧ launchedSample.States 230 ∧
      (∃ i, Identity.classify (reader readSample) [0] = .ok i ∧ i.platform = .linux ∧
        i.side = .client) ∧
    readSample [1] = .ok launchedSample' ∧ launchedSample.Rearranges launchedSample' ∧
      launchedSample.DeclaresApart ∧
      Identity.facts <$> Identity.classify (reader readSample) [1] =
        Identity.facts <$> Identity.classify (reader readSample) [0] := by
  have hnone : readSample [] = .error .noMetadata := rfl
  have hread : readSample [0] = .ok launchedSample := rfl
  have hread' : readSample [1] = .ok launchedSample' := rfl
  have hentry : ¬launchedSample.LacksEntry := fun h => by cases entryPoint_eq_none_iff.mpr h
  have hstates : launchedSample.States 230 := release_eq_ok_iff.mp rfl
  have hapart : launchedSample.DeclaresApart := by
    simp only [DeclaresApart, launchedSample, List.pairwise_cons]
    simp
  have hfirst : launchedSample'.types.find? (·.fullName = releaseType) =
      launchedSample.types.find? (·.fullName = releaseType) := rfl
  have harranged : launchedSample.Rearranges launchedSample' := by
    refine ⟨rfl, rfl, rfl, rfl, rfl, rfl, List.reverse_perm _, fun t => ?_⟩
    rw [IsReleaseType, IsReleaseType, ← find?_eq_some_iff_isFirst, ← find?_eq_some_iff_isFirst,
      hfirst]
  obtain ⟨t, i, howner, hi, -, hplatform, -, hside⟩ :=
    (((classify_exact readSample [0]).2 _ hread).2.1 hentry).2 230 hstates
  have ht : t.fullName = "Terraria.LinuxLaunch" := by
    cases find?_eq_some_iff_isFirst.mpr howner
    rfl
  have hlinux : i.platform = .linux := (hplatform .linux).mpr (.inl (congrArg some ht.symm))
  exact ⟨hnone, (classify_exact readSample []).1 _ hnone, hread, hentry, hstates,
    ⟨i, hi, hlinux, hside.trans (by decide)⟩, hread', harranged, hapart,
    ((classify_exact readSample [0]).2 _ hread).2.2 [1] _ hread' harranged hapart⟩

end Image.Metadata

end SourceRecovery

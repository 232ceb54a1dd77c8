import SourceRecovery.Proofs.Decompiler.Faults
import SourceRecovery.Server.Recovery

/-!
# What recovering a build stops with

The faults of each step from a catalog to the projects of a build. A closed input ends the recovery
without a fault, a build that is chosen is one of the catalog, and each platform that can be chosen
has an image; all other faults are ones that a step may stop with.
-/

namespace SourceRecovery

open SourceRecovery.Action

/-- The faults of recovering a build. -/
def Fault.isOfBuild : Fault → Bool
  | .declined _ | .noBuild _ | .noServerImage => false
  | _ => true

lemma Fault.isOfBuild_of_isOfImage {e : Fault} (h : e.isOfImage = true) : e.isOfBuild = true := by
  cases e <;> simp_all [isOfImage, isOfBuild]

/-- An action that stops with no other faults than those of recovering a build. -/
abbrev RaisesOfBuild {α : Type} (x : Action α) : Prop := Raises (fun e => e.isOfBuild = true) x

lemma RaisesOfImage.ofBuild {α : Type} {x : Action α} (h : RaisesOfImage x) : RaisesOfBuild x :=
  h.mono fun _ => Fault.isOfBuild_of_isOfImage

lemma Console.Writes.ofBuild [Stream] {x : Action Unit} (h : Writes x) : RaisesOfBuild x :=
  RaisesOfImage.ofBuild h.ofImage

lemma Action.Raises.ofBuild {α : Type} {x : Action α} (h : Raises Files.IsRefusal x) :
    RaisesOfBuild x := h.ofImage.ofBuild

/-! ### Catalogs -/

namespace Catalog

variable {α β : Type}

/-- A result that fails with no other faults than those of recovering a build. -/
def FailsOfBuild (r : Result α) : Prop := ∀ e, r = .error e → e.isOfBuild = true

namespace FailsOfBuild

lemma ok (a : α) : FailsOfBuild (.ok a : Result α) := nofun

lemma error {e : Fault} (h : e.isOfBuild = true) : FailsOfBuild (.error e : Result α) := by
  rintro _ ⟨⟩
  exact h

lemma fail (cause : CatalogError) : FailsOfBuild (Catalog.fail cause : Result α) := error rfl

lemma bind {r : Result α} {f : α → Result β} (hr : FailsOfBuild r) (hf : ∀ a, FailsOfBuild (f a)) :
    FailsOfBuild (r >>= f) := by
  cases r with
  | error c =>
    rintro _ ⟨⟩
    exact hr c rfl
  | ok a => exact hf a

lemma mapM {f : α → Result β} (hf : ∀ a, FailsOfBuild (f a)) (as : List α) :
    FailsOfBuild (as.mapM f) := by
  induction as with
  | nil => exact ok []
  | cons a as ih =>
    rw [List.mapM_cons]
    exact (hf a).bind fun _ => ih.bind fun _ => ok _

/-- Something may be wrong with a catalog before it is used any further. -/
lemma guarded {p : Prop} [Decidable p] {cause : CatalogError} {f : Unit → Result α}
    (hf : FailsOfBuild (f ())) : FailsOfBuild (if p then Catalog.fail cause >>= f else f ()) := by
  split
  · exact (fail cause).bind fun _ => hf
  · exact hf

lemma raises {r : Result α} (h : FailsOfBuild r) : RaisesOfBuild (ofExcept id r) :=
  .ofExcept h

end FailsOfBuild

lemma failsOfBuild_parse (path text : String) : FailsOfBuild (parse path text) := by
  unfold parse
  split
  · exact .ok _
  all_goals exact .error rfl

lemma failsOfBuild_archiveOf (data : Json) : FailsOfBuild (archiveOf data) := by
  cases data with
  | null | bool | int => exact .ok _
  | real x =>
    cases x with
    | finite => exact .ok _
    | infinite | undefined => exact .error rfl
  | text s =>
    unfold archiveOf
    dsimp only
    split
    · exact .ok _
    · exact .error rfl
  | list | object => exact .error rfl

lemma failsOfBuild_versionOf (data : Json) : FailsOfBuild (versionOf data) := by
  unfold versionOf
  split
  · exact .ok _
  · exact .error rfl

lemma failsOfBuild_buildOf (key : ℕ) (data : Json) : FailsOfBuild (buildOf key data) := by
  unfold buildOf
  split
  · split
    · exact .error rfl
    · refine .bind (failsOfBuild_versionOf _) fun text => ?_
      exact .bind (failsOfBuild_archiveOf _) fun _ => .ok _
  · exact .bind (failsOfBuild_versionOf _) fun _ => .ok _

lemma failsOfBuild_keyOf (key : String) : FailsOfBuild (keyOf key) := by
  unfold keyOf
  split
  · exact .ok _
  · exact .error rfl

lemma failsOfBuild_buildsOf (members : List (String × Json)) : FailsOfBuild (buildsOf members) := by
  refine .bind (.mapM (fun m => .bind (failsOfBuild_keyOf _) fun _ => .ok _) _) fun keyed => ?_
  exact .guarded (.guarded (.mapM (fun _ => failsOfBuild_buildOf _ _) _))

lemma failsOfBuild_ofJson (data : Json) (urlTemplate : Option String) :
    FailsOfBuild (ofJson data urlTemplate) := by
  unfold ofJson
  split
  · rename_i members
    split
    · refine .bind (failsOfBuild_buildsOf _) fun builds => ?_
      dsimp only
      split
      · exact .fail _
      · exact .ok _
    · exact .fail .noBuilds
  · exact .error rfl

lemma failsOfBuild_expand [Template.Objects] (template : Json) (b : Build) :
    FailsOfBuild (expand template b) := by
  have hasks : FailsOfBuild (asksForArchive template) := by
    unfold asksForArchive
    split
    · exact .ok _
    · exact .ok _
    · exact .ok _
    · exact .error rfl
  refine .bind hasks fun asks => ?_
  refine .guarded ?_
  split
  · split
    · exact .ok _
    all_goals exact .error rfl
  · exact .error rfl

lemma raises_load (path urlTemplate : Option String) : RaisesOfBuild (load path urlTemplate) := by
  cases path with
  | none => exact .bind (.pure _) fun data => (failsOfBuild_ofJson _ _).raises
  | some p =>
    refine .bind ((Files.raises_readText _).mono ?_) fun text =>
      .bind (failsOfBuild_parse _ _).raises fun data => (failsOfBuild_ofJson _ _).raises
    rintro e (he | rfl)
    · exact Fault.isOfBuild_of_isOfImage (Fault.isOfImage_of_isRefusal he)
    · rfl

end Catalog

/-! ### Getting a build -/

namespace Server

lemma raises_sizeText (bytes : Int) : RaisesOfBuild (sizeText bytes) := by
  unfold sizeText
  split
  · exact .pure _
  · exact .throwing rfl

lemma raises_request (url : String) : RaisesOfBuild (World.request url) := by
  refine .bind (.of_ok fun w => ⟨_, _, rfl⟩) fun _ => .bind_get fun w => .ofExcept fun e he => ?_
  unfold World.response at he
  split at he
  · cases he
    rfl
  · split at he
    · cases he
    · cases he
      rfl

lemma raises_announced (r : Response) : RaisesOfBuild (announced r) := by
  unfold announced
  split
  · exact .pure _
  · exact .pure _
  · exact .ofExcept fun _ _ => rfl

lemma raises_extractMember (c : Archive.Contents) (target : String) (m : Archive.Entry) :
    RaisesOfBuild (extractMember c target m) := by
  refine .bind (.bind (.of_ok fun w => ⟨_, _, rfl⟩) fun missing => ?_) fun _ => ?_
  · split
    · exact (Files.raises_makeDirectories _ _).ofBuild
    · exact .pure ()
  · split
    · refine .bind (.of_ok fun w => ⟨_, _, rfl⟩) fun found => ?_
      split
      · exact .pure ()
      · exact (Files.raises_change _ _ _).ofBuild
    · refine .bind (.ofExcept fun _ _ => rfl) fun packed => ?_
      refine .bind (Files.raises_write _ _).ofBuild fun _ => ?_
      refine .bind (Files.raises_append _ _).ofBuild fun _ => ?_
      split
      · exact .throwing rfl
      · exact .pure ()

variable [Stream]

lemma raises_writeChunks (part : String) (total : Int) (bound done : ℕ) (body : Bytes) :
    RaisesOfBuild (writeChunks part total bound done body) := by
  induction bound generalizing done body with
  | zero => exact .pure ()
  | succ bound ih =>
    unfold writeChunks
    split
    · exact .pure ()
    · refine .bind (Files.raises_append _ _).ofBuild fun _ => ?_
      refine .bind (raises_sizeText _) fun _ => .bind (raises_sizeText _) fun _ => ?_
      exact .bind (Console.raises_showProgress _ _ _).ofBuild fun _ => ih _ _

lemma raises_download (url target : String) : RaisesOfBuild (download url target) := by
  refine .bind (Console.writes_log _ _).ofBuild fun _ => .bind (raises_request _) fun r => ?_
  refine .bind (raises_announced _) fun total => .bind (Files.raises_write _ _).ofBuild fun _ => ?_
  refine .bind (raises_writeChunks _ _ _ _ _) fun _ => ?_
  refine .bind (Files.raises_change _ _ _).ofBuild fun _ => ?_
  refine .bind (Console.writes_finishProgress _).ofBuild fun _ => ?_
  exact .bind (raises_sizeText _) fun _ => (Console.writes_log _ _).ofBuild

lemma raises_ensureArchive (url path : String) : RaisesOfBuild (ensureArchive url path) := by
  refine .bind (.bind (.of_ok fun w => ⟨_, _, rfl⟩) fun found => ?_) fun wanted => ?_
  · split
    · refine .bind (Console.raises_confirm _).ofBuild fun again => ?_
      split
      · exact .bind (Files.raises_change _ _ _).ofBuild fun _ => .pure _
      · exact .pure _
    · exact .pure _
  · split
    · exact .bind (raises_download _ _) fun _ => .pure _
    · exact .pure _

lemma raises_extract (path target : String) : RaisesOfBuild (extract path target) := by
  refine .bind (.bind (Console.writes_log _ _).ofBuild fun _ =>
    (Files.raises_makeDirectories _ _).ofBuild) fun _ => .bind ?_ fun _ =>
      (Console.writes_log _ _).ofBuild
  refine .bind (Files.raises_obtain _ _).ofBuild fun data => ?_
  exact .bind (.ofExcept fun _ _ => rfl) fun contents => .forM fun m _ => raises_extractMember _ _ m

lemma raises_ensureExtracted (path target : String) :
    RaisesOfBuild (ensureExtracted path target) := by
  refine .bind (.bind (.of_ok fun w => ⟨_, _, rfl⟩) fun found => ?_) fun wanted => ?_
  · split
    · refine .bind (Console.raises_confirm _).ofBuild fun again => ?_
      split
      · exact .bind (Files.raises_removeAll _).ofBuild fun _ => .pure _
      · exact .pure _
    · exact .pure _
  · split
    · exact .bind (raises_extract _ _) fun _ => .pure _
    · exact .pure _

/-! ### Choosing and decompiling -/

/-- The operator's input is closed. -/
def IsDecline (e : Fault) : Prop := ∃ reason, e = .declined reason

/-- An action that stops with faults of recovering a build, or because the input is closed. -/
abbrev RaisesOfChoice {α : Type} (x : Action α) : Prop :=
  Raises (fun e => e.isOfBuild = true ∨ IsDecline e) x

omit [Stream] in
lemma ofChoice {α : Type} {x : Action α} (h : RaisesOfBuild x) : RaisesOfChoice x :=
  h.mono fun _ => .inl

lemma raises_select (c : Catalog) : RaisesOfChoice (select c) := by
  have hwithin (n : ℕ) : RaisesOfChoice (selectWithin c n) := by
    induction n with
    | zero => exact .throwing (.inr ⟨_, rfl⟩)
    | succ n ih =>
      refine .bind (ofChoice (.forM fun _ _ => (Console.writes_line _).ofBuild)) fun _ => ?_
      refine .bind (ofChoice (Console.raises_ask _).ofBuild) fun answer => ?_
      cases answer with
      | none => exact .throwing (.inr ⟨_, rfl⟩)
      | some answer =>
        dsimp only
        split
        · exact .pure _
        · exact .bind (ofChoice (Console.writes_log _ _).ofBuild) fun _ => ih
        · exact .bind (ofChoice (Console.writes_log _ _).ofBuild) fun _ => ih
  exact .bind_get fun _ => hwithin _

lemma raises_choosePlatforms : RaisesOfChoice choosePlatforms := by
  refine .bind (ofChoice (Console.raises_ask _).ofBuild) fun answer => ?_
  cases answer with
  | none => exact .throwing (.inr ⟨_, rfl⟩)
  | some answer => exact .pure _

omit [Stream] in
/-- Each platform that an answer chooses has an image. -/
lemma ne_unknown_of_mem_platformsOf {answer : String} {platform : Platform}
    (h : platform ∈ platformsOf answer) : platform ≠ .unknown := by
  unfold platformsOf at h
  split at h <;> (rintro rfl; simp at h)

lemma mem_of_choosePlatforms {platforms : List Platform} {w v : World}
    (h : choosePlatforms.run w = .ok platforms v) : ∀ p ∈ platforms, p ≠ .unknown := by
  obtain ⟨answer, u, -, hrest⟩ := bind_eq_ok.mp h
  cases answer with
  | none => cases hrest
  | some answer =>
    cases hrest
    exact fun p => ne_unknown_of_mem_platformsOf

omit [Stream] in
lemma raises_identify (reader : ImageReader) (path : String) :
    RaisesOfImage (identify reader path) := by
  refine .bind (Files.raises_obtain _ _).ofImage fun data => .ofExcept fun cause _ => ?_
  cases cause <;> rfl

variable {reader : ImageReader} {d : Decompiler}

lemma raises_recoverPlatform (hd : ∀ job, RaisesOfImage (d job)) (common : String)
    {platform : Platform} (hp : platform ≠ .unknown) :
    RaisesOfImage (recoverPlatform reader d common platform) := by
  have hlocation : Raises (fun e => e.isOfImage = true)
      (ofExcept id (imageLocation common platform)) := by
    cases platform with
    | unknown => exact absurd rfl hp
    | _ => exact .pure _
  refine .bind hlocation fun found => ?_
  refine .bind (Console.writes_line _).ofImage fun _ => .bind ?_ fun _ => ?_
  · refine .bind (.of_ok fun w => ⟨_, _, rfl⟩) fun p => ?_
    exact .forM fun _ _ => (Console.writes_line _).ofImage
  · exact .bind (raises_identify _ _) fun i =>
      .discarding (Decompiler.raises_run hd Console.raises_confirm _ _)

/-- Recovering a build with a decompiler that stops with faults of an image stops with faults of a
build. -/
lemma raises_recover [Template.Objects] (hd : ∀ job, RaisesOfImage (d job)) (c : Catalog)
    (workspace : String) : RaisesOfBuild (recover reader d c workspace) := by
  refine .catching (Q := fun e => e.isOfBuild = true ∨ IsDecline e) ?_ fun e he => ?_
  · refine .bind (raises_select c) fun b => ?_
    refine .bind (ofChoice (Catalog.failsOfBuild_expand _ _).raises) fun stem => ?_
    refine .bind (ofChoice (Catalog.failsOfBuild_expand _ _).raises) fun url => ?_
    refine .bind (ofChoice (.discarding (raises_ensureArchive _ _))) fun _ => ?_
    refine .bind (ofChoice (.discarding (raises_ensureExtracted _ _))) fun _ => ?_
    refine .bind (.of_ok fun w => ⟨_, _, rfl⟩) fun common => ?_
    refine raises_choosePlatforms.bind_of_ok fun w platforms v hchosen => .forM fun p hp => ?_
    have hknown := mem_of_choosePlatforms hchosen p hp
    exact ofChoice (raises_recoverPlatform hd _ hknown).ofBuild
  · rcases he with he | ⟨reason, rfl⟩
    · split
      · cases he
      · exact .throwing he
    · exact (Console.writes_log _ _).ofBuild

end Server

end SourceRecovery

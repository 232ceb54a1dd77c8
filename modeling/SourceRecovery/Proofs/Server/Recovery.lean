import Mathlib.Data.List.Nodup
import SourceRecovery.Proofs.Boxes
import SourceRecovery.Proofs.Decompiler.Starts
import SourceRecovery.Server.Recovery

/-!
# What recovering a build starts

In front of the platforms nothing is started. The platforms are then gone through in their order:
each either has its directory refused, or has the program started once for its image, or stops
with a fault, and then those behind it are left out.
-/

namespace SourceRecovery.Server

open SourceRecovery.Action SourceRecovery.Path SourceRecovery.Decompiler

variable {reader : ImageReader} {s : External.Settings} {c : Catalog} {b : Build}
  {workspace common : String} {platform : Platform} {platforms : List Platform} {w u v : World}

/-! ### In front of the platforms -/

/-- What comes in front of the platforms of a build: its archive is downloaded and extracted, and
the operator chooses the platforms. It gives the directory of the build, too. -/
def approach [Template.Objects] (c : Catalog) (b : Build) (workspace : String) :
    Action (String × List Platform) := do
  let stem := Path.join workspace (← Action.ofExcept id (c.stemOf b))
  let archive := stem ++ ".zip"
  discard (ensureArchive (← Action.ofExcept id (c.urlOf b)) archive)
  discard (ensureExtracted archive stem)
  let common ← Files.absolute (Path.join stem b.version)
  return (common, ← choosePlatforms)

lemma recoverBuild_eq [Template.Objects] (reader : ImageReader) (d : Decompiler) (c : Catalog)
    (b : Build) (workspace : String) : recoverBuild reader d c b workspace = (do
      let (common, platforms) ← approach c b workspace
      platforms.forM (recoverPlatform reader d common)) := by
  simp only [recoverBuild, approach, bind_assoc, pure_bind]

lemma startsNothing_sizeText (bytes : Int) : Keeps World.StartsNothing (sizeText bytes) := by
  unfold sizeText
  split
  · exact .pure _
  · exact .throwing _

lemma startsNothing_announced (r : Response) : Keeps World.StartsNothing (announced r) := by
  unfold announced
  split
  · exact .pure _
  · exact .pure _
  · exact .ofExcept _ _

lemma startsNothing_writeChunks (part : String) (total : Int) (bound done : ℕ) (body : Bytes) :
    Keeps World.StartsNothing (writeChunks part total bound done body) := by
  induction bound generalizing done body with
  | zero => exact .pure ()
  | succ bound ih =>
    unfold writeChunks
    split
    · exact .pure ()
    · refine .bind (Files.onlyTree_append _ _).startsNothing fun _ => ?_
      refine .bind (startsNothing_sizeText _) fun written => ?_
      refine .bind (startsNothing_sizeText _) fun all => ?_
      exact .bind (Console.startsNothing_showProgress _ _ _) fun _ => ih _ _

lemma startsNothing_request (url : String) : Keeps World.StartsNothing (World.request url) := by
  refine .bind (fun w => ⟨rfl, (startsOf_append _ _).trans (List.append_nil _),
    List.suffix_refl _⟩) fun _ => ?_
  exact .bind (fun w => refl_of World.StartsNothing w) fun w => .ofExcept _ _

lemma startsNothing_download (url target : String) :
    Keeps World.StartsNothing (download url target) := by
  refine .bind (Console.prints_log _ _).startsNothing fun _ => ?_
  refine .bind (startsNothing_request _) fun response => ?_
  refine .bind (startsNothing_announced _) fun total => ?_
  refine .bind (Files.onlyTree_write _ _).startsNothing fun _ => ?_
  refine .bind (startsNothing_writeChunks _ _ _ _ _) fun _ => ?_
  refine .bind (Files.onlyTree_change _ _ _).startsNothing fun _ => ?_
  refine .bind (Console.prints_finishProgress _).startsNothing fun _ => ?_
  exact .bind (startsNothing_sizeText _) fun _ => (Console.prints_log _ _).startsNothing

lemma startsNothing_ensureArchive (url path : String) :
    Keeps World.StartsNothing (ensureArchive url path) := by
  refine .bind (.bind (Files.keeps_inspect _) fun found => ?_) fun wanted => ?_
  · split
    · refine .bind (Console.startsNothing_confirm _) fun again => ?_
      split
      · exact .bind (Files.onlyTree_change _ _ _).startsNothing fun _ => .pure _
      · exact .pure _
    · exact .pure _
  · split
    · exact .bind (startsNothing_download _ _) fun _ => .pure _
    · exact .pure _

lemma onlyTree_extractMember (contents : Archive.Contents) (target : String) (m : Archive.Entry) :
    Keeps World.OnlyTree (extractMember contents target m) := by
  refine .bind (.bind (Files.keeps_inspect _) fun missing => ?_) fun _ => ?_
  · split
    · exact Files.onlyTree_makeDirectories _ _
    · exact .pure ()
  · split
    · refine .bind (Files.keeps_inspect _) fun found => ?_
      split
      · exact .pure ()
      · exact Files.onlyTree_change _ _ _
    · refine .bind (.ofExcept _ _) fun packed => .bind (Files.onlyTree_write _ _) fun _ => ?_
      refine .bind (Files.onlyTree_append _ _) fun _ => ?_
      split
      · exact .throwing _
      · exact .pure ()

lemma startsNothing_ensureExtracted (path target : String) :
    Keeps World.StartsNothing (ensureExtracted path target) := by
  refine .bind (.bind (Files.keeps_inspect _) fun found => ?_) fun wanted => ?_
  · split
    · refine .bind (Console.startsNothing_confirm _) fun again => ?_
      split
      · exact .bind (Files.onlyTree_removeAll _).startsNothing fun _ => .pure _
      · exact .pure _
    · exact .pure _
  · split
    · refine .bind (.bind (.bind (Console.prints_log _ _).startsNothing fun _ => ?_) fun _ =>
        .bind ?_ fun _ => (Console.prints_log _ _).startsNothing) fun _ => .pure _
      · exact (Files.onlyTree_makeDirectories _ _).startsNothing
      · refine Action.Keeps.startsNothing ?_
        refine .bind (Files.keeps_read _) fun data => .bind (.ofExcept _ _) fun contents => ?_
        exact .forM (fun m => onlyTree_extractMember _ _ m) _
    · exact .pure _

lemma startsNothing_choosePlatforms : Keeps World.StartsNothing choosePlatforms := by
  refine .bind (Console.startsNothing_ask _) fun answer => ?_
  cases answer with
  | none => exact .throwing _
  | some answer => exact .pure _

lemma startsNothing_approach [Template.Objects] (c : Catalog) (b : Build) (workspace : String) :
    Keeps World.StartsNothing (approach c b workspace) := by
  refine .bind (.ofExcept _ _) fun stem => .bind (.ofExcept _ _) fun url => ?_
  refine .bind (.bind (startsNothing_ensureArchive _ _) fun _ => .pure _) fun _ => ?_
  refine .bind (.bind (startsNothing_ensureExtracted _ _) fun _ => .pure _) fun _ => ?_
  refine .bind (Files.keeps_inspect _) fun common => ?_
  exact .bind startsNothing_choosePlatforms fun platforms => .pure _

/-- The next answer of the operator chooses the platforms. -/
lemma choosePlatforms_eq_ok (h : choosePlatforms.run w = .ok platforms v) :
    ∃ answer, w.answers = some answer :: v.answers ∧ platforms = platformsOf answer := by
  obtain ⟨answer, u, hask, hrest⟩ := bind_eq_ok.mp h
  obtain ⟨console, hask'⟩ := Console.run_ask platformQuestion w
  cases hask.symm.trans hask'
  cases hanswers : w.answers with
  | nil =>
    simp only [hanswers] at hrest
    cases hrest
  | cons answer answers =>
    simp only [hanswers, List.headD_cons, List.tail_cons] at hrest
    cases answer with
    | none => cases hrest
    | some answer =>
      cases hrest
      exact ⟨answer, rfl, rfl⟩

/-- The directory of a build is the absolute form of that of its version, in the directory that the
archive is extracted into. Its platforms are what the last answer chooses that is used up. -/
lemma approach_eq_ok [Template.Objects]
    (h : (approach c b workspace).run w = .ok (common, platforms) v) :
    ∃ stem front answer, c.stemOf b = .ok stem ∧
      common = absolute w.directory (join (join workspace stem) b.version) ∧
      w.answers = front ++ some answer :: v.answers ∧ platforms = platformsOf answer := by
  obtain ⟨stem, w₁, hstem, hrest₁⟩ := bind_eq_ok.mp h
  obtain ⟨url, w₂, hurl, hrest₂⟩ := bind_eq_ok.mp hrest₁
  obtain ⟨⟨⟩, w₃, harchive, hrest₃⟩ := bind_eq_ok.mp hrest₂
  obtain ⟨⟨⟩, w₄, hextracted, hrest₄⟩ := bind_eq_ok.mp hrest₃
  obtain ⟨common', w₅, habsolute, hrest₅⟩ := bind_eq_ok.mp hrest₄
  obtain ⟨platforms', w₆, hchosen, hdone⟩ := bind_eq_ok.mp hrest₅
  cases hdone
  cases habsolute
  obtain ⟨hstem', rfl⟩ := ofExcept_eq_ok.mp hstem
  obtain ⟨-, rfl⟩ := ofExcept_eq_ok.mp hurl
  have harchive' : w₂.StartsNothing w₃ :=
    (Keeps.bind (startsNothing_ensureArchive _ _) fun _ => .pure _).of_ok harchive
  have hextracted' : w₃.StartsNothing w₄ :=
    (Keeps.bind (startsNothing_ensureExtracted _ _) fun _ => .pure _).of_ok hextracted
  have hkept := trans_of World.StartsNothing harchive' hextracted'
  obtain ⟨answer, hanswer, hplatforms⟩ := choosePlatforms_eq_ok hchosen
  obtain ⟨front, hfront⟩ := hkept.answers
  exact ⟨stem, front, answer, hstem', by rw [hkept.directory], by rw [← hfront, hanswer],
    hplatforms⟩

/-! ### One platform -/

/-- The directories besides the usual ones in which references of the image of a platform are looked
for: its own directory, but not on Windows. -/
def besideImage (common : String) : Platform → List String
  | .linux => [join common "Linux"]
  | .mac => [join (join (join (join common "Mac") "Terraria Server.app") "Contents") "MacOS"]
  | .windows | .unknown => []

lemma eq_besideImage {path : String} {search : List String}
    (h : imageLocation common platform = .ok (path, search)) :
    search = besideImage common platform := by
  have hsearch : some search = (imageDirectory platform).map fun d =>
      if d.2 then [joinAll common d.1] else [] := by
    unfold imageLocation at h
    split at h
    · cases h
    · rename_i found
      rw [found, ← (Prod.mk.inj (Except.ok.inj h)).2]
      rfl
  cases platform with
  | unknown => simp [imageDirectory] at hsearch
  | windows | linux | mac => simpa [imageDirectory, joinAll, besideImage] using hsearch

/-- The image of a platform of a build is there and can be classified. References are looked for in
some more directories. -/
structure Identified (reader : ImageReader) (common : String) (platform : Platform) (w : World)
    (search : List String) (i : Identity) : Prop where
  located : ∃ path, imageLocation common platform = .ok (path, search) ∧
    w.tree.read w.directory path = .ok i.image
  searched : search = besideImage common platform
  classified : Identity.classify reader i.image = .ok i

lemma classify_eq_ok {image : Bytes} {i : Identity} (h : Identity.classify reader image = .ok i) :
    i.image = image ∧ reader image = .ok i.view := by
  unfold Identity.classify at h
  split at h
  · cases h
  · rename_i view hview
    split at h
    · cases h
    · split at h
      · cases h
      · cases h
        exact ⟨rfl, hview⟩

lemma Identified.readable {search : List String} {i : Identity}
    (h : Identified reader common platform w search i) : reader i.image = .ok i.view :=
  (classify_eq_ok h.classified).2

/-- The options with which the image of a platform is decompiled. -/
def optionsFor (search : List String) : Decompiler.Options :=
  { Decompiler.Options.standard with search }

/-- The directory for the project of a platform is refused: it holds a file directly, and the
operator does not affirm that it is used. -/
def Refused (reader : ImageReader) (common : String) (platform : Platform) (w : World) : Prop :=
  ∃ search i, Identified reader common platform w search i ∧
    Occupied w.tree w.directory i.directoryName ∧
    (w.answers.headD none).map Text.trim ≠ some "y"

/-- A start of the program for a platform, with a command and an image. -/
structure Start where
  platform : Platform
  command : List String
  image : Bytes

/-- A start is for the image of its platform, whose directory is used and whose references are all
found in the directories that the command names. -/
def Start.IsWarranted (reader : ImageReader) (s : External.Settings) (common : String) (w : World)
    (x : Start) : Prop :=
  ∃ search i program console, Identified reader common x.platform w search i ∧
    Prepared reader i (optionsFor search) { w with console } ∧ x.image = i.image ∧
    x.command =
      External.startCommand s program w.directory (jobFor w.directory i (optionsFor search))

/-- Identifying an image changes nothing. -/
lemma run_identify (reader : ImageReader) (path : String) (w : World) :
    (∃ e, (identify reader path).run w = .error e w) ∨
      ∃ i, (identify reader path).run w = .ok i w ∧ w.tree.read w.directory path = .ok i.image ∧
        Identity.classify reader i.image = .ok i := by
  have hread := Files.run_read (p := path) (w := w)
  cases hdata : w.tree.read w.directory path with
  | error problem =>
    simp only [hdata] at hread
    exact .inl ⟨_, run_bind_of_error hread⟩
  | ok data =>
    simp only [hdata] at hread
    cases hi : Identity.classify reader data with
    | error cause =>
      refine .inl ⟨Fault.ofClassify cause, (run_bind_of_ok hread).trans ?_⟩
      rw [hi, run_ofExcept_error]
    | ok i =>
      obtain ⟨rfl, -⟩ := classify_eq_ok hi
      refine .inr ⟨i, (run_bind_of_ok hread).trans ?_, rfl, hi⟩
      rw [hi, run_ofExcept_ok]

/-- A platform has its program started once, and that is warranted; or nothing is started, and
either a fault stops it or its directory was refused. -/
lemma recoverPlatform_cases (reader : ImageReader) (s : External.Settings) (common : String)
    (platform : Platform) (w : World) :
    (∃ e v, (recoverPlatform reader (External.decompiler reader s) common platform).run w =
      .error e v ∧ w.StartsNothing v) ∨
    (∃ v, (recoverPlatform reader (External.decompiler reader s) common platform).run w =
      .ok () v ∧ w.StartsNothing v ∧ Refused reader common platform w) ∨
    ∃ x : Start, x.platform = platform ∧ x.IsWarranted reader s common w ∧
      startsOf ((recoverPlatform reader (External.decompiler reader s) common platform).after
        w).journal = startsOf w.journal ++ [(x.command, x.image)] := by
  cases hlocation : imageLocation common platform with
  | error e =>
    refine .inl ⟨e, w, run_bind_of_error ?_, refl_of World.StartsNothing w⟩
    rw [hlocation, run_ofExcept_error, id]
  | ok found =>
    obtain ⟨path, search⟩ := found
    obtain ⟨c, hrun⟩ : ∃ c, (recoverPlatform reader (External.decompiler reader s) common
        platform).run w = (do
          let i ← identify reader path
          discard (Decompiler.run reader (External.decompiler reader s) Console.confirm i
            (optionsFor search)) : Action Unit).run { w with console := c } :=
      ⟨_, run_recoverPlatform hlocation⟩
    rcases run_identify reader path { w with console := c } with
      ⟨e, hidentify⟩ | ⟨i, hidentify, hread, hi⟩
    · exact .inl ⟨e, _, hrun.trans (run_bind_of_error hidentify), rfl, rfl, List.suffix_refl _⟩
    · have hidentified : Identified reader common platform w search i :=
        ⟨⟨path, hlocation, hread⟩, eq_besideImage hlocation, hi⟩
      rw [run_bind_of_ok hidentify] at hrun
      rcases run_cases (o := optionsFor search) s hidentified.readable rfl
          { w with console := c } with
        ⟨e, v, herror, hnone⟩ | ⟨v, hok, hnone, hoccupied, hanswer⟩ | ⟨program, hprepared, hstarts⟩
      · exact .inl ⟨e, v, hrun.trans (run_discard_of_error herror), hnone.directory, hnone.starts,
          hnone.answers⟩
      · exact .inr (.inl ⟨v, hrun.trans (run_discard_of_ok hok),
          ⟨hnone.directory, hnone.starts, hnone.answers⟩,
          search, i, hidentified, hoccupied, hanswer⟩)
      · refine .inr (.inr ⟨⟨platform, _, i.image⟩, rfl,
          ⟨search, i, program, c, hidentified, hprepared, rfl, rfl⟩, ?_⟩)
        have hafter : (recoverPlatform reader (External.decompiler reader s) common platform).after
            w = (Decompiler.run reader (External.decompiler reader s) Console.confirm i
              (optionsFor search)).after { w with console := c } := by
          rw [after, hrun, ← after, after_discard]
        rw [hafter]
        exact hstarts

/-! ### All platforms -/

/-- Platforms are gone through in their order, with some starts. A platform is left out because its
directory is refused, because a fault stops it, or because it comes behind that one. -/
inductive Passes (reader : ImageReader) (s : External.Settings) (common : String) :
    List Platform → World → List Start → Prop
  | done (w : World) : Passes reader s common [] w []
  | refused {p : Platform} {ps : List Platform} {w v : World} {xs : List Start}
      (run : (recoverPlatform reader (External.decompiler reader s) common p).run w = .ok () v)
      (refusal : Refused reader common p w) (rest : Passes reader s common ps v xs) :
      Passes reader s common (p :: ps) w xs
  | started {ps : List Platform} {w v : World} {x : Start} {xs : List Start}
      (run : (recoverPlatform reader (External.decompiler reader s) common x.platform).run w =
        .ok () v)
      (warrant : x.IsWarranted reader s common w) (rest : Passes reader s common ps v xs) :
      Passes reader s common (x.platform :: ps) w (x :: xs)
  | failed {p : Platform} (ps : List Platform) {w v : World} {e : Fault}
      (run : (recoverPlatform reader (External.decompiler reader s) common p).run w =
        .error e v) : Passes reader s common (p :: ps) w []
  | failedAfterStart (ps : List Platform) {w v : World} {e : Fault} {x : Start}
      (run : (recoverPlatform reader (External.decompiler reader s) common x.platform).run w =
        .error e v)
      (warrant : x.IsWarranted reader s common w) :
      Passes reader s common (x.platform :: ps) w [x]

/-- The starts are for some of the platforms, in their order and each at most once. -/
lemma Passes.sublist {xs : List Start} (h : Passes reader s common platforms w xs) :
    (xs.map Start.platform).Sublist platforms := by
  induction h with
  | done => exact .slnil
  | refused _ _ _ ih => exact ih.cons _
  | started _ _ _ ih => exact ih.cons_cons _
  | failed => exact List.nil_sublist _
  | failedAfterStart => exact (List.nil_sublist _).cons_cons _

/-- No answer chooses a platform twice. -/
lemma nodup_platformsOf (answer : String) : (platformsOf answer).Nodup := by
  unfold platformsOf
  split <;> decide

/-- Going through some platforms starts what it passes with, and nothing else. -/
lemma exists_passes (reader : ImageReader) (s : External.Settings) (common : String)
    (platforms : List Platform) (w : World) :
    ∃ xs, Passes reader s common platforms w xs ∧
      startsOf ((platforms.forM (recoverPlatform reader (External.decompiler reader s)
        common)).after w).journal =
          startsOf w.journal ++ xs.map fun x => (x.command, x.image) := by
  induction platforms generalizing w with
  | nil => exact ⟨[], .done w, (List.append_nil _).symm⟩
  | cons p ps ih =>
    change ∃ xs, _ ∧ startsOf ((recoverPlatform reader (External.decompiler reader s) common p >>=
      fun _ => ps.forM (recoverPlatform reader (External.decompiler reader s) common)).after
        w).journal = _
    rcases recoverPlatform_cases reader s common p w with
      ⟨e, v, herror, hnone⟩ | ⟨v, hok, hnone, hrefused⟩ | ⟨x, rfl, hwarrant, hstarts⟩
    · refine ⟨[], .failed ps herror, ?_⟩
      rw [after_of_error (run_bind_of_error herror), hnone.starts]
      exact (List.append_nil _).symm
    · obtain ⟨xs, hxs, hrest⟩ := ih v
      refine ⟨xs, .refused hok hrefused hxs, ?_⟩
      rw [after_bind_of_ok hok, hrest, hnone.starts]
    · cases hrun : (recoverPlatform reader (External.decompiler reader s) common
          x.platform).run w with
      | error e v =>
        rw [after_of_error hrun] at hstarts
        refine ⟨[x], .failedAfterStart ps hrun hwarrant, ?_⟩
        rw [after_of_error (run_bind_of_error hrun), hstarts]
        rfl
      | ok a v =>
        rw [after_of_ok hrun] at hstarts
        obtain ⟨xs, hxs, hrest⟩ := ih v
        refine ⟨x :: xs, .started hrun hwarrant hxs, ?_⟩
        rw [after_bind_of_ok hrun, hrest, hstarts, List.append_assoc]
        rfl

end SourceRecovery.Server

import SourceRecovery.Proofs.Console
import SourceRecovery.Proofs.Files.Operations
import SourceRecovery.Server.Archive

/-!
# Gathering what is downloaded

The body of an answer is written to a file chunk by chunk. Progress is drawn after each chunk, and
stops the gathering where a size or a share cannot be written; otherwise the file holds the body in
the end.
-/

namespace SourceRecovery.Server

open SourceRecovery.Action SourceRecovery.Path

variable {part : String} {p : Palette} {total : Int} {done n size : ℕ} {body : Bytes} {w : World}
  {t : FileTree} {f : File} {text : String} {texts : List String}

/-! ### The counts at which progress is drawn -/

/-- The numbers of bytes at which progress is shown: after each full chunk, and at the end. -/
def IsMark (size n : ℕ) : Prop := 0 < n ∧ n ≤ size ∧ (n = size ∨ Archive.chunk ∣ n)

/-- The counts of bytes of a body in the order in which their progress is drawn. -/
def counters (size : ℕ) : List ℕ :=
  (List.range ((size + Archive.chunk - 1) / Archive.chunk)).map fun i =>
    min (Archive.chunk * (i + 1)) size

example : counters 0x20001 = [0x10000, 0x20000, 0x20001] := by decide

lemma mem_counters : n ∈ counters size ↔ IsMark size n := by
  simp only [counters, IsMark, Archive.chunk, List.mem_map, List.mem_range]
  constructor
  · rintro ⟨i, hi, rfl⟩
    refine ⟨by omega, by omega, ?_⟩
    rcases Nat.le_total (65536 * (i + 1)) size with hle | hle
    · exact .inr (by rw [Nat.min_eq_left hle]; exact Nat.dvd_mul_right _ _)
    · exact .inl (Nat.min_eq_right hle)
  · rintro ⟨hpos, hle, rfl | ⟨k, rfl⟩⟩
    · exact ⟨(n + 65535) / 65536 - 1, by omega, by omega⟩
    · exact ⟨k - 1, by omega, by omega⟩

/-- The counts that are left once some bytes are done. -/
def countersFrom (done rest : ℕ) : List ℕ :=
  (List.range ((rest + Archive.chunk - 1) / Archive.chunk)).map fun i =>
    done + min (Archive.chunk * (i + 1)) rest

lemma countersFrom_zero (size : ℕ) : countersFrom 0 size = counters size := by
  simp only [countersFrom, counters, Nat.zero_add]

/-- The next count is after one more chunk. -/
lemma countersFrom_eq_cons (hb : body ≠ []) (done : ℕ) : countersFrom done body.length =
    (done + (body.take Archive.chunk).length) ::
      countersFrom (done + (body.take Archive.chunk).length) (body.drop Archive.chunk).length := by
  have hpos := List.length_pos_iff.mpr hb
  have hcount : (body.length + Archive.chunk - 1) / Archive.chunk =
      (body.length - Archive.chunk + Archive.chunk - 1) / Archive.chunk + 1 := by
    simp only [Archive.chunk]
    omega
  simp only [countersFrom, List.length_take, List.length_drop]
  rw [hcount, List.range_succ_eq_map, List.map_cons, List.map_map, Nat.zero_add, Nat.mul_one]
  refine List.cons_eq_cons.mpr ⟨rfl, List.map_congr_left fun i _ => ?_⟩
  rw [Function.comp_apply, Nat.succ_eq_add_one, Nat.mul_add_one Archive.chunk (i + 1)]
  omega

lemma counters_eq_cons (hb : body ≠ []) : ∃ ns, counters body.length =
    (body.take Archive.chunk).length :: ns := by
  rw [← countersFrom_zero, countersFrom_eq_cons hb, Nat.zero_add]
  exact ⟨_, rfl⟩

/-- Progress is shown first after the first chunk. -/
lemma isMark_first (hb : body ≠ []) : IsMark body.length (body.take Archive.chunk).length := by
  obtain ⟨ns, hns⟩ := counters_eq_cons hb
  exact mem_counters.mp (hns ▸ List.mem_cons_self)

/-- Something is drawn for every body that is not empty. -/
lemma eq_nil_iff_of_counters {g : ℕ → Option String}
    (h : (counters body.length).mapM g = some texts) : texts = [] ↔ body = [] := by
  constructor
  · rintro rfl
    by_contra hb
    obtain ⟨ns, hns⟩ := counters_eq_cons hb
    rw [hns, List.mapM_cons] at h
    simp [Option.bind_eq_some_iff] at h
  · rintro rfl
    simpa [counters, Archive.chunk] using h.symm

/-! ### What can be shown -/

/-- The progress of a download can be shown: both sizes have a text, and their share a bar. -/
structure Showable (total : Int) (done : ℕ) : Prop where
  doneText : (Figures.size? done).isSome
  totalText : (Figures.size? total).isSome
  bar : total ≤ 0 ∨ (Figures.Bar.of? done total Figures.Bar.defaultWidth).isSome

/-- What is drawn when some bytes of a total are done: the bar, and the sizes below. Without a
total nothing is, but the sizes must have a text all the same. -/
def progress? (p : Palette) (total : Int) (n : ℕ) : Option String :=
  (Figures.size? n).bind fun done => (Figures.size? total).bind fun all =>
    if total ≤ 0 then some ""
    else (Figures.Bar.of? n total Figures.Bar.defaultWidth).map fun bar =>
      Console.drawing p n total bar s!"{done} / {all}"

/-- The console once progress is drawn with some texts. Without a total the bar is not opened. -/
def shown (c : Console) (total : Int) (texts : List String) : Console :=
  { c with output := c.output ++ String.join texts
           barOpen := c.barOpen || (0 < total && !texts.isEmpty) }

lemma isSome_progress?_iff : (progress? p total n).isSome ↔ Showable total n := by
  have hiff : Showable total n ↔ (Figures.size? n).isSome ∧ (Figures.size? total).isSome ∧
      (total ≤ 0 ∨ (Figures.Bar.of? n total Figures.Bar.defaultWidth).isSome) :=
    ⟨fun ⟨h, h', h''⟩ => ⟨h, h', h''⟩, fun ⟨h, h', h''⟩ => ⟨h, h', h''⟩⟩
  rw [hiff, progress?]
  cases Figures.size? n with
  | none => simp
  | some done =>
    cases Figures.size? total with
    | none => simp
    | some all => by_cases ht : total ≤ 0 <;> simp [ht]

lemma shown_nil (c : Console) (total : Int) : shown c total [] = c := by
  simp [shown]

lemma shown_cons (c : Console) (total : Int) (text : String) (texts : List String) :
    shown (shown c total [text]) total texts = shown c total (text :: texts) := by
  by_cases ht : 0 < total <;> simp [shown, ht, String.append_assoc]

lemma run_sizeText_of_some {bytes : Int} (h : Figures.size? bytes = some text) :
    (sizeText bytes).run w = .ok text w := by
  simp [sizeText, h]

lemma run_sizeText_of_none {bytes : Int} (h : Figures.size? bytes = none) :
    (sizeText bytes).run w = .error .outOfRange w := by
  simp [sizeText, h]

/-- Progress that can be shown is drawn, and changes nothing else. -/
lemma run_showing (h : progress? (.ofFlag w.console.colored) total n = some text)
    (k : Action Unit) :
    (do
      let label := s!"{← sizeText n} / {← sizeText total}"
      Console.showProgress n total label
      k : Action Unit).run w = k.run { w with console := shown w.console total [text] } := by
  obtain ⟨done, hdone, hrest⟩ := Option.bind_eq_some_iff.mp h
  obtain ⟨all, hall, hdrawn⟩ := Option.bind_eq_some_iff.mp hrest
  rw [run_bind_of_ok (run_sizeText_of_some hdone), run_bind_of_ok (run_sizeText_of_some hall)]
  by_cases ht : total ≤ 0
  · rw [if_pos ht, Option.some.injEq] at hdrawn
    subst hdrawn
    have hsame : shown w.console total [""] = w.console := by
      simp [shown, not_lt.mpr ht]
    rw [run_bind_of_ok (Console.run_showProgress_of_nonpos _ ht w), hsame]
  · rw [if_neg ht] at hdrawn
    obtain ⟨bar, hbar, rfl⟩ := Option.map_eq_some_iff.mp hdrawn
    have hopen : Console.drawn w.console (Console.drawing (.ofFlag w.console.colored) n total bar
        s!"{done} / {all}") = shown w.console total [Console.drawing (.ofFlag w.console.colored) n
          total bar s!"{done} / {all}"] := by
      simp [Console.drawn, shown, not_le.mp ht]
    rw [run_bind_of_ok (Console.run_showProgress _ ht hbar w), hopen]

lemma run_showing_of_none (h : progress? (.ofFlag w.console.colored) total n = none)
    (k : Action Unit) :
    (do
      let label := s!"{← sizeText n} / {← sizeText total}"
      Console.showProgress n total label
      k : Action Unit).run w = .error .outOfRange w := by
  cases hdone : Figures.size? n with
  | none => exact run_bind_of_error (run_sizeText_of_none hdone)
  | some done =>
    rw [run_bind_of_ok (run_sizeText_of_some hdone)]
    cases hall : Figures.size? total with
    | none => exact run_bind_of_error (run_sizeText_of_none hall)
    | some all =>
      rw [run_bind_of_ok (run_sizeText_of_some hall)]
      have hbar : ¬ total ≤ 0 ∧ Figures.Bar.of? n total Figures.Bar.defaultWidth = none := by
        by_cases ht : total ≤ 0
        · simp [progress?, hdone, hall, ht] at h
        · simpa [progress?, hdone, hall, ht] using h
      exact run_bind_of_error (Console.run_showProgress_of_none _ hbar.1 hbar.2 w)

/-! ### Writing the chunks -/

/-- A chunk is added to the file that is there, and the rest follows if progress can be shown. -/
lemma writeChunks_step (hb : body ≠ []) (hf : w.tree.find w.directory part = .ok (.file f))
    (total : Int) (bound done : ℕ) :
    ∃ g, g.data = f.data ++ body.take Archive.chunk ∧
      (∀ text, progress? (.ofFlag w.console.colored) total
            (done + (body.take Archive.chunk).length) = some text →
          (writeChunks part total (bound + 1) done body).run w =
            (writeChunks part total bound (done + (body.take Archive.chunk).length)
              (body.drop Archive.chunk)).run { w with
                tree := w.tree.put (destination w.directory part) (.file g)
                console := shown w.console total [text] }) ∧
        (progress? (.ofFlag w.console.colored) total
            (done + (body.take Archive.chunk).length) = none →
          (writeChunks part total (bound + 1) done body).run w = .error .outOfRange { w with
            tree := w.tree.put (destination w.directory part) (.file g) }) := by
  obtain ⟨g, hdata, hg⟩ := Files.exists_append hf (body.take Archive.chunk)
  refine ⟨g, hdata, fun text htext => ?_, fun htext => ?_⟩
  · simp only [writeChunks, hb, if_false]
    rw [run_bind_of_ok hg]
    exact run_showing (w := { w with
      tree := w.tree.put (destination w.directory part) (.file g) }) htext _
  · simp only [writeChunks, hb, if_false]
    rw [run_bind_of_ok hg]
    exact run_showing_of_none (w := { w with
      tree := w.tree.put (destination w.directory part) (.file g) }) htext _

lemma length_drop_lt (hb : body ≠ []) : (body.drop Archive.chunk).length < body.length := by
  have hpos := List.length_pos_iff.mpr hb
  have hchunk : 0 < Archive.chunk := by decide
  rw [List.length_drop]
  omega

/-- Where progress can be shown at every count, the body is added to the file to its end. -/
lemma writeChunks_eq_ok {bound : ℕ}
    (hpart : ∀ f, (t.put (destination w.directory part) (.file f)).find w.directory part =
      .ok (.file f))
    (hw : w.tree = t.put (destination w.directory part) (.file f)) (hlen : body.length < bound)
    (htexts : (countersFrom done body.length).mapM (progress? (.ofFlag w.console.colored) total) =
      some texts) :
    ∃ g, g.data = f.data ++ body ∧ (writeChunks part total bound done body).run w =
      .ok () { w with
        tree := t.put (destination w.directory part) (.file g)
        console := shown w.console total texts } := by
  -- The counts that are left go along with the body that is left.
  induction bound generalizing w f done body texts with
  | zero => omega
  | succ bound ih =>
    by_cases hb : body = []
    · subst hb
      obtain rfl : [] = texts := by simpa [countersFrom, Archive.chunk] using htexts
      exact ⟨f, by simp, by simp [writeChunks, ← hw, shown_nil]⟩
    · obtain ⟨g, hdata, hrun, -⟩ := writeChunks_step hb (hw ▸ hpart f) total bound done
      rw [countersFrom_eq_cons hb, List.mapM_cons] at htexts
      obtain ⟨text, htext, hrest⟩ := Option.bind_eq_some_iff.mp htexts
      obtain ⟨texts', htexts', hcons⟩ := Option.bind_eq_some_iff.mp hrest
      obtain rfl : text :: texts' = texts := by simpa using hcons
      obtain ⟨g', hdata', hrec⟩ := ih (f := g) (w := { w with
        tree := t.put (destination w.directory part) (.file g)
        console := shown w.console total [text] })
        hpart rfl (by have := length_drop_lt hb; omega) htexts'
      refine ⟨g', ?_, ?_⟩
      · rw [hdata', hdata, List.append_assoc, List.take_append_drop]
      · rw [hrun text htext, hw, FileTree.put_put, hrec]
        simp only [shown_cons]

/-- Where progress cannot be shown at some count, the gathering stops, and nothing is changed but
the file, and the console by what was drawn before. -/
lemma writeChunks_eq_error {bound : ℕ}
    (hpart : ∀ f, (t.put (destination w.directory part) (.file f)).find w.directory part =
      .ok (.file f))
    (hw : w.tree = t.put (destination w.directory part) (.file f)) (hlen : body.length < bound)
    (hn : n ∈ countersFrom done body.length) (hnone : ¬ Showable total n) :
    ∃ g texts, (texts = [] ↔ ¬ Showable total (done + (body.take Archive.chunk).length)) ∧
      (writeChunks part total bound done body).run w = .error .outOfRange { w with
        tree := t.put (destination w.directory part) (.file g)
        console := shown w.console total texts } := by
  induction bound generalizing w f done body with
  | zero => omega
  | succ bound ih =>
    have hb : body ≠ [] := by
      rintro rfl
      simp [countersFrom, Archive.chunk] at hn
    obtain ⟨g, -, hshown, hstopped⟩ := writeChunks_step hb (hw ▸ hpart f) total bound done
    rw [hw, FileTree.put_put] at hshown hstopped
    cases htext : progress? (.ofFlag w.console.colored) total
        (done + (body.take Archive.chunk).length) with
    | none =>
      refine ⟨g, [], iff_of_true rfl fun hs => ?_, ?_⟩
      · have hsome := (isSome_progress?_iff (p := .ofFlag w.console.colored)).mpr hs
        rw [htext] at hsome
        cases hsome
      · rw [shown_nil]
        exact hstopped htext
    | some text =>
      have hs := isSome_progress?_iff.mp (Option.isSome_of_eq_some htext)
      rw [countersFrom_eq_cons hb, List.mem_cons] at hn
      have hlater := hn.resolve_left fun he => hnone (he ▸ hs)
      obtain ⟨g', texts, -, hrec⟩ := ih (f := g) (w := { w with
        tree := t.put (destination w.directory part) (.file g)
        console := shown w.console total [text] })
        hpart rfl (by have := length_drop_lt hb; omega) hlater
      refine ⟨g', text :: texts, iff_of_false (List.cons_ne_nil _ _) (not_not.mpr hs), ?_⟩
      rw [hshown text htext, hrec]
      simp only [shown_cons]

end SourceRecovery.Server

import Mathlib.Data.List.TakeWhile
import SourceRecovery.Proofs.Catalog.Reporting
import SourceRecovery.Proofs.Text.Replace

/-!
# Names of builds

A template that is written from plain text and the two fields of a build is expanded part by part:
each field is replaced by what it stands for, and nothing that is put in is read as a field again.
The archive number is asked for exactly if its field is one of the parts. It is no name where the
number is not there or cannot be written.
-/

namespace SourceRecovery.Template

variable {values : Values} {name cs l rest : List Char} {v : Value}

/-! ### Pieces with a plain field -/

/-- Text without braces, which a template holds as it is. -/
def IsLiteral (cs : List Char) : Prop := '{' ∉ cs ∧ '}' ∉ cs

instance (cs : List Char) : Decidable (IsLiteral cs) := inferInstanceAs (Decidable (_ ∧ _))

/-- A name that ends where its field does, and that stands for a value as a whole. -/
structure IsPlain (name : List Char) : Prop where
  ne_nil : name ≠ []
  ordinary : ∀ c ∈ name, c ∉ ['{', '}', ':', '!', '.', '[']
  uncounted : index? name = .ok none

lemma IsLiteral.append (hl : IsLiteral l) (hcs : IsLiteral cs) : IsLiteral (l ++ cs) := by
  simp only [IsLiteral, List.mem_append, not_or] at hl hcs ⊢
  exact ⟨⟨hl.1, hcs.1⟩, hl.2, hcs.2⟩

/-- The text up to the first brace. -/
lemma IsLiteral.takeWhile (hl : IsLiteral l) (hcs : cs = [] ∨ ∃ rest, cs = '{' :: rest) :
    (l ++ cs).takeWhile (fun c => c ≠ '{' && c ≠ '}') = l := by
  have hall : ∀ c ∈ l, (c ≠ '{' && c ≠ '}') = true := by
    intro c hc
    have hopen : c ≠ '{' := fun h => hl.1 (h ▸ hc)
    have hclose : c ≠ '}' := fun h => hl.2 (h ▸ hc)
    simp [hopen, hclose]
  rw [List.takeWhile_append_of_pos hall]
  rcases hcs with rfl | ⟨rest, rfl⟩
  · rw [List.takeWhile_nil, List.append_nil]
  · rw [List.takeWhile_cons_of_neg (by simp), List.append_nil]

lemma fieldName_append (hname : ∀ c ∈ name, c ∉ ['{', '}', ':', '!', '.', '[']) (read : List Char) :
    fieldName false read (name ++ '}' :: rest) = .ok (read.reverse ++ name, '}', rest) := by
  induction name generalizing read with
  | nil => simp [fieldName]
  | cons c name ih =>
    obtain ⟨hc, hname⟩ := List.forall_mem_cons.mp hname
    simp only [List.mem_cons, List.not_mem_nil, or_false, not_or] at hc
    simp [fieldName, hc, ih hname]

lemma field_append (hname : IsPlain name) :
    field (name ++ '}' :: rest) = .ok (⟨name, none, [], false⟩, rest) := by
  rw [field, fieldName_append hname.ordinary]
  rfl

/-- A field with nothing but a name in it. -/
def fieldOf (name : List Char) : List Char := '{' :: (name ++ ['}'])

/-- The piece of a plain field with the text in front of it. -/
lemma piece_append (hl : IsLiteral l) (hname : IsPlain name) :
    piece (l ++ (fieldOf name ++ rest)) = .ok (⟨l, some ⟨name, none, [], false⟩⟩, rest) := by
  rw [fieldOf, List.cons_append, List.append_assoc, List.singleton_append]
  have hfield : field (name ++ '}' :: rest) = .ok (⟨name, none, [], false⟩, rest) :=
    field_append hname
  obtain ⟨c, name', rfl⟩ := List.exists_cons_of_ne_nil hname.ne_nil
  have hc := hname.ordinary c (.head _)
  simp only [List.mem_cons, List.not_mem_nil, or_false, not_or] at hc
  simp only [piece, hl.takeWhile (.inr ⟨_, rfl⟩), List.drop_left, List.cons_append] at hfield ⊢
  simp [hc, hfield]

lemma piece_of_isLiteral (hl : IsLiteral l) : piece l = .ok (⟨l, none⟩, []) := by
  have htake := hl.takeWhile (.inl rfl)
  rw [List.append_nil] at htake
  simp only [piece, htake, List.drop_length]

variable [Objects]

/-- A plain name stands for the value that it is given. -/
lemma resolve_of_isPlain (hname : IsPlain name) (hv : values.lookup name = some v) :
    resolve values name = .ok v := by
  have hbase : base name = name := by
    refine List.takeWhile_eq_self_iff.mpr fun c hc => ?_
    have hordinary := hname.ordinary c hc
    simp only [List.mem_cons, List.not_mem_nil, or_false, not_or] at hordinary
    simp [hordinary]
  have hstart : start values name = .ok v := by
    simp only [start, hbase, hname.uncounted, orFlawed, bind, Except.bind, hname.ne_nil, if_false,
      hv]
    rfl
  have hsteps : steps name = [] := by
    simp [steps, hbase, accesses]
  rw [resolve_eq, hstart, hsteps]
  rfl

/-- A piece with a plain field is replaced by its text and what the value is laid out as. -/
lemma expandPiece_field (expandFormat : List Char → Except Failure (List Char)) :
    expandPiece expandFormat values (.ok ⟨l, some ⟨name, none, [], false⟩⟩) =
      resolve values name >>= fun v => v.render [] >>= fun text => .ok (l ++ text) := by
  simp only [expandPiece, expandField_eq, orFlawed, bind_assoc]
  rfl

/-! ### Expanding piece by piece -/

/-- What the pieces of a text are replaced by. The number bounds the pieces. -/
def expandPieces (expandFormat : List Char → Except Failure (List Char)) (values : Values) (n : ℕ)
    (cs : List Char) : Except Failure (List Char) := do
  let parts ← (pieces n cs).mapM (expandPiece expandFormat values)
  return parts.flatten

lemma expandTo_eq (values : Values) (depth : ℕ) (cs : List Char) :
    expandTo values (depth + 1) cs = expandPieces (expandTo values depth) values cs.length cs := rfl

variable {expandFormat : List Char → Except Failure (List Char)} {n : ℕ} {p : Piece}

lemma expandPieces_nil : expandPieces expandFormat values n [] = .ok [] := by
  cases n <;> rfl

/-- The first piece is replaced, and then the rest. -/
lemma expandPieces_of_piece (hne : cs ≠ []) (hp : piece cs = .ok (p, rest)) :
    expandPieces expandFormat values (n + 1) cs =
      expandPiece expandFormat values (.ok p) >>= fun text =>
        expandPieces expandFormat values n rest >>= fun back => .ok (text ++ back) := by
  obtain ⟨c, cs, rfl⟩ := List.exists_cons_of_ne_nil hne
  have hpieces : pieces (n + 1) (c :: cs) = .ok p :: pieces n rest := by
    simp only [pieces, hp]
  simp only [expandPieces, hpieces, List.mapM_cons, bind_assoc, pure_bind, List.flatten_cons]
  rfl

end SourceRecovery.Template

namespace SourceRecovery.Catalog

open Template (IsLiteral IsPlain Value expandPieces)

/-! ### Templates in parts -/

/-- A part of a template: text without braces, or the field of the version or of the archive
number. -/
inductive Segment
  | literal (cs : List Char) (plain : IsLiteral cs)
  | version
  | archive

namespace Segment

/-- A part as a template writes it. -/
def written : Segment → List Char
  | .literal cs _ => cs
  | .version => Template.fieldOf "version".toList
  | .archive => Template.fieldOf "archive".toList

/-- What a part shows of a build. A build without an archive number has nothing to show for it, and
neither has one whose number is too long. -/
inductive Shows (b : Build) : Segment → List Char → Prop
  | literal {cs : List Char} {plain : IsLiteral cs} : Shows b (.literal cs plain) cs
  | version : Shows b .version b.version.toList
  | archive {n : Int} (h : b.archive = some n) (hn : Numeral.length n ≤ Numeral.maxDigits) :
      Shows b .archive (toString n).toList

end Segment

variable {b : Build} {segments : List Segment} {parts : List (List Char)} {l : List Char}
  {expandFormat : List Char → Except Template.Failure (List Char)} {n : ℕ}

/-- The text of a template. -/
def template (segments : List Segment) : String := String.ofList (segments.flatMap Segment.written)

lemma isPlain_version : IsPlain "version".toList := ⟨by decide, by simp, by decide⟩

lemma isPlain_archive : IsPlain "archive".toList := ⟨by decide, by simp, by decide⟩

/-! ### The archive field -/

lemma archiveField_eq : archiveField.toList = '{' :: "archive".toList := by decide

/-- No archive field starts where there is no brace. -/
lemma occursIn_append {cs : List Char} (hl : '{' ∉ l) :
    Text.occursIn archiveField.toList (l ++ cs) = Text.occursIn archiveField.toList cs := by
  induction l with
  | nil => rfl
  | cons c l ih =>
    rw [List.mem_cons, not_or] at hl
    have hstart : archiveField.toList.isPrefixOf (c :: (l ++ cs)) = false := by
      rw [archiveField_eq, List.isPrefixOf_cons_cons, beq_eq_false_iff_ne.mpr hl.1, Bool.false_and]
    rw [List.cons_append, Text.occursIn, hstart, Bool.false_or, ih hl.2]

/-- A template asks for the archive number exactly if its field is one of the parts. -/
lemma occursIn_written :
    Text.occursIn archiveField.toList (segments.flatMap Segment.written) = true ↔
      .archive ∈ segments := by
  induction segments with
  | nil => simp [archiveField_eq, Text.occursIn]
  | cons segment segments ih =>
    rw [List.flatMap_cons, List.mem_cons]
    cases segment with
    | literal cs plain => simp [Segment.written, occursIn_append plain.1, ih]
    | version =>
      have hinside : '{' ∉ "version".toList ++ ['}'] := by decide
      have hstart (cs : List Char) : archiveField.toList.isPrefixOf
          ('{' :: ("version".toList ++ ['}'] ++ cs)) = false := by
        simp [archiveField_eq, List.isPrefixOf_cons_cons]
      rw [Segment.written, Template.fieldOf, List.cons_append, Text.occursIn, hstart,
        Bool.false_or, occursIn_append hinside, ih]
      simp
    | archive =>
      have hstart : archiveField.toList <+: Segment.archive.written ++
          segments.flatMap Segment.written := by
        rw [archiveField_eq, Segment.written, Template.fieldOf, ← List.cons_append,
          List.append_assoc]
        exact List.prefix_append _ _
      exact iff_of_true (Text.occursIn_iff.mpr hstart.isInfix) (.inl rfl)

/-! ### Replacing the parts -/

variable [Template.Objects]

/-- What a part is replaced by. -/
def Segment.replaced (b : Build) : Segment → Except Template.Failure (List Char)
  | .literal cs _ => .ok cs
  | .version => Template.resolve (values b) "version".toList >>= fun v => v.render []
  | .archive => Template.resolve (values b) "archive".toList >>= fun v => v.render []

lemma replaced_version (b : Build) : Segment.version.replaced b = .ok b.version.toList := by
  rw [Segment.replaced, Template.resolve_of_isPlain isPlain_version rfl]
  rfl

lemma replaced_archive {k : Int} (h : b.archive = some k) :
    Segment.archive.replaced b = Template.digitsOf k := by
  have hlookup : (values b).lookup "archive".toList = some (.number k) := by
    rw [values, h]
    rfl
  rw [Segment.replaced, Template.resolve_of_isPlain isPlain_archive hlookup]
  rfl

/-- A plain field behind a text is replaced, and then the rest. -/
lemma expandPieces_field {name rest : List Char} (hl : IsLiteral l) (hname : IsPlain name)
    (hn : (l ++ (Template.fieldOf name ++ rest)).length ≤ n) : ∃ m, rest.length ≤ m ∧
      expandPieces expandFormat (values b) n (l ++ (Template.fieldOf name ++ rest)) =
        (Template.resolve (values b) name >>= fun v => v.render []) >>= fun text =>
          expandPieces expandFormat (values b) m rest >>= fun back =>
            .ok (l ++ (text ++ back)) := by
  have hne : l ++ (Template.fieldOf name ++ rest) ≠ [] := by simp [Template.fieldOf]
  simp only [List.length_append, Template.fieldOf, List.length_cons] at hn
  obtain ⟨m, rfl⟩ : ∃ m, n = m + 1 := ⟨n - 1, by omega⟩
  refine ⟨m, by omega, ?_⟩
  rw [Template.expandPieces_of_piece hne (Template.piece_append hl hname),
    Template.expandPiece_field]
  simp only [bind_assoc, ← List.append_assoc l]
  rfl

/-- Text without braces and the parts behind it are replaced one after the other. -/
lemma expandPieces_written (b : Build) (segments : List Segment) (hl : IsLiteral l)
    (hn : (l ++ segments.flatMap Segment.written).length ≤ n) :
    expandPieces expandFormat (values b) n (l ++ segments.flatMap Segment.written) =
      segments.mapM (Segment.replaced b) >>= fun parts => .ok (l ++ parts.flatten) := by
  have hempty : IsLiteral [] := by decide
  -- Text in front of other text makes one piece with it, so that it is kept until a field follows.
  induction segments generalizing l n with
  | nil =>
    simp only [List.flatMap_nil, List.append_nil, List.mapM_nil, pure_bind, List.flatten_nil]
      at hn ⊢
    by_cases hne : l = []
    · rw [hne, Template.expandPieces_nil]
    · have hpos := List.length_pos_iff.mpr hne
      obtain ⟨m, rfl⟩ : ∃ m, n = m + 1 := ⟨n - 1, by omega⟩
      rw [Template.expandPieces_of_piece hne (Template.piece_of_isLiteral hl),
        Template.expandPieces_nil]
      simp [Template.expandPiece, Template.orFlawed, bind, Except.bind, pure, Except.pure]
  | cons segment segments ih =>
    have hfield {name : List Char} (hname : IsPlain name) (hn : (l ++ (Template.fieldOf name ++
          segments.flatMap Segment.written)).length ≤ n) :
        expandPieces expandFormat (values b) n
            (l ++ (Template.fieldOf name ++ segments.flatMap Segment.written)) =
          (Template.resolve (values b) name >>= fun v => v.render []) >>= fun text =>
            segments.mapM (Segment.replaced b) >>= fun parts =>
              .ok (l ++ (text ++ parts.flatten)) := by
      obtain ⟨m, hm, heq⟩ := expandPieces_field hl hname hn
      rw [heq]
      have hrest := ih (l := []) hempty hm
      rw [List.nil_append] at hrest
      simp only [hrest, bind_assoc]
      rfl
    rw [List.flatMap_cons] at hn ⊢
    simp only [List.mapM_cons, bind_assoc, pure_bind, List.flatten_cons]
    cases segment with
    | literal cs plain =>
      rw [Segment.written, ← List.append_assoc] at hn ⊢
      rw [ih (hl.append plain) hn]
      simp only [List.append_assoc]
      rfl
    | version => exact hfield isPlain_version hn
    | archive => exact hfield isPlain_archive hn

/-! ### Names -/

/-- A name is what a template says of a build: each of its parts is replaced by what it shows, once
and for all. Where an archive number is asked for, there is no name without one, and none with one
that is too long. -/
structure Names (b : Build) (segments : List Segment) (name : Result String) : Prop where
  shown (h : .archive ∈ segments → ∃ n, b.archive = some n ∧ Numeral.length n ≤ Numeral.maxDigits) :
    ∃ parts, List.Forall₂ (Segment.Shows b) segments parts ∧
      name = .ok (String.ofList parts.flatten)
  refused (h : .archive ∈ segments) (h' : b.archive = none) :
    name = .error (.catalog (.noArchive b.version))
  tooLong {n : Int} (h : .archive ∈ segments) (h' : b.archive = some n)
      (hn : Numeral.maxDigits < Numeral.length n) :
    name = .error (.catalog (.badTemplate (template segments) (.numeral .unwritable)))

/-- Every part shows something if a number that can be written is there or not asked for. -/
lemma exists_shown
    (h : .archive ∈ segments → ∃ n, b.archive = some n ∧ Numeral.length n ≤ Numeral.maxDigits) :
    ∃ parts, List.Forall₂ (Segment.Shows b) segments parts ∧
      segments.mapM (Segment.replaced b) = .ok parts := by
  induction segments with
  | nil => exact ⟨[], .nil, rfl⟩
  | cons segment segments ih =>
    obtain ⟨parts, hshows, hparts⟩ := ih fun hin => h (.tail _ hin)
    obtain ⟨text, htext, hreplaced⟩ : ∃ text, segment.Shows b text ∧
        segment.replaced b = .ok text := by
      cases segment with
      | literal cs plain => exact ⟨cs, .literal, rfl⟩
      | version => exact ⟨_, .version, replaced_version b⟩
      | archive =>
        obtain ⟨n, hb, hn⟩ := h (.head _)
        refine ⟨_, .archive hb hn, ?_⟩
        rw [replaced_archive hb, Template.digitsOf, Numeral.write, if_neg (not_lt.mpr hn)]
    refine ⟨text :: parts, .cons htext hshows, ?_⟩
    rw [List.mapM_cons, hreplaced, hparts]
    rfl

/-- The first number that is too long is told. -/
lemma mapM_replaced_of_tooLong {k : Int} (h : .archive ∈ segments) (hb : b.archive = some k)
    (hk : Numeral.maxDigits < Numeral.length k) :
    segments.mapM (Segment.replaced b) = .error (.flawed (.numeral .unwritable)) := by
  induction segments with
  | nil => cases h
  | cons segment segments ih =>
    have harchive : Segment.archive.replaced b = .error (.flawed (.numeral .unwritable)) := by
      rw [replaced_archive hb, Template.digitsOf, Numeral.write, if_pos hk]
    rw [List.mapM_cons]
    cases segment with
    | archive => rw [harchive]; rfl
    | version =>
      have hrest : Segment.archive ∈ segments := by simpa using h
      rw [replaced_version, ih hrest]
      rfl
    | literal cs plain =>
      have hrest : Segment.archive ∈ segments := by simpa using h
      rw [Segment.replaced, ih hrest]
      rfl

/-- Parts are put together. -/
lemma expand_template (b : Build) (segments : List Segment) :
    Template.expand (values b) (template segments) =
      segments.mapM (Segment.replaced b) >>= fun parts => .ok (String.ofList parts.flatten) := by
  have hexpand : Template.expandTo (values b) 2 (segments.flatMap Segment.written) =
      segments.mapM (Segment.replaced b) >>= fun parts => .ok ([] ++ parts.flatten) :=
    (Template.expandTo_eq _ _ _).trans
      (expandPieces_written (l := []) b segments (by decide) (Nat.le_refl _))
  rw [Template.expand, template, String.toList_ofList, hexpand]
  simp only [bind_assoc]
  rfl

lemma names_expand (b : Build) (segments : List Segment) :
    Names b segments (expand (.text (template segments)) b) := by
  have hasks : asksForArchive (.text (template segments)) =
      .ok (Text.occursIn archiveField.toList (segments.flatMap Segment.written)) := by
    rw [asksForArchive, template, String.toList_ofList]
  have hfilled (h : .archive ∈ segments → b.archive ≠ none) :
      expand (.text (template segments)) b = filled (.text (template segments)) b := by
    have hunasked : ¬ (Text.occursIn archiveField.toList (segments.flatMap Segment.written) &&
        b.archive.isNone) = true := by
      rw [Bool.and_eq_true, occursIn_written, Option.isNone_iff_eq_none, not_and]
      exact h
    rw [expand_eq, hasks]
    exact if_neg hunasked
  constructor
  · intro h
    obtain ⟨parts, hshows, hparts⟩ := exists_shown h
    refine ⟨parts, hshows, ?_⟩
    have hsome (hin : .archive ∈ segments) : b.archive ≠ none := by
      obtain ⟨n, hb, -⟩ := h hin
      simp [hb]
    rw [hfilled hsome, filled, expand_template, hparts]
    rfl
  · intro hin hb
    rw [expand_eq, hasks, occursIn_written.mpr hin, hb]
    rfl
  · intro n hin hb hn
    have hsome : b.archive ≠ none := by simp [hb]
    rw [hfilled fun _ => hsome, filled, expand_template, mapM_replaced_of_tooLong hin hb hn]
    rfl

/-- A build's address and the name of its file are what their templates say of it. -/
theorem names_urlOf_stemOf (builds : List Build) (url file : List Segment) (b : Build) :
    Names b url (urlOf ⟨builds, .text (template url), .text (template file)⟩ b) ∧
      Names b file (stemOf ⟨builds, .text (template url), .text (template file)⟩ b) :=
  ⟨names_expand b url, names_expand b file⟩

/-- A version that looks like a field is put in as it is. -/
example : urlOf ⟨[], .text "a-\x7bversion\x7d-\x7barchive\x7d", .null⟩
    ⟨"\x7barchive\x7d", some 36⟩ = .ok "a-\x7barchive\x7d-36" := by
  rfl

end SourceRecovery.Catalog

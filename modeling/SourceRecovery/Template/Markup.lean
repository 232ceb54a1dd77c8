import SourceRecovery.Template.FormatSpec

/-!
# Markup of templates

A template is literal text with replacement fields between braces; a doubled brace stands for
itself. A field has a name with members and indexes, a conversion and a format. Reading goes on
until the first flaw, so that what stands before it is still there to be expanded.
-/

namespace SourceRecovery.Template

structure Field where
  name : List Char
  conversion : Option Char
  format : List Char
  /-- Whether the format holds fields of its own. -/
  nested : Bool
  deriving DecidableEq, Repr

/-- A piece of a template: literal text and the field that follows it, if one does. -/
structure Piece where
  literal : List Char
  field : Option Field
  deriving DecidableEq, Repr

/-- Read the name of a field up to the character that ends it; between brackets every character
belongs to the name. `read` holds the name so far in reverse. -/
def fieldName : Bool → List Char → List Char → Except Flaw (List Char × Char × List Char)
  | _, _, [] => .error .closeMissing
  | true, read, c :: rest => fieldName (c ≠ ']') (c :: read) rest
  | false, read, c :: rest =>
    if c = '{' then .error .openInName
    else if c = '}' ∨ c = ':' ∨ c = '!' then .ok (read.reverse, c, rest)
    else fieldName (c = '[') (c :: read) rest

/-- Read a format up to the brace that closes its field, `depth` fields being open in it. `read`
holds the format so far in reverse. -/
def formatText : Nat → List Char → List Char → Except Flaw (List Char × List Char)
  | _, _, [] => .error .openInFormat
  | depth, read, c :: rest =>
    if c = '{' then formatText (depth + 1) (c :: read) rest
    else if c = '}' then
      match depth with
      | 0 => .ok (read.reverse, rest)
      | depth + 1 => formatText depth (c :: read) rest
    else formatText depth (c :: read) rest

/-- A field from its name, its conversion and the text that starts with its format. -/
def withFormat (name : List Char) (conversion : Option Char) (cs : List Char) :
    Except Flaw (Field × List Char) := do
  let (format, rest) ← formatText 0 [] cs
  return (⟨name, conversion, format, format.contains '{'⟩, rest)

/-- Read a field from the character after its opening brace on. -/
def field (cs : List Char) : Except Flaw (Field × List Char) := do
  let (name, stop, rest) ← fieldName false [] cs
  if stop = '}' then return (⟨name, none, [], false⟩, rest)
  else if stop = ':' then withFormat name none rest
  else
    match rest with
    | [] => throw .conversionMissing
    | [c] => withFormat name (some c) []
    | c :: '}' :: rest => return (⟨name, some c, [], false⟩, rest)
    | c :: ':' :: rest => withFormat name (some c) rest
    | _ => throw .colonMissing

def piece (cs : List Char) : Except Flaw (Piece × List Char) :=
  let literal := cs.takeWhile fun c => c ≠ '{' && c ≠ '}'
  match cs.drop literal.length with
  | [] => .ok (⟨literal, none⟩, [])
  | '}' :: '}' :: rest => .ok (⟨literal ++ ['}'], none⟩, rest)
  | '}' :: _ => .error .lonelyClose
  | '{' :: '{' :: rest => .ok (⟨literal ++ ['{'], none⟩, rest)
  | ['{'] => .error .lonelyOpen
  | _ :: rest => do
    let (found, rest) ← field rest
    return (⟨literal, some found⟩, rest)

/-- The pieces of a template up to the first flaw. The number bounds them: each takes at least
one character. -/
def pieces : Nat → List Char → List (Except Flaw Piece)
  | _, [] => []
  | 0, _ => []
  | n + 1, cs =>
    match piece cs with
    | .error flaw => [.error flaw]
    | .ok (found, rest) => .ok found :: pieces n rest

/-! ### Names -/

/-- A step from a value to a part of it. -/
inductive Access
  | member (name : List Char)
  | index (n : Nat)
  | key (name : List Char)
  deriving DecidableEq, Repr

/-- The index that a text writes, if it holds digits only. -/
def index? (cs : List Char) : Except Flaw (Option Nat) := do
  match ← FormatSpec.number none cs with
  | (some n, []) => return some n
  | _ => return none

/-- The first step of an access path and what follows it. -/
def access : List Char → Except Flaw (Access × List Char)
  | '.' :: rest =>
    let name := rest.takeWhile fun c => c ≠ '.' && c ≠ '['
    if name = [] then .error .emptyMember else .ok (.member name, rest.drop name.length)
  | '[' :: rest => do
    let name := rest.takeWhile (· ≠ ']')
    match ← index? name with
    | some n => return (.index n, rest.drop (name.length + 1))
    | none =>
      if name = [] then throw .emptyMember else return (.key name, rest.drop (name.length + 1))
  | _ => .error .afterBracket

/-- The steps of an access path up to the first flaw. The number bounds them: each takes at least
one character. -/
def accesses : Nat → List Char → List (Except Flaw Access)
  | _, [] => []
  | 0, _ => []
  | n + 1, cs =>
    match access cs with
    | .error flaw => [.error flaw]
    | .ok (found, rest) => .ok found :: accesses n rest

end SourceRecovery.Template

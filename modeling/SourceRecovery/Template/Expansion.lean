import SourceRecovery.Template.Value

/-!
# Expanding templates

Every field of a template is replaced by the value that its name stands for. A format may hold
fields itself, one level deep. The first failure from the left decides.
-/

namespace SourceRecovery.Template

variable [Objects]

/-- The values that the names of fields stand for. -/
abbrev Values := List (List Char × Value)

/-- The value that the name of a field leads to. Fields cannot be counted, only named. -/
def resolve (values : Values) (name : List Char) : Except Failure Value := do
  let first := name.takeWhile fun c => c ≠ '.' && c ≠ '['
  let path := name.drop first.length
  match ← orFlawed (index? first) with
  | some n => throw (.flawed (.positional n))
  | none =>
    if first = [] then throw (.flawed (.positional 0))
    else match values.lookup first with
      | none => throw (.flawed (.unknownName (String.ofList first)))
      | some v => (accesses path.length path).foldlM (fun v step => do v.part (← orFlawed step)) v

/-- A field replaced by its value; `expandFormat` expands the fields of its format. -/
def expandField (expandFormat : List Char → Except Failure (List Char)) (values : Values)
    (f : Field) : Except Failure (List Char) := do
  let v ← resolve values f.name
  let v ← match f.conversion with
    | none => pure v
    | some c => v.convert c
  let format ← if f.nested then expandFormat f.format else pure f.format
  v.render format

/-- A template with its fields replaced, nested at most `depth` levels deep. -/
def expandTo (values : Values) : Nat → List Char → Except Failure (List Char)
  | 0, _ => .error (.flawed .tooNested)
  | depth + 1, cs => do
    let parts ← (pieces cs.length cs).mapM fun found => do
      let p ← orFlawed found
      match p.field with
      | none => return p.literal
      | some f => return p.literal ++ (← expandField (expandTo values depth) values f)
    return parts.flatten

def expand (values : Values) (template : String) : Except Failure String := do
  return String.ofList (← expandTo values 2 template.toList)

end SourceRecovery.Template

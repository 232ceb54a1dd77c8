import SourceRecovery.Template.Markup
import SourceRecovery.Template.Rendering

/-!
# Values of fields

A field stands for a text or a number, or for an object that a member of one of them leads to, such
as an operation on it. Which members there are is fixed. What is known of objects beyond that is a
parameter: how they are shown differs from run to run. Where no such knowledge is named, objects
have no parts and show nothing.
-/

namespace SourceRecovery.Template

inductive Value
  | text (cs : List Char)
  | number (n : Int)
  | object (id : Nat)
  deriving DecidableEq, Repr

/-- What is known of objects: the values that the members of texts and numbers are, and what
becomes of an object by a step, a conversion or a format. -/
class Objects where
  member : Value → List Char → Value
  part : Nat → Access → Except Failure Value
  convert : Nat → Char → Except Failure (List Char)
  render : Nat → List Char → Except Failure (List Char)

instance Objects.blank : Objects where
  member _ _ := .object 0
  part _ _ := .error .noMember
  convert _ _ := .ok []
  render _ _ := .ok []

/-! ### Members -/

/-- The members that texts and numbers have in common. -/
def commonMembers : List String :=
  ["__add__", "__class__", "__delattr__", "__dir__", "__doc__", "__eq__", "__format__", "__ge__",
   "__getattribute__", "__getnewargs__", "__getstate__", "__gt__", "__hash__", "__init__",
   "__init_subclass__", "__le__", "__lt__", "__mod__", "__mul__", "__ne__", "__new__",
   "__reduce__", "__reduce_ex__", "__repr__", "__rmod__", "__rmul__", "__setattr__", "__sizeof__",
   "__str__", "__subclasshook__"]

/-- The members of a kind of values beyond the common ones. -/
def Kind.ownMembers : Kind → List String
  | .text =>
    ["__contains__", "__getitem__", "__iter__", "__len__", "capitalize", "casefold", "center",
     "count", "encode", "endswith", "expandtabs", "find", "format", "format_map", "index",
     "isalnum", "isalpha", "isascii", "isdecimal", "isdigit", "isidentifier", "islower",
     "isnumeric", "isprintable", "isspace", "istitle", "isupper", "join", "ljust", "lower",
     "lstrip", "maketrans", "partition", "removeprefix", "removesuffix", "replace", "rfind",
     "rindex", "rjust", "rpartition", "rsplit", "rstrip", "split", "splitlines", "startswith",
     "strip", "swapcase", "title", "translate", "upper", "zfill"]
  | .number =>
    ["__abs__", "__and__", "__bool__", "__ceil__", "__divmod__", "__float__", "__floor__",
     "__floordiv__", "__index__", "__int__", "__invert__", "__lshift__", "__neg__", "__or__",
     "__pos__", "__pow__", "__radd__", "__rand__", "__rdivmod__", "__rfloordiv__", "__rlshift__",
     "__ror__", "__round__", "__rpow__", "__rrshift__", "__rshift__", "__rsub__", "__rtruediv__",
     "__rxor__", "__sub__", "__truediv__", "__trunc__", "__xor__", "as_integer_ratio", "bit_count",
     "bit_length", "conjugate", "denominator", "from_bytes", "imag", "numerator", "real",
     "to_bytes"]

/-- Whether the values of a kind have a member with a name. -/
def Kind.hasMember (kind : Kind) (name : List Char) : Bool :=
  commonMembers.contains (String.ofList name) || kind.ownMembers.contains (String.ofList name)

/-- The number that a member of a number is, if it is one. -/
def numberMember? (n : Int) (name : List Char) : Option Int :=
  if name = "real".toList ∨ name = "numerator".toList then some n
  else if name = "imag".toList then some 0
  else if name = "denominator".toList then some 1
  else none

/-! ### Steps, conversions and formats -/

/-- A flaw, where there is one, as a failure. -/
def orFlawed {α : Type} : Except Flaw α → Except Failure α
  | .ok a => .ok a
  | .error flaw => .error (.flawed flaw)

/-- The conversions that there are. -/
def conversions : List Char := ['s', 'r', 'a']

/-- A text turned into another one by a conversion. -/
def convertText (c : Char) (cs : List Char) : List Char :=
  if c = 'r' then (Text.quote (String.ofList cs)).toList
  else if c = 'a' then (Text.quoteAscii (String.ofList cs)).toList
  else cs

/-- The decimal digits of a number, with its sign. -/
def digitsOf (n : Int) : Except Failure (List Char) :=
  match Numeral.write n with
  | .ok digits => .ok digits.toList
  | .error cause => .error (.flawed (.numeral cause))

namespace Value

variable [Objects]

/-- The part of a value that one step of an access path leads to. -/
def part : Value → Access → Except Failure Value
  | .text cs, .index n =>
    match cs[n]? with
    | some c => .ok (.text [c])
    | none => .error (.flawed .indexOutOfRange)
  | .text _, .key _ => .error .wrongKind
  | .text cs, .member name =>
    if Kind.text.hasMember name then .ok (Objects.member (.text cs) name) else .error .noMember
  | .number n, .member name =>
    match numberMember? n name with
    | some m => .ok (.number m)
    | none =>
      if Kind.number.hasMember name then .ok (Objects.member (.number n) name)
      else .error .noMember
  | .number _, .index _ => .error .wrongKind
  | .number _, .key _ => .error .wrongKind
  | .object id, step => Objects.part id step

/-- A value turned into a text by a conversion. -/
def convert (v : Value) (c : Char) : Except Failure Value :=
  if c ∉ conversions then .error (.flawed (.unknownConversion c))
  else match v with
    | .text cs => .ok (.text (convertText c cs))
    | .number n => .text <$> digitsOf n
    | .object id => .text <$> Objects.convert id c

/-- A value laid out by a format; an empty format leaves a text or a number as it is. -/
def render (v : Value) (format : List Char) : Except Failure (List Char) :=
  match v with
  | .text cs =>
    if format = [] then .ok cs
    else orFlawed (FormatSpec.read .text format >>= fun spec => renderText spec cs)
  | .number n =>
    if format = [] then digitsOf n
    else orFlawed (FormatSpec.read .number format) >>= fun spec => renderNumber spec n
  | .object id => Objects.render id format

end Value

end SourceRecovery.Template

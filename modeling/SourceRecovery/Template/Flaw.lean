import SourceRecovery.Number.Numeral

/-!
# Flaws of templates

What can be wrong with a template, and the wording of each flaw.
-/

namespace SourceRecovery.Template

inductive Kind
  | text
  | number
  deriving DecidableEq, Repr

/-- The name of a kind of value in messages. -/
def Kind.label : Kind → String
  | .text => "str"
  | .number => "int"

/-- What is wrong with a template or with the format of one of its fields. -/
inductive Flaw
  | lonelyOpen
  | lonelyClose
  | openInName
  | closeMissing
  | openInFormat
  | conversionMissing
  | colonMissing
  | unknownConversion (c : Char)
  | unknownName (name : String)
  | positional (index : Nat)
  | tooManyDigits
  | emptyMember
  | afterBracket
  | indexOutOfRange
  | tooNested
  | bothSeparators
  | precisionMissing
  | invalidFormat (format : String) (kind : Kind)
  | separatorWith (separator type : Char)
  | unknownType (type : Char) (kind : Kind)
  | spaceOnText
  | signOnText
  | zeroSignOnText
  | alternateOnText
  | fillAfterSignOnText
  | precisionOnNumber
  | zeroSignOnNumber
  | signOnCharacter
  | alternateOnCharacter
  | precisionTooBig
  /-- A number cannot be written. -/
  | numeral (cause : NumeralError)
  /-- An object tells what is wrong in its own words. -/
  | object (message : String)
  deriving DecidableEq, Repr

/-- A character as a message about a format shows it: itself, or its code when `isPlain` does not
admit it. -/
def showCode (isPlain : Char → Bool) (c : Char) : String :=
  if isPlain c then String.ofList [c] else "\\x" ++ String.ofList (Nat.toDigits 16 c.toNat)

/-- A character beyond the space and within ASCII. -/
def isGraphic (c : Char) : Bool := 32 < c.toNat && c.toNat < 128

def Flaw.message : Flaw → String
  | .lonelyOpen => "Single '\x7b' encountered in format string"
  | .lonelyClose => "Single '\x7d' encountered in format string"
  | .openInName => "unexpected '\x7b' in field name"
  | .closeMissing => "expected '\x7d' before end of string"
  | .openInFormat => "unmatched '\x7b' in format spec"
  | .conversionMissing => "end of string while looking for conversion specifier"
  | .colonMissing => "expected ':' after conversion specifier"
  | .unknownConversion c =>
    "Unknown conversion specifier " ++ showCode (fun c => 32 < c.toNat && c.toNat < 127) c
  | .unknownName name => Text.quote name
  | .positional index => s!"Replacement index {index} out of range for positional args tuple"
  | .tooManyDigits => "Too many decimal digits in format string"
  | .emptyMember => "Empty attribute in format string"
  | .afterBracket => "Only '.' or '[' may follow ']' in format field specifier"
  | .indexOutOfRange => "string index out of range"
  | .tooNested => "Max string recursion exceeded"
  | .bothSeparators => "Cannot specify both ',' and '_'."
  | .precisionMissing => "Format specifier missing precision"
  | .invalidFormat format kind =>
    "Invalid format specifier '" ++ format ++ "' for object of type '" ++ kind.label ++ "'"
  | .separatorWith separator type =>
    "Cannot specify '" ++ showCode isGraphic separator ++ "' with '" ++ showCode isGraphic type ++
      "'."
  | .unknownType type kind =>
    "Unknown format code '" ++ showCode isGraphic type ++ "' for object of type '" ++ kind.label ++
      "'"
  | .spaceOnText => "Space not allowed in string format specifier"
  | .signOnText => "Sign not allowed in string format specifier"
  | .zeroSignOnText => "Negative zero coercion (z) not allowed in string format specifier"
  | .alternateOnText => "Alternate form (#) not allowed in string format specifier"
  | .fillAfterSignOnText => "'=' alignment not allowed in string format specifier"
  | .precisionOnNumber => "Precision not allowed in integer format specifier"
  | .zeroSignOnNumber => "Negative zero coercion (z) not allowed in integer format specifier"
  | .signOnCharacter => "Sign not allowed with integer format specifier 'c'"
  | .alternateOnCharacter => "Alternate form (#) not allowed with integer format specifier 'c'"
  | .precisionTooBig => "precision too big"
  | .numeral cause => cause.message
  | .object message => message

/-- Why a template cannot be expanded: it is flawed, it asks for a member that the value has not,
it treats the value as one of another kind, or a number does not fit the format. -/
inductive Failure
  | flawed (flaw : Flaw)
  | noMember
  | wrongKind
  | outOfRange
  deriving DecidableEq, Repr

end SourceRecovery.Template

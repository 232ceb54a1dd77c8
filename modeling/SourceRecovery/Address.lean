import SourceRecovery.Number.Numeral

/-!
# Addresses

What is wrong with an address, so that nothing can be asked of it. Whether there is anything at an
address shows only when it is asked; what the names of its hosts may be is not looked at here.
-/

namespace SourceRecovery

inductive AddressProblem
  /-- It does not begin with a scheme. -/
  | noScheme (address : String)
  | port (text : String)
  /-- A part of it holds a blank or a control character. -/
  | unsafeCharacter (part : String) (c : Char)
  /-- What is asked for is not written in ASCII. -/
  | unencodable
  deriving DecidableEq, Repr

def AddressProblem.message : AddressProblem → String
  | .noScheme address => "unknown url type: " ++ Text.quote address
  | .port text => "nonnumeric port: '" ++ text ++ "'"
  | .unsafeCharacter part c =>
    "URL can't contain control characters. " ++ Text.quote part ++ " (found at least " ++
      Text.quote c.toString ++ ")"
  | .unencodable => "'ascii' codec can't encode character"

namespace Address

/-- What stands before and after the first colon, if a scheme can stand there. -/
def scheme? (cs : List Char) : Option (List Char × List Char) :=
  match cs.span fun c => c != ':' && c != '/' with
  | (front@(_ :: _), ':' :: back) => some (front, back)
  | _ => none

/-- An address without its last mark and what follows that, which is never asked for. -/
def unmarked (cs : List Char) : List Char :=
  match cs.reverse.span (· != '#') with
  | (_, _ :: front) => front.reverse
  | (_, []) => cs

/-- The host that is named after two strokes, with its port, and what is asked of it. -/
def hostAndTarget (cs : List Char) : List Char × List Char :=
  match cs with
  | '/' :: '/' :: rest =>
    let (host, target) := rest.span fun c => c != '/' && c != '?' && c != '#'
    (host, if target.head? = some '/' then target else '/' :: target)
  | _ => ([], cs)

/-- The first character of a part that must not stand in it. -/
def unsafeIn? (part : List Char) : Option Char :=
  part.find? fun c => c.toNat ≤ 0x20 || c.toNat == 0x7F

/-- The name in front of the last colon of a host and the port behind it. A colon between brackets
is part of the name. -/
def nameAndPort (host : List Char) : List Char × List Char :=
  match host.reverse.span fun c => c != ':' && c != ']' with
  | (port, ':' :: name) => (name.reverse, port.reverse)
  | _ => (host, [])

/-- What is wrong with a host and its port, which may be left empty. -/
def hostProblem? (host : List Char) : Option AddressProblem :=
  let (name, port) := nameAndPort host
  let port := String.ofList port
  if port ≠ "" ∧ (Numeral.read port).toOption.isNone then some (.port port)
  else (unsafeIn? name).map (.unsafeCharacter (String.ofList name))

/-- What is wrong with what is asked for. -/
def targetProblem? (target : List Char) : Option AddressProblem :=
  match unsafeIn? target with
  | some c => some (.unsafeCharacter (String.ofList target) c)
  | none => if target.all fun c => c.toNat < 0x80 then none else some .unencodable

/-- What is wrong with an address. Only where pages are asked for is more than the scheme needed. -/
def problem? (address : String) : Option AddressProblem :=
  let cs := Text.trimChars address.toList
  match scheme? (unmarked cs) with
  | none => some (.noScheme (String.ofList cs))
  | some (scheme, rest) =>
    if (String.ofList scheme).toLower ∈ ["http", "https"] then
      match hostAndTarget rest with
      | ([], _) => none
      | (host, target) => (hostProblem? host).or (targetProblem? target)
    else none

end Address

end SourceRecovery

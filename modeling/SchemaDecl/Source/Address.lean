import SchemaDecl.Source.Host

/-!
# Addresses

The scheme and the host of an address. A document can be fetched only from an address that has both.
Blanks and control characters before an address do not count, nor do tabs and line ends within it.
-/

namespace SchemaDecl

structure Address where
  scheme : String
  host : String
  deriving DecidableEq, Repr

namespace Address

/-- The characters of a scheme. The first is a letter. -/
def isSchemeChar (c : Char) : Bool := c.isAlphanum || c = '+' || c = '-' || c = '.'

/-- Splits off the scheme before the first colon; it is empty where there is none. -/
def splitScheme (cs : List Char) : List Char × List Char :=
  let scheme := cs.takeWhile (· ≠ ':')
  match cs.dropWhile (· ≠ ':') with
  | _ :: rest =>
    if scheme.head?.any Char.isAlpha && scheme.all isSchemeChar then (scheme, rest) else ([], cs)
  | [] => ([], cs)

/-- The host after two slashes, up to a path, query or fragment. -/
def hostOf : List Char → List Char
  | '/' :: '/' :: rest => rest.takeWhile fun c => c ≠ '/' && c ≠ '?' && c ≠ '#'
  | _ => []

def read (s : String) : Except Host.Fault Address := do
  let significant := (s.toList.dropWhile (· ≤ ' ')).filter fun c => c ≠ '\t' && c ≠ '\r' && c ≠ '\n'
  let (scheme, rest) := splitScheme significant
  let host := hostOf rest
  Host.check host
  return ⟨String.ofList scheme, String.ofList host⟩

def isComplete (a : Address) : Bool := a.scheme != "" && a.host != ""

end Address

end SchemaDecl

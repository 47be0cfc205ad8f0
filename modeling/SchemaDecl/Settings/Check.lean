import SchemaDecl.Naming.Policy
import SchemaDecl.Settings.Basic
import SchemaDecl.Text.Alphanumeric
import SchemaDecl.Text.Lowercase

/-!
# Checking settings

A prefix should be a text, and for TypeScript one that can begin an identifier.
-/

namespace SchemaDecl.Settings

inductive Notice
  | notText (value : Json)
  | startsWithDigit (leading : String)
  | unusableCharacters (leading : String)
  deriving DecidableEq

def Notice.message : Notice → String
  | notText value => "Prefix must be a string, got " ++ value.inspect
  | startsWithDigit leading =>
    "Prefix '" ++ leading ++ "' starts with a number; generated interface names will be invalid"
  | unusableCharacters leading =>
    "Prefix '" ++ leading ++ "' contains characters that are not valid in TypeScript identifiers"

/-- The characters of an identifier: letters and digits of any script, `_` and `$`. -/
def isIdentifierChar (c : Char) : Bool := c = '_' || c = '$' || Text.isAlphanumeric c

/-- What is amiss with settings for a target language. -/
def check (language : String) (s : Settings) : List Notice :=
  match s.namePrefix with
  | .text leading =>
    if Text.lower language = "typescript" && leading != "" then
      (if Naming.startsWithDigit leading then [.startsWithDigit leading] else []) ++
      (if leading.toList.all isIdentifierChar then [] else [.unusableCharacters leading])
    else []
  | value => [.notText value]

end SchemaDecl.Settings

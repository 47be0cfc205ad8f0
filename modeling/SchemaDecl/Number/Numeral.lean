import SchemaDecl.Number.Binary64
import SchemaDecl.Text.Blank
import SchemaDecl.Text.Digit

/-!
# Numerals

The texts that people write for numbers: a sign, digits of any script with a point among them, an
exponent, single underscores between digits, spaces around it all; and the words for infinity and for
what is not a number.
-/

namespace SchemaDecl.Numeral

/-- White space of ASCII and, in a text that is not all ASCII, of any script. -/
def isSpace (c : Char) : Bool :=
  c = ' ' || ('\t' ≤ c && c ≤ '\r') || (127 ≤ c.toNat && Text.isBlank c)

/-- A decimal digit of any script as its ASCII digit; any other character beyond ASCII as a mark that
no numeral holds. -/
def asciiForm (c : Char) : Char :=
  if c.toNat < 127 then c
  else match Text.decimalValue? c with
    | some v => Nat.digitChar v
    | none => '?'

/-- Removes single underscores between digits; any other underscore is refused. -/
def ungroup (afterDigit : Bool) : List Char → Option (List Char)
  | [] => some []
  | c :: rest =>
    if c = '_' then
      if afterDigit && rest.head?.any Char.isDigit then ungroup false rest else none
    else (ungroup c.isDigit rest).map (c :: ·)

def isSign (c : Char) : Bool := c = '+' || c = '-'

/-- A leading sign, as whether it is negative, and the rest. -/
def takeSign : List Char → Bool × List Char
  | '-' :: rest => (true, rest)
  | '+' :: rest => (false, rest)
  | cs => (false, cs)

def digitsValue (ds : List Char) : Nat := ds.foldl (fun n c => 10 * n + (c.toNat - '0'.toNat)) 0

/-- The exponent part: nothing, or `e`, a sign and digits up to the end. -/
def readExponent : List Char → Option Int
  | [] => some 0
  | c :: rest =>
    if c = 'e' || c = 'E' then
      let (negative, ds) := takeSign rest
      if !ds.isEmpty && ds.all Char.isDigit then
        some (if negative then -(digitsValue ds : Int) else digitsValue ds)
      else none
    else none

/-- An unsigned decimal: digits, a point among them or none, and an exponent. -/
def readDecimal (negative : Bool) (cs : List Char) : Option Binary64 :=
  let whole := cs.takeWhile Char.isDigit
  let rest := cs.dropWhile Char.isDigit
  let (fraction, rest) := match rest with
    | '.' :: rest => (rest.takeWhile Char.isDigit, rest.dropWhile Char.isDigit)
    | _ => ([], rest)
  if whole.isEmpty && fraction.isEmpty then none
  else (readExponent rest).map fun e =>
    Binary64.ofDecimal negative (digitsValue (whole ++ fraction)) (e - fraction.length)

/-- An unsigned numeral: a decimal or one of the words. -/
def readMagnitude (negative : Bool) (cs : List Char) : Option Binary64 :=
  let word := cs.map Char.toLower
  if word = "inf".toList || word = "infinity".toList then some (.infinite negative)
  else if word = "nan".toList then some .nan
  else readDecimal negative cs

def read (cs : List Char) : Option Binary64 :=
  let cs := Text.dropEnd isSpace (cs.dropWhile isSpace)
  (ungroup false (cs.map asciiForm)).bind fun cs =>
    let (negative, rest) := takeSign cs
    readMagnitude negative rest

def isFinite (s : String) : Bool := (read s.toList).any Binary64.isFinite

end SchemaDecl.Numeral

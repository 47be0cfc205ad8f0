import SchemaDecl.Json.Basic

/-!
# Reading JSON

`read` accepts the JSON grammar together with the words `NaN`, `Infinity` and `-Infinity`. It stops at
the first fault, which it reports with line, column and offset, counted in characters. Of equal keys in
an object the last value stays, in the place of the first. A whole number has a greatest length.
-/

namespace SchemaDecl.Json

inductive Fault
  | byteOrderMark
  | expectingValue
  | expectingKey
  | expectingColon
  | expectingComma
  | extraData
  | unterminatedString
  | controlCharacter
  | badEscape
  | badUnicodeEscape
  | tooManyDigits (count : Nat)
  deriving DecidableEq, Repr

/-- The digits that a whole number can have at most. -/
def mostDigits : Nat := 4300

def Fault.describe : Fault → String
  | byteOrderMark => "Unexpected UTF-8 BOM (decode using utf-8-sig)"
  | expectingValue => "Expecting value"
  | expectingKey => "Expecting property name enclosed in double quotes"
  | expectingColon => "Expecting ':' delimiter"
  | expectingComma => "Expecting ',' delimiter"
  | extraData => "Extra data"
  | unterminatedString => "Unterminated string starting at"
  | controlCharacter => "Invalid control character at"
  | badEscape => "Invalid \\escape"
  | badUnicodeEscape => "Invalid \\uXXXX escape"
  | tooManyDigits count =>
    "Exceeds the limit (" ++ toString mostDigits ++ " digits) for integer string conversion: value has " ++
      toString count ++ " digits; use sys.set_int_max_str_digits() to increase the limit"

/-- A text of the JSON grammar that cannot be read all the same. -/
def Fault.isLimit : Fault → Bool
  | tooManyDigits _ => true
  | _ => false

/-- A fault with the part of the input that begins where it was found. -/
structure Stop where
  fault : Fault
  rest : List Char

def stop {α : Type} (fault : Fault) (rest : List Char) : Except Stop α := .error ⟨fault, rest⟩

def isSpace (c : Char) : Bool := c = ' ' || c = '\t' || c = '\n' || c = '\r'

def skipSpace (cs : List Char) : List Char := cs.dropWhile isSpace

def hexValue? (c : Char) : Option Nat :=
  if '0' ≤ c ∧ c ≤ '9' then some (c.toNat - '0'.toNat)
  else if 'a' ≤ c ∧ c ≤ 'f' then some (c.toNat - 'a'.toNat + 10)
  else if 'A' ≤ c ∧ c ≤ 'F' then some (c.toNat - 'A'.toNat + 10)
  else none

/-- The value of four hexadecimal digits that stand before at least one more character. -/
def readHex4 : List Char → Option (Nat × List Char)
  | a :: b :: c :: d :: e :: rest => do
    let a ← hexValue? a
    let b ← hexValue? b
    let c ← hexValue? c
    let d ← hexValue? d
    return (((a * 16 + b) * 16 + c) * 16 + d, e :: rest)
  | _ => none

def isHighSurrogate (n : Nat) : Bool := 0xD800 ≤ n && n < 0xDC00
def isLowSurrogate (n : Nat) : Bool := 0xDC00 ≤ n && n < 0xE000

def joinSurrogates (high low : Nat) : Nat := 0x10000 + (high - 0xD800) * 0x400 + (low - 0xDC00)

/-- The character with a code; the replacement character for half of a pair. -/
def charOfCode (n : Nat) : Char :=
  if isHighSurrogate n || isLowSurrogate n then Char.ofNat 0xFFFD else Char.ofNat n

/-- The low half of a pair after its high half: `none` where no escape follows. -/
def readLow : List Char → Except Stop (Option (Nat × List Char))
  | '\\' :: 'u' :: digits =>
    if digits.length < 5 then .ok none
    else match readHex4 digits with
      | some (low, rest) => .ok (if isLowSurrogate low then some (low, rest) else none)
      | none => stop .badUnicodeEscape ('u' :: digits)
  | _ => .ok none

/-- The character of an escape whose digits begin at `digits`. -/
def readUnicode (digits : List Char) : Except Stop (Char × List Char) := do
  match readHex4 digits with
  | none => stop .badUnicodeEscape ('u' :: digits)
  | some (n, rest) =>
    if isHighSurrogate n then
      match ← readLow rest with
      | some (low, rest) => return (Char.ofNat (joinSurrogates n low), rest)
      | none => return (charOfCode n, rest)
    else return (charOfCode n, rest)

def simpleEscape? : Char → Option Char
  | '"' => some '"'
  | '\\' => some '\\'
  | '/' => some '/'
  | 'b' => some (Char.ofNat 8)
  | 'f' => some (Char.ofNat 12)
  | 'n' => some '\n'
  | 'r' => some '\r'
  | 't' => some '\t'
  | _ => none

/-- The rest of a string after its opening quote at `start`; `taken` holds what was read, reversed. The
first argument bounds the number of characters left. -/
def readStringAux (start : List Char) : Nat → List Char → List Char → Except Stop (String × List Char)
  | 0, _, _ => stop .unterminatedString start
  | fuel + 1, taken, cs =>
    match cs with
    | [] => stop .unterminatedString start
    | '"' :: rest => .ok (String.ofList taken.reverse, rest)
    | '\\' :: [] => stop .unterminatedString start
    | '\\' :: 'u' :: digits => do
      let (c, rest) ← readUnicode digits
      readStringAux start fuel (c :: taken) rest
    | '\\' :: e :: rest =>
      match simpleEscape? e with
      | some c => readStringAux start fuel (c :: taken) rest
      | none => stop .badEscape cs
    | c :: rest =>
      if c.toNat < 0x20 then stop .controlCharacter cs else readStringAux start fuel (c :: taken) rest

/-- A string whose opening quote has been read; `start` begins with that quote. -/
def readString (start cs : List Char) : Except Stop (String × List Char) := readStringAux start (cs.length + 1) [] cs

def digitsValue (ds : List Char) : Nat := ds.foldl (fun n c => 10 * n + (c.toNat - '0'.toNat)) 0

def readWhole : List Char → Option (List Char × List Char)
  | '0' :: rest => some (['0'], rest)
  | cs =>
    let ds := cs.takeWhile Char.isDigit
    if ds.isEmpty then none else some (ds, cs.dropWhile Char.isDigit)

def readFraction : List Char → List Char × List Char
  | '.' :: rest =>
    let ds := rest.takeWhile Char.isDigit
    if ds.isEmpty then ([], '.' :: rest) else (ds, rest.dropWhile Char.isDigit)
  | cs => ([], cs)

def readPower : List Char → Option Int × List Char
  | [] => (none, [])
  | e :: rest =>
    if e = 'e' ∨ e = 'E' then
      let (negative, tail) := match rest with
        | '-' :: tail => (true, tail)
        | '+' :: tail => (false, tail)
        | tail => (false, tail)
      let ds := tail.takeWhile Char.isDigit
      if ds.isEmpty then (none, e :: rest)
      else
        let n : Int := digitsValue ds
        (some (if negative then -n else n), tail.dropWhile Char.isDigit)
    else (none, e :: rest)

/-- A number: whole unless it has a fraction or an exponent. -/
def readNumber (start : List Char) (negative : Bool) (cs : List Char) : Except Stop (Json × List Char) :=
  match readWhole cs with
  | none => stop .expectingValue start
  | some (whole, rest) =>
    let (fraction, rest) := readFraction rest
    let (power, rest) := readPower rest
    if fraction.isEmpty && power.isNone then
      if mostDigits < whole.length then stop (.tooManyDigits whole.length) start
      else
        let n : Int := digitsValue whole
        .ok (.int (if negative then -n else n), rest)
    else
      .ok (.float (Binary64.ofDecimal negative (digitsValue (whole ++ fraction))
        (power.getD 0 - fraction.length)), rest)

/-- The rest after a word that the input begins with. -/
def dropWord? : List Char → List Char → Option (List Char)
  | [], cs => some cs
  | _ :: _, [] => none
  | w :: ws, c :: cs => if w = c then dropWord? ws cs else none

def words : List (String × Json) :=
  [("null", .null), ("true", .bool true), ("false", .bool false), ("NaN", .float .nan),
   ("Infinity", .float (.infinite false)), ("-Infinity", .float (.infinite true))]

def readScalar (cs : List Char) : Except Stop (Json × List Char) :=
  match words.findSome? fun (w, value) => (dropWord? w.toList cs).map fun rest => (value, rest) with
  | some found => .ok found
  | none => match cs with
    | '-' :: rest => readNumber cs true rest
    | _ => readNumber cs false cs

mutual

/-- A value at the head of the input. The first argument bounds the number of values and entries. -/
def readValue : Nat → List Char → Except Stop (Json × List Char)
  | 0, cs => stop .expectingValue cs
  | fuel + 1, cs =>
    match cs with
    | '"' :: rest => do
      let (s, rest) ← readString cs rest
      return (.text s, rest)
    | '[' :: rest =>
      match skipSpace rest with
      | ']' :: rest => .ok (.list [], rest)
      | rest => readItems fuel [] rest
    | '\x7b' :: rest =>
      match skipSpace rest with
      | '\x7d' :: rest => .ok (.object [], rest)
      | rest => readEntries fuel [] rest
    | cs => readScalar cs

/-- The items of a list from the next one on; `taken` holds those before, reversed. -/
def readItems : Nat → List Json → List Char → Except Stop (Json × List Char)
  | 0, _, cs => stop .expectingValue cs
  | fuel + 1, taken, cs => do
    let (item, rest) ← readValue fuel cs
    match skipSpace rest with
    | ']' :: rest => return (.list (item :: taken).reverse, rest)
    | ',' :: rest => readItems fuel (item :: taken) (skipSpace rest)
    | rest => stop .expectingComma rest

/-- The entries of an object from the next one on, stored over those before. -/
def readEntries : Nat → Entries → List Char → Except Stop (Json × List Char)
  | 0, _, cs => stop .expectingKey cs
  | fuel + 1, taken, cs =>
    match cs with
    | '"' :: rest => do
      let (key, rest) ← readString cs rest
      match skipSpace rest with
      | ':' :: rest =>
        let (value, rest) ← readValue fuel (skipSpace rest)
        match skipSpace rest with
        | '\x7d' :: rest => return (.object (taken.put key value), rest)
        | ',' :: rest => readEntries fuel (taken.put key value) (skipSpace rest)
        | rest => stop .expectingComma rest
      | rest => stop .expectingColon rest
    | cs => stop .expectingKey cs

end

/-- One value with white space around it. -/
def readAll (cs : List Char) : Except Stop Json := do
  if cs.head? = some (Char.ofNat 0xFEFF) then stop .byteOrderMark cs
  let (value, rest) ← readValue (2 * cs.length + 2) (skipSpace cs)
  match skipSpace rest with
  | [] => return value
  | rest => stop .extraData rest

/-- A fault with its place: line and column from 1, offset from 0. -/
structure ReadError where
  fault : Fault
  line : Nat
  column : Nat
  offset : Nat

def ReadError.message (e : ReadError) : String :=
  if e.fault.isLimit then e.fault.describe
  else
    e.fault.describe ++ ": line " ++ toString e.line ++ " column " ++ toString e.column ++
      " (char " ++ toString e.offset ++ ")"

def Stop.locate (cs : List Char) (s : Stop) : ReadError :=
  let offset := cs.length - s.rest.length
  let before := cs.take offset
  let column := (before.reverse.takeWhile (· ≠ '\n')).length + 1
  ⟨s.fault, before.count '\n' + 1, column, offset⟩

def read (s : String) : Except ReadError Json :=
  let cs := s.toList
  (readAll cs).mapError (Stop.locate cs)

end SchemaDecl.Json

import SchemaDecl.Text.Alphanumeric
import SchemaDecl.Text.Lines

/-!
# Literals

The values that a handler in markup can be given: numbers, also with a sign or as a sum with an imaginary
part, texts and bytes in quotes, truth values, and tuples, sets and tables of values. Sets and tables are
no elements of sets and no keys. `isLiteral` accepts the texts of such values.
-/

namespace SchemaDecl.Console.Literal

/-- What matters of a value for those around it. -/
inductive Shape
  | number (imaginary signed : Bool)
  | value (isKey : Bool)
  deriving DecidableEq, Repr

def Shape.isKey : Shape → Bool
  | number _ _ => true
  | value isKey => isKey

/-- A shape and what stands behind its text. -/
abbrev Reading := Option (Shape × List Char)

/-- Drops white space and comments. Inside brackets a line may end. -/
def skip (inside : Bool) : (comment : Bool) → List Char → List Char
  | _, [] => []
  | true, c :: rest =>
    if c ≠ '\n' then skip inside true rest else if inside then skip inside false rest else c :: rest
  | false, '\\' :: '\n' :: rest => skip inside false rest
  | false, c :: rest =>
    if c = ' ' || c = '\t' || c.toNat = 12 || (inside && c = '\n') then skip inside false rest
    else if c = '#' then skip inside true rest
    else c :: rest

def isNameChar (c : Char) : Bool := c = '_' || 128 ≤ c.toNat || Text.isAlphanumeric c

/-- What stands behind digits with single underscores between them. -/
def dropDigits (isDigit : Char → Bool) : List Char → Option (List Char)
  | [] => some []
  | '_' :: c :: rest => if isDigit c then dropDigits isDigit rest else none
  | c :: rest => if isDigit c then dropDigits isDigit rest else if c = '_' then none else some (c :: rest)

def startsWith (p : Char → Bool) (cs : List Char) : Bool := cs.head?.any p

def isHexDigit (c : Char) : Bool := c.isDigit || ('a' ≤ c.toLower && c.toLower ≤ 'f')

/-- The digits of a number in another base. -/
def baseDigit? (mark : Char) : Option (Char → Bool) :=
  match mark.toLower with
  | 'x' => some isHexDigit
  | 'o' => some fun c => '0' ≤ c && c ≤ '7'
  | 'b' => some fun c => c = '0' || c = '1'
  | _ => none

def dropFraction : List Char → Option (List Char)
  | '.' :: rest => if startsWith Char.isDigit rest then dropDigits Char.isDigit rest else some rest
  | cs => some cs

def dropPower : List Char → Option (List Char)
  | [] => some []
  | e :: rest =>
    if e.toLower ≠ 'e' then some (e :: rest)
    else
      let digits := if startsWith (fun c => c = '+' || c = '-') rest then rest.drop 1 else rest
      if startsWith Char.isDigit digits then dropDigits Char.isDigit digits else none

def mostDigits : Nat := 4300

/-- A whole number that is written with zeros in front or with too many digits. -/
def isRefused (digits : List Char) : Bool :=
  (digits.head? = some '0' && digits.any fun c => c.isDigit && c ≠ '0') ||
    mostDigits < digits.countP Char.isDigit

def readDecimal (cs : List Char) : Reading := do
  let behindWhole ← if startsWith Char.isDigit cs then dropDigits Char.isDigit cs else some cs
  let rest ← dropPower (← dropFraction behindWhole)
  let imaginary := startsWith (fun c => c = 'j' || c = 'J') rest
  let rest := if imaginary then rest.drop 1 else rest
  let isWhole := rest.length = behindWhole.length
  if isWhole && isRefused (cs.take (cs.length - rest.length)) then none
  else if startsWith isNameChar rest then none
  else return (.number imaginary false, rest)

def readNumber (cs : List Char) : Reading :=
  match cs with
  | '0' :: mark :: digits =>
    match baseDigit? mark with
    | some isDigit => do
      if !startsWith (fun c => c = '_' || isDigit c) digits then none
      else
        let rest ← dropDigits isDigit digits
        if startsWith isNameChar rest then none else return (.number false false, rest)
    | none => readDecimal cs
  | _ => readDecimal cs

/-- The quotes around a text, and what kind of text it is. -/
structure Quotes where
  mark : Char
  triple : Bool
  raw : Bool
  bytes : Bool

def Quotes.close? (q : Quotes) (cs : List Char) : Option (List Char) :=
  let marks := List.replicate (if q.triple then 3 else 1) q.mark
  if marks.isPrefixOf cs then some (cs.drop marks.length) else none

/-- Whether a backslash may stand before `c` and what follows. -/
def Quotes.allowsEscape (q : Quotes) (c : Char) (rest : List Char) : Bool :=
  let isHex (count : Nat) : Bool := (rest.take count).length = count && (rest.take count).all isHexDigit
  if q.raw then true
  else if c = 'x' then isHex 2
  else if q.bytes then true
  else if c = 'u' then isHex 4
  else if c = 'U' then
    isHex 8 && ((rest.take 3).all (· = '0') || ("0010".toList.isPrefixOf rest))
  else if c = 'N' then rest.head? = some '\x7b' && rest.contains '\x7d'
  else true

/-- What stands behind the rest of a quoted text; `escaped` says that a backslash stands before. -/
def dropQuoted (q : Quotes) : (escaped : Bool) → List Char → Option (List Char)
  | _, [] => none
  | true, c :: rest => if q.bytes && 128 ≤ c.toNat then none
    else if q.allowsEscape c rest then dropQuoted q false rest else none
  | false, c :: rest =>
    if c = '\\' then dropQuoted q true rest
    else if c = q.mark && !q.triple then some rest
    else if c = q.mark && (q.close? (c :: rest)).isSome then q.close? (c :: rest)
    else if (c = '\n' && !q.triple) || (q.bytes && 128 ≤ c.toNat) then none
    else dropQuoted q false rest

/-- Opening quotes with the letters before them. -/
def openQuotes? (cs : List Char) : Option (Quotes × List Char) :=
  let letters := String.ofList ((cs.takeWhile Char.isAlpha).map Char.toLower)
  match cs.dropWhile Char.isAlpha with
  | mark :: rest =>
    if (mark = '"' || mark = '\'') && letters ∈ ["", "r", "u", "b", "br", "rb"] then
      let triple := [mark, mark].isPrefixOf rest
      some (⟨mark, triple, letters.toList.contains 'r', letters.toList.contains 'b'⟩,
        if triple then rest.drop 2 else rest)
    else none
  | [] => none

/-- Quoted texts one behind another, all of one kind. The number bounds how many there are. -/
def readTexts (inside : Bool) (bytes? : Option Bool) : Nat → List Char → Reading
  | 0, _ => none
  | count + 1, cs =>
    match openQuotes? cs with
    | none => if bytes?.isSome then some (.value true, cs) else none
    | some (q, rest) =>
      if bytes?.any (· ≠ q.bytes) then none
      else (dropQuoted q false rest).bind fun rest =>
        readTexts inside (some q.bytes) count (skip inside false rest)

def isClosing (c : Char) : Bool := c = ')' || c = '\x7d'

/-- The sum of a number and an imaginary one. -/
def addShapes : Shape → Shape → Option Shape
  | .number false _, .number true false => some (.value true)
  | _, _ => none

def signShape : Shape → Option Shape
  | .number imaginary false => some (.number imaginary true)
  | _ => none

/-- A value among others; `isPaired` says that another value stands behind it and a colon. -/
structure Element where
  shape : Shape
  isPaired : Bool

/-- The shape of what stands in round brackets; `comma` says that a comma does too. -/
def tupleShape (comma : Bool) (elements : List Element) : Option Shape :=
  if elements.any Element.isPaired then none
  else match elements, comma with
    | [element], false => some element.shape
    | elements, _ => some (.value (elements.all fun element => element.shape.isKey))

/-- The shape of what stands in curly brackets: a set, or a table. -/
def tableShape (elements : List Element) : Option Shape :=
  let uniform := elements.all Element.isPaired || !elements.any Element.isPaired
  if uniform && elements.all fun element => element.shape.isKey then some (.value false) else none

mutual

/-- A value at the head of a text without white space in front. -/
def readAtom (inside : Bool) : Nat → List Char → Reading
  | 0, _ => none
  | fuel + 1, cs =>
    match cs with
    | '(' :: rest =>
      match skip true false rest with
      | ')' :: rest => some (.value true, rest)
      | rest => do
        let (elements, comma, rest) ← readElements true fuel rest
        match rest with
        | ')' :: rest => return (← tupleShape comma elements, rest)
        | _ => none
    | '\x7b' :: rest =>
      match skip true false rest with
      | '\x7d' :: rest => some (.value false, rest)
      | rest => do
        let (elements, _, rest) ← readElements true fuel rest
        match rest with
        | '\x7d' :: rest => return (← tableShape elements, rest)
        | _ => none
    | '.' :: '.' :: '.' :: rest => some (.value true, rest)
    | cs =>
      if startsWith (fun c => c.isDigit || c = '.') cs then
        if startsWith Char.isDigit cs || startsWith Char.isDigit (cs.drop 1) then readNumber cs else none
      else
        let name := String.ofList (cs.takeWhile isNameChar)
        let rest := cs.dropWhile isNameChar
        if name ∈ ["True", "False", "None"] then some (.value true, rest)
        else if name = "set" then
          match skip inside false rest with
          | '(' :: rest =>
            match skip true false rest with
            | ')' :: rest => some (.value false, rest)
            | _ => none
          | _ => none
        else readTexts inside none (cs.length + 1) cs

def readSigned (inside : Bool) : Nat → List Char → Reading
  | 0, _ => none
  | fuel + 1, cs =>
    if startsWith (fun c => c = '+' || c = '-') cs then do
      let (shape, rest) ← readAtom inside fuel (skip inside false (cs.drop 1))
      return (← signShape shape, rest)
    else readAtom inside fuel cs

def readSum (inside : Bool) : Nat → List Char → Reading
  | 0, _ => none
  | fuel + 1, cs => do
    let (shape, rest) ← readSigned inside fuel cs
    let rest := skip inside false rest
    if startsWith (fun c => c = '+' || c = '-') rest then
      let (other, rest) ← readSigned inside fuel (skip inside false (rest.drop 1))
      return (← addShapes shape other, skip inside false rest)
    else return (shape, rest)

/-- A value, and behind a colon the one that it is paired with. -/
def readElement (inside : Bool) : Nat → List Char → Option (Element × List Char)
  | 0, _ => none
  | fuel + 1, cs => do
    let (shape, rest) ← readSum inside fuel cs
    match rest with
    | ':' :: rest =>
      let (_, rest) ← readSum inside fuel (skip inside false rest)
      return (⟨shape, true⟩, rest)
    | rest => return (⟨shape, false⟩, rest)

/-- Values with commas between them up to what closes them, and whether there is a comma. -/
def readElements (inside : Bool) : Nat → List Char → Option (List Element × Bool × List Char)
  | 0, _ => none
  | fuel + 1, cs => do
    let (element, rest) ← readElement inside fuel cs
    match rest with
    | ',' :: rest =>
      let rest := skip inside false rest
      if rest.isEmpty || startsWith isClosing rest then return ([element], true, rest)
      else
        let (elements, _, rest) ← readElements inside fuel rest
        return (element :: elements, true, rest)
    | rest => return ([element], false, rest)

end

/-- The text of a value, or of values with commas between them. -/
def isLiteral (cs : List Char) : Bool :=
  let cs := Text.unifyNewlines cs
  match readElements false (5 * cs.length + 5) (skip false false cs) with
  | some (elements, comma, rest) => rest.isEmpty && (tupleShape comma elements).isSome
  | none => false

end SchemaDecl.Console.Literal

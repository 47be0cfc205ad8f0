import SchemaDecl.Json.Basic
import SchemaDecl.Number.Shortest

/-!
# Writing JSON

`render` writes a value on one line in ASCII, with a blank after every comma and colon. `renderIndented`
writes it over several lines with two blanks for every level and leaves characters beyond ASCII as they
are.
-/

namespace SchemaDecl.Json

def hexDigits (width n : Nat) : List Char :=
  let ds := Nat.toDigits 16 n
  List.replicate (width - ds.length) '0' ++ ds

def unicodeEscape (n : Nat) : List Char := '\\' :: 'u' :: hexDigits 4 n

def shortEscape? (c : Char) : Option (List Char) :=
  match c with
  | '"' => some ['\\', '"']
  | '\\' => some ['\\', '\\']
  | '\n' => some ['\\', 'n']
  | '\r' => some ['\\', 'r']
  | '\t' => some ['\\', 't']
  | c => if c.toNat = 8 then some ['\\', 'b'] else if c.toNat = 12 then some ['\\', 'f'] else none

/-- A character in a text of ASCII: beyond the first plane as a pair of surrogates. -/
def asciiEscape (c : Char) : List Char :=
  match shortEscape? c with
  | some e => e
  | none =>
    let n := c.toNat
    if 0x20 ≤ n ∧ n < 0x7F then [c]
    else if n < 0x10000 then unicodeEscape n
    else unicodeEscape (0xD800 + (n - 0x10000) / 0x400) ++ unicodeEscape (0xDC00 + (n - 0x10000) % 0x400)

/-- A character in a text that may hold any but the control characters. -/
def plainEscape (c : Char) : List Char :=
  match shortEscape? c with
  | some e => e
  | none => if c.toNat < 0x20 then unicodeEscape c.toNat else [c]

def quoteChars (escape : Char → List Char) (cs : List Char) : List Char :=
  '"' :: cs.flatMap escape ++ ['"']

/-- The text as a JSON string of ASCII. -/
def quote (s : String) : String := String.ofList (quoteChars asciiEscape s.toList)

def quotePlain (s : String) : String := String.ofList (quoteChars plainEscape s.toList)

def renderBool (b : Bool) : String := if b then "true" else "false"

def renderFloat (x : Binary64) : String := x.textWith "Infinity" "NaN"

mutual

def render : Json → String
  | null => "null"
  | bool b => renderBool b
  | int i => toString i
  | float x => renderFloat x
  | text s => quote s
  | list items => "[" ++ renderItems items ++ "]"
  | object entries => "\x7b" ++ renderEntries entries ++ "\x7d"

def renderItems : List Json → String
  | [] => ""
  | [item] => render item
  | item :: rest => render item ++ ", " ++ renderItems rest

def renderEntries : List (String × Json) → String
  | [] => ""
  | [(key, value)] => quote key ++ ": " ++ render value
  | (key, value) :: rest => quote key ++ ": " ++ render value ++ ", " ++ renderEntries rest

end

/-- A line break followed by the margin of a level. -/
def newline (level : Nat) : String := "\n" ++ String.ofList (List.replicate (2 * level) ' ')

mutual

def renderIndented (level : Nat) : Json → String
  | null => "null"
  | bool b => renderBool b
  | int i => toString i
  | float x => renderFloat x
  | text s => quotePlain s
  | list [] => "[]"
  | list items => "[" ++ indentedItems (level + 1) items ++ newline level ++ "]"
  | object [] => "\x7b\x7d"
  | object entries => "\x7b" ++ indentedEntries (level + 1) entries ++ newline level ++ "\x7d"

def indentedItems (level : Nat) : List Json → String
  | [] => ""
  | [item] => newline level ++ renderIndented level item
  | item :: rest => newline level ++ renderIndented level item ++ "," ++ indentedItems level rest

def indentedEntries (level : Nat) : List (String × Json) → String
  | [] => ""
  | [(key, value)] => newline level ++ quotePlain key ++ ": " ++ renderIndented level value
  | (key, value) :: rest =>
    newline level ++ quotePlain key ++ ": " ++ renderIndented level value ++ "," ++
      indentedEntries level rest

end

end SchemaDecl.Json

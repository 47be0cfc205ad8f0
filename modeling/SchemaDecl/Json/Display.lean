import SchemaDecl.Json.Writer
import SchemaDecl.Text.Printable

/-!
# Values within text

`display` is how a value appears where it is interpolated into a text: a text as it is, anything else
in the form of `inspect`, where texts are quoted, with double quotes exactly if the text holds a single
quote and no double quote.
-/

namespace SchemaDecl.Json

def singleQuote : Char := Char.ofNat 0x27

/-- A character in a text between the given quotes. -/
def inspectChar (mark c : Char) : List Char :=
  if c = mark ∨ c = '\\' then ['\\', c]
  else if c = '\n' then ['\\', 'n']
  else if c = '\r' then ['\\', 'r']
  else if c = '\t' then ['\\', 't']
  else if Text.isPrintable c then [c]
  else
    let n := c.toNat
    if n < 0x100 then '\\' :: 'x' :: hexDigits 2 n
    else if n < 0x10000 then '\\' :: 'u' :: hexDigits 4 n
    else '\\' :: 'U' :: hexDigits 8 n

def inspectText (s : String) : String :=
  let cs := s.toList
  let mark := if cs.contains singleQuote && !cs.contains '"' then '"' else singleQuote
  String.ofList (mark :: cs.flatMap (inspectChar mark) ++ [mark])

mutual

def inspect : Json → String
  | null => "None"
  | bool b => if b then "True" else "False"
  | int i => toString i
  | float x => x.text
  | text s => inspectText s
  | list items => "[" ++ inspectItems items ++ "]"
  | object entries => "\x7b" ++ inspectEntries entries ++ "\x7d"

def inspectItems : List Json → String
  | [] => ""
  | [item] => inspect item
  | item :: rest => inspect item ++ ", " ++ inspectItems rest

def inspectEntries : List (String × Json) → String
  | [] => ""
  | [(key, value)] => inspectText key ++ ": " ++ inspect value
  | (key, value) :: rest => inspectText key ++ ": " ++ inspect value ++ ", " ++ inspectEntries rest

end

def display : Json → String
  | text s => s
  | value => value.inspect

@[simp] theorem display_text (s : String) : (text s).display = s := rfl

end SchemaDecl.Json

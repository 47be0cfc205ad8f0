import SchemaDecl.Console.EmojiNames
import SchemaDecl.Table
import SchemaDecl.Text.Lines
import SchemaDecl.Text.Lowercase

/-!
# Emoji codes

A name between two colons stands for an emoji, in capitals or small letters. The name may say how the
emoji is to look, as a picture or as a sign of text, and for many also a tone of skin. Colons around
anything else stay.
-/

namespace SchemaDecl.Emoji

/-- The names of glyphs from words that are a glyph and its names in turn. -/
def readGlyphs : List (List Char) → Table String
  | glyph :: names :: rest =>
    (Text.splitOn '/' names).map (fun name => (String.ofList name, String.ofList glyph)) ++ readGlyphs rest
  | _ => []

/-- The emoji by name, the tones of skin aside. -/
def table : Table String := readGlyphs (Text.words glyphs.toList)

def tonedNames : List String := (Text.words toned.toList).map String.ofList

/-- What a name ends with that gives a tone, and the character that shows it. -/
def tones : List (String × Char) :=
  [("_light_skin_tone", Char.ofNat 0x1F3FB), ("_medium-light_skin_tone", Char.ofNat 0x1F3FC),
   ("_medium_skin_tone", Char.ofNat 0x1F3FD), ("_medium-dark_skin_tone", Char.ofNat 0x1F3FE),
   ("_dark_skin_tone", Char.ofNat 0x1F3FF)]

/-- Makes the character before it a picture. -/
def pictureSelector : Char := Char.ofNat 0xFE0F

/-- Makes the character before it a sign of text. -/
def textSelector : Char := Char.ofNat 0xFE0E

/-- The glyph with a tone behind its first character, where no selector is needed then. -/
def withTone (tone : Char) : List Char → List Char
  | [] => []
  | c :: rest => c :: tone :: (if rest.head? = some pictureSelector then rest.drop 1 else rest)

def beforeEnd? (ending s : String) : Option String :=
  if ending.toList.isSuffixOf s.toList then
    some (String.ofList (s.toList.take (s.length - ending.length)))
  else none

def tonedGlyph? (name : String) : Option String :=
  tones.findSome? fun (ending, tone) => do
    let base ← beforeEnd? ending name
    let glyph ← if base ∈ tonedNames then Table.get? base table else none
    return String.ofList (withTone tone glyph.toList)

def glyph? (name : String) : Option String :=
  let name := Text.lower name
  (Table.get? name table).or (tonedGlyph? name)

/-- The emoji that a code names, with its selector. -/
def ofCode? (code : String) : Option String :=
  match beforeEnd? "-emoji" code, beforeEnd? "-text" code with
  | some name, _ => (glyph? name).map (·.push pictureSelector)
  | none, some name => (glyph? name).map (·.push textSelector)
  | none, none => glyph? code

/-- What stands in place of a code between its colons. -/
def shownCode (code : List Char) : List Char :=
  match ofCode? (String.ofList code) with
  | some glyph => glyph.toList
  | none => ':' :: code ++ [':']

/-- Replaces the codes; `code?` holds what was read since a colon, reversed. -/
def replace : (code? : Option (List Char)) → List Char → List Char
  | none, [] => []
  | some code, [] => ':' :: code.reverse
  | none, c :: rest => if c = ':' then replace (some []) rest else c :: replace none rest
  | some code, c :: rest =>
    if c = ':' then shownCode code.reverse ++ replace none rest
    else if Text.isBlank c then ':' :: code.reverse ++ c :: replace none rest
    else replace (some (c :: code)) rest

def shown (cs : List Char) : List Char := replace none cs

end SchemaDecl.Emoji

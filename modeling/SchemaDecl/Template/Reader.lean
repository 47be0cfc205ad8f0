import SchemaDecl.Template.Basic
import SchemaDecl.Text.Lines

/-!
# Reading templates

A source is literal text with tags: `{{ name }}` for a hole, `{% if name %}` and
`{% endif %}` around a conditional part. White space between the start of a line and a conditional
tag does not count, nor does one line break at the end of the source. Reading stops at the first fault.
-/

namespace SchemaDecl.Template

inductive TagEnd
  | hole | statement | source
  deriving DecidableEq, Repr

def TagEnd.describe : TagEnd → String
  | hole => "end of print statement"
  | statement => "end of statement block"
  | source => "end of template"

/-- What is wrong with a source. `inside` says that a conditional part is open. -/
inductive SourceFault
  | noName (found : TagEnd)
  | wordTooMany (wanted : TagEnd) (word : String)
  | openTag (wanted : TagEnd)
  | noTagName
  | unknownTag (name : String) (inside : Bool)
  | openPart
  deriving DecidableEq, Repr

/-- What is said where a part is open. -/
def insidePart : String :=
  " Jinja was looking for the following tags: 'elif' or 'else' or 'endif'." ++
    " The innermost block that needs to be closed is 'if'."

def SourceFault.message : SourceFault → String
  | noName found => "Expected an expression, got '" ++ found.describe ++ "'"
  | wordTooMany wanted word => "expected token '" ++ wanted.describe ++ "', got '" ++ word ++ "'"
  | openTag wanted => "unexpected end of template, expected '" ++ wanted.describe ++ "'."
  | noTagName => "tag name expected"
  | unknownTag name inside =>
    "Encountered unknown tag '" ++ name ++ "'." ++ (if inside then insidePart else "")
  | openPart => "Unexpected end of template." ++ insidePart

inductive Token
  | text (s : String)
  | hole (words : List String) (closed : Bool)
  | tag (words : List String) (closed : Bool)

/-- What the reader is inside of; the characters read so far are reversed. -/
inductive Scan
  | text (taken : List Char) (atStart : Bool)
  | hole (taken : List Char)
  | tag (taken : List Char)

def wordsOf (taken : List Char) : List String := (Text.words taken.reverse).map String.ofList

/-- The text before a conditional tag, without the blanks that begin the tag's line. -/
def beforeTag (taken : List Char) (atStart : Bool) : List Char :=
  let margin := taken.takeWhile (· ≠ '\n')
  let above := taken.dropWhile (· ≠ '\n')
  if margin.all Text.isBlank && (atStart || !above.isEmpty) then above else taken

def literal (taken : List Char) : List Token :=
  if taken.isEmpty then [] else [.text (String.ofList taken.reverse)]

def scan : Scan → List Char → List Token
  | .text taken _, [] => literal taken
  | .hole taken, [] => [.hole (wordsOf taken) false]
  | .tag taken, [] => [.tag (wordsOf taken) false]
  | .text taken _, '\x7b' :: '\x7b' :: rest => literal taken ++ scan (.hole []) rest
  | .text taken atStart, '\x7b' :: '%' :: rest => literal (beforeTag taken atStart) ++ scan (.tag []) rest
  | .text taken atStart, c :: rest => scan (.text (c :: taken) atStart) rest
  | .hole taken, '\x7d' :: '\x7d' :: rest => .hole (wordsOf taken) true :: scan (.text [] false) rest
  | .hole taken, c :: rest => scan (.hole (c :: taken)) rest
  | .tag taken, '%' :: '\x7d' :: rest => .tag (wordsOf taken) true :: scan (.text [] false) rest
  | .tag taken, c :: rest => scan (.tag (c :: taken)) rest

/-- Nothing more may stand in a tag, which must come to its end. -/
def checkEnd (wanted : TagEnd) (closed : Bool) : List String → Except SourceFault Unit
  | word :: _ => .error (.wordTooMany wanted word)
  | [] => if closed then .ok () else .error (.openTag wanted)

def readName (wanted : TagEnd) (closed : Bool) : List String → Except SourceFault String
  | name :: rest => do
    checkEnd wanted closed rest
    return name
  | [] => .error (.noName (if closed then wanted else .source))

/-- Pieces from tokens; `outer` holds the open parts with what came before each, reversed. -/
def nest : List Token → List (String × List Piece) → List Piece → Except SourceFault Template
  | [], [], taken => .ok taken.reverse
  | [], _ :: _, _ => .error .openPart
  | .text s :: rest, outer, taken => nest rest outer (.text s :: taken)
  | .hole words closed :: rest, outer, taken => do
    let name ← readName .hole closed words
    nest rest outer (.hole name :: taken)
  | .tag [] _ :: _, _, _ => .error .noTagName
  | .tag (word :: words) closed :: rest, outer, taken =>
    if word = "if" then do
      let name ← readName .statement closed words
      nest rest ((name, taken) :: outer) []
    else match outer with
      | [] => .error (.unknownTag word false)
      | (name, before) :: outer =>
        if word = "endif" then do
          checkEnd .statement closed words
          nest rest outer (.ifSet name taken.reverse :: before)
        else .error (.unknownTag word true)

/-- The source without one line break at its end. -/
def dropFinalNewline (cs : List Char) : List Char :=
  if cs.getLast? = some '\n' then cs.dropLast else cs

def ofSource (source : String) : Except SourceFault Template :=
  nest (scan (.text [] true) (dropFinalNewline (Text.unifyNewlines source.toList))) [] []

end SchemaDecl.Template

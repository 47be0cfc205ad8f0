import SchemaDecl.Console.Emoji
import SchemaDecl.Console.Literal
import SchemaDecl.Console.Look
import SchemaDecl.Json.Display

/-!
# Markup

Messages to the console may hold tags in square brackets: an opening tag describes a look, a closing tag
ends the last look or the one that it describes. Behind `=` a tag may hold more; a tag whose name begins
with `@` holds a handler there, which is a name, a value in brackets, or both. A backslash before a tag
makes it text, in which codes stand for emoji. `plain` is the text that a message shows, and `escape`
makes a text show its tags.
-/

namespace SchemaDecl.Markup

def isTagStart (c : Char) : Bool := ('a' ≤ c && c ≤ 'z') || c = '#' || c = '/' || c = '@'

/-- A stretch of text, or the inside of a tag with its place in the message. -/
inductive Piece
  | text (cs : List Char)
  | tag (body : List Char) (position : Nat)

/-- What the scanner is in. The characters read so far are reversed; `slashes` counts the backslashes
that stand right before the bracket of what may become a tag. -/
inductive Scan
  | text (taken : List Char)
  | tag (taken : List Char) (slashes : Nat) (body : List Char)

def openTag (taken : List Char) : Scan :=
  .tag (taken.dropWhile (· = '\\')) (taken.takeWhile (· = '\\')).length []

/-- The text of a tag that did not come to an end, in front of the text before it, reversed. -/
def abandon (taken : List Char) (slashes : Nat) (body : List Char) : List Char :=
  body ++ '[' :: (List.replicate slashes '\\' ++ taken)

def textPiece (cs : List Char) : List Piece := if cs.isEmpty then [] else [.text cs]

/-- The pieces that a complete tag leads to: half of the backslashes before it, and the tag, or its text
if their number is odd. -/
def closeTag (taken : List Char) (slashes : Nat) (body : List Char) (position : Nat) : List Piece :=
  let body := body.reverse
  textPiece taken.reverse ++ textPiece (List.replicate (slashes / 2) '\\') ++
    [if slashes % 2 = 1 then .text ('[' :: body ++ [']']) else .tag body position]

/-- Cuts a message into pieces; `done` is the number of characters in the pieces before. -/
def scan (done : Nat) : Scan → List Char → List Piece
  | .text taken, [] => textPiece taken.reverse
  | .tag taken slashes body, [] => textPiece (abandon taken slashes body).reverse
  | .text taken, c :: rest =>
    if c = '[' then scan done (openTag taken) rest else scan done (.text (c :: taken)) rest
  | .tag taken slashes body, c :: rest =>
    if c = '[' then scan done (openTag (abandon taken slashes body)) rest
    else if c = ']' && !body.isEmpty then
      let position := done + taken.length + slashes / 2 * 2
      closeTag taken slashes body position ++
        scan (done + taken.length + slashes + body.length + 2) (.text []) rest
    else if body.isEmpty && !isTagStart c then
      scan done (.text (c :: abandon taken slashes body)) rest
    else scan done (.tag taken slashes (c :: body)) rest

def pieces (cs : List Char) : List Piece := scan 0 (.text []) cs

inductive Fault
  /-- A closing tag for a look that is not open. -/
  | notOpen (tag : String) (position : Nat)
  /-- A closing tag where no look is open. -/
  | nothingOpen (position : Nat)
  /-- A handler without a value that can be read. -/
  | badHandler (value handler : String)
  | look (fault : Console.Colour.Fault)
  deriving DecidableEq, Repr

def complaint (value : String) : String :=
  if value.toList.count ')' < value.toList.count '(' then "'(' was never closed" else "invalid syntax"

def Fault.message : Fault → String
  | notOpen tag position =>
    "closing tag '[" ++ tag ++ "]' at position " ++ toString position ++ " doesn't match any open tag"
  | nothingOpen position =>
    "closing tag '[/]' at position " ++ toString position ++ " has nothing to close"
  | badHandler value handler =>
    "error parsing " ++ Json.inspectText value ++ " in " ++ Json.inspectText handler ++ "; " ++
      complaint value
  | look fault => fault.message

/-- A tag that is open: the normal form of its look, and what stands behind `=`. -/
structure OpenTag where
  look : String
  more? : Option (List Char)

/-- The parts of a tag before and behind `=`. -/
def splitTag (body : List Char) : List Char × Option (List Char) :=
  match body.dropWhile (· ≠ '=') with
  | [] => (body, none)
  | _ :: more => (body.takeWhile (· ≠ '='), some more)

def lookOf (cs : List Char) : Except Fault String := (Console.Look.normal cs).mapError .look

def isHandlerName (c : Char) : Bool := c = '_' || c = '.' || Text.isAlphanumeric c

/-- The value of a handler: what stands in brackets behind its name, or all of it. -/
def handlerValue (handler : List Char) : List Char :=
  match handler.dropWhile isHandlerName with
  | [] => ['(', ')']
  | c :: rest =>
    if c = '(' && rest.getLast? = some ')' && !rest.contains '\n' then c :: rest else handler

/-- A handler that ends must have a value that can be read. -/
def checkEnded (tag : OpenTag) : Except Fault Unit :=
  match tag.more? with
  | some (c :: more) =>
    let value := handlerValue (Text.trim (c :: more))
    if tag.look.startsWith "@" && !Console.Literal.isLiteral value then
      .error (.badHandler (String.ofList value) (String.ofList (c :: more)))
    else .ok ()
  | _ => .ok ()

def takeOut? (look : String) : List OpenTag → Option (OpenTag × List OpenTag)
  | [] => none
  | tag :: rest =>
    if tag.look = look then some (tag, rest)
    else (takeOut? look rest).map fun (found, rest) => (found, tag :: rest)

/-- The tag that a closing tag ends, and those that stay open. -/
def closeBy (tags : List OpenTag) (name body : List Char) (position : Nat) :
    Except Fault (OpenTag × List OpenTag) := do
  if name.isEmpty then
    match tags with
    | [] => throw (.nothingOpen position)
    | tag :: rest => return (tag, rest)
  else
    match takeOut? (← lookOf name) tags with
    | some found => return found
    | none => throw (.notOpen (String.ofList body) position)

def applyTag (tags : List OpenTag) (body : List Char) (position : Nat) : Except Fault (List OpenTag) := do
  match splitTag body with
  | ('/' :: name, _) =>
    let (ended, tags) ← closeBy tags (Text.trim name) body position
    checkEnded ended
    return tags
  | (name, more?) => return ⟨← lookOf name, more?⟩ :: tags

/-- A backslash before an opening bracket is dropped. -/
def unslash : List Char → List Char
  | [] => []
  | '\\' :: '[' :: rest => '[' :: unslash rest
  | c :: rest => c :: unslash rest

def plainPieces (tags : List OpenTag) : List Piece → Except Fault (List Char)
  | [] => .ok []
  | .text cs :: rest => do return Emoji.shown (unslash cs) ++ (← plainPieces tags rest)
  | .tag body position :: rest => do plainPieces (← applyTag tags body position) rest

/-- What stands behind `=` in an opening tag belongs to the description of a look. -/
def checkLook : Piece → Except Fault Unit
  | .tag body _ =>
    match splitTag body with
    | ('/' :: _, _) | (_, none) => .ok ()
    | (name, some more) => do
      let _ ← lookOf ((← lookOf name).toList ++ ' ' :: more)
      return
  | .text _ => .ok ()

/-- Characters that move the cursor are not shown. -/
def isShown (c : Char) : Bool := !(c.toNat ∈ [7, 8, 11, 12, 13])

def plain (s : String) : Except Fault String := do
  let pieces := pieces s.toList
  let shown ← plainPieces [] pieces
  pieces.forM checkLook
  return String.ofList (shown.filter isShown)

/-- A complete tag behind twice the backslashes that stood before it and one more. -/
def escapedTag (taken : List Char) (slashes : Nat) (body : List Char) : List Char :=
  taken.reverse ++ List.replicate (2 * slashes + 1) '\\' ++ '[' :: body.reverse ++ [']']

def escapeTags : Scan → List Char → List Char
  | .text taken, [] => taken.reverse
  | .tag taken slashes body, [] => (abandon taken slashes body).reverse
  | .text taken, c :: rest =>
    if c = '[' then escapeTags (openTag taken) rest else escapeTags (.text (c :: taken)) rest
  | .tag taken slashes body, c :: rest =>
    if c = '[' then escapeTags (openTag (abandon taken slashes body)) rest
    else if c = ']' && !body.isEmpty then escapedTag taken slashes body ++ escapeTags (.text []) rest
    else if body.isEmpty && !isTagStart c then
      escapeTags (.text (c :: abandon taken slashes body)) rest
    else escapeTags (.tag taken slashes (c :: body)) rest

/-- A single backslash at the end is doubled, lest it escape a tag that follows. -/
def guardEnd (cs : List Char) : List Char :=
  match cs.reverse with
  | '\\' :: '\\' :: _ => cs
  | '\\' :: _ => cs ++ ['\\']
  | _ => cs

/-- The message that shows a text with all its tags. -/
def escape (s : String) : String := String.ofList (guardEnd (escapeTags (.text []) s.toList))

end SchemaDecl.Markup

import SchemaDecl.Console.Basic
import SchemaDecl.Console.Markup
import SchemaDecl.Text.Lines

/-!
# What a screen shows

Messages, tables and code as lines. A message and a cell of a table may hold markup. A cell of several
lines takes as many lines of the screen.
-/

namespace SchemaDecl

namespace Screen

def linesOf (s : String) : List String := (Text.splitOn '\n' s.toList).map String.ofList

def faultOf (fault : Markup.Fault) : Console.Fault :=
  match fault with
  | .look _ => .value fault.message
  | _ => .markup fault.message

def message (markup : String) : Except Console.Fault (List String) :=
  ((Markup.plain markup).mapError faultOf).map linesOf

/-- The lines of a row whose cells have the given lines, from the first line on; `height` lines. -/
def rowLines (cells : List (List String)) : Nat → List String
  | 0 => []
  | height + 1 =>
    " ".intercalate (cells.map fun lines => lines.headD "") :: rowLines (cells.map List.tail) height

def row (cells : List (List String)) : List String :=
  rowLines cells ((cells.map List.length).foldl max 0)

/-- The lines of a table. Its cells are measured column by column before they are shown. -/
def table (headers : List String) (rows : List (List String)) : Except Console.Fault (List String) := do
  for column in List.range headers.length do
    for cells in rows do
      let _ ← message ((cells[column]?).getD "")
  let rows ← rows.mapM fun cells => cells.mapM message
  return " ".intercalate headers :: rows.flatMap row

def tabWidth : Nat := 4

/-- Blanks in place of tabs, up to the next multiple of the tab width. -/
def expandTabs (column : Nat) : List Char → List Char
  | [] => []
  | '\t' :: rest =>
    let gap := tabWidth - column % tabWidth
    List.replicate gap ' ' ++ expandTabs (column + gap) rest
  | c :: rest => c :: expandTabs (if c = '\n' || c = '\r' then 0 else column + 1) rest

def code (s : String) : List String :=
  linesOf (String.ofList ((Text.unifyNewlines (expandTabs 0 s.toList)).filter Markup.isShown))

end Screen

def Console.screen : Console where
  message := Screen.message
  table := Screen.table
  code := Screen.code
  escape := Markup.escape

end SchemaDecl

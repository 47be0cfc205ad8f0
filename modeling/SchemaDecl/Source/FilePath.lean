import SchemaDecl.Text.Lines
import SchemaDecl.Text.Lowercase

/-!
# Paths of files

A path is a list of names; empty names and the name `.` are dropped on reading, `..` is kept. The text
of the empty path is `.`.
-/

namespace SchemaDecl

structure FilePath where
  absolute : Bool
  names : List String
  deriving DecidableEq, Repr

namespace FilePath

def ofString (s : String) : FilePath :=
  let pieces := (Text.splitOn '/' s.toList).map String.ofList
  ⟨s.startsWith "/", pieces.filter fun piece => piece != "" && piece != "."⟩

/-- The path of a text; the empty text stands for no path. -/
def given? (s : String) : Option FilePath := if s = "" then none else some (ofString s)

def text (p : FilePath) : String :=
  let body := "/".intercalate p.names
  if p.absolute then "/" ++ body else if p.names.isEmpty then "." else body

/-- The part of the last name from its last point on, unless the point begins or ends the name. -/
def extension (p : FilePath) : String :=
  let name := (p.names.getLast?.getD "").toList
  let tail := (name.reverse.takeWhile (· ≠ '.')).reverse
  if name.contains '.' && tail != [] && tail.length + 1 < name.length then String.ofList ('.' :: tail)
  else ""

/-- The extension is `.json` in capitals or small letters. -/
def isJson (p : FilePath) : Bool := Text.lower p.extension = ".json"

end FilePath

end SchemaDecl

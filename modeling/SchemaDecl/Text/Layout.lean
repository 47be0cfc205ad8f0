import SchemaDecl.Text.Lines

/-!
# Tidy layout

A tidied text has no white space at the end of a line, at most one empty line between two others, no
empty line at its start or end, and one final line feed.
-/

namespace SchemaDecl.Text

/-- Runs of empty lines shortened to one. -/
def squeeze : List (List Char) → List (List Char)
  | [] => []
  | line :: lines =>
    if line.isEmpty && (lines.head?.any List.isEmpty) then squeeze lines else line :: squeeze lines

/-- The lines without empty ones at either end. -/
def stripEmpty (lines : List (List Char)) : List (List Char) :=
  dropEnd List.isEmpty (lines.dropWhile List.isEmpty)

def tidyChars (cs : List Char) : List Char :=
  ['\n'].intercalate (stripEmpty (squeeze ((splitOn '\n' cs).map trimEnd))) ++ ['\n']

def tidy (s : String) : String := String.ofList (tidyChars s.toList)

end SchemaDecl.Text

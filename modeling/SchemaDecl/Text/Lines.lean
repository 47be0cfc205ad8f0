import SchemaDecl.Text.Blank

/-!
# Lines

Two notions of line. `splitLines` cuts at every line boundary of the Unicode standard and keeps each
line's terminator; `splitOn` cuts at one character and drops it. `indent` puts a margin before each
line that is not blank.
-/

namespace SchemaDecl.Text

/-- The characters that end a line, the pair of carriage return and line feed aside. -/
def isLineBreak (c : Char) : Bool :=
  Ranges.mem c.toNat [(0xA, 0xD), (0x1C, 0x1E), (0x85, 0x85), (0x2028, 0x2029)]

/-- Lines with their terminators; the last line may lack one. -/
def splitLines : List Char → List (List Char)
  | [] => []
  | '\r' :: '\n' :: rest => ['\r', '\n'] :: splitLines rest
  | c :: rest =>
    if isLineBreak c then [c] :: splitLines rest
    else match splitLines rest with
      | [] => [[c]]
      | line :: lines => (c :: line) :: lines

/-- Nothing is lost between lines. -/
theorem flatten_splitLines (cs : List Char) : (splitLines cs).flatten = cs := by
  fun_induction splitLines cs with
  | case1 => rfl
  | case2 rest ih => simp [ih]
  | case3 c rest _ _ ih => simp [ih]
  | case4 c rest _ _ hlines ih =>
    rw [hlines] at ih
    simp_all
  | case5 c rest _ _ line lines hlines ih =>
    rw [hlines] at ih
    simp_all

def splitOn (sep : Char) : List Char → List (List Char)
  | [] => [[]]
  | c :: rest =>
    if c = sep then [] :: splitOn sep rest
    else match splitOn sep rest with
      | [] => [[c]]
      | piece :: pieces => (c :: piece) :: pieces

theorem splitOn_ne_nil (sep : Char) (cs : List Char) : splitOn sep cs ≠ [] := by
  cases cs with
  | nil => simp [splitOn]
  | cons c rest =>
    unfold splitOn
    split
    · simp
    · split <;> simp

/-- Joining the pieces with the separator gives the text back. -/
theorem intercalate_splitOn (sep : Char) (cs : List Char) :
    [sep].intercalate (splitOn sep cs) = cs := by
  induction cs with
  | nil => rfl
  | cons c rest ih =>
    unfold splitOn
    split
    next h =>
      subst h
      cases hp : splitOn c rest with
      | nil => exact absurd hp (splitOn_ne_nil c rest)
      | cons p ps => rw [hp] at ih; simp_all [List.intercalate, List.intersperse]
    next h =>
      cases hp : splitOn sep rest with
      | nil => exact absurd hp (splitOn_ne_nil sep rest)
      | cons p ps =>
        rw [hp] at ih
        cases ps <;> simp_all [List.intercalate, List.intersperse]

/-- `margin` before every line that holds more than white space. -/
def indentChars (margin : List Char) (cs : List Char) : List Char :=
  (splitLines cs).flatMap fun line => if line.all isBlank then line else margin ++ line

def indent (margin : String) (s : String) : String :=
  String.ofList (indentChars margin.toList s.toList)

/-- Carriage returns, alone or before a line feed, become line feeds. -/
def unifyNewlines : List Char → List Char
  | [] => []
  | '\r' :: '\n' :: rest => '\n' :: unifyNewlines rest
  | '\r' :: rest => '\n' :: unifyNewlines rest
  | c :: rest => c :: unifyNewlines rest

end SchemaDecl.Text

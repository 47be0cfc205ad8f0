/-!
# Words of an identifier

An identifier is cut into words at separators, at the humps of its capitals and between letters and
digits; an acronym gives its last capital to a capitalised word that follows. Only ASCII letters and
digits belong to words. `pascalCase` joins the words, each with one capital at its head.
-/

namespace SchemaDecl.Naming

def isUpper (c : Char) : Bool := 'A' ≤ c && c ≤ 'Z'
def isLower (c : Char) : Bool := 'a' ≤ c && c ≤ 'z'
def isDigit (c : Char) : Bool := '0' ≤ c && c ≤ '9'

def isWordChar (c : Char) : Bool := isUpper c || isLower c || isDigit c

/-- The word that begins with the capital `c`, and what follows it. -/
def takeCapital (c : Char) (rest : List Char) : List Char × List Char :=
  let capitals := rest.takeWhile isUpper
  let tail := rest.dropWhile isUpper
  if tail.head?.any isLower then
    match capitals.getLast? with
    | none => (c :: tail.takeWhile isLower, tail.dropWhile isLower)
    | some last => (c :: capitals.dropLast, last :: tail)
  else (c :: capitals, tail)

/-- The word that begins with the word character `c`, and what follows it. -/
def takeWord (c : Char) (rest : List Char) : List Char × List Char :=
  if isUpper c then takeCapital c rest
  else if isLower c then (c :: rest.takeWhile isLower, rest.dropWhile isLower)
  else (c :: rest.takeWhile isDigit, rest.dropWhile isDigit)

theorem takeCapital_append (c : Char) (rest : List Char) :
    (takeCapital c rest).1 ++ (takeCapital c rest).2 = c :: rest := by
  unfold takeCapital
  simp only
  split
  · split
    next h =>
      have hnil : rest.takeWhile isUpper = [] := List.getLast?_eq_none_iff.1 h
      have hdrop : rest.dropWhile isUpper = rest := by
        simpa [hnil] using List.takeWhile_append_dropWhile (p := isUpper) (l := rest)
      simp [hdrop]
    next last h =>
      have hlast : (rest.takeWhile isUpper).dropLast ++ [last] = rest.takeWhile isUpper := by
        have hne : rest.takeWhile isUpper ≠ [] := by rintro hnil; simp [hnil] at h
        rw [List.getLast?_eq_some_getLast hne, Option.some.injEq] at h
        rw [← h, List.dropLast_concat_getLast hne]
      have := List.takeWhile_append_dropWhile (p := isUpper) (l := rest)
      simp only [List.cons_append, List.cons.injEq, true_and]
      rw [List.append_cons, hlast, this]
  · simp

theorem takeWord_append (c : Char) (rest : List Char) :
    (takeWord c rest).1 ++ (takeWord c rest).2 = c :: rest := by
  unfold takeWord
  split
  · exact takeCapital_append c rest
  · split <;> simp

theorem takeWord_ne_nil (c : Char) (rest : List Char) : (takeWord c rest).1 ≠ [] := by
  unfold takeWord takeCapital
  split
  · simp only
    split
    · split <;> simp
    · simp
  · split <;> simp

theorem takeWord_length (c : Char) (rest : List Char) :
    (takeWord c rest).2.length < (c :: rest).length := by
  have happ := congrArg List.length (takeWord_append c rest)
  have hpos := List.length_pos_iff.2 (takeWord_ne_nil c rest)
  rw [List.length_append] at happ
  omega

def words : List Char → List (List Char)
  | [] => []
  | c :: rest =>
    if isWordChar c then (takeWord c rest).1 :: words (takeWord c rest).2 else words rest
termination_by cs => cs.length
decreasing_by
  · exact takeWord_length c rest
  · simp

/-- A word with a capital at its head and small letters after it. -/
def capitalize : List Char → List Char
  | [] => []
  | c :: rest => c.toUpper :: rest.map Char.toLower

def pascalChars (cs : List Char) : List Char := (words cs).flatMap capitalize

/-- `modular_blocks` becomes `ModularBlocks`. -/
def pascalCase (name : String) : String := String.ofList (pascalChars name.toList)

def wordTexts (name : String) : List String := (words name.toList).map String.ofList

end SchemaDecl.Naming

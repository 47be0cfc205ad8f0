import SchemaDecl.Text.Ranges

/-!
# White space

The white space of the Unicode standard together with the four information separators `U+001C` to
`U+001F`, the trimming of a text at one or both ends, and the words between white space.
-/

namespace SchemaDecl.Text

def blankRanges : Ranges :=
  [(0x9, 0xD), (0x1C, 0x20), (0x85, 0x85), (0xA0, 0xA0), (0x1680, 0x1680), (0x2000, 0x200A),
   (0x2028, 0x2029), (0x202F, 0x202F), (0x205F, 0x205F), (0x3000, 0x3000)]

def isBlank (c : Char) : Bool := blankRanges.mem c.toNat

/-- Removes the longest run of elements with `p` at the end of a list. -/
def dropEnd {α : Type} (p : α → Bool) : List α → List α
  | [] => []
  | a :: as =>
    match dropEnd p as with
    | [] => if p a then [] else [a]
    | rest => a :: rest

def trimEnd (cs : List Char) : List Char := dropEnd isBlank cs

def trim (cs : List Char) : List Char := trimEnd (cs.dropWhile isBlank)

/-- The words of a text, without the white space between them. -/
def words : List Char → List (List Char)
  | [] => []
  | c :: rest =>
    if isBlank c then words rest
    else match rest, words rest with
      | d :: _, word :: more => if isBlank d then [c] :: word :: more else (c :: word) :: more
      | _, more => [c] :: more

@[simp] theorem dropEnd_nil {α : Type} (p : α → Bool) : dropEnd p [] = [] := rfl

theorem dropEnd_cons {α : Type} (p : α → Bool) (a : α) (as : List α) :
    dropEnd p (a :: as) = if dropEnd p as = [] then (if p a then [] else [a]) else a :: dropEnd p as := by
  rw [dropEnd]
  split <;> simp_all

theorem dropEnd_of_all {α : Type} {p : α → Bool} {tail : List α} (h : ∀ a ∈ tail, p a = true) :
    dropEnd p tail = [] := by
  induction tail with
  | nil => rfl
  | cons a rest ih =>
    obtain ⟨ha, hrest⟩ := List.forall_mem_cons.1 h
    rw [dropEnd_cons, if_pos (ih hrest), if_pos ha]

/-- Only elements with `p` are removed, and only at the end. -/
theorem dropEnd_append_of_all {α : Type} (p : α → Bool) (as : List α) :
    ∃ tail, as = dropEnd p as ++ tail ∧ ∀ a ∈ tail, p a = true := by
  induction as with
  | nil => exact ⟨[], by simp⟩
  | cons a as ih =>
    obtain ⟨tail, hsplit, htail⟩ := ih
    rw [dropEnd_cons]
    by_cases hnil : dropEnd p as = []
    · rw [hnil, List.nil_append] at hsplit
      by_cases ha : p a = true
      · refine ⟨a :: tail, ?_, ?_⟩
        · simp [hnil, ha, ← hsplit]
        · intro b hb
          rcases List.mem_cons.1 hb with rfl | hb
          · exact ha
          · exact htail b hb
      · exact ⟨tail, by simp [hnil, ha, ← hsplit], htail⟩
    · refine ⟨tail, ?_, htail⟩
      simp only [hnil, if_false, List.cons_append]
      rw [← hsplit]

end SchemaDecl.Text

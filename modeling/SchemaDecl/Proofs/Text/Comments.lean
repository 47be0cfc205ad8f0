import SchemaDecl.Text.Lines

/-!
# Comment lines

Lines here are those between line feeds. `Omits` relates the lines of a text to those that are left when
some comment lines are taken out and all others are none. Indentation keeps the relation, since it works on
each line on its own, and `withoutComments` follows it.
-/

namespace SchemaDecl.Text

/-- The line holds a comment and nothing else, after white space. -/
def isComment (line : List Char) : Bool :=
  let body := line.dropWhile isBlank
  "/**".toList.isPrefixOf body && "*/".toList.isSuffixOf body

/-- The text without its comment lines. -/
def withoutComments (s : String) : String :=
  String.ofList (['\n'].intercalate ((splitOn '\n' s.toList).filter fun line => !isComment line))

variable {sep c : Char} {m a b x y line front : List Char} {as bs : List (List Char)}

theorem splitOn_append_cons (sep : Char) (a b : List Char) :
    splitOn sep (a ++ sep :: b) = splitOn sep a ++ splitOn sep b := by
  induction a with
  | nil => simp [splitOn]
  | cons c rest ih =>
    rw [List.cons_append, splitOn, splitOn, ih]
    split
    · rfl
    · cases hp : splitOn sep rest with
      | nil => exact absurd hp (splitOn_ne_nil sep rest)
      | cons piece pieces => rfl

theorem splitOn_of_not_mem (h : sep ∉ a) : splitOn sep a = [a] := by
  induction a with
  | nil => rfl
  | cons c rest ih =>
    obtain ⟨hc, hrest⟩ := not_or.1 (mt List.mem_cons.2 h)
    rw [splitOn, if_neg (Ne.symm hc), ih hrest]

/-- The lines of texts that are joined are the lines of each of them. -/
theorem splitOn_intercalate (h : as ≠ []) :
    splitOn sep ([sep].intercalate as) = as.flatMap (splitOn sep) := by
  induction as with
  | nil => exact absurd rfl h
  | cons a rest ih =>
    cases rest with
    | nil => simp [List.intercalate]
    | cons next rest =>
      have hjoin : [sep].intercalate (a :: next :: rest) = a ++ sep :: [sep].intercalate (next :: rest) := by
        simp [List.intercalate, List.intersperse]
      rw [hjoin, splitOn_append_cons, ih (by simp)]
      rfl

theorem isComment_eq_false (h : line.getLast? ≠ some '/') : isComment line = false := by
  refine Bool.eq_false_iff.2 fun hc => h ?_
  rw [isComment, Bool.and_eq_true] at hc
  obtain ⟨before, hbody⟩ := List.isSuffixOf_iff_suffix.1 hc.2
  obtain ⟨blanks, hline⟩ := List.dropWhile_suffix isBlank (l := line)
  rw [← hline, ← hbody]
  simp

/-- The second lines are the first ones without some comments, and none of them ends as a comment does. -/
inductive Omits : List (List Char) → List (List Char) → Prop
  | nil : Omits [] []
  | keep {line : List Char} {as bs : List (List Char)} :
      line.getLast? ≠ some '/' → Omits as bs → Omits (line :: as) (line :: bs)
  | drop {line : List Char} {as bs : List (List Char)} :
      isComment line = true → Omits as bs → Omits (line :: as) bs

theorem Omits.append {as' bs' : List (List Char)} (h : Omits as bs) (h' : Omits as' bs') :
    Omits (as ++ as') (bs ++ bs') := by
  induction h with
  | nil => exact h'
  | keep hl _ ih => exact .keep hl ih
  | drop hl _ ih => exact .drop hl ih

theorem Omits.single (h : line.getLast? ≠ some '/') : Omits [line] [line] := .keep h .nil

theorem Omits.self (h : ∀ line ∈ as, line.getLast? ≠ some '/') : Omits as as := by
  induction as with
  | nil => exact .nil
  | cons line rest ih =>
    obtain ⟨hline, hrest⟩ := List.forall_mem_cons.1 h
    exact .keep hline (ih hrest)

theorem Omits.filter (h : Omits as bs) : (as.filter fun line => !isComment line) = bs := by
  induction h with
  | nil => rfl
  | keep hl _ ih => rw [List.filter_cons_of_pos (by simp [isComment_eq_false hl]), ih]
  | drop hl _ ih => rw [List.filter_cons_of_neg (by simp [hl]), ih]

/-- No line ends as a comment does. -/
def Commentless (cs : List Char) : Prop := ∀ line ∈ splitOn '\n' cs, line.getLast? ≠ some '/'

instance (cs : List Char) : Decidable (Commentless cs) := inferInstanceAs (Decidable (∀ line ∈ _, _))

theorem Commentless.omits (h : Commentless a) : Omits (splitOn '\n' a) (splitOn '\n' a) := .self h

theorem commentless_append_cons : Commentless (a ++ '\n' :: b) ↔ Commentless a ∧ Commentless b := by
  rw [Commentless, splitOn_append_cons, List.forall_mem_append]
  rfl

theorem commentless_line (hline : '\n' ∉ a) (h : a.getLast? ≠ some '/') : Commentless a := by
  rw [Commentless, splitOn_of_not_mem hline]
  simpa using h

theorem commentless_append {a b : List Char} (ha : Commentless a) (hb : Commentless b) : Commentless (a ++ b) := by
  by_cases hbreak : '\n' ∈ a
  · obtain ⟨line, rest, rfl, -⟩ := List.eq_append_cons_of_mem hbreak
    rw [commentless_append_cons] at ha
    rw [List.append_assoc, List.cons_append, commentless_append_cons]
    exact ⟨ha.1, commentless_append ha.2 hb⟩
  · have hline : ∀ line, line.getLast? ≠ some '/' → (a ++ line).getLast? ≠ some '/' := by
      intro line h
      cases hl : line.getLast? with
      | none =>
        rw [List.getLast?_eq_none_iff.1 hl, List.append_nil]
        exact ha a (by rw [splitOn_of_not_mem hbreak]; exact List.mem_singleton_self a)
      | some c => simpa [List.getLast?_append, hl] using h
    by_cases hb' : '\n' ∈ b
    · obtain ⟨line, rest, rfl, hfirst⟩ := List.eq_append_cons_of_mem hb'
      rw [commentless_append_cons] at hb
      rw [← List.append_assoc, commentless_append_cons]
      refine ⟨commentless_line (List.not_mem_append hbreak hfirst) (hline line ?_), hb.2⟩
      exact hb.1 line (by rw [splitOn_of_not_mem hfirst]; exact List.mem_singleton_self line)
    · refine commentless_line (List.not_mem_append hbreak hb') (hline b ?_)
      exact hb b (by rw [splitOn_of_not_mem hb']; exact List.mem_singleton_self b)
termination_by a.length
decreasing_by grind

theorem withoutComments_eq {s t : String} (h : Omits (splitOn '\n' s.toList) (splitOn '\n' t.toList)) :
    withoutComments s = t := by
  rw [withoutComments, h.filter, intercalate_splitOn, String.ofList_toList]

/-- The second text is the first one with a margin after some of its line breaks. -/
inductive Inserts (m : List Char) : List Char → List Char → Prop
  | nil : Inserts m [] []
  | cons {c : Char} {a b : List Char} : Inserts m a b → Inserts m (c :: a) (c :: b)
  | margin {c : Char} {a b : List Char} :
      isLineBreak c = true → a ≠ [] → Inserts m a b → Inserts m (c :: a) (c :: (m ++ b))

theorem isLineBreak_eq_false_of_any (h : a.any isLineBreak = false) : ∀ c ∈ a, isLineBreak c = false := by
  intro c hc
  simpa using List.any_eq_false.1 h c hc

namespace Inserts

theorem mem (h : Inserts m a b) (hc : c ∈ b) : c ∈ m ∨ c ∈ a := by
  induction h with
  | nil => cases hc
  | cons _ ih =>
    rcases List.mem_cons.1 hc with rfl | hc
    · exact .inr List.mem_cons_self
    · exact (ih hc).imp_right (List.mem_cons_of_mem _)
  | margin _ _ _ ih =>
    rcases List.mem_cons.1 hc with rfl | hc
    · exact .inr List.mem_cons_self
    · rcases List.mem_append.1 hc with hc | hc
      · exact .inl hc
      · exact (ih hc).imp_right (List.mem_cons_of_mem _)

theorem of_front (hf : ∀ c ∈ front, isLineBreak c = false) (h : Inserts m (front ++ a) b) :
    ∃ rest, b = front ++ rest ∧ Inserts m a rest := by
  induction front generalizing b with
  | nil => exact ⟨b, rfl, h⟩
  | cons c front ih =>
    obtain ⟨hc, hfront⟩ := List.forall_mem_cons.1 hf
    cases h with
    | cons h =>
      obtain ⟨rest, rfl, hrest⟩ := ih hfront h
      exact ⟨rest, rfl, hrest⟩
    | margin hbreak =>
      rw [hc] at hbreak
      cases hbreak

theorem of_rear {rear : List Char} (hr : ∀ c ∈ rear, isLineBreak c = false) (h : Inserts m (a ++ rear) b) :
    ∃ start, b = start ++ rear := by
  induction a generalizing b with
  | nil =>
    obtain ⟨rest, rfl, hrest⟩ := of_front (a := []) hr (by simpa using h)
    cases hrest
    exact ⟨[], by simp⟩
  | cons c a ih =>
    cases h with
    | cons h =>
      obtain ⟨start, rfl⟩ := ih h
      exact ⟨c :: start, rfl⟩
    | margin _ _ h =>
      obtain ⟨start, rfl⟩ := ih h
      exact ⟨c :: (m ++ start), by simp⟩

theorem of_blanks {blanks : List Char} (hm : ∀ c ∈ m, isBlank c = true) (hb : ∀ c ∈ blanks, isBlank c = true)
    (h : Inserts m (blanks ++ a) b) :
    ∃ blanks' rest, b = blanks' ++ rest ∧ (∀ c ∈ blanks', isBlank c = true) ∧ Inserts m a rest := by
  induction blanks generalizing b with
  | nil => exact ⟨[], b, rfl, by simp, h⟩
  | cons c blanks ih =>
    obtain ⟨hc, hblanks⟩ := List.forall_mem_cons.1 hb
    cases h with
    | cons h =>
      obtain ⟨blanks', rest, rfl, hb', hrest⟩ := ih hblanks h
      exact ⟨c :: blanks', rest, rfl, List.forall_mem_cons.2 ⟨hc, hb'⟩, hrest⟩
    | margin _ _ h =>
      obtain ⟨blanks', rest, rfl, hb', hrest⟩ := ih hblanks h
      refine ⟨c :: (m ++ blanks'), rest, by simp, List.forall_mem_cons.2 ⟨hc, ?_⟩, hrest⟩
      exact List.forall_mem_append.2 ⟨hm, hb'⟩

theorem getLast?_eq (h : Inserts m a b) : b.getLast? = a.getLast? := by
  induction h with
  | nil => rfl
  | @cons c a b _ ih => rw [List.getLast?_cons, List.getLast?_cons, ih]
  | margin _ hne _ ih =>
    rw [List.getLast?_cons, List.getLast?_cons, List.getLast?_append, ih, List.getLast?_eq_some_getLast hne]
    rfl

end Inserts

/-- A line with the margin, if it is not blank. -/
def marginLine (m line : List Char) : List Char := if line.all isBlank then line else m ++ line

theorem indentChars_eq (m cs : List Char) : indentChars m cs = (splitLines cs).flatMap (marginLine m) := rfl

/-- The lines with the margin, but for the first line. -/
def hanging (m : List Char) : List (List Char) → List Char
  | [] => []
  | line :: lines => line ++ lines.flatMap (marginLine m)

theorem flatMap_marginLine (m : List Char) (lines : List (List Char)) :
    lines.flatMap (marginLine m) = hanging m lines ∨
      lines.flatMap (marginLine m) = m ++ hanging m lines ∧ lines ≠ [] := by
  cases lines with
  | nil => exact .inl rfl
  | cons line lines =>
    rw [List.flatMap_cons, hanging, marginLine]
    split
    · exact .inl rfl
    · exact .inr ⟨List.append_assoc _ _ _, by simp⟩

theorem splitLines_ne_nil (h : splitLines a ≠ []) : a ≠ [] := by
  rintro rfl
  exact h rfl

theorem Inserts.after (hc : isLineBreak c = true) (h : Inserts m a (hanging m (splitLines a))) :
    Inserts m (c :: a) (c :: (splitLines a).flatMap (marginLine m)) := by
  rcases flatMap_marginLine m (splitLines a) with heq | ⟨heq, hne⟩
  · rw [heq]
    exact .cons h
  · rw [heq]
    exact .margin hc (splitLines_ne_nil hne) h

theorem inserts_hanging (m cs : List Char) : Inserts m cs (hanging m (splitLines cs)) := by
  fun_induction splitLines cs with
  | case1 => exact .nil
  | case2 rest ih => exact .cons (Inserts.after rfl ih)
  | case3 c rest _ hc ih => exact Inserts.after hc ih
  | case4 c rest _ _ hlines ih =>
    rw [hlines] at ih
    exact .cons ih
  | case5 c rest _ _ line lines hlines ih =>
    rw [hlines] at ih
    exact .cons ih

/-- Indentation puts the margin after line breaks, and at the start of a text that begins with more than
white space. -/
theorem inserts_indentChars (m cs : List Char) :
    ∃ b, Inserts m cs b ∧ (indentChars m cs = b ∨ indentChars m cs = m ++ b ∧ cs ≠ []) := by
  refine ⟨_, inserts_hanging m cs, ?_⟩
  rcases flatMap_marginLine m (splitLines cs) with heq | ⟨heq, hne⟩
  · exact .inl heq
  · exact .inr ⟨heq, splitLines_ne_nil hne⟩

theorem mem_indentChars (h : c ∈ indentChars m a) : c ∈ m ∨ c ∈ a := by
  obtain ⟨b, hb, heq | ⟨heq, -⟩⟩ := inserts_indentChars m a <;> rw [heq] at h
  · exact hb.mem h
  · exact (List.mem_append.1 h).elim .inl hb.mem

theorem getLast?_indentChars (m line : List Char) : (indentChars m line).getLast? = line.getLast? := by
  obtain ⟨b, hb, heq | ⟨heq, hne⟩⟩ := inserts_indentChars m line
  · rw [heq, hb.getLast?_eq]
  · rw [heq, List.getLast?_append, hb.getLast?_eq, List.getLast?_eq_some_getLast hne]
    rfl

/-- A comment begins and ends as comments do, after white space. -/
theorem isComment_iff : isComment line = true ↔
    ∃ blanks body, line = blanks ++ body ∧ (∀ c ∈ blanks, isBlank c = true) ∧
      "/**".toList <+: body ∧ "*/".toList <:+ body := by
  constructor
  · intro h
    rw [isComment, Bool.and_eq_true, List.isPrefixOf_iff_prefix, List.isSuffixOf_iff_suffix] at h
    refine ⟨line.takeWhile isBlank, _, List.takeWhile_append_dropWhile.symm, fun c hc => ?_, h⟩
    exact List.all_eq_true.1 List.all_takeWhile c hc
  · rintro ⟨blanks, body, rfl, hblanks, hfront, hrear⟩
    have hbody : body.dropWhile isBlank = body := by
      obtain ⟨rest, rfl⟩ := hfront
      rfl
    rw [isComment, List.dropWhile_append_of_pos hblanks, hbody, Bool.and_eq_true,
      List.isPrefixOf_iff_prefix, List.isSuffixOf_iff_suffix]
    exact ⟨hfront, hrear⟩

theorem isComment_indentChars (hm : ∀ c ∈ m, isBlank c = true) (h : isComment line = true) :
    isComment (indentChars m line) = true := by
  obtain ⟨blanks, body, rfl, hblanks, ⟨rest, hfront⟩, ⟨start, hrear⟩⟩ := isComment_iff.1 h
  obtain ⟨b, hb, hindent⟩ := inserts_indentChars m (blanks ++ body)
  obtain ⟨blanks', body', rfl, hblanks', hbody'⟩ := hb.of_blanks hm hblanks
  have hfront' : "/**".toList <+: body' := by
    rw [← hfront] at hbody'
    obtain ⟨rest', rfl, -⟩ := hbody'.of_front (isLineBreak_eq_false_of_any (by decide +kernel))
    exact List.prefix_append _ _
  have hrear' : "*/".toList <:+ body' := by
    rw [← hrear] at hbody'
    obtain ⟨start', rfl⟩ := hbody'.of_rear (isLineBreak_eq_false_of_any (by decide +kernel))
    exact List.suffix_append _ _
  rcases hindent with heq | ⟨heq, -⟩
  · exact isComment_iff.2 ⟨blanks', body', heq, hblanks', hfront', hrear'⟩
  · refine isComment_iff.2 ⟨m ++ blanks', body', by rw [heq, List.append_assoc], ?_, hfront', hrear'⟩
    exact List.forall_mem_append.2 ⟨hm, hblanks'⟩

theorem splitLines_cons (h : ∀ rest, c = '\r' → a = '\n' :: rest → False) : splitLines (c :: a) =
    if isLineBreak c then [c] :: splitLines a
    else match splitLines a with
      | [] => [[c]]
      | line :: lines => (c :: line) :: lines := splitLines.eq_3 c a h

theorem not_pair (h : ∀ rest, c = '\r' → a = '\n' :: rest → False) (hne : ¬(c = '\r' ∧ a = [])) :
    ∀ rest, c = '\r' → a ++ '\n' :: b = '\n' :: rest → False := by
  intro rest hc hrest
  cases a with
  | nil => exact hne ⟨hc, rfl⟩
  | cons d a =>
    obtain rfl := (List.cons.inj hrest).1
    exact h a hc rfl

theorem splitLines_append_cons (a b : List Char) :
    ∃ lines last, (splitLines a = lines ++ [last] ∨ splitLines a = lines ∧ last = []) ∧
      splitLines (a ++ '\n' :: b) = lines ++ (last ++ ['\n']) :: splitLines b := by
  have hbreak : splitLines ('\n' :: b) = ['\n'] :: splitLines b := by
    rw [splitLines, if_pos (show isLineBreak '\n' = true from rfl)]
    simp
  fun_induction splitLines a with
  | case1 => exact ⟨[], [], .inr ⟨rfl, rfl⟩, hbreak⟩
  | case2 rest ih =>
    obtain ⟨lines, last, hrest, hab⟩ := ih
    refine ⟨['\r', '\n'] :: lines, last, ?_, ?_⟩
    · rcases hrest with hrest | ⟨hrest, hlast⟩
      · exact .inl (by rw [hrest]; rfl)
      · exact .inr ⟨by rw [hrest], hlast⟩
    · rw [List.cons_append, List.cons_append, splitLines, hab]
      rfl
  | case3 c rest hcr hc ih =>
    by_cases hpair : c = '\r' ∧ rest = []
    · obtain ⟨rfl, rfl⟩ := hpair
      exact ⟨[], ['\r'], .inl rfl, by simp [splitLines]⟩
    · obtain ⟨lines, last, hrest, hab⟩ := ih
      refine ⟨[c] :: lines, last, ?_, ?_⟩
      · rcases hrest with hrest | ⟨hrest, hlast⟩
        · exact .inl (by rw [hrest]; rfl)
        · exact .inr ⟨by rw [hrest], hlast⟩
      · rw [List.cons_append, splitLines_cons (not_pair hcr hpair), if_pos hc, hab]
        rfl
  | case4 c rest hcr hc hlines ih =>
    obtain rfl : rest = [] := by
      rw [← flatten_splitLines rest, hlines]
      rfl
    have hne : ¬(c = '\r' ∧ ([] : List Char) = []) := fun h => hc (by rw [h.1]; rfl)
    refine ⟨[], [c], .inl rfl, ?_⟩
    rw [List.cons_append, splitLines_cons (not_pair hcr hne), if_neg hc, List.nil_append, hbreak]
    rfl
  | case5 c rest hcr hc line lines hlines ih =>
    have hne : ¬(c = '\r' ∧ rest = []) := fun h => hc (by rw [h.1]; rfl)
    obtain ⟨lines', last, hrest, hab⟩ := ih
    rw [List.cons_append, splitLines_cons (not_pair hcr hne), if_neg hc, hab]
    cases lines' with
    | nil =>
      rcases hrest with hrest | ⟨hrest, -⟩ <;> rw [hlines] at hrest
      · cases hrest
        exact ⟨[], c :: line, .inl rfl, rfl⟩
      · cases hrest
    | cons line' lines' =>
      refine ⟨(c :: line') :: lines', last, ?_, rfl⟩
      rcases hrest with hrest | ⟨hrest, hlast⟩ <;> rw [hlines] at hrest <;> cases hrest
      · exact .inl rfl
      · exact .inr ⟨rfl, hlast⟩

theorem indentChars_append_cons (m a b : List Char) :
    indentChars m (a ++ '\n' :: b) = indentChars m a ++ '\n' :: indentChars m b := by
  obtain ⟨lines, last, ha, hab⟩ := splitLines_append_cons a b
  have hlast : marginLine m (last ++ ['\n']) = marginLine m last ++ ['\n'] := by
    have hblank : isBlank '\n' = true := rfl
    rw [marginLine, marginLine, List.all_append, List.all_cons, hblank]
    cases hl : last.all isBlank <;> simp
  rw [indentChars_eq, hab, List.flatMap_append, List.flatMap_cons, hlast, indentChars_eq, indentChars_eq]
  rcases ha with ha | ⟨ha, rfl⟩
  · rw [ha]
    simp
  · rw [ha]
    simp [marginLine]

theorem splitOn_indentChars (hm : '\n' ∉ m) (cs : List Char) :
    splitOn '\n' (indentChars m cs) = (splitOn '\n' cs).map (indentChars m) := by
  by_cases hcs : '\n' ∈ cs
  · obtain ⟨a, b, rfl, ha⟩ := List.eq_append_cons_of_mem hcs
    have ih := splitOn_indentChars hm b
    have hline : '\n' ∉ indentChars m a := fun h => (mem_indentChars h).elim hm ha
    rw [indentChars_append_cons, splitOn_append_cons, splitOn_append_cons, ih, splitOn_of_not_mem hline,
      splitOn_of_not_mem ha]
    rfl
  · have hline : '\n' ∉ indentChars m cs := fun h => (mem_indentChars h).elim hm hcs
    rw [splitOn_of_not_mem hline, splitOn_of_not_mem hcs]
    rfl
termination_by cs.length
decreasing_by grind

theorem Omits.indent (hm : ∀ c ∈ m, isBlank c = true) (h : Omits as bs) :
    Omits (as.map (indentChars m)) (bs.map (indentChars m)) := by
  induction h with
  | nil => exact .nil
  | keep hl _ ih => exact .keep (by rwa [getLast?_indentChars]) ih
  | drop hl _ ih => exact .drop (isComment_indentChars hm hl) ih

end SchemaDecl.Text

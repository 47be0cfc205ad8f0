import Mathlib.Data.List.Chain
import SchemaDecl.Proofs.Text.Comments
import SchemaDecl.Text.Layout

/-!
# What tidying leaves

The layout of a text is seen in its lines that are not empty, each with the number of empty lines in front of it.
Tidying keeps these lines and lessens the numbers: to none before the first line, and to one at most before each
other. A text whose numbers are that small already has the same layout after tidying, so that tidying again
changes nothing.
-/

namespace SchemaDecl.Text

variable {p : Char → Bool} {a : Char} {as bs cs line : List Char} {lines : List (List Char)} {n m : Nat}
  {entry : Nat × List Char} {entries : List (Nat × List Char)}

/-- The lines of a text without the white space at their ends. -/
def trimmedLines (cs : List Char) : List (List Char) := (splitOn '\n' cs).map trimEnd

/-- The lines that are not empty, each with the number of empty lines in front of it; before the first line
there are `n` more. -/
def spacedFrom (n : Nat) : List (List Char) → List (Nat × List Char)
  | [] => []
  | line :: rest => if line.isEmpty then spacedFrom (n + 1) rest else (n, line) :: spacedFrom 0 rest

def spaced (lines : List (List Char)) : List (Nat × List Char) := spacedFrom 0 lines

/-- The lines with the numbers of empty lines in front of them, and none at the end. -/
def spread (entries : List (Nat × List Char)) : List (List Char) :=
  entries.flatMap fun entry => List.replicate entry.1 [] ++ [entry.2]

/-- At most one empty line in front of a line. -/
def lessen (entry : Nat × List Char) : Nat × List Char := (min entry.1 1, entry.2)

/-- No empty lines before the first line. -/
def unpad : List (Nat × List Char) → List (Nat × List Char)
  | [] => []
  | entry :: rest => (0, entry.2) :: rest

/-- No empty lines before the first line, and one at most before each other. -/
def tidied (entries : List (Nat × List Char)) : List (Nat × List Char) := unpad (entries.map lessen)

theorem dropEnd_append_cons {α : Type} {p : α → Bool} {b : α} (h : p b = false) (front rear : List α) :
    dropEnd p (front ++ b :: rear) = front ++ b :: dropEnd p rear := by
  induction front with
  | nil =>
    rw [List.nil_append, List.nil_append, dropEnd_cons, h]
    split
    next hnil => rw [hnil, if_neg Bool.false_ne_true]
    next => rfl
  | cons c front ih => rw [List.cons_append, dropEnd_cons, ih, if_neg (by simp), List.cons_append]

/-- No element with `p` stays at the end. -/
theorem getLast?_dropEnd {α : Type} (p : α → Bool) (as : List α) : ∀ a ∈ (dropEnd p as).getLast?, p a = false := by
  induction as with
  | nil => exact fun _ h => by cases h
  | cons b rest ih =>
    rw [dropEnd_cons]
    split
    next =>
      split
      next => exact fun _ h => by cases h
      next hb => exact fun c hc => Option.some.inj hc ▸ Bool.eq_false_iff.2 hb
    next hne =>
      rw [List.getLast?_cons_of_ne_nil hne]
      exact ih

theorem dropEnd_eq_self (h : ∀ c ∈ as.getLast?, p c = false) : dropEnd p as = as := by
  rcases List.eq_nil_or_concat as with rfl | ⟨front, c, rfl⟩
  · rfl
  · have hc : p c = false := h c (by simp)
    rw [List.concat_eq_append, dropEnd_append_cons hc, dropEnd_nil]

theorem not_mem_of_mem_splitOn {sep : Char} (h : line ∈ splitOn sep cs) : sep ∉ line := by
  induction cs generalizing line with
  | nil =>
    rw [splitOn, List.mem_singleton] at h
    exact h ▸ List.not_mem_nil
  | cons c rest ih =>
    rw [splitOn] at h
    split at h
    next =>
      rcases List.mem_cons.1 h with rfl | h
      · exact List.not_mem_nil
      · exact ih h
    next hc =>
      split at h
      next hnil => exact absurd hnil (splitOn_ne_nil sep rest)
      next piece pieces hpieces =>
        rw [hpieces] at ih
        rcases List.mem_cons.1 h with rfl | h
        · rw [List.mem_cons, not_or]
          exact ⟨Ne.symm hc, ih List.mem_cons_self⟩
        · exact ih (List.mem_cons_of_mem _ h)

theorem splitOn_joined (h : ∀ line ∈ lines, '\n' ∉ line) :
    splitOn '\n' (['\n'].intercalate lines) = if lines = [] then [[]] else lines := by
  split
  next hnil => rw [hnil]; rfl
  next hne =>
    rw [splitOn_intercalate hne, List.flatMap_congr fun line hm => splitOn_of_not_mem (h line hm)]
    exact List.flatMap_singleton' lines

theorem spacedFrom_empty (n : Nat) (lines : List (List Char)) :
    spacedFrom n ([] :: lines) = spacedFrom (n + 1) lines := by
  rw [spacedFrom, if_pos List.isEmpty_nil]

theorem spacedFrom_of_ne (h : line ≠ []) (n : Nat) (lines : List (List Char)) :
    spacedFrom n (line :: lines) = (n, line) :: spaced lines := by
  rw [spacedFrom, if_neg (by simpa using h), spaced]

theorem spacedFrom_replicate (n m : Nat) (lines : List (List Char)) :
    spacedFrom n (List.replicate m [] ++ lines) = spacedFrom (n + m) lines := by
  induction m generalizing n with
  | zero => rfl
  | succ m ih =>
    rw [List.replicate_succ, List.cons_append, spacedFrom_empty, ih]
    congr 1
    omega

theorem spacedFrom_concat_empty (n : Nat) (lines : List (List Char)) :
    spacedFrom n (lines ++ [[]]) = spacedFrom n lines := by
  induction lines generalizing n with
  | nil => rfl
  | cons line rest ih =>
    by_cases hline : line = []
    · rw [hline, List.cons_append, spacedFrom_empty, spacedFrom_empty, ih]
    · rw [List.cons_append, spacedFrom_of_ne hline, spacedFrom_of_ne hline, spaced, spaced, ih]

theorem map_snd_spacedFrom (n : Nat) (lines : List (List Char)) :
    (spacedFrom n lines).map Prod.snd = lines.filter fun line => !line.isEmpty := by
  induction lines generalizing n with
  | nil => rfl
  | cons line rest ih =>
    by_cases hline : line = []
    · rw [hline, spacedFrom_empty, ih, List.filter_cons_of_neg (by simp)]
    · rw [spacedFrom_of_ne hline, List.map_cons, spaced, ih, List.filter_cons_of_pos (by simpa using hline)]

theorem spread_spacedFrom (n : Nat) (lines : List (List Char)) :
    spread (spacedFrom n lines) = dropEnd List.isEmpty (List.replicate n [] ++ lines) := by
  induction lines generalizing n with
  | nil =>
    rw [List.append_nil, dropEnd_of_all fun line h => by rw [List.eq_of_mem_replicate h]; rfl]
    rfl
  | cons line rest ih =>
    by_cases hline : line = []
    · rw [hline, spacedFrom_empty, ih, List.replicate_succ', List.append_assoc, List.singleton_append]
    · rw [spacedFrom_of_ne hline, dropEnd_append_cons (by simpa using hline), spread, List.flatMap_cons, ← spread,
        spaced, ih, List.append_assoc]
      rfl

theorem spaced_spread (h : ∀ entry ∈ entries, entry.2 ≠ []) : spaced (spread entries) = entries := by
  induction entries with
  | nil => rfl
  | cons entry rest ih =>
    obtain ⟨hentry, hrest⟩ := List.forall_mem_cons.1 h
    rw [spread, List.flatMap_cons, ← spread, List.append_assoc, List.singleton_append, spaced, spacedFrom_replicate,
      spacedFrom_of_ne hentry, ih hrest, Nat.zero_add]

theorem map_lessen_spacedFrom (n m : Nat) (lines : List (List Char)) :
    (spacedFrom (n + 1) lines).map lessen = (spacedFrom (m + 1) lines).map lessen := by
  induction lines generalizing n m with
  | nil => rfl
  | cons line rest ih =>
    by_cases hline : line = []
    · rw [hline, spacedFrom_empty, spacedFrom_empty, ih]
    · rw [spacedFrom_of_ne hline, spacedFrom_of_ne hline, List.map_cons, List.map_cons, lessen, lessen]
      simp

/-- Of several empty lines in a row one is kept. -/
theorem spaced_squeeze (lines : List (List Char)) : spaced (squeeze lines) = (spaced lines).map lessen := by
  induction lines with
  | nil => rfl
  | cons line rest ih =>
    by_cases hline : line = []
    · subst hline
      cases rest with
      | nil => rfl
      | cons next more =>
        by_cases hnext : next = []
        · subst hnext
          rw [squeeze, if_pos (by simp), ih, spaced, spaced, spacedFrom_empty, spacedFrom_empty, spacedFrom_empty,
            map_lessen_spacedFrom]
        · have hsqueeze : squeeze (next :: more) = next :: squeeze more := by rw [squeeze, if_neg (by simp [hnext])]
          rw [hsqueeze, spaced, spaced, spacedFrom_of_ne hnext, spacedFrom_of_ne hnext, List.map_cons] at ih
          rw [squeeze, if_neg (by simp [hnext]), hsqueeze, spaced, spaced, spacedFrom_empty, spacedFrom_empty,
            spacedFrom_of_ne hnext, spacedFrom_of_ne hnext, List.map_cons, (List.cons.inj ih).2]
          rfl
    · rw [squeeze, if_neg (by simp [hline]), spaced, spaced, spacedFrom_of_ne hline, spacedFrom_of_ne hline,
        List.map_cons, ih]
      rfl

theorem spaced_dropWhile (n : Nat) (lines : List (List Char)) :
    spaced (lines.dropWhile List.isEmpty) = unpad (spacedFrom n lines) := by
  induction lines generalizing n with
  | nil => rfl
  | cons line rest ih =>
    by_cases hline : line = []
    · rw [hline, List.dropWhile_cons_of_pos (by simp), spacedFrom_empty, ih]
    · rw [List.dropWhile_cons_of_neg (by simpa using hline), spaced, spacedFrom_of_ne hline, spacedFrom_of_ne hline]
      rfl

theorem stripEmpty_squeeze (lines : List (List Char)) :
    stripEmpty (squeeze lines) = spread (tidied (spaced lines)) := by
  have hspread := spread_spacedFrom 0 ((squeeze lines).dropWhile List.isEmpty)
  rw [stripEmpty, ← List.nil_append (List.dropWhile ..), ← List.replicate_zero (a := ([] : List Char)), ← hspread,
    ← spaced, spaced_dropWhile 0, ← spaced, spaced_squeeze, tidied]

/-- The lines of a text that hold more than white space, without the white space at their ends. -/
def inkedLines (cs : List Char) : List (List Char) := (trimmedLines cs).filter fun line => !line.isEmpty

def tidyLines (cs : List Char) : List (List Char) := spread (tidied (spaced (trimmedLines cs)))

theorem tidyChars_eq (cs : List Char) : tidyChars cs = ['\n'].intercalate (tidyLines cs) ++ ['\n'] := by
  rw [tidyChars, ← trimmedLines, stripEmpty_squeeze, tidyLines]

theorem map_snd_tidied (entries : List (Nat × List Char)) : (tidied entries).map Prod.snd = entries.map Prod.snd := by
  cases entries with
  | nil => rfl
  | cons entry rest =>
    rw [tidied, List.map_cons, unpad, List.map_cons, List.map_cons, List.map_map]
    rfl

theorem tidied_tidied (entries : List (Nat × List Char)) : tidied (tidied entries) = tidied entries := by
  have hlessen : lessen ∘ lessen = lessen := by
    funext entry
    simp [lessen]
  cases entries with
  | nil => rfl
  | cons entry rest =>
    rw [tidied, tidied, List.map_cons, unpad, List.map_cons, unpad, List.map_map, hlessen]
    rfl

theorem le_one_of_mem_tidied (h : entry ∈ tidied entries) : entry.1 ≤ 1 := by
  cases entries with
  | nil => cases h
  | cons first rest =>
    rw [tidied, List.map_cons, unpad] at h
    rcases List.mem_cons.1 h with rfl | h
    · exact Nat.zero_le 1
    · obtain ⟨before, -, rfl⟩ := List.mem_map.1 h
      exact Nat.min_le_right _ _

theorem mem_spread (h : line ∈ spread entries) : line = [] ∨ line ∈ entries.map Prod.snd := by
  obtain ⟨entry, hentry, hline⟩ := List.mem_flatMap.1 h
  rcases List.mem_append.1 hline with hempty | hline
  · exact .inl (List.eq_of_mem_replicate hempty)
  · rw [List.mem_singleton.1 hline]
    exact .inr (List.mem_map_of_mem hentry)

theorem map_snd_layout (cs : List Char) : (tidied (spaced (trimmedLines cs))).map Prod.snd = inkedLines cs := by
  rw [map_snd_tidied, spaced, map_snd_spacedFrom, inkedLines]

theorem layout_ne (cs : List Char) : ∀ entry ∈ tidied (spaced (trimmedLines cs)), entry.2 ≠ [] := by
  intro entry hentry
  have hm : entry.2 ∈ inkedLines cs := map_snd_layout cs ▸ List.mem_map_of_mem hentry
  simpa using (List.mem_filter.1 hm).2

theorem spaced_tidyLines (cs : List Char) : spaced (tidyLines cs) = tidied (spaced (trimmedLines cs)) :=
  spaced_spread (layout_ne cs)

theorem mem_tidyLines (h : line ∈ tidyLines cs) : '\n' ∉ line ∧ ∀ c ∈ line.getLast?, isBlank c = false := by
  rcases mem_spread h with rfl | hm
  · exact ⟨List.not_mem_nil, fun _ h => by cases h⟩
  · rw [map_snd_layout] at hm
    obtain ⟨piece, hpiece, rfl⟩ := List.mem_map.1 (List.mem_filter.1 hm).1
    obtain ⟨tail, hsplit, -⟩ := dropEnd_append_of_all isBlank piece
    refine ⟨fun hline => not_mem_of_mem_splitOn hpiece ?_, getLast?_dropEnd isBlank piece⟩
    rw [hsplit]
    exact List.mem_append_left _ hline

theorem head?_tidyLines (cs : List Char) : (tidyLines cs).head? ≠ some [] := by
  have hne := layout_ne cs
  rw [tidyLines]
  cases hspaced : spaced (trimmedLines cs) with
  | nil => simp [tidied, unpad, spread]
  | cons entry rest =>
    rw [hspaced, tidied, List.map_cons, unpad] at hne
    rw [tidied, List.map_cons, unpad, spread, List.flatMap_cons]
    exact fun h => hne _ List.mem_cons_self (Option.some.inj h)

theorem getLast?_tidyLines (cs : List Char) : (tidyLines cs).getLast? ≠ some [] := by
  intro h
  rw [tidyLines, ← stripEmpty_squeeze] at h
  have hlast := getLast?_dropEnd List.isEmpty _ [] h
  cases hlast

theorem isChain_spread (h : ∀ entry ∈ entries, entry.1 ≤ 1 ∧ entry.2 ≠ []) :
    (spread entries).IsChain fun line next => line ≠ [] ∨ next ≠ [] := by
  induction entries with
  | nil => exact .nil
  | cons entry rest ih =>
    obtain ⟨⟨hle, hne⟩, hrest⟩ := List.forall_mem_cons.1 h
    have hline : (entry.2 :: spread rest).IsChain fun line next => line ≠ [] ∨ next ≠ [] :=
      List.isChain_cons.2 ⟨fun _ _ => .inl hne, ih hrest⟩
    rw [spread, List.flatMap_cons, ← spread, List.append_assoc, List.singleton_append]
    rcases Nat.le_one_iff_eq_zero_or_eq_one.1 hle with hzero | hone
    · rwa [hzero]
    · rw [hone]
      exact List.isChain_cons.2 ⟨fun next hnext => .inr (Option.some.inj hnext ▸ hne), hline⟩

theorem splitOn_tidyLines (cs : List Char) :
    splitOn '\n' (['\n'].intercalate (tidyLines cs)) = if tidyLines cs = [] then [[]] else tidyLines cs :=
  splitOn_joined fun _ h => (mem_tidyLines h).1

theorem spaced_splitOn_tidyLines (cs : List Char) :
    spaced (splitOn '\n' (['\n'].intercalate (tidyLines cs))) = tidied (spaced (trimmedLines cs)) := by
  rw [splitOn_tidyLines, ← spaced_tidyLines]
  split
  next hnil => rw [hnil]; rfl
  next => rfl

theorem getLast?_of_mem_splitOn (h : line ∈ splitOn '\n' (['\n'].intercalate (tidyLines cs))) :
    ∀ c ∈ line.getLast?, isBlank c = false := by
  rw [splitOn_tidyLines] at h
  split at h
  next =>
    rw [List.mem_singleton.1 h]
    exact fun _ h => by cases h
  next => exact (mem_tidyLines h).2

theorem tidyLines_tidyChars (cs : List Char) : tidyLines (tidyChars cs) = tidyLines cs := by
  have htrimmed : trimmedLines (tidyChars cs) = splitOn '\n' (['\n'].intercalate (tidyLines cs)) ++ [[]] := by
    rw [trimmedLines, tidyChars_eq, splitOn_append_cons, List.map_append]
    congr 1
    calc (splitOn '\n' (['\n'].intercalate (tidyLines cs))).map trimEnd
      _ = (splitOn '\n' (['\n'].intercalate (tidyLines cs))).map id :=
        List.map_congr_left fun line h => dropEnd_eq_self (getLast?_of_mem_splitOn h)
      _ = splitOn '\n' (['\n'].intercalate (tidyLines cs)) := List.map_id _
  rw [tidyLines, htrimmed, spaced, spacedFrom_concat_empty, ← spaced, spaced_splitOn_tidyLines, tidied_tidied,
    tidyLines]

theorem tidy_tidy (s : String) : tidy (tidy s) = tidy s := by
  rw [tidy, tidy, String.toList_ofList, tidyChars_eq, tidyLines_tidyChars, ← tidyChars_eq]

theorem head?_tidied (cs : List Char) : (['\n'].intercalate (tidyLines cs)).head? ≠ some '\n' := by
  intro h
  obtain ⟨rest, hbody⟩ := List.head?_eq_some_iff.1 h
  have hlines := splitOn_tidyLines cs
  rw [hbody, splitOn, if_pos rfl] at hlines
  split at hlines
  next => exact splitOn_ne_nil '\n' rest (List.cons.inj hlines).2
  next =>
    refine head?_tidyLines cs ?_
    rw [← hlines, List.head?_cons]

theorem getLast?_tidied (cs : List Char) : (['\n'].intercalate (tidyLines cs)).getLast? ≠ some '\n' := by
  intro h
  obtain ⟨front, hbody⟩ := List.getLast?_eq_some_iff.1 h
  have hlines := splitOn_tidyLines cs
  rw [hbody, splitOn_append_cons, splitOn] at hlines
  split at hlines
  next => exact splitOn_ne_nil '\n' front (List.append_left_eq_self.1 hlines)
  next =>
    refine getLast?_tidyLines cs ?_
    rw [← hlines, List.getLast?_concat]

theorem tidy_eq_newline_iff (s : String) : tidy s = "\n" ↔ inkedLines s.toList = [] := by
  rw [← map_snd_layout, List.map_eq_nil_iff, tidy, tidyChars_eq]
  constructor
  · intro h
    have hbody : ['\n'].intercalate (tidyLines s.toList) = [] := by
      have hchars := congrArg String.toList h
      rw [String.toList_ofList] at hchars
      exact List.append_left_eq_self.1 hchars
    rw [← spaced_splitOn_tidyLines, hbody]
    rfl
  · intro h
    rw [tidyLines, h]
    rfl

/-- A tidied text ends with one line feed, and no empty line is its first or its last. Its lines that are not empty
are those of the text that hold more than white space, without the white space at their ends and in the same order;
in front of each but the first is one empty line where the text has one or more, and none where it has none. It is a
line feed and no more exactly if the text is blank. So tidying again changes nothing, no line ends with white space,
and there are no two empty lines in a row. -/
theorem tidy_lines (s : String) : ∃ body : List Char,
    (tidy s).toList = body ++ ['\n'] ∧ body.head? ≠ some '\n' ∧ body.getLast? ≠ some '\n' ∧
    ((splitOn '\n' body).filter fun line => !line.isEmpty) = inkedLines s.toList ∧
    spaced (splitOn '\n' body) = tidied (spaced (trimmedLines s.toList)) ∧
    (tidy s = "\n" ↔ inkedLines s.toList = []) ∧
    tidy (tidy s) = tidy s ∧
    (∀ line ∈ splitOn '\n' body, ∀ c ∈ line.getLast?, isBlank c = false) ∧
    (splitOn '\n' body).IsChain fun line next => line ≠ [] ∨ next ≠ [] := by
  refine ⟨['\n'].intercalate (tidyLines s.toList), ?_, head?_tidied _, getLast?_tidied _, ?_,
    spaced_splitOn_tidyLines _, tidy_eq_newline_iff s, tidy_tidy s, fun line h => getLast?_of_mem_splitOn h, ?_⟩
  · rw [tidy, String.toList_ofList, tidyChars_eq]
  · rw [← map_snd_spacedFrom 0, ← spaced, spaced_splitOn_tidyLines, map_snd_layout]
  · rw [splitOn_tidyLines]
    split
    next => exact .singleton []
    next => exact isChain_spread fun entry h => ⟨le_one_of_mem_tidied h, layout_ne _ entry h⟩

example : tidy " \na \t\n\u2003\n\nb\nc" = "a\n\nb\nc\n" := by decide

end SchemaDecl.Text

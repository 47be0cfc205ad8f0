import SchemaDecl.Proofs.Text.Bare
import SchemaDecl.Text.Lines

/-!
# Nested brackets and blank lines

A text is neat if its brackets match, none of its lines is blank, and it has at least one line. Neat texts
that are joined by single line breaks, or set between brackets, with a margin or without, make neat texts
again. Where neat texts are joined by empty lines, those lines are where the joined text can be cut into them.
-/

namespace SchemaDecl.Text

/-- The bracket that closes the one that is opened. -/
def closer? (c : Char) : Option Char :=
  if c = '(' then some ')'
  else if c = '\x7b' then some '\x7d'
  else if c = '[' then some ']'
  else if c = '<' then some '>'
  else none

/-- The brackets that remain to be closed after a character, the innermost first; a closing bracket closes
the innermost one. -/
def nest (pending : List Char) (c : Char) : Option (List Char) :=
  match closer? c with
  | some closer => some (closer :: pending)
  | none =>
    if TypeExpr.isClosing c then if pending.head? = some c then some pending.tail else none
    else some pending

/-- Every bracket is closed by one of its kind, after all that are opened within, and no other is closed. -/
def Balanced (cs : List Char) : Prop := cs.foldlM nest [] = some []

instance (cs : List Char) : Decidable (Balanced cs) := inferInstanceAs (Decidable (_ = _))

/-- Every line holds more than white space. -/
def NoBlankLine (cs : List Char) : Prop := ∀ line ∈ splitOn '\n' cs, line.all isBlank = false

instance (cs : List Char) : Decidable (NoBlankLine cs) := inferInstanceAs (Decidable (∀ line ∈ _, _))

/-- The pieces of a text between pairs of line feeds, which are looked for from the start. -/
def chunks : List Char → List (List Char)
  | [] => [[]]
  | '\n' :: '\n' :: rest => [] :: chunks rest
  | c :: rest =>
    match chunks rest with
    | [] => [[c]]
    | chunk :: more => (c :: chunk) :: more

/-- How far the reading of a text has come: the brackets that remain to be closed, and whether the line so
far is blank. -/
structure Reading where
  pending : List Char
  blank : Bool
  deriving DecidableEq

namespace Reading

/-- Reads one more character. A blank line must not end. -/
def next (r : Reading) (c : Char) : Option Reading :=
  if c = '\n' then if r.blank then none else some { r with blank := true }
  else if isBlank c then some r
  else (nest r.pending c).map (⟨·, false⟩)

def read (r : Reading) (cs : List Char) : Option Reading := cs.foldlM next r

variable {r r' : Reading} {c closer : Char} {a b cs : List Char} {pending pending' : List Char} {blank : Bool}

theorem read_nil (r : Reading) : r.read [] = some r := rfl

theorem read_cons (r : Reading) (c : Char) (cs : List Char) :
    r.read (c :: cs) = (r.next c).bind fun r' => r'.read cs := List.foldlM_cons

theorem read_append (r : Reading) (a b : List Char) :
    r.read (a ++ b) = (r.read a).bind fun r' => r'.read b := List.foldlM_append

theorem read_cons_of_next (h : r.next c = some r') (cs : List Char) : r.read (c :: cs) = r'.read cs := by
  rw [read_cons, h, Option.bind_some]

theorem read_append_of_read (h : r.read a = some r') (b : List Char) : r.read (a ++ b) = r'.read b := by
  rw [read_append, h, Option.bind_some]

theorem next_newline (pending : List Char) : next ⟨pending, false⟩ '\n' = some ⟨pending, true⟩ := rfl

theorem next_blank (hc : isBlank c = true) (hne : c ≠ '\n') : r.next c = some r := by
  rw [next, if_neg hne, if_pos hc]

theorem next_ink (hc : isBlank c = false) : r.next c = (nest r.pending c).map (⟨·, false⟩) := by
  have hne : c ≠ '\n' := by
    rintro rfl
    cases hc
  rw [next, if_neg hne, if_neg (by simp [hc])]

theorem ink_of_closer (h : closer? c = some closer) : isBlank c = false ∧ isBlank closer = false := by
  unfold closer? at h
  split at h
  next hc => subst hc; cases h; decide
  split at h
  next hc => subst hc; cases h; decide
  split at h
  next hc => subst hc; cases h; decide
  split at h
  next hc => subst hc; cases h; decide
  cases h

theorem next_open (h : closer? c = some closer) (pending : List Char) (blank : Bool) :
    next ⟨pending, blank⟩ c = some ⟨closer :: pending, false⟩ := by
  rw [next_ink (ink_of_closer h).1, nest, h]
  rfl

theorem nest_close (h : closer? c = some closer) (pending : List Char) :
    nest (closer :: pending) closer = some pending := by
  have hclosing : closer? closer = none ∧ TypeExpr.isClosing closer = true := by
    unfold closer? at h
    split at h
    next => cases h; decide
    split at h
    next => cases h; decide
    split at h
    next => cases h; decide
    split at h
    next => cases h; decide
    cases h
  rw [nest, hclosing.1]
  simp [hclosing.2]

theorem next_close (h : closer? c = some closer) (pending : List Char) (blank : Bool) :
    next ⟨closer :: pending, blank⟩ closer = some ⟨pending, false⟩ := by
  rw [next_ink (ink_of_closer h).2, nest_close h]
  rfl

theorem closer?_eq_none (h : TypeExpr.isOpening c = false) : closer? c = none := by
  simp only [TypeExpr.isOpening, Bool.or_eq_false_iff, decide_eq_false_iff_not] at h
  obtain ⟨⟨⟨hround, hcurly⟩, hsquare⟩, hangle⟩ := h
  rw [closer?, if_neg hround, if_neg hcurly, if_neg hsquare, if_neg hangle]

theorem nest_bare (h : isBare c = true) (pending : List Char) : nest pending c = some pending := by
  simp only [isBare, Bool.and_eq_true, Bool.not_eq_true'] at h
  rw [nest, closer?_eq_none h.1.2]
  simp [h.2]

theorem next_bare (h : isBare c = true) :
    next ⟨pending, blank⟩ c = some ⟨pending, blank && isBlank c⟩ := by
  cases hc : isBlank c with
  | true =>
    have hne : c ≠ '\n' := by
      rintro rfl
      exact absurd h (by decide)
    rw [next_blank hc hne, Bool.and_true]
  | false => rw [next_ink hc, nest_bare h, Bool.and_false, Option.map_some]

theorem read_bare (h : AllBare cs) :
    read ⟨pending, blank⟩ cs = some ⟨pending, blank && cs.all isBlank⟩ := by
  induction cs generalizing blank with
  | nil => rw [read_nil, List.all_nil, Bool.and_true]
  | cons c rest ih =>
    obtain ⟨hc, hrest⟩ := List.forall_mem_cons.1 h
    rw [read_cons_of_next (next_bare hc), ih hrest, List.all_cons, Bool.and_assoc]

theorem read_margin {margin : List Char} (h : ∀ c ∈ margin, isBlank c = true ∧ c ≠ '\n') (r : Reading) :
    r.read margin = some r := by
  induction margin with
  | nil => rfl
  | cons c rest ih =>
    obtain ⟨hc, hrest⟩ := List.forall_mem_cons.1 h
    rw [read_cons_of_next (next_blank hc.1 hc.2), ih hrest]

theorem nest_frame (h : nest pending c = some pending') (outer : List Char) :
    nest (pending ++ outer) c = some (pending' ++ outer) := by
  unfold nest at h ⊢
  cases hc : closer? c with
  | some closer =>
    rw [hc] at h
    cases h
    rfl
  | none =>
    rw [hc] at h
    dsimp only at h ⊢
    split at h
    next hclosing =>
      rw [if_pos hclosing]
      split at h
      next hhead =>
        cases h
        cases pending with
        | nil => cases hhead
        | cons closer rest =>
          rw [List.head?_cons] at hhead
          rw [List.cons_append, List.head?_cons, if_pos hhead]
          rfl
      next => cases h
    next hclosing =>
      cases h
      rw [if_neg hclosing]

theorem next_frame (h : r.next c = some r') (outer : List Char) :
    next ⟨r.pending ++ outer, r.blank⟩ c = some ⟨r'.pending ++ outer, r'.blank⟩ := by
  unfold next at h ⊢
  split at h
  next hc =>
    rw [if_pos hc]
    split at h
    next => cases h
    next hb =>
      cases h
      rw [if_neg hb]
  next hc =>
    rw [if_neg hc]
    split at h
    next hblank =>
      cases h
      rw [if_pos hblank]
    next hblank =>
      obtain ⟨pending, hnest, rfl⟩ := Option.map_eq_some_iff.1 h
      rw [if_neg hblank, nest_frame hnest]
      rfl

/-- Brackets that were opened before make no difference. -/
theorem read_frame (h : r.read cs = some r') (outer : List Char) :
    read ⟨r.pending ++ outer, r.blank⟩ cs = some ⟨r'.pending ++ outer, r'.blank⟩ := by
  induction cs generalizing r with
  | nil =>
    cases h
    rfl
  | cons c rest ih =>
    rw [read_cons] at h
    obtain ⟨mid, hnext, hrest⟩ := Option.bind_eq_some_iff.1 h
    rw [read_cons_of_next (next_frame hnext outer)]
    exact ih hrest

/-- What can be read where a line begins can be read within one. -/
theorem read_within (h : read ⟨pending, true⟩ cs = some ⟨pending', false⟩) :
    read ⟨pending, false⟩ cs = some ⟨pending', false⟩ := by
  induction cs with
  | nil => cases h
  | cons c rest ih =>
    rw [read_cons] at h
    obtain ⟨mid, hnext, hrest⟩ := Option.bind_eq_some_iff.1 h
    have hne : c ≠ '\n' := by
      rintro rfl
      cases hnext
    cases hc : isBlank c with
    | true =>
      rw [next_blank hc hne] at hnext
      cases hnext
      rw [read_cons_of_next (next_blank hc hne)]
      exact ih hrest
    | false =>
      rw [next_ink hc] at hnext
      have hnext' : next ⟨pending, false⟩ c = some mid := (next_ink hc).trans hnext
      rw [read_cons_of_next hnext']
      exact hrest

end Reading

open Reading (read)

/-- The text has a line, its brackets match, and none of its lines is blank. -/
def Neat (cs : List Char) : Prop := read ⟨[], true⟩ cs = some ⟨[], false⟩

/-- The text fits where a line has begun: its brackets match, and it neither ends in a blank line nor has one
after its first. -/
def Inner (cs : List Char) : Prop := read ⟨[], false⟩ cs = some ⟨[], false⟩

instance (cs : List Char) : Decidable (Neat cs) := inferInstanceAs (Decidable (_ = _))
instance (cs : List Char) : Decidable (Inner cs) := inferInstanceAs (Decidable (_ = _))

variable {a b cs : List Char} {c closer : Char}

theorem Inner.read (h : Inner cs) (pending : List Char) : read ⟨pending, false⟩ cs = some ⟨pending, false⟩ :=
  Reading.read_frame h pending

theorem Neat.read (h : Neat cs) (pending : List Char) (blank : Bool) :
    read ⟨pending, blank⟩ cs = some ⟨pending, false⟩ := by
  have hline : Reading.read ⟨pending, true⟩ cs = some ⟨pending, false⟩ := Reading.read_frame h pending
  cases blank with
  | true => exact hline
  | false => exact Reading.read_within hline

theorem Neat.inner (h : Neat cs) : Inner cs := h.read [] false

theorem Inner.nil : Inner [] := rfl

theorem Inner.append (ha : Inner a) (hb : Inner b) : Inner (a ++ b) := by
  rw [Inner, Reading.read_append_of_read ha]
  exact hb

theorem Neat.append (ha : Neat a) (hb : Inner b) : Neat (a ++ b) := by
  rw [Neat, Reading.read_append_of_read ha]
  exact hb

theorem Inner.of_bare (h : AllBare cs) : Inner cs := Reading.read_bare h

theorem Neat.of_bare (h : AllBare cs) (hm : c ∈ cs) (hc : isBlank c = false) : Neat cs := by
  have hink : cs.all isBlank = false := List.all_eq_false.2 ⟨c, hm, by simp [hc]⟩
  rw [Neat, Reading.read_bare h, hink]
  rfl

theorem Inner.bracketed (hc : closer? c = some closer) (h : Inner cs) : Neat (c :: (cs ++ [closer])) := by
  rw [Neat, Reading.read_cons_of_next (Reading.next_open hc _ _), Reading.read_append_of_read (h.read _),
    Reading.read_cons_of_next (Reading.next_close hc _ _)]
  rfl

theorem Neat.line (ha : Neat a) (hb : Neat b) : Neat (a ++ '\n' :: b) := by
  rw [Neat, Reading.read_append_of_read ha, Reading.read_cons_of_next (Reading.next_newline _)]
  exact hb

theorem Neat.lines {texts : List String} (hne : texts ≠ []) (h : ∀ s ∈ texts, Neat s.toList) :
    Neat ("\n".intercalate texts).toList := by
  induction texts with
  | nil => exact absurd rfl hne
  | cons s rest ih =>
    obtain ⟨hs, hrest⟩ := List.forall_mem_cons.1 h
    cases rest with
    | nil => rwa [String.intercalate_singleton]
    | cons next rest =>
      rw [String.intercalate_cons_cons, String.toList_append, String.toList_append, List.append_assoc]
      exact hs.line (ih (by simp) hrest)

/-- Texts with a text between any two. -/
theorem Inner.joined {sep : String} {texts : List String} (hsep : Inner sep.toList)
    (h : ∀ s ∈ texts, Inner s.toList) : Inner (sep.intercalate texts).toList :=
  intercalate_closed (P := Inner) .nil Inner.append hsep h

theorem Neat.block (hc : closer? c = some closer) (h : Neat cs) : Neat (c :: '\n' :: (cs ++ ['\n', closer])) := by
  rw [Neat, Reading.read_cons_of_next (Reading.next_open hc _ _), Reading.read_cons_of_next (Reading.next_newline _),
    Reading.read_append_of_read (h.read _ _), Reading.read_cons_of_next (Reading.next_newline _),
    Reading.read_cons_of_next (Reading.next_close hc _ _)]
  rfl

/-- Indentation goes unnoticed where a margin does. -/
theorem foldlM_indentChars {σ : Type} {f : σ → Char → Option σ} {margin : List Char}
    (hm : ∀ state, margin.foldlM f state = some state) (state : σ) (cs : List Char) :
    (indentChars margin cs).foldlM f state = cs.foldlM f state := by
  have hlines : ∀ (lines : List (List Char)) (state : σ),
      (lines.flatMap fun line => if line.all isBlank then line else margin ++ line).foldlM f state =
        lines.flatten.foldlM f state := by
    intro lines
    induction lines with
    | nil => exact fun state => rfl
    | cons line rest ih =>
      intro state
      have hline : (if line.all isBlank then line else margin ++ line).foldlM f state = line.foldlM f state := by
        split
        · rfl
        · rw [List.foldlM_append, hm]
          rfl
      rw [List.flatMap_cons, List.flatten_cons, List.foldlM_append, List.foldlM_append, hline]
      exact congrArg _ (funext ih)
  rw [indentChars, hlines, flatten_splitLines]

/-- Indentation leaves a text as neat as it was. -/
theorem read_indentChars {margin : List Char} (hm : ∀ c ∈ margin, isBlank c = true ∧ c ≠ '\n') (r : Reading)
    (cs : List Char) : r.read (indentChars margin cs) = r.read cs :=
  foldlM_indentChars (Reading.read_margin hm) r cs

theorem Neat.indent {margin s : String} (hm : ∀ c ∈ margin.toList, isBlank c = true ∧ c ≠ '\n')
    (h : Neat s.toList) : Neat (indent margin s).toList := by
  rw [Text.indent, String.toList_ofList, Neat, read_indentChars hm]
  exact h

theorem nest_blank (h : isBlank c = true) (pending : List Char) : nest pending c = some pending := by
  have hopening : TypeExpr.isOpening c = false := by
    refine Bool.eq_false_iff.2 fun ho => ?_
    simp only [TypeExpr.isOpening, Bool.or_eq_true, decide_eq_true_eq] at ho
    rcases ho with ((rfl | rfl) | rfl) | rfl <;> exact absurd h (by decide)
  have hclosing : TypeExpr.isClosing c = false := by
    refine Bool.eq_false_iff.2 fun ho => ?_
    simp only [TypeExpr.isClosing, Bool.or_eq_true, decide_eq_true_eq] at ho
    rcases ho with ((rfl | rfl) | rfl) | rfl <;> exact absurd h (by decide)
  rw [nest, Reading.closer?_eq_none hopening]
  simp [hclosing]

theorem nest_of_next {r r' : Reading} (h : r.next c = some r') : nest r.pending c = some r'.pending := by
  unfold Reading.next at h
  split at h
  next hc =>
    split at h
    · cases h
    · cases h
      rw [hc]
      rfl
  split at h
  next hc =>
    cases h
    exact nest_blank hc _
  next =>
    obtain ⟨pending, hnest, rfl⟩ := Option.map_eq_some_iff.1 h
    exact hnest

theorem nest_of_read {r r' : Reading} (h : r.read cs = some r') : cs.foldlM nest r.pending = some r'.pending := by
  induction cs generalizing r with
  | nil =>
    cases h
    rfl
  | cons c rest ih =>
    rw [Reading.read_cons] at h
    obtain ⟨mid, hnext, hrest⟩ := Option.bind_eq_some_iff.1 h
    rw [List.foldlM_cons, nest_of_next hnext]
    exact ih hrest

theorem Inner.balanced (h : Inner cs) : Balanced cs := nest_of_read h

theorem Neat.balanced (h : Neat cs) : Balanced cs := nest_of_read h

/-- In a text that is read through, no line is blank, but for the rest of the one that it begins in. -/
theorem lines_of_read {r : Reading} {pending : List Char} (h : r.read cs = some ⟨pending, false⟩) :
    ∃ line lines, splitOn '\n' cs = line :: lines ∧ (r.blank = true → line.all isBlank = false) ∧
      ∀ line ∈ lines, line.all isBlank = false := by
  induction cs generalizing r with
  | nil =>
    cases h
    exact ⟨[], [], rfl, by simp, by simp⟩
  | cons c rest ih =>
    rw [Reading.read_cons] at h
    obtain ⟨mid, hnext, hrest⟩ := Option.bind_eq_some_iff.1 h
    obtain ⟨line, lines, hsplit, hline, hlines⟩ := ih hrest
    rw [splitOn, hsplit]
    unfold Reading.next at hnext
    split at hnext
    next hc =>
      rw [if_pos hc]
      split at hnext
      next => cases hnext
      next hb =>
        cases hnext
        exact ⟨[], line :: lines, rfl, fun h => absurd h hb, List.forall_mem_cons.2 ⟨hline rfl, hlines⟩⟩
    next hc =>
      rw [if_neg hc]
      refine ⟨c :: line, lines, rfl, fun hb => ?_, hlines⟩
      rw [List.all_cons]
      split at hnext
      next =>
        cases hnext
        rw [hline hb, Bool.and_false]
      next hblank => rw [Bool.eq_false_iff.2 hblank, Bool.false_and]

theorem Neat.noBlankLine (h : Neat cs) : NoBlankLine cs := by
  obtain ⟨line, lines, hsplit, hline, hlines⟩ := lines_of_read h
  rw [NoBlankLine, hsplit]
  exact List.forall_mem_cons.2 ⟨hline rfl, hlines⟩

theorem nest_frameOver {pending pending' : List Char} (h : cs.foldlM nest pending = some pending')
    (outer : List Char) : cs.foldlM nest (pending ++ outer) = some (pending' ++ outer) := by
  induction cs generalizing pending with
  | nil =>
    cases h
    rfl
  | cons c rest ih =>
    rw [List.foldlM_cons] at h
    obtain ⟨mid, hc, hrest⟩ := Option.bind_eq_some_iff.1 h
    rw [List.foldlM_cons, Reading.nest_frame hc]
    exact ih hrest

theorem Balanced.append (ha : Balanced a) (hb : Balanced b) : Balanced (a ++ b) := by
  rw [Balanced, List.foldlM_append, ha]
  exact hb

theorem Balanced.bracketed (hc : closer? c = some closer) (h : Balanced cs) : Balanced (c :: (cs ++ [closer])) := by
  have hopen : nest [] c = some [closer] := by rw [nest, hc]
  have hbody : cs.foldlM nest [closer] = some [closer] := nest_frameOver h [closer]
  have hclose : [closer].foldlM nest [closer] = some [] := by
    rw [List.foldlM_cons, Reading.nest_close hc]
    rfl
  calc (c :: (cs ++ [closer])).foldlM nest []
      = (cs ++ [closer]).foldlM nest [closer] := by rw [List.foldlM_cons, hopen]; rfl
    _ = [closer].foldlM nest [closer] := by rw [List.foldlM_append, hbody]; rfl
    _ = some [] := hclose

theorem Balanced.joined {sep : String} {texts : List String} (hsep : Balanced sep.toList)
    (h : ∀ s ∈ texts, Balanced s.toList) : Balanced (sep.intercalate texts).toList :=
  intercalate_closed (P := Balanced) rfl Balanced.append hsep h

theorem Balanced.of_unbracketed (h : ∀ c ∈ cs, isBracket c = false) : Balanced cs := by
  induction cs with
  | nil => rfl
  | cons c rest ih =>
    obtain ⟨hc, hrest⟩ := List.forall_mem_cons.1 h
    rw [isBracket, Bool.or_eq_false_iff] at hc
    have hnest : nest [] c = some [] := by
      rw [nest, Reading.closer?_eq_none hc.1]
      simp [hc.2]
    rw [Balanced, List.foldlM_cons, hnest]
    exact ih hrest

theorem Balanced.indent {margin s : String} (hm : ∀ c ∈ margin.toList, isBlank c = true) (h : Balanced s.toList) :
    Balanced (indent margin s).toList := by
  have hmargin : ∀ {margin : List Char}, (∀ c ∈ margin, isBlank c = true) →
      ∀ pending, margin.foldlM nest pending = some pending := by
    intro margin hm pending
    induction margin with
    | nil => rfl
    | cons c rest ih =>
      obtain ⟨hc, hrest⟩ := List.forall_mem_cons.1 hm
      rw [List.foldlM_cons, nest_blank hc]
      exact ih hrest
  rw [Text.indent, String.toList_ofList, Balanced, foldlM_indentChars (hmargin hm)]
  exact h

theorem chunks_cons (h : ∀ rest, c = '\n' → cs = '\n' :: rest → False) : chunks (c :: cs) =
    match chunks cs with
    | [] => [[c]]
    | chunk :: more => (c :: chunk) :: more := chunks.eq_3 c cs h

/-- A text that is read through is cut off at the first empty line after it. -/
theorem chunks_of_read {r : Reading} {pending : List Char} (h : r.read cs = some ⟨pending, false⟩) :
    chunks cs = [cs] ∧ ∀ rest, chunks (cs ++ '\n' :: '\n' :: rest) = cs :: chunks rest := by
  induction cs generalizing r with
  | nil => exact ⟨rfl, fun rest => by rw [List.nil_append, chunks]⟩
  | cons c tail ih =>
    rw [Reading.read_cons] at h
    obtain ⟨mid, hnext, hrest⟩ := Option.bind_eq_some_iff.1 h
    obtain ⟨hone, hmore⟩ := ih hrest
    -- After a line feed there is another character, and that is no line feed.
    have hpair : c = '\n' → tail ≠ [] ∧ tail.head? ≠ some '\n' := by
      rintro rfl
      have hmid : mid.blank = true := by
        unfold Reading.next at hnext
        rw [if_pos rfl] at hnext
        split at hnext <;> cases hnext
        rfl
      cases tail with
      | nil =>
        rw [Reading.read_nil, Option.some.injEq] at hrest
        rw [hrest] at hmid
        cases hmid
      | cons d tail =>
        refine ⟨by simp, ?_⟩
        rw [List.head?_cons, ne_eq, Option.some.injEq]
        rintro rfl
        rw [Reading.read_cons, Reading.next, if_pos rfl, if_pos hmid] at hrest
        cases hrest
    constructor
    · rw [chunks_cons, hone]
      rintro rest hc rfl
      exact (hpair hc).2 rfl
    · intro rest
      rw [List.cons_append, chunks_cons, hmore]
      intro after hc hcs
      obtain ⟨hne, hhead⟩ := hpair hc
      cases tail with
      | nil => exact hne rfl
      | cons d tail => exact hhead (congrArg some (List.cons.inj hcs).1)

theorem chunks_join {texts : List String} (hne : texts ≠ []) (h : ∀ s ∈ texts, Neat s.toList) :
    chunks ("\n\n".intercalate texts).toList = texts.map String.toList := by
  induction texts with
  | nil => exact absurd rfl hne
  | cons s rest ih =>
    obtain ⟨hs, hrest⟩ := List.forall_mem_cons.1 h
    cases rest with
    | nil =>
      rw [String.intercalate_singleton]
      exact (chunks_of_read hs).1
    | cons next rest =>
      rw [String.intercalate_cons_cons, String.toList_append, String.toList_append, List.append_assoc,
        List.map_cons, ← ih (by simp) hrest]
      exact (chunks_of_read hs).2 _

end SchemaDecl.Text

import SchemaDecl.Proofs.Text.Nesting

/-!
# Bars and brackets

The search for a bar outside brackets counts brackets of every kind alike. Where the brackets of a text match,
it finds the bars that stand outside all of them, and no others. A text is sealed if its brackets match and
each of its bars stands within one.
-/

namespace SchemaDecl.TypeExpr

open Text (Balanced nest closer?)

variable {a b cs front : List Char} {c closer : Char} {pending pending' : List Char} {depth : Int}

theorem isClosing_of_isOpening (h : isOpening c = true) : isClosing c = false := by
  simp only [isOpening, Bool.or_eq_true, decide_eq_true_eq] at h
  rcases h with ((rfl | rfl) | rfl) | rfl <;> rfl

/-- Opening brackets count up and closing ones down, wherever they stand. -/
theorem foldl_depthAfter (depth : Int) (cs : List Char) :
    cs.foldl depthAfter depth = depth + cs.countP isOpening - cs.countP isClosing := by
  induction cs generalizing depth with
  | nil => simp
  | cons c cs ih =>
    rw [List.foldl_cons, ih, depthAfter, List.countP_cons, List.countP_cons]
    cases ho : isOpening c with
    | true => simp [isClosing_of_isOpening ho]; omega
    | false => cases isClosing c <;> simp; omega

theorem isOpening_of_closer? (h : closer? c = some closer) : isOpening c = true := by
  cases hc : isOpening c with
  | true => rfl
  | false =>
    rw [Text.Reading.closer?_eq_none hc] at h
    cases h

theorem isOpening_eq_false (h : closer? c = none) : isOpening c = false := by
  refine Bool.eq_false_iff.2 fun hc => ?_
  simp only [isOpening, Bool.or_eq_true, decide_eq_true_eq] at hc
  rcases hc with ((rfl | rfl) | rfl) | rfl <;> cases h

theorem depthAfter_of_nest (h : nest pending c = some pending') (depth : Int) :
    depthAfter depth c = depth + pending'.length - pending.length := by
  unfold nest at h
  cases hc : closer? c with
  | some closer =>
    rw [hc] at h
    cases h
    rw [depthAfter, if_pos (isOpening_of_closer? hc), List.length_cons]
    omega
  | none =>
    rw [hc] at h
    dsimp only at h
    rw [depthAfter, if_neg (by simp [isOpening_eq_false hc])]
    split at h
    next hclosing =>
      split at h
      next hhead =>
        cases h
        cases pending with
        | nil => cases hhead
        | cons closer rest =>
          rw [if_pos hclosing, List.tail_cons, List.length_cons]
          omega
      next => cases h
    next hclosing =>
      cases h
      rw [if_neg hclosing]
      omega

theorem foldl_of_nest (h : cs.foldlM nest pending = some pending') (depth : Int) :
    cs.foldl depthAfter depth = depth + pending'.length - pending.length := by
  induction cs generalizing pending depth with
  | nil =>
    cases h
    rw [List.foldl_nil]
    omega
  | cons c rest ih =>
    rw [List.foldlM_cons] at h
    obtain ⟨mid, hc, hrest⟩ := Option.bind_eq_some_iff.1 h
    rw [List.foldl_cons, ih hrest, depthAfter_of_nest hc]
    omega

theorem barFrom_append (depth : Int) (a b : List Char) :
    barFrom depth (a ++ b) = (barFrom depth a || barFrom (a.foldl depthAfter depth) b) := by
  induction a generalizing depth with
  | nil => rfl
  | cons c rest ih =>
    rw [List.cons_append, barFrom, barFrom, ih, List.foldl_cons, Bool.or_assoc]

theorem barFrom_eq_true_iff :
    barFrom depth cs = true ↔ ∃ front rear, cs = front ++ '|' :: rear ∧ front.foldl depthAfter depth = 0 := by
  induction cs generalizing depth with
  | nil => simp [barFrom]
  | cons c rest ih =>
    rw [barFrom, Bool.or_eq_true, Bool.and_eq_true, decide_eq_true_eq, decide_eq_true_eq, ih]
    constructor
    · rintro (⟨rfl, rfl⟩ | ⟨front, rear, rfl, hdepth⟩)
      · exact ⟨[], rest, rfl, rfl⟩
      · exact ⟨c :: front, rear, rfl, hdepth⟩
    · rintro ⟨front, rear, heq, hdepth⟩
      cases front with
      | nil =>
        obtain ⟨rfl, rfl⟩ := List.cons.inj heq
        exact .inl ⟨rfl, hdepth⟩
      | cons d front =>
        obtain ⟨rfl, rfl⟩ := List.cons.inj heq
        exact .inr ⟨front, rear, rfl, hdepth⟩

theorem barFrom_of_not_mem (h : '|' ∉ cs) (depth : Int) : barFrom depth cs = false := by
  refine Bool.eq_false_iff.2 fun hbar => ?_
  obtain ⟨front, rear, rfl, -⟩ := barFrom_eq_true_iff.1 hbar
  exact h (by simp)

theorem foldl_of_balanced (h : Balanced cs) (depth : Int) : cs.foldl depthAfter depth = depth := by
  rw [foldl_of_nest h, List.length_nil]
  omega

/-- Before any part of a text whose brackets match, the depth is the number of brackets left open. -/
theorem foldl_front (h : Balanced (front ++ cs)) :
    0 ≤ front.foldl depthAfter 0 ∧ (front.foldl depthAfter 0 = 0 ↔ Balanced front) := by
  rw [Text.Balanced, List.foldlM_append] at h
  obtain ⟨pending, hfront, -⟩ := Option.bind_eq_some_iff.1 h
  rw [foldl_of_nest hfront, Text.Balanced, hfront]
  cases pending with
  | nil => simp
  | cons closer rest =>
    rw [List.length_cons, List.length_nil]
    exact ⟨by omega, ⟨fun hdepth => by omega, fun hpending => by cases hpending⟩⟩

/-- In a text whose brackets match, the search finds the bars outside all brackets. -/
theorem barFrom_iff_of_balanced (h : Balanced cs) :
    barFrom 0 cs = true ↔ ∃ front rear, cs = front ++ '|' :: rear ∧ Balanced front := by
  rw [barFrom_eq_true_iff]
  refine exists_congr fun front => exists_congr fun rear => and_congr_right ?_
  rintro rfl
  exact (foldl_front h).2

/-- Within a bracket that stays open there is nothing to find. -/
theorem barFrom_within (h : Balanced cs) : barFrom 1 cs = false := by
  refine Bool.eq_false_iff.2 fun hbar => ?_
  obtain ⟨front, rear, rfl, hdepth⟩ := barFrom_eq_true_iff.1 hbar
  have hfront := (foldl_front h).1
  rw [foldl_depthAfter] at hdepth hfront
  omega

/-- The brackets of the text match, and each of its bars stands within one. -/
structure Sealed (cs : List Char) : Prop where
  balanced : Balanced cs
  barless : barFrom 0 cs = false

instance (cs : List Char) : Decidable (Sealed cs) :=
  decidable_of_iff (Balanced cs ∧ barFrom 0 cs = false) ⟨fun h => ⟨h.1, h.2⟩, fun h => ⟨h.balanced, h.barless⟩⟩

theorem Sealed.barFrom_append (ha : Sealed a) (b : List Char) : barFrom 0 (a ++ b) = barFrom 0 b := by
  rw [TypeExpr.barFrom_append, ha.barless, foldl_of_balanced ha.balanced, Bool.false_or]

theorem Sealed.append (ha : Sealed a) (hb : Sealed b) : Sealed (a ++ b) :=
  ⟨ha.balanced.append hb.balanced, (ha.barFrom_append b).trans hb.barless⟩

/-- Whatever stands between brackets, if its own brackets match. -/
theorem Sealed.bracketed (hc : closer? c = some closer) (h : Balanced cs) : Sealed (c :: (cs ++ [closer])) := by
  refine ⟨h.bracketed hc, ?_⟩
  have hopening := isOpening_of_closer? hc
  have hne : c ≠ '|' := by
    rintro rfl
    cases hopening
  have hclose : closer ≠ '|' := by
    rintro rfl
    have hnest := Text.Reading.nest_close hc []
    cases hnest
  have hafter : depthAfter 0 c = 1 := by
    rw [depthAfter, if_pos hopening]
    rfl
  rw [barFrom, hafter, TypeExpr.barFrom_append, barFrom_within h,
    foldl_of_balanced h, barFrom]
  simp [hne, hclose, barFrom]

end SchemaDecl.TypeExpr

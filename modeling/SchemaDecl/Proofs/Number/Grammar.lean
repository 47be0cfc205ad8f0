import Mathlib.Data.List.TakeWhile
import SchemaDecl.Number.Numeral

/-!
# The grammar of numerals

A finite numeral consists of a sign, digits of any script, a point with more digits, and an exponent. Number
literals are written in fewer ways. The parts of a numeral can be told from its text, so that a numeral is a
number literal exactly if its parts are those of one.
-/

namespace SchemaDecl

namespace Text

variable {p : Char → Bool} {cs mid tail : List Char} {n v : Nat} {rs : Ranges}

theorem Ranges.exists_of_mem (h : Ranges.mem n rs = true) : ∃ r ∈ rs, r.1 ≤ n ∧ n ≤ r.2 := by
  induction rs with
  | nil => cases h
  | cons r rest ih =>
    rw [Ranges.mem] at h
    split at h
    next => cases h
    next hlow =>
      rw [Bool.or_eq_true, decide_eq_true_eq] at h
      rcases h with hhigh | hrest
      · exact ⟨r, List.mem_cons_self, Nat.not_lt.1 hlow, hhigh⟩
      · obtain ⟨r', hm, hr'⟩ := ih hrest
        exact ⟨r', List.mem_cons_of_mem _ hm, hr'⟩

theorem exists_of_decimalIn (h : decimalIn n rs = some v) : ∃ r ∈ rs, r.1 ≤ n ∧ n ≤ r.2 := by
  induction rs with
  | nil => cases h
  | cons r rest ih =>
    rw [decimalIn] at h
    split at h
    next => cases h
    next hlow =>
      split at h
      next hhigh => exact ⟨r, List.mem_cons_self, Nat.not_lt.1 hlow, hhigh⟩
      next =>
        obtain ⟨r', hm, hr'⟩ := ih h
        exact ⟨r', List.mem_cons_of_mem _ hm, hr'⟩

theorem dropEnd_append (hm : ∀ c ∈ mid, p c = false) (ht : ∀ c ∈ tail, p c = true) : dropEnd p (mid ++ tail) = mid := by
  induction mid with
  | nil => exact dropEnd_of_all ht
  | cons c rest ih =>
    obtain ⟨hc, hrest⟩ := List.forall_mem_cons.1 hm
    rw [List.cons_append, dropEnd_cons, ih hrest, hc]
    split
    next hnil => rw [hnil, if_neg Bool.false_ne_true]
    next => rfl

/-- Where less counts as white space, no more is removed from the ends if no white space is left. -/
theorem trim_eq (hp : ∀ c, p c = true → isBlank c = true)
    (h : ∀ c ∈ dropEnd p (cs.dropWhile p), isBlank c = false) : trim cs = dropEnd p (cs.dropWhile p) := by
  obtain ⟨tail, hsplit, htail⟩ := dropEnd_append_of_all p (cs.dropWhile p)
  generalize dropEnd p (cs.dropWhile p) = mid at h hsplit
  have htail : ∀ c ∈ tail, isBlank c = true := fun c hc => hp c (htail c hc)
  have hfront : ∀ c ∈ cs.takeWhile p, isBlank c = true := fun c hc => hp c (List.all_eq_true.1 List.all_takeWhile c hc)
  have hdrop : cs.dropWhile isBlank = (mid ++ tail).dropWhile isBlank := calc
    cs.dropWhile isBlank = (cs.takeWhile p ++ cs.dropWhile p).dropWhile isBlank := by
      rw [List.takeWhile_append_dropWhile]
    _ = (mid ++ tail).dropWhile isBlank := by rw [List.dropWhile_append_of_pos hfront, hsplit]
  rw [trim, trimEnd, hdrop]
  cases mid with
  | nil => rw [List.nil_append, List.dropWhile_eq_nil_iff.2 htail, dropEnd_nil]
  | cons c rest =>
    rw [List.cons_append, List.dropWhile_cons_of_neg (by simp [(List.forall_mem_cons.1 h).1]), ← List.cons_append]
    exact dropEnd_append h htail

end Text

namespace Numeral

/-- A decimal digit of any script. -/
def isFigure (c : Char) : Bool := (asciiForm c).isDigit

/-- Digits with single underscores between them. -/
inductive Grouped (digit : Char → Bool) : List Char → Prop
  | one {c} : digit c = true → Grouped digit [c]
  | next {c ds} : digit c = true → Grouped digit ds → Grouped digit (c :: ds)
  | apart {c ds} : digit c = true → Grouped digit ds → Grouped digit (c :: '_' :: ds)

def signs : List (List Char) := [[], ['+'], ['-']]

/-- Nothing, or a letter with a sign and digits. -/
inductive Exponent (digit : Char → Bool) : List Char → Prop
  | absent : Exponent digit []
  | present {letter sign ds} :
      letter = 'e' ∨ letter = 'E' → sign ∈ signs → Grouped digit ds → Exponent digit (letter :: (sign ++ ds))

structure Parts where
  sign : List Char
  whole : List Char
  /-- The digits after the point, if there is a point. -/
  fraction? : Option (List Char)
  /-- The exponent with its letter. -/
  exponent : List Char

namespace Parts

/-- The fraction with its point. -/
def pointed (p : Parts) : List Char := p.fraction?.elim [] ('.' :: ·)

def text (p : Parts) : List Char := p.sign ++ (p.whole ++ (p.pointed ++ p.exponent))

/-- The parts make up a numeral; digits may be missing before the point or after it, though not both. -/
structure Valid (digit : Char → Bool) (p : Parts) : Prop where
  sign : p.sign ∈ signs
  whole : p.whole = [] ∨ Grouped digit p.whole
  fraction : ∀ ds, p.fraction? = some ds → ds = [] ∨ Grouped digit ds
  digits : p.whole ≠ [] ∨ p.fraction?.getD [] ≠ []
  exponent : Exponent digit p.exponent

/-- What a number literal asks of the parts beyond ASCII digits: no plus, digits before the point and after it,
and no zero before other digits. -/
structure Plain (p : Parts) : Prop where
  sign : p.sign ≠ ['+']
  whole : p.whole ≠ []
  zero : p.whole.head? = some '0' → p.whole = ['0']
  fraction : p.fraction? ≠ some []

end Parts

variable {digit : Char → Bool} {c d : Char} {a a' b b' cs ds g rest : List Char}

theorem Grouped.ne_nil (h : Grouped digit ds) : ds ≠ [] := by cases h <;> simp

theorem Grouped.mono {digit' : Char → Bool} (h : Grouped digit ds)
    (hd : ∀ c ∈ ds, digit c = true → digit' c = true) : Grouped digit' ds := by
  induction h with
  | one hc => exact .one (hd _ (by simp) hc)
  | next hc _ ih => exact .next (hd _ (by simp) hc) (ih fun c hm => hd c (by simp [hm]))
  | apart hc _ ih => exact .apart (hd _ (by simp) hc) (ih fun c hm => hd c (by simp [hm]))

theorem Exponent.mono {digit' : Char → Bool} (h : Exponent digit ds)
    (hd : ∀ c ∈ ds, digit c = true → digit' c = true) : Exponent digit' ds := by
  cases h with
  | absent => exact .absent
  | present hletter hsign hds => exact .present hletter hsign (hds.mono fun c hm => hd c (by simp [hm]))

theorem Parts.Valid.mono {digit' : Char → Bool} {p : Parts} (h : p.Valid digit)
    (hd : ∀ c ∈ p.text, digit c = true → digit' c = true) : p.Valid digit' where
  sign := h.sign
  whole := h.whole.imp_right fun hw => hw.mono fun c hm => hd c (by simp [text, hm])
  fraction ds hds := (h.fraction ds hds).imp_right fun hf =>
    hf.mono fun c hm => hd c (by simp [text, pointed, hds, hm])
  digits := h.digits
  exponent := h.exponent.mono fun c hm => hd c (by simp [text, hm])

theorem ungroup_cons (h : ungroup false (c :: rest) = some g) :
    c ≠ '_' ∧ ∃ g', ungroup c.isDigit rest = some g' ∧ g = c :: g' := by
  rw [ungroup] at h
  split at h
  next => cases h
  next hc =>
    obtain ⟨g', hrest, rfl⟩ := Option.map_eq_some_iff.1 h
    exact ⟨hc, g', hrest, rfl⟩

theorem ungroup_eq_nil (h : ungroup false cs = some []) : cs = [] := by
  cases cs with
  | nil => rfl
  | cons c rest =>
    obtain ⟨-, g', -, hg⟩ := ungroup_cons h
    cases hg

theorem ungroup_punctuation (h : ungroup false cs = some (c :: g)) (hc : c.isDigit = false) :
    ∃ rest, cs = c :: rest ∧ ungroup false rest = some g := by
  cases cs with
  | nil => cases h
  | cons d rest =>
    obtain ⟨-, g', hrest, hg⟩ := ungroup_cons h
    obtain ⟨rfl, rfl⟩ := List.cons.inj hg
    rw [hc] at hrest
    exact ⟨rest, rfl, hrest⟩

/-- The digits at the front are read from digits with single underscores between them. -/
theorem ungroup_digits : ∀ {cs g : List Char}, ungroup false cs = some g →
    ∃ run rest, cs = run ++ rest ∧ ungroup false rest = some (g.dropWhile Char.isDigit) ∧
      (run = [] ∧ g.takeWhile Char.isDigit = [] ∨ Grouped Char.isDigit run)
  | [], g, h => by
    cases h
    exact ⟨[], [], rfl, rfl, .inl ⟨rfl, rfl⟩⟩
  | c :: rest, g, h => by
    obtain ⟨hne, g', hrest, rfl⟩ := ungroup_cons h
    cases hc : c.isDigit with
    | false => exact ⟨[], c :: rest, rfl, by simpa [hc] using h, .inl ⟨rfl, by simp [hc]⟩⟩
    | true =>
      rw [List.dropWhile_cons_of_pos hc]
      rw [hc] at hrest
      match rest with
      | [] =>
        cases hrest
        exact ⟨[c], [], rfl, rfl, .inr (.one hc)⟩
      | d :: rest =>
        by_cases hd : d = '_'
        · subst hd
          rw [ungroup, if_pos rfl] at hrest
          split at hrest
          next hdigit =>
            obtain ⟨run, tail, rfl, htail, hrun⟩ := ungroup_digits hrest
            refine ⟨c :: '_' :: run, tail, rfl, htail, .inr (.apart hc (hrun.resolve_left ?_))⟩
            -- A digit comes after the underscore, so something is read.
            rintro ⟨rfl, hnone⟩
            cases tail with
            | nil => simp at hdigit
            | cons e tail =>
              obtain ⟨-, g'', -, rfl⟩ := ungroup_cons hrest
              have he : e.isDigit = true := by simpa using hdigit
              simp [he] at hnone
          next => cases hrest
        · have hagain : ungroup false (d :: rest) = some g' := by
            rw [ungroup, if_neg hd] at hrest ⊢
            exact hrest
          obtain ⟨run, tail, hsplit, htail, hrun⟩ := ungroup_digits hagain
          refine ⟨c :: run, tail, by rw [hsplit, List.cons_append], htail, .inr ?_⟩
          rcases hrun with ⟨rfl, -⟩ | hrun
          · exact .one hc
          · exact .next hc hrun

theorem takeSign_spec (h : ungroup false cs = some g) :
    ∃ sign rest, cs = sign ++ rest ∧ sign ∈ signs ∧ ungroup false rest = some (takeSign g).2 := by
  unfold takeSign
  split
  next =>
    obtain ⟨rest, rfl, hrest⟩ := ungroup_punctuation h (by decide)
    exact ⟨['-'], rest, rfl, by decide, hrest⟩
  next =>
    obtain ⟨rest, rfl, hrest⟩ := ungroup_punctuation h (by decide)
    exact ⟨['+'], rest, rfl, by decide, hrest⟩
  next => exact ⟨[], cs, rfl, by decide, h⟩

theorem readExponent_spec {e : Int} (h : ungroup false cs = some g) (hr : readExponent g = some e) :
    Exponent Char.isDigit cs := by
  cases g with
  | nil =>
    rw [ungroup_eq_nil h]
    exact .absent
  | cons letter g =>
    rw [readExponent] at hr
    split at hr
    next hletter =>
      rw [Bool.or_eq_true, decide_eq_true_eq, decide_eq_true_eq] at hletter
      have hpunctuation : letter.isDigit = false := by rcases hletter with rfl | rfl <;> rfl
      obtain ⟨rest, rfl, hrest⟩ := ungroup_punctuation h hpunctuation
      obtain ⟨sign, ds, rfl, hsign, hds⟩ := takeSign_spec hrest
      dsimp only at hr
      split at hr
      next hdigits =>
        rw [Bool.and_eq_true, Bool.not_eq_true', List.isEmpty_eq_false_iff, List.all_eq_true] at hdigits
        obtain ⟨run, tail, rfl, htail, hrun⟩ := ungroup_digits hds
        rw [List.dropWhile_eq_nil_iff.2 hdigits.2] at htail
        obtain rfl := ungroup_eq_nil htail
        rw [List.append_nil]
        refine .present hletter hsign (hrun.resolve_left fun hnone => hdigits.1 ?_)
        rw [← List.takeWhile_eq_self_iff.2 hdigits.2, hnone.2]
      next => cases hr
    next => cases hr

theorem readDecimal_spec {negative : Bool} {x : Binary64} (h : ungroup false cs = some g)
    (hr : readDecimal negative g = some x) {sign : List Char} (hs : sign ∈ signs) :
    ∃ p : Parts, p.Valid Char.isDigit ∧ p.text = sign ++ cs := by
  obtain ⟨whole, rest, rfl, hrest, hwhole⟩ := ungroup_digits h
  unfold readDecimal at hr
  dsimp only at hr
  split at hr
  next after hpoint =>
    rw [hpoint] at hrest
    obtain ⟨rest, rfl, hafter⟩ := ungroup_punctuation hrest (by decide)
    obtain ⟨fraction, rest, rfl, hlast, hfraction⟩ := ungroup_digits hafter
    split at hr
    next => cases hr
    next hdigits =>
      obtain ⟨e, he, -⟩ := Option.map_eq_some_iff.1 hr
      have hexponent := readExponent_spec hlast he
      refine ⟨⟨sign, whole, some fraction, rest⟩, ⟨hs, hwhole.imp_left And.left, ?_, ?_, hexponent⟩, ?_⟩
      · rintro ds ⟨⟩
        exact hfraction.imp_left And.left
      · refine or_iff_not_imp_left.2 fun hw hf => hdigits ?_
        rw [(hwhole.resolve_right fun hg => hw hg.ne_nil).2, (hfraction.resolve_right fun hg => hg.ne_nil hf).2]
        rfl
      · simp [Parts.text, Parts.pointed]
  next hpoint =>
    split at hr
    next => cases hr
    next hdigits =>
      obtain ⟨e, he, -⟩ := Option.map_eq_some_iff.1 hr
      have hexponent := readExponent_spec hrest he
      refine ⟨⟨sign, whole, none, rest⟩, ⟨hs, hwhole.imp_left And.left, ?_, ?_, hexponent⟩, ?_⟩
      · rintro ds ⟨⟩
      · refine .inl fun hnone => hdigits ?_
        rw [(hwhole.resolve_right fun hw => hw.ne_nil hnone).2]
        rfl
      · simp [Parts.text, Parts.pointed]

theorem eq_of_asciiForm (h : asciiForm c = d) (hd : d.isDigit = false) (hmark : d ≠ '?') : c = d := by
  unfold asciiForm at h
  split at h
  next => exact h
  next =>
    split at h
    next v hv =>
      have hdigit : ∀ v < 10, (Nat.digitChar v).isDigit = true := by decide
      rw [← h, hdigit v (Text.decimalValue?_lt_ten hv)] at hd
      cases hd
    next => exact absurd h.symm hmark

theorem eq_singleton_of_map (h : cs.map asciiForm = [d]) (hd : d.isDigit = false) (hmark : d ≠ '?') : cs = [d] := by
  obtain ⟨c, rfl, hc⟩ := List.map_eq_singleton_iff.1 h
  rw [eq_of_asciiForm hc hd hmark]

theorem sign_of_map (h : cs.map asciiForm ∈ signs) : cs.map asciiForm = cs := by
  simp only [signs, List.mem_cons, List.not_mem_nil, or_false] at h
  rcases h with h | h | h
  · rw [List.map_eq_nil_iff.1 h]
    rfl
  · rw [h, eq_singleton_of_map h (by decide) (by decide)]
  · rw [h, eq_singleton_of_map h (by decide) (by decide)]

theorem Grouped.of_map (h : Grouped Char.isDigit ds) :
    ∀ {cs : List Char}, cs.map asciiForm = ds → Grouped isFigure cs := by
  induction h with
  | one hc =>
    intro cs hcs
    obtain ⟨c, rfl, rfl⟩ := List.map_eq_singleton_iff.1 hcs
    exact .one hc
  | next hc _ ih =>
    intro cs hcs
    obtain ⟨c, rest, rfl, rfl, hrest⟩ := List.map_eq_cons_iff.1 hcs
    exact .next hc (ih hrest)
  | apart hc _ ih =>
    intro cs hcs
    obtain ⟨c, rest, rfl, rfl, hrest⟩ := List.map_eq_cons_iff.1 hcs
    obtain ⟨mark, rest, rfl, hmark, hrest⟩ := List.map_eq_cons_iff.1 hrest
    rw [eq_of_asciiForm hmark (by decide) (by decide)]
    exact .apart hc (ih hrest)

theorem Exponent.of_map (h : Exponent Char.isDigit (cs.map asciiForm)) : Exponent isFigure cs := by
  generalize hg : cs.map asciiForm = ds at h
  cases h with
  | absent =>
    rw [List.map_eq_nil_iff.1 hg]
    exact .absent
  | @present letter sign ds hletter hsign hds =>
    obtain ⟨c, rest, rfl, hc, hrest⟩ := List.map_eq_cons_iff.1 hg
    obtain ⟨s, t, rfl, rfl, ht⟩ := List.map_eq_append_iff.1 hrest
    have hc : c = letter := by rcases hletter with rfl | rfl <;> exact eq_of_asciiForm hc (by decide) (by decide)
    rw [sign_of_map hsign] at hsign
    rw [hc]
    exact .present hletter hsign (hds.of_map ht)

theorem valid_of_map {q : Parts} (hq : q.Valid Char.isDigit) (h : q.text = cs.map asciiForm) :
    ∃ p : Parts, p.Valid isFigure ∧ p.text = cs := by
  obtain ⟨sign, rest, rfl, hsign, hrest⟩ := List.map_eq_append_iff.1 h.symm
  obtain ⟨whole, rest, rfl, hwhole, hrest⟩ := List.map_eq_append_iff.1 hrest
  obtain ⟨pointed, exponent, rfl, hpointed, hexponent⟩ := List.map_eq_append_iff.1 hrest
  have hs : sign ∈ signs := by
    have hmem := hq.sign
    rw [← hsign] at hmem
    rwa [sign_of_map hmem] at hmem
  have hw : whole = [] ∨ Grouped isFigure whole := by
    refine hq.whole.imp (fun hnone => ?_) fun hw => hw.of_map hwhole
    rwa [hnone, List.map_eq_nil_iff] at hwhole
  have hdigits : q.whole ≠ [] → whole ≠ [] := by
    rintro hne rfl
    exact hne hwhole.symm
  have he : Exponent isFigure exponent := Exponent.of_map (by rw [hexponent]; exact hq.exponent)
  cases hf : q.fraction? with
  | none =>
    rw [Parts.pointed, hf, Option.elim_none, List.map_eq_nil_iff] at hpointed
    subst hpointed
    have hdigits := hq.digits.resolve_right (by simp [hf])
    exact ⟨⟨sign, whole, none, exponent⟩, ⟨hs, hw, by simp, .inl (by simp_all), he⟩, rfl⟩
  | some ds =>
    rw [Parts.pointed, hf, Option.elim_some] at hpointed
    obtain ⟨point, fraction, rfl, hpoint, hfraction⟩ := List.map_eq_cons_iff.1 hpointed
    rw [eq_of_asciiForm hpoint (by decide) (by decide)]
    refine ⟨⟨sign, whole, some fraction, exponent⟩, ⟨hs, hw, ?_, ?_, he⟩, rfl⟩
    · rintro _ ⟨⟩
      refine (hq.fraction ds hf).imp (fun hnone => ?_) fun hd => hd.of_map hfraction
      rwa [hnone, List.map_eq_nil_iff] at hfraction
    · refine hq.digits.imp hdigits fun hne => ?_
      rw [hf] at hne
      rintro rfl
      exact hne hfraction.symm

theorem Grouped.mem (h : Grouped digit ds) (hc : c ∈ ds) : digit c = true ∨ c = '_' := by
  induction h with
  | one hd => exact .inl (List.mem_singleton.1 hc ▸ hd)
  | next hd _ ih =>
    rcases List.mem_cons.1 hc with rfl | hc
    · exact .inl hd
    · exact ih hc
  | apart hd _ ih =>
    rcases List.mem_cons.1 hc with rfl | hc
    · exact .inl hd
    · rcases List.mem_cons.1 hc with rfl | hc
      · exact .inr rfl
      · exact ih hc

/-- The characters of a numeral besides its digits. -/
def marks : List Char := ['_', '+', '-', '.', 'e', 'E']

theorem mem_marks_of_eq (h : c = '_') : c ∈ marks := by
  subst h
  decide

theorem eq_of_mem_signs {sign : List Char} (hs : sign ∈ signs) (hc : c ∈ sign) : c = '+' ∨ c = '-' := by
  simp only [signs, List.mem_cons, List.not_mem_nil, or_false] at hs
  rcases hs with rfl | rfl | rfl
  · cases hc
  · exact .inl (List.mem_singleton.1 hc)
  · exact .inr (List.mem_singleton.1 hc)

theorem Exponent.mem (h : Exponent digit ds) (hc : c ∈ ds) : digit c = true ∨ c ∈ marks := by
  cases h with
  | absent => cases hc
  | present hletter hsign hds =>
    rcases List.mem_cons.1 hc with rfl | hc
    · rcases hletter with rfl | rfl <;> exact .inr (by decide)
    rcases List.mem_append.1 hc with hc | hc
    · rcases eq_of_mem_signs hsign hc with rfl | rfl <;> exact .inr (by decide)
    · exact (hds.mem hc).imp_right mem_marks_of_eq

theorem Parts.Valid.mem {p : Parts} (h : p.Valid digit) (hc : c ∈ p.text) : digit c = true ∨ c ∈ marks := by
  have hgrouped : ∀ {ds}, ds = [] ∨ Grouped digit ds → c ∈ ds → digit c = true ∨ c ∈ marks := by
    rintro ds (rfl | hds) hm
    · cases hm
    · exact (hds.mem hm).imp_right mem_marks_of_eq
  rcases List.mem_append.1 hc with hc | hc
  · rcases eq_of_mem_signs h.sign hc with rfl | rfl <;> exact .inr (by decide)
  rcases List.mem_append.1 hc with hc | hc
  · exact hgrouped h.whole hc
  rcases List.mem_append.1 hc with hc | hc
  · cases hf : p.fraction? with
    | none =>
      rw [Parts.pointed, hf] at hc
      cases hc
    | some ds =>
      rw [Parts.pointed, hf, Option.elim_some] at hc
      rcases List.mem_cons.1 hc with rfl | hc
      · exact .inr (by decide)
      · exact hgrouped (h.fraction ds hf) hc
  · exact h.exponent.mem hc

theorem mem_decimalRanges_of_isFigure (h : isFigure c = true) :
    ∃ r ∈ Text.decimalRanges, r.1 ≤ c.toNat ∧ c.toNat ≤ r.2 := by
  unfold isFigure asciiForm at h
  split at h
  next =>
    simp only [Char.isDigit, Bool.and_eq_true, decide_eq_true_eq] at h
    exact ⟨(0x30, 0x39), by decide, h.1, h.2⟩
  next =>
    split at h
    next v hv => exact Text.exists_of_decimalIn hv
    next => cases h

theorem isBlank_of_isFigure (h : isFigure c = true) : Text.isBlank c = false := by
  have hdisjoint : ∀ r ∈ Text.decimalRanges, ∀ r' ∈ Text.blankRanges, r.2 < r'.1 ∨ r'.2 < r.1 := by decide +kernel
  refine Bool.eq_false_iff.2 fun hblank => ?_
  obtain ⟨r, hr, hlow, hhigh⟩ := mem_decimalRanges_of_isFigure h
  obtain ⟨r', hr', hlow', hhigh'⟩ := Text.Ranges.exists_of_mem hblank
  have := hdisjoint r hr r' hr'
  omega

theorem isBlank_of_mem_text {p : Parts} (h : p.Valid isFigure) (hc : c ∈ p.text) : Text.isBlank c = false := by
  have hmarks : ∀ c ∈ marks, Text.isBlank c = false := by
    simp only [marks, List.forall_mem_cons, List.not_mem_nil, false_implies, implies_true, and_true]
    decide
  rcases h.mem hc with hfigure | hmark
  · exact isBlank_of_isFigure hfigure
  · exact hmarks c hmark

theorem isBlank_of_isSpace (c : Char) (h : isSpace c = true) : Text.isBlank c = true := by
  simp only [isSpace, Bool.or_eq_true, Bool.and_eq_true, decide_eq_true_eq] at h
  rcases h with (rfl | ⟨hlo, hhi⟩) | ⟨-, hblank⟩
  · rfl
  · have hlo : 9 ≤ c.toNat := hlo
    have hhi : c.toNat ≤ 13 := hhi
    simp [Text.isBlank, Text.blankRanges, Text.Ranges.mem, hhi, Nat.not_lt.2 hlo]
  · exact hblank

theorem readMagnitude_spec {negative : Bool} {x : Binary64} (h : readMagnitude negative g = some x)
    (hx : x.isFinite = true) : readDecimal negative g = some x := by
  unfold readMagnitude at h
  dsimp only at h
  split at h
  · cases h
    cases hx
  split at h
  · cases h
    cases hx
  · exact h

/-- A finite numeral is written in parts, without the white space around it. -/
theorem parts_of_isFinite {s : String} (h : isFinite s = true) :
    ∃ p : Parts, p.Valid isFigure ∧ p.text = Text.trim s.toList := by
  rw [isFinite, Option.any_eq_true] at h
  obtain ⟨x, hx, hfinite⟩ := h
  unfold read at hx
  dsimp only at hx
  obtain ⟨g, hg, hx⟩ := Option.bind_eq_some_iff.1 hx
  obtain ⟨sign, rest, hsplit, hsign, hrest⟩ := takeSign_spec hg
  obtain ⟨q, hq, htext⟩ := readDecimal_spec hrest (readMagnitude_spec hx hfinite) hsign
  obtain ⟨p, hp, hstrip⟩ := valid_of_map hq (htext.trans hsplit.symm)
  refine ⟨p, hp, hstrip.trans (Text.trim_eq isBlank_of_isSpace ?_).symm⟩
  rw [← hstrip]
  exact fun c hc => isBlank_of_mem_text hp hc

end Numeral

end SchemaDecl

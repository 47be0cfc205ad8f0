import SchemaDecl.Proofs.Number.Grammar
import SchemaDecl.TypeExpr.Printer

/-!
# Numerals among choices

On a number field, a text that is a finite numeral is written as it stands, without the white space around it. It
is a number literal then exactly if its parts are those of one: numerals may also have a plus in front, zeros
before other digits, no digits before the point or after it, and digits of other scripts.
-/

namespace SchemaDecl

namespace Numeral

/-- The literals of number types: a minus or none, digits with no zero before others, a point with digits or none,
and an exponent or none; digits are ASCII and may have single underscores between them. -/
inductive NumberLiteral : List Char → Prop
  | mk {sign whole fraction exponent} :
      sign = [] ∨ sign = ['-'] → Grouped Char.isDigit whole → (whole.head? = some '0' → whole = ['0']) →
      (fraction = [] ∨ ∃ ds, fraction = '.' :: ds ∧ Grouped Char.isDigit ds) → Exponent Char.isDigit exponent →
      NumberLiteral (sign ++ (whole ++ (fraction ++ exponent)))

variable {digit test : Char → Bool} {c : Char} {a a' b b' cs ds : List Char} {p q : Parts}

/-- A text is cut in one way where what is tested for ends. -/
theorem append_cancel (ha : ∀ c ∈ a, test c = true) (ha' : ∀ c ∈ a', test c = true)
    (hb : ∀ c ∈ b.head?, test c = false) (hb' : ∀ c ∈ b'.head?, test c = false) (h : a ++ b = a' ++ b') :
    a = a' ∧ b = b' := by
  have hfront : ∀ {a b : List Char}, (∀ c ∈ a, test c = true) → (∀ c ∈ b.head?, test c = false) →
      (a ++ b).takeWhile test = a := by
    intro a b ha hb
    rw [List.takeWhile_append_of_pos ha]
    cases b with
    | nil => rw [List.takeWhile_nil, List.append_nil]
    | cons c rest => rw [List.takeWhile_cons_of_neg (by simp [hb c rfl]), List.append_nil]
  have heq : a = a' := by rw [← hfront ha hb, h, hfront ha' hb']
  subst heq
  exact ⟨rfl, List.append_cancel_left h⟩

def isRun (c : Char) : Bool := isFigure c || c = '_'

theorem isRun_of_grouped (h : ds = [] ∨ Grouped isFigure ds) : ∀ c ∈ ds, isRun c = true := by
  rintro c hc
  rcases h with rfl | h
  · cases hc
  · rw [isRun, Bool.or_eq_true, decide_eq_true_eq]
    exact h.mem hc

theorem Grouped.head (h : Grouped digit ds) : ∀ c ∈ ds.head?, digit c = true := by
  cases h with
  | one hc => exact fun _ h => Option.some.inj h ▸ hc
  | next hc => exact fun _ h => Option.some.inj h ▸ hc
  | apart hc => exact fun _ h => Option.some.inj h ▸ hc

theorem Exponent.head (h : Exponent digit ds) : ∀ c ∈ ds.head?, c = 'e' ∨ c = 'E' := by
  cases h with
  | absent => exact fun _ h => by cases h
  | present hletter => exact fun _ h => Option.some.inj h ▸ hletter

namespace Parts.Valid

theorem exponent_head (hp : p.Valid isFigure) : ∀ c ∈ p.exponent.head?, isRun c = false := by
  intro c hc
  rcases hp.exponent.head c hc with rfl | rfl <;> decide

theorem pointed_head (hp : p.Valid isFigure) : ∀ c ∈ (p.pointed ++ p.exponent).head?, isRun c = false := by
  intro c hc
  cases hf : p.fraction? with
  | none =>
    rw [pointed, hf] at hc
    exact hp.exponent_head c hc
  | some ds =>
    rw [pointed, hf] at hc
    cases hc
    decide

theorem body_head (hp : p.Valid isFigure) : ∀ c ∈ (p.whole ++ (p.pointed ++ p.exponent)).head?, isSign c = false := by
  intro c hc
  have hfigure : isFigure c = true ∨ c = '.' := by
    rcases hp.whole with hnone | hw
    · obtain ⟨ds, hf⟩ : ∃ ds, p.fraction? = some ds := by
        cases hf : p.fraction? with
        | none => exact absurd hp.digits (by simp [hnone, hf])
        | some ds => exact ⟨ds, rfl⟩
      rw [hnone, pointed, hf] at hc
      cases hc
      exact .inr rfl
    · have hhead : (p.whole ++ (p.pointed ++ p.exponent)).head? = p.whole.head? := by
        cases hcs : p.whole with
        | nil => exact absurd hcs hw.ne_nil
        | cons c rest => rfl
      exact .inl (hw.head c (hhead ▸ hc))
  refine Bool.eq_false_iff.2 fun hsign => ?_
  simp only [isSign, Bool.or_eq_true, decide_eq_true_eq] at hsign
  rcases hsign with rfl | rfl <;> revert hfigure <;> decide

theorem isSign_sign (hp : p.Valid isFigure) : ∀ c ∈ p.sign, isSign c = true := by
  intro c hc
  rcases eq_of_mem_signs hp.sign hc with rfl | rfl <;> rfl

theorem text_injective (hp : p.Valid isFigure) (hq : q.Valid isFigure) (h : p.text = q.text) : p = q := by
  obtain ⟨hsign, hbody⟩ := append_cancel hp.isSign_sign hq.isSign_sign hp.body_head hq.body_head h
  obtain ⟨hwhole, hrear⟩ := append_cancel (isRun_of_grouped hp.whole) (isRun_of_grouped hq.whole)
    hp.pointed_head hq.pointed_head hbody
  have hnot : ¬ ('.' = 'e' ∨ '.' = 'E') := by decide
  have hlast : p.fraction? = q.fraction? ∧ p.exponent = q.exponent := by
    rw [pointed, pointed] at hrear
    cases hf : p.fraction? with
    | none =>
      cases hf' : q.fraction? with
      | none =>
        rw [hf, hf'] at hrear
        exact ⟨rfl, hrear⟩
      | some ds' =>
        rw [hf, hf'] at hrear
        have hexponent : p.exponent = '.' :: (ds' ++ q.exponent) := hrear
        exact absurd (hp.exponent.head '.' (by rw [hexponent]; rfl)) hnot
    | some ds =>
      cases hf' : q.fraction? with
      | none =>
        rw [hf, hf'] at hrear
        have hexponent : '.' :: (ds ++ p.exponent) = q.exponent := hrear
        exact absurd (hq.exponent.head '.' (by rw [← hexponent]; rfl)) hnot
      | some ds' =>
        rw [hf, hf'] at hrear
        have hdigits : ds ++ p.exponent = ds' ++ q.exponent := (List.cons.inj hrear).2
        obtain ⟨rfl, hexponent⟩ := append_cancel (isRun_of_grouped (hp.fraction ds hf))
          (isRun_of_grouped (hq.fraction ds' hf')) hp.exponent_head hq.exponent_head hdigits
        exact ⟨rfl, hexponent⟩
  cases p
  cases q
  simp_all

end Parts.Valid

theorem isFigure_of_isDigit (h : c.isDigit = true) : isFigure c = true := by
  have hlow : c.toNat < 127 := by
    simp only [Char.isDigit, Bool.and_eq_true, decide_eq_true_eq] at h
    have hhigh : c.toNat ≤ 57 := h.2
    omega
  rwa [isFigure, asciiForm, if_pos hlow]

theorem isDigit_of_isFigure (h : isFigure c = true) (hc : c.toNat < 128) : c.isDigit = true := by
  have hlow : ∀ r ∈ Text.decimalRanges, r.1 < 128 → r = (48, 57) := by decide +kernel
  obtain ⟨r, hr, hge, hle⟩ := mem_decimalRanges_of_isFigure h
  obtain rfl := hlow r hr (by omega)
  simp only [Char.isDigit, Bool.and_eq_true, decide_eq_true_eq]
  exact ⟨hge, hle⟩

theorem numberLiteral_iff : NumberLiteral cs ↔ ∃ p : Parts, p.Valid Char.isDigit ∧ p.Plain ∧ p.text = cs := by
  constructor
  · rintro @⟨sign, whole, fraction, exponent, hsign, hwhole, hzero, hfraction, hexponent⟩
    have hs : sign ∈ signs := by rcases hsign with rfl | rfl <;> decide
    have hplus : sign ≠ ['+'] := by rcases hsign with rfl | rfl <;> decide
    rcases hfraction with rfl | ⟨ds, rfl, hds⟩
    · exact ⟨⟨sign, whole, none, exponent⟩, ⟨hs, .inr hwhole, nofun, .inl hwhole.ne_nil, hexponent⟩,
        ⟨hplus, hwhole.ne_nil, hzero, nofun⟩, rfl⟩
    · refine ⟨⟨sign, whole, some ds, exponent⟩, ⟨hs, .inr hwhole, ?_, .inl hwhole.ne_nil, hexponent⟩,
        ⟨hplus, hwhole.ne_nil, hzero, fun hnone => hds.ne_nil (Option.some.inj hnone)⟩, rfl⟩
      rintro _ ⟨⟩
      exact .inr hds
  · rintro ⟨p, hp, hplain, rfl⟩
    refine .mk ?_ (hp.whole.resolve_left hplain.whole) hplain.zero ?_ hp.exponent
    · have hsign := hp.sign
      simp only [signs, List.mem_cons, List.not_mem_nil, or_false] at hsign
      exact hsign.imp_right fun h => h.resolve_left hplain.sign
    · cases hf : p.fraction? with
      | none => exact .inl (by rw [Parts.pointed, hf]; rfl)
      | some ds =>
        refine .inr ⟨ds, by rw [Parts.pointed, hf]; rfl, (hp.fraction ds hf).resolve_left ?_⟩
        rintro rfl
        exact hplain.fraction hf

/-- A numeral is a number literal exactly if it is in ASCII and its parts are those of one. -/
theorem numberLiteral_text_iff (hp : p.Valid isFigure) :
    NumberLiteral p.text ↔ p.Plain ∧ ∀ c ∈ p.text, c.toNat < 128 := by
  have hmarks : ∀ c ∈ marks, c.toNat < 128 := by simp [marks]
  rw [numberLiteral_iff]
  constructor
  · rintro ⟨q, hq, hplain, htext⟩
    obtain rfl := (hq.mono fun _ _ => isFigure_of_isDigit).text_injective hp htext
    refine ⟨hplain, fun c hc => ?_⟩
    rcases hq.mem hc with hdigit | hmark
    · simp only [Char.isDigit, Bool.and_eq_true, decide_eq_true_eq] at hdigit
      have hhigh : c.toNat ≤ 57 := hdigit.2
      omega
    · exact hmarks c hmark
  · rintro ⟨hplain, hascii⟩
    exact ⟨p, hp.mono fun c hc hfigure => isDigit_of_isFigure hfigure (hascii c hc), hplain, rfl⟩

end Numeral

namespace TypeExpr

open Numeral

/-- A text among the choices of a number field that is a finite numeral is written as its parts, without white space
around them; this is a number literal exactly if all its characters are ASCII, there is no plus in front, there are
digits before the point and after it, and no zero comes before other digits. Any other text is quoted. -/
theorem literal_text (s : String) :
    (isFinite s = true → ∃ p : Parts, p.Valid isFigure ∧ p.text = Text.trim s.toList ∧
      literal true (.text s) = String.ofList p.text ∧
      (NumberLiteral (literal true (.text s)).toList ↔ p.Plain ∧ ∀ c ∈ p.text, c.toNat < 128)) ∧
    (isFinite s = false → literal true (.text s) = Json.quote s) := by
  refine ⟨fun h => ?_, fun h => ?_⟩
  · obtain ⟨p, hp, htext⟩ := parts_of_isFinite h
    have hliteral : literal true (.text s) = String.ofList p.text := by
      rw [literal, Bool.true_and, if_pos h, htext]
    refine ⟨p, hp, htext, hliteral, ?_⟩
    rw [hliteral, String.toList_ofList]
    exact numberLiteral_text_iff hp
  · rw [literal, Bool.true_and, if_neg (by simp [h]), Json.render]

theorem literal_text_fraction :
    isFinite " -12_0.5e3 " = true ∧ NumberLiteral (literal true (.text " -12_0.5e3 ")).toList := by
  have hfinite : isFinite " -12_0.5e3 " = true := by decide +kernel
  obtain ⟨p, hp, htext, -, hiff⟩ := (literal_text " -12_0.5e3 ").1 hfinite
  have hvalid : (⟨['-'], "12_0".toList, some ['5'], "e3".toList⟩ : Parts).Valid isFigure := by
    have hexponent : Exponent isFigure ('e' :: ([] ++ ['3'])) :=
      .present (.inl rfl) (by decide) (.one (by decide))
    refine ⟨by decide, .inr ?_, ?_, .inl (by decide), hexponent⟩
    · exact .next (by decide) (.apart (by decide) (.one (by decide)))
    · rintro _ ⟨⟩
      exact .inr (.one (by decide))
  obtain rfl := hp.text_injective hvalid (htext.trans (by decide +kernel))
  have hplain : (⟨['-'], "12_0".toList, some ['5'], "e3".toList⟩ : Parts).Plain :=
    ⟨by decide, by decide, fun hzero => absurd hzero (by decide), by decide⟩
  exact ⟨hfinite, hiff.2 ⟨hplain, by simp [Parts.text, Parts.pointed]⟩⟩

/-- A zero before another digit stays. -/
theorem literal_leadingZero :
    isFinite "01" = true ∧ literal true (.text "01") = "01" ∧ ¬ NumberLiteral (literal true (.text "01")).toList := by
  have hfinite : isFinite "01" = true := by decide +kernel
  have hliteral : literal true (.text "01") = "01" := by decide +kernel
  refine ⟨hfinite, hliteral, ?_⟩
  have hvalid : (⟨[], ['0', '1'], none, []⟩ : Parts).Valid isFigure :=
    ⟨by decide, .inr (.next (by decide) (.one (by decide))), nofun, .inl (by decide), .absent⟩
  have htext : ("01" : String).toList = (⟨[], ['0', '1'], none, []⟩ : Parts).text := rfl
  rw [hliteral, htext, numberLiteral_text_iff hvalid]
  rintro ⟨hplain, -⟩
  exact absurd (hplain.zero rfl) (by decide)

end TypeExpr

end SchemaDecl

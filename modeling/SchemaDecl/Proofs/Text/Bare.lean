import SchemaDecl.Declaration.Printer
import SchemaDecl.Proofs.Naming.Words
import SchemaDecl.Proofs.Text.Numerals

/-!
# Bare texts

A bare text holds no line feeds and no brackets. Numbers and names are bare, and a text that is written as
JSON has no other brackets than those it had before.
-/

namespace SchemaDecl

def isBare (c : Char) : Bool := c != '\n' && !TypeExpr.isOpening c && !TypeExpr.isClosing c

def isBracket (c : Char) : Bool := TypeExpr.isOpening c || TypeExpr.isClosing c

def AllBare (cs : List Char) : Prop := ∀ c ∈ cs, isBare c = true

instance (cs : List Char) : Decidable (AllBare cs) := List.decidableBAll (isBare · = true) cs

/-- There are no line feeds and no brackets in the text. -/
def Bare (s : String) : Prop := AllBare s.toList

instance (s : String) : Decidable (Bare s) := inferInstanceAs (Decidable (AllBare s.toList))

namespace AllBare

variable {c : Char} {a b cs : List Char}

theorem append (ha : AllBare a) (hb : AllBare b) : AllBare (a ++ b) := List.forall_mem_append.2 ⟨ha, hb⟩

theorem cons (hc : isBare c = true) (h : AllBare cs) : AllBare (c :: cs) := List.forall_mem_cons.2 ⟨hc, h⟩

theorem subset (h : AllBare b) (hs : a ⊆ b) : AllBare a := fun c hc => h c (hs hc)

theorem replicate (hc : isBare c = true) (n : Nat) : AllBare (List.replicate n c) := by
  intro d hd
  rwa [List.eq_of_mem_replicate hd]

theorem newline_not_mem (h : AllBare cs) : '\n' ∉ cs := fun hm => absurd (h _ hm) (by decide)

end AllBare

namespace Bare

@[simp] theorem append_iff {a b : String} : Bare (a ++ b) ↔ Bare a ∧ Bare b := by
  rw [Bare, AllBare, String.toList_append, List.forall_mem_append]
  rfl

@[simp] theorem ofList_iff {cs : List Char} : Bare (String.ofList cs) ↔ AllBare cs := by
  rw [Bare, String.toList_ofList]

end Bare

/-- What holds of texts and of the one between them holds of them joined, if it holds of nothing and is kept where
texts are put together. -/
theorem intercalate_closed {P : List Char → Prop} (hnil : P []) (happend : ∀ {a b}, P a → P b → P (a ++ b))
    {sep : String} {texts : List String} (hsep : P sep.toList) (h : ∀ s ∈ texts, P s.toList) :
    P (sep.intercalate texts).toList := by
  induction texts with
  | nil => exact hnil
  | cons s rest ih =>
    obtain ⟨hs, hrest⟩ := List.forall_mem_cons.1 h
    cases rest with
    | nil => rwa [String.intercalate_singleton]
    | cons next rest =>
      rw [String.intercalate_cons_cons, String.toList_append, String.toList_append]
      exact happend (happend hs hsep) (ih hrest)

theorem allBare_numeralChars : AllBare numeralChars := by
  decide

theorem allBare_toDigits (base n : Nat) : AllBare (Nat.toDigits base n) :=
  allBare_numeralChars.subset (toDigits_subset base n)

theorem bare_nat (n : Nat) : Bare (toString n) := allBare_numeralChars.subset (toString_nat_subset n)

theorem bare_int (i : Int) : Bare (toString i) := allBare_numeralChars.subset (toString_int_subset i)

theorem Binary64.bare_textWith {infinity notNumber : String} (hi : Bare infinity) (hn : Bare notNumber)
    (x : Binary64) : Bare (x.textWith infinity notNumber) := by
  intro c hc
  rcases mem_textWith hc with h | h | h
  · exact allBare_numeralChars c h
  · exact hi c h
  · exact hn c h

namespace Json

theorem allBare_unicodeEscape (n : Nat) : AllBare (unicodeEscape n) := by
  have hdigits : AllBare (hexDigits 4 n) := (AllBare.replicate (by decide) _).append (allBare_toDigits 16 n)
  exact (hdigits.cons (by decide)).cons (by decide)

theorem allBare_shortEscape {c : Char} {escape : List Char} (h : shortEscape? c = some escape) : AllBare escape := by
  unfold shortEscape? at h
  split at h
  · cases h; decide
  · cases h; decide
  · cases h; decide
  · cases h; decide
  · cases h; decide
  · split at h
    · cases h; decide
    · split at h
      · cases h; decide
      · cases h

theorem isBare_asciiEscape {c d : Char} (h : d ∈ asciiEscape c) : isBare d = true ∨ isBracket d = true ∧ d = c := by
  unfold asciiEscape at h
  split at h
  next he => exact .inl (allBare_shortEscape he d h)
  next he =>
    dsimp only at h
    split at h
    next hprint =>
      obtain rfl := List.mem_singleton.1 h
      have hbreak : d ≠ '\n' := by
        rintro rfl
        exact absurd hprint (by decide)
      cases hb : isBracket d with
      | true => exact .inr ⟨rfl, rfl⟩
      | false =>
        rw [isBracket, Bool.or_eq_false_iff] at hb
        exact .inl (by simp [isBare, hbreak, hb])
    next =>
      split at h
      · exact .inl (allBare_unicodeEscape _ d h)
      · exact .inl (((allBare_unicodeEscape _).append (allBare_unicodeEscape _)) d h)

end Json

namespace Naming

theorem isBare_of_isWordChar {c : Char} (h : isWordChar c = true) : isBare c = true :=
  wordChar_induction (P := fun c => isBare c = true) (by decide +kernel) h

theorem bare_pascalCase (uid : String) : Bare (pascalCase uid) := fun _ hd =>
  isBare_of_isWordChar (isWordChar_of_mem_pascalCase hd)

variable {lead name : String}

theorem bare_declare? {target : Json} (h : Bare lead) (hn : declare? lead target = .ok name) : Bare name := by
  obtain ⟨uid, -, rfl⟩ := declare?_ok hn
  exact Bare.append_iff.2 ⟨h, bare_pascalCase uid⟩

theorem bare_placeholder (h : Bare name) : Bare (placeholder name) := Bare.append_iff.2 ⟨by decide, h⟩

theorem Extends.bare {base : String} (h : Extends base name) (hb : Bare base) : Bare name := by
  cases h with
  | plain => exact hb
  | numbered n => exact Bare.append_iff.2 ⟨hb, bare_nat n⟩

end Naming

end SchemaDecl

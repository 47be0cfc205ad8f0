import Mathlib.Data.List.Basic
import SchemaDecl.Number.Shortest

/-!
# Characters of numerals

Numbers are written with digits, signs, the point and the letter of the exponent.
-/

namespace SchemaDecl

/-- The characters of numerals, with that of a digit that is none. -/
def numeralChars : List Char := "0123456789abcdef+-.*".toList

theorem digitChar_mem (n : Nat) : Nat.digitChar n ∈ numeralChars := by
  by_cases hn : n < 16
  · exact (by decide : ∀ n < 16, Nat.digitChar n ∈ numeralChars) n hn
  · have hmark : Nat.digitChar n = '*' := by
      unfold Nat.digitChar
      repeat rw [if_neg (by omega)]
    rw [hmark]
    decide

theorem toDigits_subset (base n : Nat) : Nat.toDigits base n ⊆ numeralChars := by
  have hcore : ∀ fuel n ds, ds ⊆ numeralChars → Nat.toDigitsCore base fuel n ds ⊆ numeralChars := by
    intro fuel
    induction fuel with
    | zero => exact fun n ds h => h
    | succ fuel ih =>
      intro n ds h
      rw [Nat.toDigitsCore]
      have hcons := List.cons_subset.2 ⟨digitChar_mem (n % base), h⟩
      split
      · exact hcons
      · exact ih _ _ hcons
  exact hcore _ _ _ (List.nil_subset _)

theorem toString_nat_subset (n : Nat) : (toString n).toList ⊆ numeralChars := by
  rw [show toString n = Nat.repr n from rfl, Nat.toList_repr]
  exact toDigits_subset 10 n

theorem toString_int_subset (i : Int) : (toString i).toList ⊆ numeralChars := by
  cases i with
  | ofNat n => exact toString_nat_subset n
  | negSucc n =>
    change ("-" ++ toString (n + 1)).toList ⊆ numeralChars
    rw [String.toList_append]
    exact List.append_subset.2 ⟨by decide, toString_nat_subset _⟩

namespace Binary64

theorem zeros_subset (n : Nat) : zeros n ⊆ numeralChars := by
  intro c hc
  rw [List.eq_of_mem_replicate hc]
  decide

theorem positional_subset {digits : List Char} (h : digits ⊆ numeralChars) (point : Int) :
    positional digits point ⊆ numeralChars := by
  have hpoint : ['0', '.'] ⊆ numeralChars := by decide
  unfold positional
  split
  · exact List.append_subset.2 ⟨List.append_subset.2 ⟨hpoint, zeros_subset _⟩, h⟩
  · split
    · exact List.append_subset.2 ⟨List.append_subset.2 ⟨h, zeros_subset _⟩, by decide⟩
    · have hfront := List.Subset.trans (List.take_subset point.toNat digits) h
      have hrear := List.Subset.trans (List.drop_subset point.toNat digits) h
      exact List.append_subset.2 ⟨List.append_subset.2 ⟨hfront, by decide⟩, hrear⟩

theorem scientific_subset {digits : List Char} (h : digits ⊆ numeralChars) (power : Int) :
    scientific digits power ⊆ numeralChars := by
  have hsize := toDigits_subset 10 power.natAbs
  have hsign : ['e', if power < 0 then '-' else '+'] ⊆ numeralChars := by split <;> decide
  unfold scientific
  refine List.append_subset.2 ⟨List.append_subset.2 ⟨?_, hsign⟩, ?_⟩
  · split
    · exact h
    · exact h
    · obtain ⟨hc, hrest⟩ := List.cons_subset.1 h
      exact List.cons_subset.2 ⟨hc, List.cons_subset.2 ⟨by decide, hrest⟩⟩
  · split
    · exact List.cons_subset.2 ⟨by decide, hsize⟩
    · exact hsize

theorem magnitudeText_subset (mantissa : Nat) (exponent : Int) : magnitudeText mantissa exponent ⊆ numeralChars := by
  have hdigits : ∀ n unit, (dropZeros (Nat.toDigits 10 n) unit).1 ⊆ numeralChars := by
    intro n unit c hc
    rw [dropZeros, List.mem_reverse] at hc
    exact toDigits_subset 10 n (List.mem_reverse.1 ((List.dropWhile_suffix _).subset hc))
  rw [magnitudeText]
  dsimp only
  split
  · exact positional_subset (hdigits _ _) _
  · exact scientific_subset (hdigits _ _) _

/-- A number is written with the characters of numerals, or as one of the words for what is no decimal. -/
theorem mem_textWith {infinity notNumber : String} {x : Binary64} {c : Char}
    (h : c ∈ (x.textWith infinity notNumber).toList) :
    c ∈ numeralChars ∨ c ∈ infinity.toList ∨ c ∈ notNumber.toList := by
  have hsign : ∀ negative, (sign negative).toList ⊆ numeralChars := fun negative => by cases negative <;> decide
  cases x with
  | nan => exact .inr (.inr h)
  | infinite negative =>
    rw [textWith, String.toList_append] at h
    rcases List.mem_append.1 h with h | h
    · exact .inl (hsign negative h)
    · exact .inr (.inl h)
  | finite negative m e =>
    rw [textWith, String.toList_append] at h
    rcases List.mem_append.1 h with h | h
    · exact .inl (hsign negative h)
    · refine .inl ?_
      split at h
      next => exact (by decide : "0.0".toList ⊆ numeralChars) h
      next =>
        rw [String.toList_ofList] at h
        exact magnitudeText_subset m e h

end Binary64

end SchemaDecl

import Mathlib.Data.List.Basic
import SchemaDecl.Text.Lowercase

/-!
# Small letters stay

No capital becomes a letter that would become another one again, so that the lower case of a text is its own
lower case.
-/

namespace SchemaDecl.Text

/-- A list of numbers as the bits of one number, by which two long lists are compared at once. -/
def bits (numbers : List Nat) : Nat := numbers.foldr (fun n others => 1 <<< n ||| others) 0

theorem testBit_bits {numbers : List Nat} {n : Nat} (h : n ∈ numbers) : (bits numbers).testBit n = true := by
  induction numbers with
  | nil => cases h
  | cons m rest ih =>
    rw [bits, List.foldr_cons, Nat.one_shiftLeft, Nat.testBit_or, Bool.or_eq_true]
    rcases List.mem_cons.1 h with rfl | h
    · exact .inl Nat.testBit_two_pow_self
    · exact .inr (ih h)

theorem not_mem_of_bits {numbers others : List Nat} {n : Nat} (h : bits numbers &&& bits others = 0)
    (hn : n ∈ numbers) : n ∉ others := by
  intro hother
  have hboth := congrArg (Nat.testBit · n) h
  simp [Nat.testBit_and, testBit_bits hn, testBit_bits hother] at hboth

/-- The numbers from the first on that a run takes. -/
def lettersFrom (first : Nat) : Nat × Nat × Nat × Nat → List Nat
  | (lo, hi, step, _) => (List.range ((hi - lo) / step + 1)).map fun i => first + step * i

/-- The capitals with a rule in some run, and the one that has a rule of its own. -/
def capitals : List Nat := 0x130 :: capitalRuns.flatMap fun run => lettersFrom run.1 run

def smalls : List Nat := capitalRuns.flatMap fun run => lettersFrom run.2.2.2 run

theorem bits_smalls_capitals : bits smalls &&& bits capitals = 0 := by
  decide +kernel

theorem isValidChar_of_mem_smalls : ∀ m ∈ smalls, m.isValidChar := by
  decide +kernel

variable {n m : Nat} {runs : List (Nat × Nat × Nat × Nat)}

theorem lowerIn_mem (h : lowerIn n runs = some m) :
    ∃ run ∈ runs, n ∈ lettersFrom run.1 run ∧ m ∈ lettersFrom run.2.2.2 run := by
  induction runs with
  | nil => cases h
  | cons run rest ih =>
    obtain ⟨lo, hi, step, image⟩ := run
    rw [lowerIn] at h
    split at h
    next => cases h
    next hlo =>
      split at h
      next hin =>
        obtain ⟨hhi, hstep⟩ : n ≤ hi ∧ (n - lo) % step = 0 := by simpa using hin
        have hplace : step * ((n - lo) / step) = n - lo := Nat.mul_div_cancel' (Nat.dvd_of_mod_eq_zero hstep)
        have hle : (n - lo) / step ≤ (hi - lo) / step := Nat.div_le_div_right (Nat.sub_le_sub_right hhi lo)
        have hrange : (n - lo) / step ∈ List.range ((hi - lo) / step + 1) := List.mem_range.2 (by omega)
        refine ⟨_, List.mem_cons_self, List.mem_map.2 ⟨_, hrange, ?_⟩, List.mem_map.2 ⟨_, hrange, ?_⟩⟩
        · rw [hplace, Nat.add_sub_cancel' (Nat.le_of_not_lt hlo)]
        · rw [hplace]
          exact Option.some.inj h
      next =>
        obtain ⟨run, hrun, hm⟩ := ih h
        exact ⟨run, List.mem_cons_of_mem _ hrun, hm⟩

/-- The character is its own lower case, wherever it stands. -/
def IsSmall (c : Char) : Prop := lowerChar c = [c]

theorem isSmall_of_lowerIn (h : lowerIn n capitalRuns = some m) : IsSmall (Char.ofNat m) := by
  obtain ⟨run, hrun, -, hm⟩ := lowerIn_mem h
  have hsmall : m ∈ smalls := List.mem_flatMap.2 ⟨run, hrun, hm⟩
  have hcapital : m ∉ capitals := not_mem_of_bits bits_smalls_capitals hsmall
  obtain ⟨hdotted, hruns⟩ := not_or.1 (mt List.mem_cons.2 hcapital)
  have hnone : lowerIn m capitalRuns = none := by
    rw [Option.eq_none_iff_forall_ne_some]
    intro k hk
    obtain ⟨run', hrun', hcap, -⟩ := lowerIn_mem hk
    exact hruns (List.mem_flatMap.2 ⟨run', hrun', hcap⟩)
  have hnat : (Char.ofNat m).toNat = m := by
    rw [Char.ofNat, dif_pos (isValidChar_of_mem_smalls m hsmall)]
    exact UInt32.toNat_ofNatLT
  rw [IsSmall, lowerChar, hnat, if_neg hdotted, hnone]

theorem isSmall_of_mem_lowerChar {c d : Char} (h : d ∈ lowerChar c) : IsSmall d := by
  rw [lowerChar] at h
  split at h
  next =>
    rcases List.mem_cons.1 h with rfl | h
    · rfl
    · rw [List.mem_singleton.1 h]
      rfl
  next hdotted =>
    split at h
    next n hn =>
      rw [List.mem_singleton.1 h]
      exact isSmall_of_lowerIn hn
    next hnone => rw [List.mem_singleton.1 h, IsSmall, lowerChar, if_neg hdotted, hnone]

theorem isSmall_of_mem_lowerFrom {before chars : List Char} {d : Char} (h : d ∈ lowerFrom before chars) :
    IsSmall d := by
  induction chars generalizing before with
  | nil => cases h
  | cons c rest ih =>
    rw [lowerFrom] at h
    rcases List.mem_append.1 h with h | h
    · split at h
      next =>
        rw [List.mem_singleton.1 h]
        rfl
      next => exact isSmall_of_mem_lowerChar h
    · exact ih h

/-- The rule for the end of a word has nothing to do in a text without a capital sigma. -/
theorem lowerFrom_eq_flatMap {chars : List Char} (h : 'Σ' ∉ chars) (before : List Char) :
    lowerFrom before chars = chars.flatMap lowerChar := by
  induction chars generalizing before with
  | nil => rfl
  | cons c rest ih =>
    obtain ⟨hc, hrest⟩ := not_or.1 (mt List.mem_cons.2 h)
    have hrule : (c = 'Σ' && meetsCased before && !meetsCased rest) = false := by simp [Ne.symm hc]
    rw [lowerFrom, ih hrest, hrule, if_neg Bool.false_ne_true, List.flatMap_cons]

theorem lowerFrom_of_small {chars : List Char} (h : ∀ c ∈ chars, IsSmall c) (before : List Char) :
    lowerFrom before chars = chars := by
  have hsigma : 'Σ' ∉ chars := by
    intro hm
    have hmoves : lowerChar 'Σ' = ['σ'] := by rfl
    have hsmall := h 'Σ' hm
    rw [IsSmall, hmoves] at hsmall
    cases hsmall
  rw [lowerFrom_eq_flatMap hsigma, List.flatMap_congr h]
  exact List.flatMap_singleton' chars

theorem lower_lower (s : String) : lower (lower s) = lower s := by
  have hsmall : ∀ c ∈ lowerFrom [] s.toList, IsSmall c := fun c hc => isSmall_of_mem_lowerFrom hc
  rw [lower, lower, String.toList_ofList, lowerFrom_of_small hsmall]

end SchemaDecl.Text

import SchemaDecl.Naming.Allocator

/-!
# Heads of names

A name of a declaration begins with the lead, or else with the first letter or digit of the identifier.
So it is empty, or begins with a digit, only as the lead or that character makes it so.
-/

namespace SchemaDecl.Naming

def firstWordChar? (uid : String) : Option Char := uid.toList.find? isWordChar

theorem takeWord_eq_cons (c : Char) (rest : List Char) : ∃ tail, (takeWord c rest).1 = c :: tail := by
  have happend := takeWord_append c rest
  cases hw : (takeWord c rest).1 with
  | nil => exact absurd hw (takeWord_ne_nil c rest)
  | cons d tail =>
    rw [hw, List.cons_append] at happend
    exact ⟨tail, by rw [(List.cons.inj happend).1]⟩

theorem head?_pascalChars (cs : List Char) :
    (pascalChars cs).head? = (cs.find? isWordChar).map Char.toUpper := by
  unfold pascalChars
  fun_induction words cs with
  | case1 => rfl
  | case2 c rest hc ih =>
    obtain ⟨tail, htail⟩ := takeWord_eq_cons c rest
    rw [List.find?_cons_of_pos hc, htail]
    rfl
  | case3 c rest hc ih => rw [List.find?_cons_of_neg hc, ih]

theorem toList_pascalCase (uid : String) : (pascalCase uid).toList = pascalChars uid.toList :=
  String.toList_ofList

theorem head?_pascalCase (uid : String) :
    (pascalCase uid).toList.head? = (firstWordChar? uid).map Char.toUpper := by
  rw [toList_pascalCase, head?_pascalChars, firstWordChar?]

theorem eq_empty_iff_head? (s : String) : s = "" ↔ s.toList.head? = none := by
  rw [List.head?_eq_none_iff, String.toList_eq_nil_iff]

theorem pascalCase_eq_empty_iff (uid : String) : pascalCase uid = "" ↔ firstWordChar? uid = none := by
  rw [eq_empty_iff_head?, head?_pascalCase, Option.map_eq_none_iff]

theorem isUpper_iff {c : Char} : isUpper c = true ↔ 65 ≤ c.toNat ∧ c.toNat ≤ 90 := by
  simp only [isUpper, Bool.and_eq_true, decide_eq_true_eq, Char.le_def, UInt32.le_iff_toNat_le]
  exact Iff.rfl

theorem isLower_iff {c : Char} : isLower c = true ↔ 97 ≤ c.toNat ∧ c.toNat ≤ 122 := by
  simp only [isLower, Bool.and_eq_true, decide_eq_true_eq, Char.le_def, UInt32.le_iff_toNat_le]
  exact Iff.rfl

theorem isDigit_iff {c : Char} : isDigit c = true ↔ 48 ≤ c.toNat ∧ c.toNat ≤ 57 := by
  simp only [isDigit, Bool.and_eq_true, decide_eq_true_eq, Char.le_def, UInt32.le_iff_toNat_le]
  exact Iff.rfl

theorem toNat_lt_of_isWordChar {c : Char} (h : isWordChar c = true) : c.toNat < 123 := by
  simp only [isWordChar, Bool.or_eq_true, isUpper_iff, isLower_iff, isDigit_iff] at h
  omega

/-- The characters of words can be gone through one by one. -/
theorem wordChar_induction {P : Char → Prop} (hP : ∀ n < 123, isWordChar (Char.ofNat n) = true → P (Char.ofNat n))
    {c : Char} (h : isWordChar c = true) : P c := by
  have hc := hP c.toNat (toNat_lt_of_isWordChar h)
  rw [Char.ofNat_toNat] at hc
  exact hc h

/-- Among the characters of words, only the digits of ASCII become digits as capitals. -/
theorem isDigit_toUpper {c : Char} (h : isWordChar c = true) : Text.isDigit c.toUpper = isDigit c :=
  wordChar_induction (P := fun c => Text.isDigit c.toUpper = isDigit c) (by decide +kernel) h

theorem toUpper_ne_underscore {c : Char} (h : isWordChar c = true) : c.toUpper ≠ '_' :=
  wordChar_induction (P := fun c => c.toUpper ≠ '_') (by decide +kernel) h

theorem startsWithDigit_pascalCase (uid : String) :
    startsWithDigit (pascalCase uid) = (firstWordChar? uid).any isDigit := by
  rw [startsWithDigit, head?_pascalCase]
  cases hc : firstWordChar? uid with
  | none => rfl
  | some c => exact isDigit_toUpper (List.find?_some hc)

theorem startsWithDigit_append_of_ne {a : String} (h : a ≠ "") (b : String) :
    startsWithDigit (a ++ b) = startsWithDigit a := by
  rw [startsWithDigit, startsWithDigit, String.toList_append]
  cases ha : a.toList with
  | nil => exact absurd (String.toList_eq_nil_iff.1 ha) h
  | cons c rest => rfl

theorem declare_eq_empty_iff (lead uid : String) :
    declare lead uid = "" ↔ lead = "" ∧ firstWordChar? uid = none := by
  rw [declare, String.append_eq_empty_iff, pascalCase_eq_empty_iff]

theorem declare?_ok {lead name : String} {uid : Json} (h : declare? lead uid = .ok name) :
    ∃ s, uid = .text s ∧ name = declare lead s := by
  cases uid with
  | text s => exact ⟨s, rfl, (Except.ok.inj h).symm⟩
  | _ => cases h

/-- A name begins with a digit if the lead does, or if there is no lead and the first letter or digit of
the identifier is a digit. -/
theorem startsWithDigit_declare (lead uid : String) :
    startsWithDigit (declare lead uid) =
      if lead = "" then (firstWordChar? uid).any isDigit else startsWithDigit lead := by
  by_cases h : lead = ""
  · subst h
    rw [if_pos rfl, declare, String.empty_append, startsWithDigit_pascalCase]
  · rw [if_neg h, declare, startsWithDigit_append_of_ne h]

theorem firstFree_numbered (base : String) (taken : List String) (attempts n : Nat) :
    ∃ m, n ≤ m ∧ firstFree base taken attempts n = (numbered base m, m + 1) ∧
      ∀ k, n ≤ k → k < m → numbered base k ∈ taken := by
  have hhere : ∀ k, n ≤ k → k < n → numbered base k ∈ taken := by omega
  induction attempts generalizing n with
  | zero => exact ⟨n, Nat.le_refl n, rfl, hhere⟩
  | succ attempts ih =>
    rw [firstFree]
    split
    next hn =>
      obtain ⟨m, hm, heq, hbelow⟩ := ih (n + 1) (by omega)
      refine ⟨m, by omega, heq, fun k hk hkm => ?_⟩
      rcases Nat.eq_or_lt_of_le hk with rfl | hk
      · exact hn
      · exact hbelow k hk hkm
    next => exact ⟨n, Nat.le_refl n, rfl, hhere⟩

/-- The name is the base itself or the base with a number. -/
inductive Extends (base : String) : String → Prop
  | plain : Extends base base
  | numbered (n : Nat) : Extends base (numbered base n)

theorem unique_extends (base : String) (taken : List String) (counter : Nat) :
    Extends base (unique base taken counter).1 := by
  unfold unique
  split
  · obtain ⟨m, -, hm, -⟩ := firstFree_numbered base taken taken.length counter
    rw [hm]
    exact .numbered m
  · exact .plain

theorem Extends.usable {base name : String} (h : Extends base name) (hne : base ≠ "")
    (hu : isUsableName base = true) : name ≠ "" ∧ isUsableName name = true := by
  cases h with
  | plain => exact ⟨hne, hu⟩
  | numbered n =>
    refine ⟨fun he => hne (String.append_eq_empty_iff.1 he).1, ?_⟩
    rw [isUsableName, Naming.numbered, startsWithDigit_append_of_ne hne]
    exact hu

end SchemaDecl.Naming

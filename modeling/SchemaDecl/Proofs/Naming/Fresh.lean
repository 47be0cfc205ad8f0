import SchemaDecl.Naming.Allocator

/-!
# Fresh names

The allocator tries more numbers than there are taken names, and different numbers give different names.
So the name that it finds is free.
-/

namespace SchemaDecl.Naming

variable {base : String} {taken : List String}

theorem numbered_injective {n m : Nat} (h : numbered base n = numbered base m) : n = m := by
  have hrepr : Nat.repr n = Nat.repr m := (String.append_right_inj base).1 h
  have hdigits : Nat.toDigits 10 n = Nat.toDigits 10 m := by
    have hlist := congrArg String.toList hrepr
    simpa only [Nat.toList_repr] using hlist
  have hread := congrArg (fun digits => Nat.ofDigitChars 10 digits 0) hdigits
  simpa only [Nat.ofDigitChars_ten_toDigits] using hread

theorem numbered_nodup (base : String) (n count : Nat) :
    ((List.range' n count).map (numbered base)).Nodup := by
  have hrange : (List.range' n count).Nodup := List.nodup_range' 1
  rw [List.Nodup, List.pairwise_map]
  exact List.Pairwise.imp (fun hne h => hne (numbered_injective h)) hrange

/-- If the search ends at a taken name, all the names that it tried are taken. -/
theorem firstFree_taken {attempts n : Nat} (h : (firstFree base taken attempts n).1 ∈ taken) :
    (List.range' n (attempts + 1)).map (numbered base) ⊆ taken := by
  induction attempts generalizing n with
  | zero => simpa [firstFree] using h
  | succ attempts ih =>
    rw [firstFree] at h
    split at h
    next hmem =>
      rw [List.range'_succ, List.map_cons]
      exact List.cons_subset.2 ⟨hmem, ih h⟩
    next hmem => exact absurd h hmem

theorem firstFree_not_mem (base : String) (taken : List String) (n : Nat) :
    (firstFree base taken taken.length n).1 ∉ taken := by
  intro h
  have hle := (numbered_nodup base n (taken.length + 1)).length_le_of_subset (firstFree_taken h)
  rw [List.length_map, List.length_range'] at hle
  omega

theorem unique_not_mem (base : String) (taken : List String) (counter : Nat) :
    (unique base taken counter).1 ∉ taken := by
  unfold unique
  split
  next => exact firstFree_not_mem base taken counter
  next h => exact h

end SchemaDecl.Naming

import SchemaDecl.Table

/-!
# Distinct names

Storing keeps the names of a table distinct. A table with distinct names holds an entry exactly if its name
is found with that value, and what a second table holds goes over what the first held.
-/

namespace SchemaDecl.Table

variable {α : Type} {name other : String} {value a : α} {table newer : Table α}

theorem mem_names_put : other ∈ names (put name value table) ↔ other = name ∨ other ∈ names table := by
  rw [← has_iff_mem_names, ← has_iff_mem_names, has, has, get?_put]
  split
  next h => simp [h]
  next h => simp [Ne.symm h]

theorem get?_eq_none (h : name ∉ names table) : get? name table = none := by
  rw [← Option.not_isSome_iff_eq_none]
  exact mt (has_iff_mem_names name table).1 h

theorem has_put_self : has name (put name value table) = true := by
  rw [has, get?_put, if_pos rfl]
  rfl

theorem has_put_of_ne (h : name ≠ other) : has other (put name value table) = has other table := by
  rw [has, get?_put, if_neg h, has]

theorem has_put (h : has other table = true) (name : String) (value : α) :
    has other (put name value table) = true := by
  by_cases heq : name = other
  · rw [heq, has_put_self]
  · rwa [has_put_of_ne heq]

theorem has_erase_self : has name (erase name table) = false := by
  rw [has, get?_erase, if_pos rfl]
  rfl

theorem has_erase_of_ne (h : name ≠ other) : has other (erase name table) = has other table := by
  rw [has, get?_erase, if_neg h, has]

theorem has_erase (h : has other table = false) (name : String) : has other (erase name table) = false := by
  by_cases heq : name = other
  · rw [heq, has_erase_self]
  · rwa [has_erase_of_ne heq]

theorem names_filter_sublist (p : String × α → Bool) (table : Table α) :
    (names (table.filter p)).Sublist (names table) :=
  List.filter_sublist.map Prod.fst

theorem nodup_put (h : (names table).Nodup) (name : String) (value : α) :
    (names (put name value table)).Nodup := by
  by_cases hm : name ∈ names table
  · rwa [names_put_of_mem hm]
  · rw [put_of_not_mem hm, names, List.map_append]
    refine List.nodup_append.2 ⟨h, by simp, ?_⟩
    rintro n hn _ hname rfl
    rw [List.mem_singleton.1 hname] at hn
    exact hm hn

theorem nodup_update (h : (names table).Nodup) (newer : Table α) : (names (update table newer)).Nodup := by
  induction newer generalizing table with
  | nil => exact h
  | cons e rest ih => exact ih (nodup_put h e.1 e.2)

theorem get?_eq_some_iff (h : (names table).Nodup) : get? name table = some a ↔ (name, a) ∈ table := by
  refine ⟨mem_of_get?, fun hm => ?_⟩
  induction table with
  | nil => cases hm
  | cons e rest ih =>
    obtain ⟨n, b⟩ := e
    obtain ⟨hn, hrest⟩ := List.nodup_cons.1 h
    rw [get?]
    rcases List.mem_cons.1 hm with heq | hm
    · cases heq
      exact if_pos rfl
    · have hne : n ≠ name := by
        rintro rfl
        exact hn (List.mem_map.2 ⟨_, hm, rfl⟩)
      rw [if_neg hne]
      exact ih hrest hm

theorem get?_update (h : (names newer).Nodup) :
    get? name (update table newer) = (get? name newer).or (get? name table) := by
  induction newer generalizing table with
  | nil => rfl
  | cons e rest ih =>
    obtain ⟨n, b⟩ := e
    obtain ⟨hn, hrest⟩ := List.nodup_cons.1 h
    change get? name (update (put n b table) rest) = _
    rw [ih hrest, get?_put, get?]
    split
    next heq =>
      -- the name comes first in the newer table, and so not again
      rw [get?_eq_none (heq ▸ hn)]
      rfl
    next => rfl

theorem mem_update (h : (name, a) ∈ update table newer) : (name, a) ∈ newer ∨ (name, a) ∈ table := by
  induction newer generalizing table with
  | nil => exact .inr h
  | cons e rest ih =>
    rcases ih h with hrest | hput
    · exact .inl (List.mem_cons_of_mem _ hrest)
    · rcases mem_put hput with ⟨rfl, rfl⟩ | htable
      · exact .inl List.mem_cons_self
      · exact .inr htable

theorem mem_of_mem_ofPairs (h : (name, a) ∈ ofPairs table) : (name, a) ∈ table :=
  (mem_update h).resolve_right List.not_mem_nil

theorem mem_names_update : name ∈ names (update table newer) ↔ name ∈ names newer ∨ name ∈ names table := by
  induction newer generalizing table with
  | nil => exact ⟨.inr, fun h => h.resolve_left List.not_mem_nil⟩
  | cons e rest ih =>
    change name ∈ names (update (put e.1 e.2 table) rest) ↔ name ∈ e.1 :: names rest ∨ name ∈ names table
    rw [ih, mem_names_put, List.mem_cons, ← or_assoc, @or_comm (name ∈ names rest)]

/-- Of entries that are stored one after the other, the last under a name holds. -/
theorem get?_update_ofPairs (table newer : Table α) :
    get? name (update table newer) = (get? name (ofPairs newer)).or (get? name table) := by
  induction newer generalizing table with
  | nil => rfl
  | cons e rest ih =>
    obtain ⟨n, b⟩ := e
    change get? name (update (put n b table) rest) = (get? name (update [(n, b)] rest)).or _
    rw [ih (put n b table), ih [(n, b)], get?_put, Option.or_assoc, get?, get?]
    split <;> rfl

/-- Entries under names of their own are appended. -/
theorem update_of_nodup (h : (names (table ++ newer)).Nodup) : update table newer = table ++ newer := by
  induction newer generalizing table with
  | nil => rw [List.append_nil, update, List.foldl_nil]
  | cons e rest ih =>
    obtain ⟨n, b⟩ := e
    have hsplit : table ++ (n, b) :: rest = table ++ [(n, b)] ++ rest := by simp
    have hnew : n ∉ names table := fun hm => by
      rw [names, List.map_append] at h
      exact (List.nodup_append.1 h).2.2 n hm n List.mem_cons_self rfl
    change update (put n b table) rest = _
    rw [put_of_not_mem hnew, hsplit]
    exact ih (hsplit ▸ h)

theorem ofPairs_of_nodup (h : (names table).Nodup) : ofPairs table = table :=
  update_of_nodup h

end SchemaDecl.Table

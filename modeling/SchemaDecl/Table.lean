/-!
# Tables

A table is a list of values under distinct names in the order of first insertion. `get?_put` and
`get?_erase` say what storing and removing do to what is found.
-/

namespace SchemaDecl

abbrev Table (α : Type) := List (String × α)

namespace Table

variable {α : Type}

def get? (name : String) : Table α → Option α
  | [] => none
  | (n, a) :: rest => if n = name then some a else get? name rest

def has (name : String) (table : Table α) : Bool := (get? name table).isSome

def names (table : Table α) : List String := table.map Prod.fst

/-- Stores a value: in place where the name is present, else at the end. -/
def put (name : String) (value : α) : Table α → Table α
  | [] => [(name, value)]
  | (n, a) :: rest => if n = name then (n, value) :: rest else (n, a) :: put name value rest

/-- Stores every entry of `newer` in order. -/
def update (table newer : Table α) : Table α := newer.foldl (fun t (n, a) => put n a t) table

/-- The table of a list of pairs, the last value of a name in the place of its first. -/
def ofPairs (pairs : List (String × α)) : Table α := update [] pairs

def erase (name : String) (table : Table α) : Table α := table.filter fun (n, _) => n ≠ name

theorem get?_put (name other : String) (value : α) (table : Table α) :
    get? other (put name value table) = if name = other then some value else get? other table := by
  induction table with
  | nil => simp [put, get?]
  | cons e rest ih =>
    obtain ⟨n, a⟩ := e
    unfold put
    by_cases h : n = name
    · subst h
      by_cases h' : n = other <;> simp [get?, h']
    · by_cases h' : n = other
      · subst h'
        simp [get?, h, Ne.symm h]
      · simp [get?, h, h', ih]

theorem get?_erase (name other : String) (table : Table α) :
    get? other (erase name table) = if name = other then none else get? other table := by
  induction table with
  | nil => simp [erase, get?]
  | cons e rest ih =>
    obtain ⟨n, a⟩ := e
    unfold erase at ih ⊢
    by_cases h : n = name
    · subst h
      by_cases h' : n = other <;> simp_all [get?]
    · by_cases h' : n = other
      · subst h'
        simp [get?, h, Ne.symm h]
      · simp_all [get?]

theorem has_iff_mem_names (name : String) (table : Table α) :
    has name table = true ↔ name ∈ names table := by
  induction table with
  | nil => simp [has, get?, names]
  | cons e rest ih =>
    obtain ⟨n, a⟩ := e
    by_cases h : n = name
    · simp [has, get?, names, h]
    · simp_all [has, get?, names, Ne.symm h]

theorem put_of_not_mem {name : String} {table : Table α} (h : name ∉ names table) (value : α) :
    put name value table = table ++ [(name, value)] := by
  induction table with
  | nil => rfl
  | cons e rest ih =>
    obtain ⟨n, a⟩ := e
    have hn : n ≠ name ∧ name ∉ names rest := by simp_all [names, eq_comm]
    rw [put, if_neg hn.1, ih hn.2, List.cons_append]

theorem put_append_of_not_mem {name : String} {table : Table α} (h : name ∉ names table) (value : α)
    (rest : Table α) : put name value (table ++ rest) = table ++ put name value rest := by
  induction table with
  | nil => rfl
  | cons e table ih =>
    obtain ⟨n, a⟩ := e
    have hn : n ≠ name ∧ name ∉ names table := by simp_all [names, eq_comm]
    rw [List.cons_append, put, if_neg hn.1, ih hn.2, List.cons_append]

theorem names_put_of_mem {name : String} {table : Table α} (h : name ∈ names table) (value : α) :
    names (put name value table) = names table := by
  induction table with
  | nil => cases h
  | cons e rest ih =>
    obtain ⟨n, a⟩ := e
    by_cases hn : n = name
    · rw [put, if_pos hn]
      rfl
    · have hrest : name ∈ names rest := by simp_all [names, eq_comm]
      rw [put, if_neg hn]
      exact congrArg (n :: ·) (ih hrest)

theorem mem_put {name n : String} {value a : α} {table : Table α} (h : (n, a) ∈ put name value table) :
    n = name ∧ a = value ∨ (n, a) ∈ table := by
  induction table with
  | nil => exact .inl (by simpa [put] using h)
  | cons e rest ih =>
    obtain ⟨n', a'⟩ := e
    rw [put] at h
    split at h
    next hn =>
      rcases List.mem_cons.1 h with h | h
      · cases h
        exact .inl ⟨hn, rfl⟩
      · exact .inr (List.mem_cons_of_mem _ h)
    next =>
      rcases List.mem_cons.1 h with h | h
      · exact .inr (h ▸ List.mem_cons_self)
      · exact (ih h).imp_right (List.mem_cons_of_mem _)

theorem mem_of_get? {name : String} {table : Table α} {a : α} (h : get? name table = some a) :
    (name, a) ∈ table := by
  induction table with
  | nil => cases h
  | cons e rest ih =>
    obtain ⟨n, b⟩ := e
    rw [get?] at h
    split at h
    next hn => rw [← Option.some.inj h, hn]; exact List.mem_cons_self
    next => exact List.mem_cons_of_mem _ (ih h)

end Table

end SchemaDecl

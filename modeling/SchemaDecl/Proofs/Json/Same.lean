import SchemaDecl.Json.Basic

/-!
# Equality of values

Two values are the same if they are equal up to the order of entries in objects and the kind of numbers. How
deep a value is nested does not tell it from the values that are the same.
-/

namespace SchemaDecl.Json

mutual

/-- Equality of values: numbers by their value, objects whatever the order of their entries. -/
def same : Json → Json → Bool
  | list as, list bs => sameItems as bs
  | object as, object bs => as.length == bs.length && entriesIn as bs
  | a, b => a.sameKey b

def sameItems : List Json → List Json → Bool
  | [], [] => true
  | a :: as, b :: bs => same a b && sameItems as bs
  | _, _ => false

/-- Every entry stands among the others, with the same value. -/
def entriesIn : List (String × Json) → List (String × Json) → Bool
  | [], _ => true
  | (key, a) :: rest, bs => bs.any (fun (k, b) => decide (k = key) && same a b) && entriesIn rest bs

end

theorem sameKey_self (a : Json) (h : a.isKey = true) : a.sameKey a = true := by
  cases a with
  | bool b => cases b <;> rfl
  | float x => simp [sameKey, Binary64.sameValue]
  | list items => cases h
  | object entries => cases h
  | _ => simp [sameKey, asInt?]

theorem sameKey_text {key : Json} {s : String} (h : key.sameKey (.text s) = true) : key = .text s := by
  cases key with
  | text t => exact congrArg text (of_decide_eq_true h)
  | float x => simp [sameKey, asInt?] at h
  | _ => simp [sameKey, asInt?] at h

theorem entriesIn_of_forall {as bs : List (String × Json)}
    (h : ∀ key a, (key, a) ∈ as → (key, a) ∈ bs ∧ same a a = true) : entriesIn as bs = true := by
  induction as with
  | nil => rfl
  | cons e rest ih =>
    obtain ⟨key, a⟩ := e
    obtain ⟨hm, hsame⟩ := h key a List.mem_cons_self
    rw [entriesIn, Bool.and_eq_true]
    exact ⟨List.any_eq_true.2 ⟨(key, a), hm, by simp [hsame]⟩, ih fun k b hb => h k b (List.mem_cons_of_mem _ hb)⟩

mutual

theorem same_self : ∀ a : Json, same a a = true
  | null => rfl
  | bool b => sameKey_self (bool b) rfl
  | int i => sameKey_self (int i) rfl
  | float x => sameKey_self (float x) rfl
  | text s => sameKey_self (text s) rfl
  | list items => by rw [same]; exact sameItems_self items
  | object entries => by
    rw [same, entriesIn_of_forall fun key a hm => ⟨hm, same_self_of_mem entries key a hm⟩]
    simp

theorem sameItems_self : ∀ as : List Json, sameItems as as = true
  | [] => rfl
  | a :: as => by rw [sameItems, same_self a, sameItems_self as]; rfl

theorem same_self_of_mem : ∀ (as : List (String × Json)) (key : String) (a : Json), (key, a) ∈ as → same a a = true
  | [], _, _, h => by cases h
  | (_, b) :: rest, key, a, h => by
    rcases List.mem_cons.1 h with heq | h
    · cases heq
      exact same_self b
    · exact same_self_of_mem rest key a h

end

theorem same_object {as : List (String × Json)} {b : Json} (h : same (object as) b = true) :
    ∃ bs, b = object bs ∧ entriesIn as bs = true := by
  cases b with
  | object bs =>
    rw [same, Bool.and_eq_true] at h
    exact ⟨bs, rfl, h.2⟩
  | _ => simp [same, sameKey, asInt?] at h

theorem mem_of_entriesIn {as bs : List (String × Json)} {key : String} {a : Json} (h : entriesIn as bs = true)
    (hm : (key, a) ∈ as) : ∃ b, (key, b) ∈ bs ∧ same a b = true := by
  induction as with
  | nil => cases hm
  | cons e rest ih =>
    obtain ⟨other, c⟩ := e
    rw [entriesIn, Bool.and_eq_true] at h
    rcases List.mem_cons.1 hm with heq | hm
    · cases heq
      obtain ⟨⟨k, b⟩, hb, hentry⟩ := List.any_eq_true.1 h.1
      obtain ⟨hkey, hsame⟩ := Bool.and_eq_true_iff.1 hentry
      exact ⟨b, of_decide_eq_true hkey ▸ hb, hsame⟩
    · exact ih h.2 hm

mutual

/-- How many lists and objects that are not empty are around the innermost value. -/
def depth : Json → Nat
  | list items => depthItems items
  | object entries => depthEntries entries
  | _ => 0

def depthItems : List Json → Nat
  | [] => 0
  | item :: rest => max (depth item + 1) (depthItems rest)

def depthEntries : List (String × Json) → Nat
  | [] => 0
  | (_, value) :: rest => max (depth value + 1) (depthEntries rest)

end

theorem depth_lt_list {items : List Json} {item : Json} (h : item ∈ items) : item.depth < (list items).depth := by
  rw [depth]
  induction items with
  | nil => cases h
  | cons other rest ih =>
    rw [depthItems]
    rcases List.mem_cons.1 h with rfl | h
    · exact Nat.lt_of_lt_of_le (Nat.lt_succ_self _) (Nat.le_max_left _ _)
    · exact Nat.lt_of_lt_of_le (ih h) (Nat.le_max_right _ _)

theorem depth_lt_object {entries : List (String × Json)} {key : String} {value : Json} (h : (key, value) ∈ entries) :
    value.depth < (object entries).depth := by
  rw [depth]
  induction entries with
  | nil => cases h
  | cons e rest ih =>
    rw [depthEntries]
    rcases List.mem_cons.1 h with rfl | h
    · exact Nat.lt_of_lt_of_le (Nat.lt_succ_self _) (Nat.le_max_left _ _)
    · exact Nat.lt_of_lt_of_le (ih h) (Nat.le_max_right _ _)

mutual

theorem depth_le_of_same : ∀ {a b : Json}, same a b = true → a.depth ≤ b.depth
  | null, _, _ => Nat.zero_le _
  | bool _, _, _ => Nat.zero_le _
  | int _, _, _ => Nat.zero_le _
  | float _, _, _ => Nat.zero_le _
  | text _, _, _ => Nat.zero_le _
  | list as, b, h => by
    cases b with
    | list bs =>
      rw [same] at h
      exact depth_le_of_sameItems h
    | _ => simp [same, sameKey, asInt?] at h
  | object as, b, h => by
    obtain ⟨bs, rfl, hentries⟩ := same_object h
    exact depth_le_of_entriesIn hentries

theorem depth_le_of_sameItems : ∀ {as bs : List Json}, sameItems as bs = true → depthItems as ≤ depthItems bs
  | [], _, _ => Nat.zero_le _
  | a :: as, bs, h => by
    cases bs with
    | nil => simp [sameItems] at h
    | cons b bs =>
      rw [sameItems, Bool.and_eq_true] at h
      have hitem := depth_le_of_same h.1
      have hrest := depth_le_of_sameItems h.2
      rw [depthItems, depthItems]
      omega

theorem depth_le_of_entriesIn : ∀ {as bs : List (String × Json)}, entriesIn as bs = true →
    depthEntries as ≤ (object bs).depth
  | [], _, _ => Nat.zero_le _
  | (key, a) :: rest, bs, h => by
    have hrest := h
    rw [entriesIn, Bool.and_eq_true] at hrest
    obtain ⟨b, hb, hsame⟩ := mem_of_entriesIn h List.mem_cons_self
    have hvalue : a.depth < (object bs).depth := Nat.lt_of_le_of_lt (depth_le_of_same hsame) (depth_lt_object hb)
    rw [depthEntries]
    exact Nat.max_le.2 ⟨hvalue, depth_le_of_entriesIn hrest.2⟩

end

end SchemaDecl.Json

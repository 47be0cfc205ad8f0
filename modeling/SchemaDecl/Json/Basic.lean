import SchemaDecl.Number.Binary64
import SchemaDecl.Table

/-!
# JSON values

Documents, settings and choices are JSON values. Whole numbers and floating-point numbers are apart, and
an object keeps its entries in the order of first insertion with distinct keys. `truthy` is the
presence test of every optional setting; `sameKey` is the equality of values as keys of a table, by
which the numbers `1` and `1.0` and the truth value `true` are one key.
-/

namespace SchemaDecl

inductive Json
  | null
  | bool (value : Bool)
  | int (value : Int)
  | float (value : Binary64)
  | text (value : String)
  | list (items : List Json)
  | object (entries : List (String × Json))
  deriving Inhabited

abbrev Entries := Table Json

/-- The value under a key, `null` where the key is absent. -/
def Entries.getD (key : String) (entries : Entries) : Json := (Table.get? key entries).getD .null

namespace Json

/-- The empty values are not present: `null`, `false`, zero, and empty texts, lists and objects. -/
def truthy : Json → Bool
  | null => false
  | bool b => b
  | int i => i != 0
  | float x => x.isNonzero
  | text s => s != ""
  | list items => !items.isEmpty
  | object entries => !entries.isEmpty

def orElse (value fallback : Json) : Json := if value.truthy then value else fallback

def kindName : Json → String
  | null => "NoneType"
  | bool _ => "bool"
  | int _ => "int"
  | float _ => "float"
  | text _ => "str"
  | list _ => "list"
  | object _ => "dict"

def isKey : Json → Bool
  | list _ | object _ => false
  | _ => true

/-- The whole number that a truth value or whole number stands for as a key. -/
def asInt? : Json → Option Int
  | bool b => some (if b then 1 else 0)
  | int i => some i
  | _ => none

/-- Equality of two values as keys. -/
def sameKey (a b : Json) : Bool :=
  match a, b with
  | null, null => true
  | text s, text t => s = t
  | float x, float y => x.sameValue y
  | float x, b => (b.asInt?).any x.eqInt
  | a, float y => (a.asInt?).any y.eqInt
  | a, b => match a.asInt?, b.asInt? with
    | some i, some j => i = j
    | _, _ => false

mutual

def beq : Json → Json → Bool
  | null, null => true
  | bool a, bool b => a == b
  | int a, int b => a == b
  | float a, float b => a == b
  | text a, text b => a == b
  | list a, list b => beqItems a b
  | object a, object b => beqEntries a b
  | _, _ => false

def beqItems : List Json → List Json → Bool
  | [], [] => true
  | a :: as, b :: bs => beq a b && beqItems as bs
  | _, _ => false

def beqEntries : List (String × Json) → List (String × Json) → Bool
  | [], [] => true
  | (k, a) :: as, (l, b) :: bs => k == l && beq a b && beqEntries as bs
  | _, _ => false

end

instance : BEq Json := ⟨beq⟩

mutual

theorem eq_of_beq : ∀ {a b : Json}, beq a b = true → a = b
  | null, b, h => by cases b <;> simp_all [beq]
  | bool _, b, h => by cases b <;> simp_all [beq]
  | int _, b, h => by cases b <;> simp_all [beq]
  | float _, b, h => by cases b <;> simp_all [beq]
  | text _, b, h => by cases b <;> simp_all [beq]
  | list a, b, h => by
    cases b with
    | list b => rw [beq] at h; rw [eq_of_beqItems h]
    | _ => simp [beq] at h
  | object a, b, h => by
    cases b with
    | object b => rw [beq] at h; rw [eq_of_beqEntries h]
    | _ => simp [beq] at h

theorem eq_of_beqItems : ∀ {as bs : List Json}, beqItems as bs = true → as = bs
  | [], bs, h => by cases bs <;> simp_all [beqItems]
  | a :: as, bs, h => by
    cases bs with
    | nil => simp [beqItems] at h
    | cons b bs =>
      rw [beqItems, Bool.and_eq_true] at h
      rw [eq_of_beq h.1, eq_of_beqItems h.2]

theorem eq_of_beqEntries : ∀ {as bs : List (String × Json)}, beqEntries as bs = true → as = bs
  | [], bs, h => by cases bs <;> simp_all [beqEntries]
  | (k, a) :: as, bs, h => by
    cases bs with
    | nil => simp [beqEntries] at h
    | cons b bs =>
      obtain ⟨l, b⟩ := b
      rw [beqEntries, Bool.and_eq_true, Bool.and_eq_true, beq_iff_eq] at h
      rw [h.1.1, eq_of_beq h.1.2, eq_of_beqEntries h.2]

end

mutual

theorem beq_self : ∀ a : Json, beq a a = true
  | null => rfl
  | bool _ => by simp [beq]
  | int _ => by simp [beq]
  | float _ => by simp [beq]
  | text _ => by simp [beq]
  | list a => by rw [beq, beqItems_self]
  | object a => by rw [beq, beqEntries_self]

theorem beqItems_self : ∀ as : List Json, beqItems as as = true
  | [] => rfl
  | a :: as => by rw [beqItems, beq_self, beqItems_self]; rfl

theorem beqEntries_self : ∀ as : List (String × Json), beqEntries as as = true
  | [] => rfl
  | (k, a) :: as => by rw [beqEntries, beq_self, beqEntries_self]; simp

end

theorem beq_iff_eq {a b : Json} : beq a b = true ↔ a = b :=
  ⟨eq_of_beq, fun h => h ▸ beq_self a⟩

instance : DecidableEq Json := fun a b => decidable_of_iff (beq a b = true) beq_iff_eq

end Json

end SchemaDecl

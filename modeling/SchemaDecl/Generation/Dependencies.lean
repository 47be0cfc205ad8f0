/-!
# Names in use

The names that the fields of a schema made use of, by category. Each category is a set in
the order of first use.
-/

namespace SchemaDecl

inductive Category
  | javascript | contentstack | globalFields | contentTypes
  deriving DecidableEq, Repr

structure Dependencies where
  javascript : List String := []
  contentstack : List String := []
  globalFields : List String := []
  contentTypes : List String := []

namespace Dependencies

def withName (names : List String) (name : String) : List String :=
  if name ∈ names then names else names ++ [name]

def get (d : Dependencies) : Category → List String
  | .javascript => d.javascript
  | .contentstack => d.contentstack
  | .globalFields => d.globalFields
  | .contentTypes => d.contentTypes

def track (d : Dependencies) (category : Category) (names : List String) : Dependencies :=
  match category with
  | .javascript => { d with javascript := names.foldl withName d.javascript }
  | .contentstack => { d with contentstack := names.foldl withName d.contentstack }
  | .globalFields => { d with globalFields := names.foldl withName d.globalFields }
  | .contentTypes => { d with contentTypes := names.foldl withName d.contentTypes }

@[simp] theorem mem_withName {names : List String} {name n : String} :
    n ∈ withName names name ↔ n ∈ names ∨ n = name := by
  unfold withName
  split <;> simp_all

theorem mem_foldl_withName {names more : List String} {n : String} :
    n ∈ more.foldl withName names ↔ n ∈ names ∨ n ∈ more := by
  induction more generalizing names with
  | nil => simp
  | cons m more ih => simp [ih, or_assoc]

theorem mem_track {d : Dependencies} {category c : Category} {names : List String} {n : String} :
    n ∈ (d.track category names).get c ↔ n ∈ d.get c ∨ c = category ∧ n ∈ names := by
  cases category <;> cases c <;> simp [track, get, mem_foldl_withName]

end Dependencies

end SchemaDecl

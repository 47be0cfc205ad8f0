import SchemaDecl.Naming.Policy
import SchemaDecl.Naming.Words

/-!
# Names of declarations

The name of a declaration is a lead that all names share, followed by the identifier in Pascal case. A
union of blocks takes the first name that is free, with a number after it where the plain name is taken;
the numbers come from one counter that never goes back.
-/

namespace SchemaDecl.Naming

def declare (lead uid : String) : String := lead ++ pascalCase uid

def declare? (lead : String) : Json → Except Fault String
  | .text uid => .ok (declare lead uid)
  | uid => .error (.notText uid.kindName)

/-- Stands in for a name that cannot be used. -/
def placeholder (name : String) : String := "_" ++ name

def numbered (base : String) (n : Nat) : String := base ++ toString n

/-- The first free name among `base` with the numbers from `n` on, and the number after it. Of
`attempts + 1` numbers one is free if at most `attempts` names are taken. -/
def firstFree (base : String) (taken : List String) : Nat → Nat → String × Nat
  | 0, n => (numbered base n, n + 1)
  | attempts + 1, n =>
    if numbered base n ∈ taken then firstFree base taken attempts (n + 1) else (numbered base n, n + 1)

/-- A name that is not taken, and the counter after it. -/
def unique (base : String) (taken : List String) (counter : Nat) : String × Nat :=
  if base ∈ taken then firstFree base taken taken.length counter else (base, counter)

end SchemaDecl.Naming

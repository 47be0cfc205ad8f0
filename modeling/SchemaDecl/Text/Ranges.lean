/-!
# Character classes as ranges of code points

A class is a list of inclusive ranges in increasing order. `mem` looks a code point up and stops at
the first range that begins beyond it.
-/

namespace SchemaDecl.Text

/-- Inclusive ranges of code points, in increasing order. -/
abbrev Ranges := List (Nat × Nat)

namespace Ranges

def mem (n : Nat) : Ranges → Bool
  | [] => false
  | (lo, hi) :: rest => if n < lo then false else n ≤ hi || mem n rest

end Ranges

end SchemaDecl.Text

/-!
# Bars outside brackets

Whether a type is a union at its top level: it has a bar outside all brackets. Brackets are counted by
depth alone, whatever their kind.
-/

namespace SchemaDecl.TypeExpr

def isOpening (c : Char) : Bool := c = '(' || c = '\x7b' || c = '[' || c = '<'
def isClosing (c : Char) : Bool := c = ')' || c = '\x7d' || c = ']' || c = '>'

def depthAfter (depth : Int) (c : Char) : Int :=
  if isOpening c then depth + 1 else if isClosing c then depth - 1 else depth

/-- A bar at depth zero, for a text that begins at `depth`. -/
def barFrom (depth : Int) : List Char → Bool
  | [] => false
  | c :: rest => (c = '|' && depth = 0) || barFrom (depthAfter depth c) rest

def isUnion (text : String) : Bool := barFrom 0 text.toList

end SchemaDecl.TypeExpr

import SchemaDecl.TypeExpr.Style

/-!
# Type expressions

The types of fields as trees. A tree fixes what a type means; how it is spelled depends on the style.
-/

namespace SchemaDecl

inductive Primitive
  | string | number | boolean
  deriving DecidableEq, Repr

def Primitive.name : Primitive → String
  | string => "string"
  | number => "number"
  | boolean => "boolean"

mutual

inductive TypeExpr
  | primitive (p : Primitive)
  | link
  | file
  | folder
  | taxonomy
  | declared (name : String)
  /-- One of a fixed set of values; on number fields numerals are numbers. -/
  | choices (numeric : Bool) (values : List Json)
  /-- A list of entries of the named types. -/
  | references (names : List String)
  /-- A json field that an extension backs. -/
  | extension
  | richText
  /-- What cannot be typed any better. -/
  | fallback
  | object (members : List Member)
  | array (element : TypeExpr)
  /-- A list with at most so many items. -/
  | atMost (element : TypeExpr) (count : Json)

structure Member where
  uid : Json
  /-- What the member's comment says, if anything. -/
  label : Json
  isOptional : Bool
  isNullable : Bool
  type : TypeExpr

end

namespace TypeExpr

/-- The type of a field that holds several values, in number at most `count` where that is given. -/
def repeated (element : TypeExpr) (multiple : Bool) (count : Json) : TypeExpr :=
  if !multiple then element else if count.truthy then .atMost element count else .array element

end TypeExpr

end SchemaDecl

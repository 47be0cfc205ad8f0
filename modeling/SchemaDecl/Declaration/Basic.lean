import SchemaDecl.TypeExpr.Basic

/-!
# Declarations

A record becomes an interface. The unions of blocks that it is the first to use are declared right before
it and belong to it.
-/

namespace SchemaDecl

/-- A union of blocks: each block of the union under its uid. -/
structure BlockUnion where
  name : String
  blocks : List (Json × TypeExpr)

structure Interface where
  name : String
  description : Json := .null
  extendsSystem : Bool := false
  members : List Member

structure Declaration where
  unions : List BlockUnion
  main : Interface

end SchemaDecl

import SchemaDecl.Json.Basic

/-!
# Styles of output

The choices that change how declarations are written, the rules for what is declared aside.
-/

namespace SchemaDecl

structure Style where
  /-- The lead of every declaration name. -/
  lead : String := ""
  /-- Content types and unions extend the system fields. -/
  systemFields : Bool := false
  /-- Every list of members ends with the mappings of live preview. -/
  editableTags : Bool := false
  /-- References may also lead to entries of other types. -/
  referencedEntry : Bool := false
  /-- A taxonomy field may also hold a term. -/
  taxonomyEntry : Bool := false
  /-- Declarations and members carry comments. -/
  documented : Bool := true
  deriving DecidableEq, Repr

/-- The declarations that stand before those of a schema. -/
inductive Builtin
  | referencedEntry | publishDetails | file | link | taxonomy | taxonomyEntry | systemFields
  deriving DecidableEq, Repr

def Builtin.baseName : Builtin → String
  | referencedEntry => "ReferencedEntry"
  | publishDetails => "PublishDetails"
  | file => "File"
  | link => "Link"
  | taxonomy => "Taxonomy"
  | taxonomyEntry => "TaxonomyEntry"
  | systemFields => "SystemFields"

/-- The name of a builtin declaration, with the lead that all names share. -/
def Style.nameOf (style : Style) (builtin : Builtin) : String := style.lead ++ builtin.baseName

end SchemaDecl

import SchemaDecl.Json.Display
import SchemaDecl.Naming.Policy

/-!
# Skipped items

What is left out of the output, where it stands in the schema, and why. A skip concerns a field or a
block; its message tells the two apart and names what the field or block refers to.
-/

namespace SchemaDecl

/-- A field, block or reference left out of the output. -/
structure SkippedItem where
  uid : Json
  path : Json
  reason : String
  deriving DecidableEq

inductive SkipCause
  /-- The uid of a field or block cannot name a member. -/
  | unusableUid
  | unknownKind (tag : String)
  /-- One target of a reference; the item is the target itself. -/
  | unusableReference
  /-- The global field that a field or block refers to. -/
  | unusableGlobal (target : Json)
  | noSchema
  deriving DecidableEq

inductive SkipPlace
  | field | block
  deriving DecidableEq, Repr

namespace SkipCause

def reason : SkipCause → String
  | unusableUid | unusableReference | unusableGlobal _ => Naming.digitReason
  | unknownKind _ => "Unsupported data type"
  | noSchema => "Schema not found for global field"

def quoted (s : String) : String := "\"" ++ s ++ "\""

def message (cause : SkipCause) (place : SkipPlace) (uid path : Json) : String :=
  let name := quoted uid.display
  match cause with
  | unusableUid =>
    let what := match place with
      | .field => "field "
      | .block => "block "
    "Skipped " ++ what ++ name ++ " at path " ++ quoted path.display ++ ": " ++ cause.reason
  | unknownKind tag =>
    "Skipped field " ++ name ++ " with unknown type " ++ quoted tag ++ ": " ++ cause.reason
  | unusableReference => "Skipped reference to content type " ++ name ++ ": " ++ cause.reason
  | unusableGlobal target =>
    "Skipped global field reference " ++ name ++ " to " ++ quoted target.display ++ ": " ++ cause.reason
  | noSchema =>
    "Skipped global field " ++ name ++ ": " ++ cause.reason ++ ". Did you forget to include it?"

end SkipCause

/-- The path of a member below a parent; a parent without a path adds nothing. -/
def joinPath (parent uid : Json) : Json :=
  if parent.truthy then .text (parent.display ++ "." ++ uid.display) else uid

/-- What a reporter is told: every skip as it happens, and at the end of a run all of them. -/
inductive Event
  | warn (message : String) (item : SkippedItem)
  | summary (fields blocks : List SkippedItem)
  deriving DecidableEq

end SchemaDecl

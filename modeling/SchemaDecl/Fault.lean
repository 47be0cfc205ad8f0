/-!
# Faults of documents

A schema document may hold any JSON value in any place. Reading and visiting it stops with a fault only
where a value is of no use at all for what is asked of it, and names the kind of that value.
-/

namespace SchemaDecl

inductive Fault
  /-- An entry was asked of something that is not an object. -/
  | notObject (kind : String)
  /-- Items were asked of something that has none. -/
  | notList (kind : String)
  /-- An entry was to be added to something that is not an object. -/
  | notExtensible (kind : String)
  /-- A name was to be formed from something that is not a text. -/
  | notText (kind : String)
  /-- The first character was asked of a number. -/
  | noHead (kind : String)
  /-- The first character was asked of an object. -/
  | headOfObject
  /-- The first character was asked of a list whose first item is not a text. -/
  | headNotText (kind : String)
  /-- A list or an object was to serve as a key. -/
  | notKey (kind : String)
  /-- A schema export that is neither a list nor an object. -/
  | unsupportedPayload (kind : String)
  /-- A record that is not an object. -/
  | notRecord (kind : String)
  /-- The bound on nested declarations was too small; no visit ends so. -/
  | budgetSpent
  deriving DecidableEq, Repr

namespace Fault

def ofKind (kind rest : String) : String := "'" ++ kind ++ "' object " ++ rest

def message : Fault → String
  | notObject kind => ofKind kind "has no attribute 'get'"
  | notList kind => ofKind kind "is not iterable"
  | notExtensible kind => ofKind kind "is not a mapping"
  | notText kind => "expected string or bytes-like object, got '" ++ kind ++ "'"
  | noHead kind => ofKind kind "is not subscriptable"
  | headOfObject => "0"
  | headNotText kind => ofKind kind "has no attribute 'isdigit'"
  | notKey kind => "unhashable type: '" ++ kind ++ "'"
  | unsupportedPayload kind => "Unsupported schema payload of type " ++ kind
  | notRecord kind => "Expected a schema object, got " ++ kind
  | budgetSpent => "declarations are nested too deeply"

end Fault

end SchemaDecl

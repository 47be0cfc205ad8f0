import SchemaDecl.Fault
import SchemaDecl.Json.Display

/-!
# Content schemas

A record is a content type or a global field: a named, ordered list of fields. A field of kind group
holds fields of its own, a field of kind blocks holds blocks, each with fields of its own or the name of
a global field. Attributes that only appear in the output keep the value they have in the document.
-/

namespace SchemaDecl

def asKey (value : Json) : Except Fault Json :=
  if value.isKey then .ok value else .error (.notKey value.kindName)

inductive Kind
  | text | number | boolean | isodate | file | link | taxonomy | reference | globalField | group | blocks
  | json | unknown
  deriving DecidableEq, Repr

namespace Kind

def tag : Kind → String
  | text => "text"
  | number => "number"
  | boolean => "boolean"
  | isodate => "isodate"
  | file => "file"
  | link => "link"
  | taxonomy => "taxonomy"
  | reference => "reference"
  | globalField => "global_field"
  | group => "group"
  | blocks => "blocks"
  | json => "json"
  | unknown => "unknown"

def known : List Kind :=
  [text, number, boolean, isodate, file, link, taxonomy, reference, globalField, group, blocks, json]

/-- The kind with a tag; any other tag is of unknown kind. -/
def ofTag : Json → Kind
  | .text s => (known.find? fun k => k.tag = s).getD unknown
  | _ => unknown

end Kind

/-- What a field says of itself, its nested fields aside. -/
structure Attributes where
  uid : Json
  kind : Kind
  /-- The tag of the kind as it stands in the document. -/
  tag : String
  displayName : Json := .null
  displayType : Json := .null
  multiple : Bool := false
  maxInstance : Json := .null
  mandatory : Bool := false
  /-- The fixed set of values, if the field has one. -/
  choices : Option (List Json) := none
  /-- What a reference or a global field refers to. -/
  target : Json := .null
  metadata : Json := .object []
  config : Json := .object []

mutual

/-- A field; `schema?` is absent where the document gives no list of fields. -/
structure Field where
  attrs : Attributes
  schema? : Option (List Field)
  blocks : List Block

structure Block where
  uid : Json
  title : Json
  target : Json
  schema? : Option (List Field)

end

structure Record where
  uid : Json
  title : Json := .null
  description : Json := .null
  schema? : Option (List Field) := none
  isGlobal : Bool := false

def Record.fields (r : Record) : List Field := r.schema?.getD []

namespace Attributes

/-- What a field refers to, as a list; empty items are dropped. -/
def targets (a : Attributes) : Except Fault (List Json) :=
  if !a.target.truthy then .ok []
  else match a.target with
    | .text s => .ok [.text s]
    | .list items => .ok (items.filter Json.truthy)
    | .object entries => .ok ((entries.map fun (k, _) => Json.text k).filter Json.truthy)
    | target => .error (.notList target.kindName)

def metadata? (a : Attributes) (key : String) : Except Fault Json :=
  match a.metadata with
  | .object entries => .ok (Entries.getD key entries)
  | metadata => .error (.notObject metadata.kindName)

/-- A json field that an extension with settings of its own backs. -/
def isExtension (a : Attributes) : Except Fault Bool :=
  if a.config.truthy then (a.metadata? "extension").map Json.truthy else .ok false

def allowsRichText (a : Attributes) : Except Fault Bool :=
  (a.metadata? "allow_json_rte").map Json.truthy

/-- The choices that make up the type of the field: those of a field that is not boolean. -/
def literals? (a : Attributes) : Option (List Json) :=
  if a.kind = .boolean then none else a.choices.filter (!·.isEmpty)

end Attributes

end SchemaDecl

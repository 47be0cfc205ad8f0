import SchemaDecl.Schema.Basic

/-!
# Reading schemas

Fields, blocks and records from JSON documents. Keys that are absent have their defaults; a nested
schema counts only if it is a list.
-/

namespace SchemaDecl

def entriesOf : Json → Except Fault Entries
  | .object entries => .ok entries
  | value => .error (.notObject value.kindName)

/-- The fault of a text or an object in place of a list of objects: its items are texts. -/
def itemsNotObjects : Fault := .notObject (Json.text "").kindName

def choiceValue (choice : Json) : Except Fault Json := (entriesOf choice).map (Entries.getD "value")

/-- The values of the choices in an `enum` entry, if it offers any. -/
def readChoices : Json → Except Fault (Option (List Json))
  | .object entries =>
    let choices := Entries.getD "choices" entries
    if !choices.truthy then .ok none
    else match choices with
      | .list items => (items.mapM choiceValue).map some
      | .text _ | .object _ => .error itemsNotObjects
      | choices => .error (.notList choices.kindName)
  | _ => .ok none

def readAttributes (entries : Entries) (choices : Option (List Json)) : Attributes :=
  let tag := (Table.get? "data_type" entries).getD (.text "")
  { uid := (Table.get? "uid" entries).getD (.text "")
    kind := Kind.ofTag tag
    tag := tag.display
    displayName := Entries.getD "display_name" entries
    displayType := Entries.getD "display_type" entries
    multiple := (Entries.getD "multiple" entries).truthy
    maxInstance := Entries.getD "max_instance" entries
    mandatory := (Entries.getD "mandatory" entries).truthy
    choices
    target := Entries.getD "reference_to" entries
    metadata := (Entries.getD "field_metadata" entries).orElse (.object [])
    config := (Entries.getD "config" entries).orElse (.object []) }

mutual

def readField : Json → Except Fault Field
  | .object entries => do
    let choices ← readChoices (Entries.getD "enum" entries)
    let schema? ← readSchema entries
    let blocks ← readBlocksEntry entries
    return ⟨readAttributes entries choices, schema?, blocks⟩
  | value => .error (.notObject value.kindName)

def readFields : List Json → Except Fault (List Field)
  | [] => .ok []
  | item :: rest => do
    let field ← readField item
    let fields ← readFields rest
    return field :: fields

def readSchema : List (String × Json) → Except Fault (Option (List Field))
  | [] => .ok none
  | (key, value) :: rest => if key = "schema" then readSchemaValue value else readSchema rest

def readSchemaValue : Json → Except Fault (Option (List Field))
  | .list items => (readFields items).map some
  | _ => .ok none

def readBlock : Json → Except Fault Block
  | .object entries => do
    let schema? ← readSchema entries
    return ⟨(Table.get? "uid" entries).getD (.text ""), Entries.getD "title" entries,
      Entries.getD "reference_to" entries, schema?⟩
  | value => .error (.notObject value.kindName)

def readBlocks : List Json → Except Fault (List Block)
  | [] => .ok []
  | item :: rest => do
    let block ← readBlock item
    let blocks ← readBlocks rest
    return block :: blocks

def readBlocksEntry : List (String × Json) → Except Fault (List Block)
  | [] => .ok []
  | (key, value) :: rest => if key = "blocks" then readBlocksValue value else readBlocksEntry rest

def readBlocksValue : Json → Except Fault (List Block)
  | .list items => readBlocks items
  | .text s => if s = "" then .ok [] else .error itemsNotObjects
  | .object entries => if entries.isEmpty then .ok [] else .error itemsNotObjects
  | value => if value.truthy then .error (.notList value.kindName) else .ok []

end

/-- The tag of a global field among records. -/
def globalTag : Json := .text (Kind.tag .globalField)

def readRecord (raw : Json) : Except Fault Record :=
  match raw with
  | .object entries => do
    let schema? ← readSchema entries
    return { uid := (Table.get? "uid" entries).getD (.text "")
             title := Entries.getD "title" entries
             description := Entries.getD "description" entries
             schema?
             isGlobal := Entries.getD "schema_type" entries == globalTag }
  | _ => .error (.notRecord raw.kindName)

/-- A record from a list of global fields, whatever it says of its own kind. -/
def readGlobal : Json → Except Fault Record
  | .object entries => readRecord (.object (Table.put "schema_type" globalTag entries))
  | value => .error (.notExtensible value.kindName)

/-- The records of an entry that should hold a list. The items of an object are its keys, those of a
text its characters. -/
def readMany (read : Json → Except Fault Record) (value : Json) : Except Fault (List Record) :=
  if !value.truthy then .ok []
  else match value with
    | .list items => items.mapM read
    | .object entries => (entries.map fun (k, _) => Json.text k).mapM read
    | .text s => (s.toList.map fun c => Json.text (String.ofList [c])).mapM read
    | value => .error (.notList value.kindName)

/-- The records of a schema export: a list of records, an object with content types and global fields,
of which the global fields come first, an object around one record, or one record. -/
def readPayload (payload : Json) : Except Fault (List Record) :=
  match payload with
  | .list items => items.mapM readRecord
  | .object entries =>
    if Table.has "content_types" entries || Table.has "global_fields" entries then do
      let globals ← readMany readGlobal (Entries.getD "global_fields" entries)
      let contentTypes ← readMany readRecord (Entries.getD "content_types" entries)
      return globals ++ contentTypes
    else
      let raw := (Table.get? "content_type" entries).getD payload
      (readRecord raw).map fun r => [r]
  | _ => .error (.unsupportedPayload payload.kindName)

end SchemaDecl

import SchemaDecl.Settings.Custom
import SchemaDecl.TypeExpr.Style

/-!
# Settings

A setting holds whatever value it was given; only its presence counts for most. Settings with other
names are kept aside under `custom`.
-/

namespace SchemaDecl

/-- The settings with a meaning of their own. -/
inductive Setting
  | outputFile | namePrefix | systemFields | editableTags | referencedEntry | taxonomyEntry | documentation
  | custom
  deriving DecidableEq, Repr

namespace Setting

def all : List Setting :=
  [outputFile, namePrefix, systemFields, editableTags, referencedEntry, taxonomyEntry, documentation, custom]

def basic : List Setting :=
  [outputFile, namePrefix, systemFields, editableTags, referencedEntry, taxonomyEntry, documentation]

def name : Setting → String
  | outputFile => "output_file"
  | namePrefix => "prefix"
  | systemFields => "system_fields"
  | editableTags => "is_editable_tags"
  | referencedEntry => "include_referenced_entry"
  | taxonomyEntry => "taxonomy_entry"
  | documentation => "include_documentation"
  | custom => "custom"

def ofName? (s : String) : Option Setting := all.find? fun setting => setting.name = s

def aliases : Table Setting :=
  [("systemFields", systemFields), ("isEditableTags", editableTags), ("editable_tags", editableTags),
   ("includeReferencedEntry", referencedEntry), ("includeDocumentation", documentation),
   ("taxonomyEntry", taxonomyEntry), ("outputFile", outputFile)]

/-- The name that a key stands for: its own, unless it is another spelling. -/
def canonical (key : String) : String :=
  match Table.get? key aliases with
  | some setting => setting.name
  | none => key

end Setting

structure Settings where
  outputFile : Json := .null
  namePrefix : Json := .text ""
  systemFields : Json := .bool false
  editableTags : Json := .bool false
  referencedEntry : Json := .bool false
  taxonomyEntry : Json := .bool false
  documentation : Json := .bool true
  custom : Custom := .given (.object [])
  deriving DecidableEq

namespace Settings

def get (s : Settings) : Setting → Json
  | .outputFile => s.outputFile
  | .namePrefix => s.namePrefix
  | .systemFields => s.systemFields
  | .editableTags => s.editableTags
  | .referencedEntry => s.referencedEntry
  | .taxonomyEntry => s.taxonomyEntry
  | .documentation => s.documentation
  | .custom => s.custom.toJson

def set (s : Settings) (setting : Setting) (value : Json) : Settings :=
  match setting with
  | .outputFile => { s with outputFile := value }
  | .namePrefix => { s with namePrefix := value }
  | .systemFields => { s with systemFields := value }
  | .editableTags => { s with editableTags := value }
  | .referencedEntry => { s with referencedEntry := value }
  | .taxonomyEntry => { s with taxonomyEntry := value }
  | .documentation => { s with documentation := value }
  | .custom => { s with custom := .given value }

theorem get_set (s : Settings) (setting other : Setting) (value : Json) :
    (s.set setting value).get other = if setting = other then value else s.get other := by
  cases setting <;> cases other <;> simp [set, get, Custom.toJson]

/-- The lead of all names: the text of the prefix, if it is not empty. -/
def lead (s : Settings) : String := if s.namePrefix.truthy then s.namePrefix.display else ""

def style (s : Settings) : Style where
  lead := s.lead
  systemFields := s.systemFields.truthy
  editableTags := s.editableTags.truthy
  referencedEntry := s.referencedEntry.truthy
  taxonomyEntry := s.taxonomyEntry.truthy
  documented := s.documentation.truthy

end Settings

end SchemaDecl

import SchemaDecl.Template.Engine
import SchemaDecl.Template.Reader
import SchemaDecl.Text.Utf8

/-!
# A library for simple templates

The library as far as sources of literal text, holes and conditional parts go: rendering such a source asks
for no other template.
-/

namespace SchemaDecl.Template

def compileSimple (source : String) : Except String (Entries → Rendering) :=
  match ofSource source with
  | .ok template => .ok fun context => .done (.ok (template.render context))
  | .error fault => .error fault.message

def sourceInTable (sources : Table String) (name : String) : Except LoadFault String :=
  match Table.get? name sources with
  | some source => .ok source
  | none => .error (.absent name)

/-- The path of a template below a folder; no part of its name may lead out of the folder. -/
def pathWithin (folder : FilePath) (name : String) : Option FilePath :=
  let names := (FilePath.ofString name).names
  if names.contains ".." then none else some { folder with names := folder.names ++ names }

/-- The text of the file that a template is in, if there is a file. -/
def sourceInFolder (tree : FileTree) (folder : FilePath) (name : String) : Except LoadFault String :=
  match pathWithin folder name with
  | none => .error (.absent name)
  | some path =>
    if ((tree.resolve path).toOption.map tree.isFile).getD false then do
      let bytes ← (tree.read path).mapError fun fault => .unreadable (fault.message path)
      (Utf8.decodeLines bytes).mapError fun fault => .unreadable fault.message
    else
      .error (.absent (Json.inspectText name ++ " not found in search path: " ++ Json.inspectText folder.text))

def Library.simple : Library Entries where
  compile _ := compileSimple
  inTable := sourceInTable
  inFolder := sourceInFolder

end SchemaDecl.Template

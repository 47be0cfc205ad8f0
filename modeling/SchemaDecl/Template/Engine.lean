import SchemaDecl.Template.Library

/-!
# Engines

An engine looks up the sources of templates by their names, among those added or in a folder, and has a
library compile and render them. Adding a template to an engine over a folder gives up the folder.
-/

namespace SchemaDecl.Template

inductive Engine
  | added (sources : Table String)
  | folder (tree : FileTree) (path : FilePath)

inductive GetFault
  | load (fault : LoadFault)
  | malformed (reason : String)

def GetFault.reason : GetFault → String
  | load fault => fault.reason
  | malformed reason => reason

structure RenderFault where
  name : String
  reason : String

def RenderFault.message (fault : RenderFault) : String :=
  "Failed to render template " ++ fault.name ++ ": " ++ fault.reason

variable {Context : Type}

namespace Engine

def empty : Engine := .added []

/-- The engine over a folder; over nothing where the folder does not exist. -/
def ofFolder (tree : FileTree) (path : FilePath) : Except PathFault Engine :=
  (tree.has path).map fun found => if found then .folder tree path else empty

/-- Adds the source of a template, in place of any with its name. -/
def add (name source : String) : Engine → Engine
  | .added sources => .added (Table.put name source sources)
  | .folder _ _ => .added [(name, source)]

def sources (library : Library Context) : Engine → Sources
  | .added sources => library.inTable sources
  | .folder tree path => library.inFolder tree path

def get (library : Library Context) (name : String) (engine : Engine) :
    Except GetFault (Context → Rendering) := do
  let source ← (engine.sources library name).mapError .load
  (library.compile name source).mapError .malformed

/-- Whether there is a template with a name. For one that cannot be read there is no answer. -/
def has (library : Library Context) (name : String) (engine : Engine) : Except GetFault Bool :=
  match engine.get library name with
  | .ok _ => .ok true
  | .error (.load (.absent _)) => .ok false
  | .error fault => .error fault

def render (library : Library Context) (name : String) (context : Context) (engine : Engine) :
    Except RenderFault String :=
  match engine.get library name with
  | .error fault => .error ⟨name, fault.reason⟩
  | .ok template => ((template context).outcome (engine.sources library)).mapError fun reason => ⟨name, reason⟩

end Engine

end SchemaDecl.Template

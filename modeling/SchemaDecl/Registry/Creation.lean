import SchemaDecl.Registry.Basic
import SchemaDecl.Settings.File

/-!
# Making generators

A generator is made for a registered language with settings that are given whole, as overrides, or by
the path of a file.
-/

namespace SchemaDecl.Registry

/-- What the settings for a generator are given as. -/
inductive Given
  | nothing
  | settings (s : Settings)
  | overrides (entries : Entries)
  | file (path? : Option FilePath)
  | other (kind : String)

structure Configured where
  generator : Generator
  settings : Settings

inductive CreationFault
  | lookup (fault : Fault)
  | otherKind (kind : String)
  | settings (language : String) (fault : Settings.LoadFault)
  | incomplete (language : String) (generator : Generator)

def CreationFault.message : CreationFault → String
  | lookup fault => fault.message
  | otherKind kind => "Invalid config type: <class '" ++ kind ++ "'>"
  | settings language fault => "Failed to create " ++ language ++ " generator: " ++ fault.message
  | incomplete language generator =>
    "Failed to create " ++ language ++ " generator: Can't instantiate abstract class " ++ generator.name ++
      " with abstract methods " ++ ", ".intercalate Generator.parts

def Given.load (tree : FileTree) (language : String) : Given → Except CreationFault Settings
  | nothing => (Settings.load tree none none).mapError (.settings language)
  | settings s => .ok s
  | overrides entries => (Settings.load tree none (some entries)).mapError (.settings language)
  | file path? => (Settings.load tree path? none).mapError (.settings language)
  | other kind => .error (.otherKind kind)

def create (r : Registry) (tree : FileTree) (language : String) (given : Given) :
    Except CreationFault Configured := do
  let generator ← (r.generator language).mapError .lookup
  let settings ← given.load tree language
  if generator.complete then return ⟨generator, settings⟩
  else throw (.incomplete language generator)

end SchemaDecl.Registry

import SchemaDecl.Json.Reader
import SchemaDecl.Json.Writer
import SchemaDecl.Settings.Merge
import SchemaDecl.Source.FileTree

/-!
# Settings files

Settings can be read from a JSON file, below explicit overrides, and saved to one. A saved file has every
basic setting under its name, with the custom settings beside and over them.
-/

namespace SchemaDecl.Settings

inductive FileFault
  /-- A path for which cannot be said whether there is a file. -/
  | unreachable (fault : PathFault)
  | missing
  | otherFormat
  | unreadable (fault : PathFault)
  | notText (fault : Utf8.Fault)
  | malformed (error : Json.ReadError)
  | notObject

def FileFault.message (path : FilePath) : FileFault → String
  | unreachable fault => fault.message path
  | missing => "Configuration file not found: " ++ path.text
  | otherFormat => "Configuration file must be JSON: " ++ path.text
  | unreadable fault => "Failed to load configuration file " ++ path.text ++ ": " ++ fault.message path
  | notText fault => fault.message
  | malformed error =>
    if error.fault.isLimit then error.message
    else "Invalid JSON in configuration file " ++ path.text ++ ": " ++ error.message
  | notObject => "Configuration file must contain a JSON object: " ++ path.text

def readFile (tree : FileTree) (path : FilePath) : Except FileFault Entries := do
  if !(← (tree.has path).mapError .unreachable) then throw .missing
  if !path.isJson then throw .otherFormat
  let bytes ← (tree.read path).mapError .unreadable
  let text ← (Utf8.decodeLines bytes).mapError .notText
  match ← (Json.read text).mapError .malformed with
  | .object entries => return entries
  | _ => throw .notObject

inductive LoadFault
  | file (path : FilePath) (fault : FileFault)
  | merge (fault : MergeFault)

def LoadFault.message : LoadFault → String
  | file path fault => fault.message path
  | merge fault => fault.message

/-- The settings of a file, if one is named, below the overrides. -/
def load (tree : FileTree) (path? : Option FilePath) (overrides? : Option Entries) :
    Except LoadFault Settings := do
  let file? ← path?.mapM fun path => (readFile tree path).mapError (.file path)
  (merge file? overrides?).mapError .merge

def basicEntries (s : Settings) : Entries := Setting.basic.map fun setting => (setting.name, s.get setting)

def toEntries (s : Settings) : Except Custom.Fault KeyTable := do
  let custom ← s.custom.read
  return KeyTable.update (.ofEntries s.basicEntries) custom

inductive SaveFault
  | custom (fault : Custom.Fault)
  | unwritable (path : FilePath) (fault : PathFault)

def SaveFault.message : SaveFault → String
  | custom fault => fault.message
  | unwritable path fault =>
    if fault = .hasNul then fault.message path
    else "Failed to save configuration to " ++ path.text ++ ": " ++ fault.message path

def save (s : Settings) (path : FilePath) (tree : FileTree) : Except SaveFault FileTree := do
  let entries ← s.toEntries.mapError .custom
  let text := entries.written.renderIndented 0
  (tree.write path text.toUTF8).mapError (.unwritable path)

end SchemaDecl.Settings

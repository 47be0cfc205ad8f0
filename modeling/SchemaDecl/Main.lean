import SchemaDecl.CommandLine.Run
import SchemaDecl.Console.Screen

/-!
# The program

Looks up the files that a command line names, runs it, and writes what the run changed.
-/

namespace SchemaDecl.CommandLine

/-- What the system shows of a path. -/
inductive Sight
  | nothing
  /-- The folder of the path may not be searched. -/
  | barred
  | folder
  /-- A file with its bytes, if it may be read. -/
  | file (bytes? : Option ByteArray)

def isDenied : IO.Error → Bool
  | .permissionDenied .. => true
  | _ => false

def isBarred (folder : FilePath) : IO Bool := do
  try
    let _ ← ((← IO.FS.realPath folder.text).join ".").metadata
    return false
  catch error => return isDenied error

def fileAt (place : String) : IO Sight := do
  try
    return .file (some (← IO.FS.readBinFile place))
  catch error =>
    if isDenied error then return .file none else throw error

/-- Looks at a path. That a link leads into a folder that may not be searched is an error. -/
def lookAt (path : FilePath) : IO Sight := do
  try
    let place ← IO.FS.realPath path.text
    if ← place.isDir then return .folder else fileAt place.toString
  catch error =>
    if !isDenied error then return .nothing
    else if ← isBarred { path with names := path.names.dropLast } then return .barred
    else throw error

/-- The tree with what is seen at a place. -/
def note (tree : FileTree) (place : List String) (sight : Sight) : FileTree :=
  let put (node : FileNode) : FileTree :=
    if (tree.node? place).isSome then tree else { tree with nodes := tree.nodes ++ [(place, node)] }
  let forbid (tree : FileTree) (folder : List String) (access : Access) : FileTree :=
    { tree with forbidden := tree.forbidden ++ [(folder, access)] }
  match sight with
  | .nothing => tree
  | .barred => forbid tree place.dropLast .search
  | .folder => put .folder
  | .file (some bytes) => put (.file bytes)
  | .file none => forbid (put (.file .empty)) place .read

/-- The tree with what lies on the way to a path. -/
def observe (tree : FileTree) (path : FilePath) : IO FileTree := do
  let mut tree := tree
  for length in List.range path.names.length do
    let path := { path with names := path.names.take (length + 1) }
    tree := note tree (FileTree.place path) (← lookAt path)
  return tree

/-- The tree with all that a run of the arguments may look at. -/
def surroundings (a : Arguments) : IO FileTree := do
  let mut tree : FileTree := {}
  for path in (a.file?.bind FilePath.given?).toList ++ (a.config?.bind FilePath.given?).toList do
    tree ← observe tree path
  if let .ok settings := Settings.load tree (a.config?.bind FilePath.given?) (some a.overrides) then
    if let .text output := settings.outputFile then
      tree ← observe tree (FilePath.ofString output)
  return tree

partial def readRest (input : IO.FS.Stream) (taken : String) : IO String := do
  let line ← input.getLine
  if line.isEmpty then return taken else readRest input (taken ++ line)

/-- Writes the files of a tree that another does not hold. -/
def writeChanges (before after : FileTree) : IO Unit := do
  for (names, node) in after.nodes do
    if let .file bytes := node then
      let unchanged := match before.node? names with
        | some (.file old) => old == bytes
        | _ => false
      if !unchanged then IO.FS.writeBinFile (FileTree.pathOf names).text bytes

end SchemaDecl.CommandLine

open SchemaDecl CommandLine in
def main (words : List String) : IO UInt32 := do
  let (tree, input) ← match Arguments.read words with
    | .ok a => do
      let input ← if a.stdin then readRest (← IO.getStdin) "" else pure ""
      pure (← surroundings a, input)
    | .error _ => pure ({}, "")
  let (ending, world) := CommandLine.run words
    { console := .screen, files := tree, input, reply := .noConnection "no network" }
  writeChanges tree world.files
  for line in world.diagnostics do IO.eprintln line
  for line in world.output do IO.println line
  match ending with
  | .exit code => return code.toUInt32
  | .escape e =>
    IO.eprintln e.message
    return 1

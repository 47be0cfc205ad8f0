import SchemaDecl.Json.Display
import SchemaDecl.Source.FilePath
import SchemaDecl.Text.Utf8

/-!
# Trees of files

A working directory as a value: the files below it with their bytes, its folders and links, and what is
forbidden there. A file's parents are folders without being listed. Places above the working directory begin
with `..`, and those from the top on with `/`. Names and paths have a greatest length, the links on the way
to a place a greatest number, and the character with code 0 is in no path.
-/

namespace SchemaDecl

inductive FileNode
  | file (bytes : ByteArray)
  | folder
  /-- Stands for what is at a path, which begins in the link's folder unless it is absolute. -/
  | link (target : FilePath)

/-- What may be forbidden: looking up names in a folder, reading a file or a folder, and writing a file or
putting one into a folder. -/
inductive Access
  | search
  | read
  | write
  deriving DecidableEq, Repr

/-- Nodes by their names from the working directory on, and what is forbidden of places. -/
structure FileTree where
  nodes : List (List String × FileNode) := []
  forbidden : List (List String × Access) := []

inductive PathFault
  | missing
  | denied
  | notFolder
  | isFolder
  | nameTooLong
  | tooManyLinks
  | hasNul
  deriving DecidableEq, Repr

def PathFault.reason : PathFault → String
  | missing => "[Errno 2] No such file or directory"
  | denied => "[Errno 13] Permission denied"
  | notFolder => "[Errno 20] Not a directory"
  | isFolder => "[Errno 21] Is a directory"
  | nameTooLong => "[Errno 36] File name too long"
  | tooManyLinks => "[Errno 40] Too many levels of symbolic links"
  | hasNul => "embedded null byte"

def PathFault.message (fault : PathFault) (path : FilePath) : String :=
  if fault = hasNul then fault.reason else fault.reason ++ ": " ++ Json.inspectText path.text

/-- The fault says that there is nothing at a path. -/
def PathFault.isAbsence : PathFault → Bool
  | missing | notFolder | tooManyLinks | hasNul => true
  | denied | isFolder | nameTooLong => false

namespace FileTree

def node? (tree : FileTree) (names : List String) : Option FileNode :=
  (tree.nodes.find? fun entry => entry.1 = names).map Prod.snd

def isFile (tree : FileTree) (names : List String) : Bool :=
  match tree.node? names with
  | some (.file _) => true
  | _ => false

def link? (tree : FileTree) (names : List String) : Option FilePath :=
  match tree.node? names with
  | some (.link target) => some target
  | _ => none

/-- The top, the working directory and the folders above it. -/
def isAncestor (names : List String) : Bool := names = ["/"] || names.all (· = "..")

def isFolder (tree : FileTree) (names : List String) : Bool :=
  isAncestor names || tree.nodes.any fun (path, node) =>
    match node with
    | .folder => names.isPrefixOf path
    | _ => names.isPrefixOf path && names.length < path.length

def allows (tree : FileTree) (access : Access) (names : List String) : Bool :=
  !tree.forbidden.contains (names, access)

/-- The place that a name leads to from a folder. -/
def step (reached : List String) (name : String) : List String :=
  if name = "." then reached
  else if name ≠ ".." then reached ++ [name]
  else if reached = ["/"] then reached
  else if reached.all (· = "..") then reached ++ [".."]
  else reached.dropLast

/-- The bytes that a name and a path can have at most, and the links that a path can lead through. -/
def longestName : Nat := 255
def longestPath : Nat := 4095
def mostLinks : Nat := 40

def lookUp (tree : FileTree) (reached : List String) (name : String) : Except PathFault (List String) :=
  if !tree.isFolder reached then .error (if tree.isFile reached then .notFolder else .missing)
  else if !tree.allows .search reached then .error .denied
  else if longestName < name.utf8ByteSize then .error .nameTooLong
  else .ok (step reached name)

def start (reached : List String) (path : FilePath) : List String := if path.absolute then ["/"] else reached

/-- The names that are looked up for a path; one without names is looked up as `.`, except for the top. -/
def route (path : FilePath) : List String :=
  if path.names.isEmpty && !path.absolute then ["."] else path.names

/-- Follows names one by one; `onLink` goes on where one of them is a link. -/
def walk (tree : FileTree) (onLink : List String → List String → Except PathFault (List String)) :
    List String → List String → Except PathFault (List String)
  | reached, [] => .ok reached
  | reached, name :: rest => do
    let place ← tree.lookUp reached name
    match tree.link? place with
    | some target => onLink (start reached target) (route target ++ rest)
    | none => walk tree onLink place rest

def follow (tree : FileTree) : Nat → List String → List String → Except PathFault (List String)
  | 0 => tree.walk fun _ _ => .error .tooManyLinks
  | links + 1 => tree.walk (tree.follow links)

/-- The place of a path where all of its names lead to folders. -/
def place (path : FilePath) : List String := path.names.foldl step (start [] path)

def pathOf : List String → FilePath
  | "/" :: names => ⟨true, names⟩
  | names => ⟨false, names⟩

def resolve (tree : FileTree) (path : FilePath) : Except PathFault (List String) :=
  if path.text.contains (Char.ofNat 0) then .error .hasNul
  else if longestPath < path.text.utf8ByteSize then .error .nameTooLong
  else tree.follow mostLinks (start [] path) (route path)

/-- Whether there is something at a path. Where this cannot be found out there is no answer. -/
def has (tree : FileTree) (path : FilePath) : Except PathFault Bool :=
  match tree.resolve path with
  | .ok place => .ok (tree.isFolder place || tree.isFile place)
  | .error fault => if fault.isAbsence then .ok false else .error fault

def read (tree : FileTree) (path : FilePath) : Except PathFault ByteArray := do
  let place ← tree.resolve path
  match tree.node? place with
  | some (.file bytes) => if tree.allows .read place then return bytes else throw .denied
  | _ =>
    if !tree.isFolder place then throw .missing
    else throw (if tree.allows .read place then .isFolder else .denied)

/-- A file that is there may be written, or a new one may be put into its folder. -/
def mayWrite (tree : FileTree) (place : List String) : Bool :=
  tree.allows .write (if tree.isFile place then place else place.dropLast)

def stored (tree : FileTree) (place : List String) (bytes : ByteArray) : FileTree :=
  { tree with nodes := (tree.nodes.filter fun entry => entry.1 ≠ place) ++ [(place, .file bytes)] }

def write (tree : FileTree) (path : FilePath) (bytes : ByteArray) : Except PathFault FileTree := do
  let place ← tree.resolve path
  if tree.isFolder place then throw .isFolder
  else if !tree.mayWrite place then throw .denied
  else return tree.stored place bytes

end FileTree

end SchemaDecl

import SchemaDecl.Json.Display
import SchemaDecl.Json.Writer

/-!
# Custom settings

What stands under `custom` is kept as it was given. Before other settings are added to it, it is read as
entries: those of an object, or a list of pairs. A pair may have any value but a list or an object as its
key, so that the entries form a table under keys of any kind.
-/

namespace SchemaDecl

/-- Values under keys of any kind but lists and objects, no two of them the same key. -/
abbrev KeyTable := List (Json × Json)

namespace KeyTable

/-- Stores a value: in place where the key is present, else at the end. -/
def put (key value : Json) : KeyTable → KeyTable
  | [] => [(key, value)]
  | (k, v) :: rest => if k.sameKey key then (k, value) :: rest else (k, v) :: put key value rest

def update (table newer : KeyTable) : KeyTable := newer.foldl (fun t (k, v) => put k v t) table

def ofEntries (entries : Entries) : KeyTable := entries.map fun (key, value) => (.text key, value)

/-- The object that shows every key as it displays; of equal displays the last value stays. -/
def displayed (table : KeyTable) : Json :=
  .object (Table.ofPairs (table.map fun (key, value) => (key.display, value)))

def writtenKey : Json → String
  | .text s => s
  | key => key.render

/-- The object that is written for a table; different keys may be written alike. -/
def written (table : KeyTable) : Json :=
  .object (table.map fun (key, value) => (writtenKey key, value))

end KeyTable

/-- What stands under `custom`: a value as it was given, or entries. -/
inductive Custom
  | given (value : Json)
  | keyed (table : KeyTable)
  deriving DecidableEq

namespace Custom

/-- The value that shows what stands under `custom`. -/
def toJson : Custom → Json
  | given value => value
  | keyed table => table.displayed

/-- Why a value for `custom` cannot be extended by the settings with other names. -/
inductive Fault
  | noItems (kind : String)
  | itemNotPair (index : Nat)
  | pairOfWrongSize (index size : Nat)
  | notKey (kind : String)
  deriving DecidableEq

def Fault.message : Fault → String
  | noItems kind => "'" ++ kind ++ "' object is not iterable"
  | itemNotPair index =>
    "cannot convert dictionary update sequence element #" ++ toString index ++ " to a sequence"
  | pairOfWrongSize index size =>
    "dictionary update sequence element #" ++ toString index ++ " has length " ++ toString size ++
      "; 2 is required"
  | notKey kind => "unhashable type: '" ++ kind ++ "'"

def pairItems? : Json → Option (List Json)
  | .list items => some items
  | .text s => some (s.toList.map fun c => .text (String.ofList [c]))
  | .object entries => some (entries.map fun (key, _) => .text key)
  | _ => none

def readPair (index : Nat) (item : Json) : Except Fault (Json × Json) :=
  match pairItems? item with
  | none => .error (.itemNotPair index)
  | some [key, value] => if key.isKey then .ok (key, value) else .error (.notKey key.kindName)
  | some items => .error (.pairOfWrongSize index items.length)

/-- Stores the pairs one by one, the first of them at `index`. -/
def readPairs (index : Nat) (table : KeyTable) : List Json → Except Fault KeyTable
  | [] => .ok table
  | item :: rest => do
    let (key, value) ← readPair index item
    readPairs (index + 1) (table.put key value) rest

def entriesOf (value : Json) : Except Fault KeyTable :=
  match value with
  | .object entries => .ok (.ofEntries entries)
  | value =>
    match pairItems? value with
    | some items => readPairs 0 [] items
    | none => .error (.noItems value.kindName)

def read : Custom → Except Fault KeyTable
  | given value => entriesOf value
  | keyed table => .ok table

end Custom

end SchemaDecl

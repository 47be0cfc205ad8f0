import SchemaDecl.Settings.Basic

/-!
# Merging settings

Settings come from a file and from explicit overrides, the later over the earlier. Each source may spell
names in several ways and may give the prefix within an object `naming`; where a source names one setting
twice, the last holds.
-/

namespace SchemaDecl.Settings

/-- The entries of one source under canonical names; nothing if `naming` is not an object. -/
def normalizeInto (done : Entries) : Entries → Option Entries
  | [] => some done
  | (key, value) :: rest =>
    if key = "naming" then
      match value with
      | .object naming =>
        match Table.get? "prefix" naming with
        | some leading => normalizeInto (Table.put "prefix" leading done) rest
        | none => normalizeInto done rest
      | _ => none
    else normalizeInto (Table.put (Setting.canonical key) value done) rest

def normalize (entries : Entries) : Option Entries := normalizeInto [] entries

/-- The settings that stand under their names in the entries, each over what was there. -/
def apply (s : Settings) (entries : Entries) : Settings :=
  entries.foldl (fun s (key, value) =>
    match Setting.ofName? key with
    | some setting => s.set setting value
    | none => s) s

def extras (entries : Entries) : Entries := entries.filter fun (key, _) => (Setting.ofName? key).isNone

/-- The settings of entries that all name settings. -/
def ofEntries? (entries : Entries) : Option Settings :=
  if (extras entries).isEmpty then some (apply {} entries) else none

/-- The settings of merged entries. A prefix of `null` is no prefix. -/
def ofEntries (entries : Entries) : Except Custom.Fault Settings := do
  let s := apply {} entries
  let s := if s.namePrefix = .null then { s with namePrefix := .text "" } else s
  if (extras entries).isEmpty then return s
  else
    let custom ← s.custom.read
    return { s with custom := .keyed (custom.update (.ofEntries (extras entries))) }

inductive MergeFault
  | naming
  | custom (fault : Custom.Fault)

def MergeFault.message : MergeFault → String
  | naming => "'naming' must be an object"
  | custom fault => fault.message

/-- Puts the entries of a source over those before it. -/
def layer (entries : Entries) : Option Entries → Except MergeFault Entries
  | none => .ok entries
  | some newer =>
    match normalize newer with
    | some newer => .ok (Table.update entries newer)
    | none => .error .naming

/-- The settings from the entries of a file and the overrides; the defaults hold where neither speaks. -/
def merge (file? overrides? : Option Entries) : Except MergeFault Settings := do
  let entries ← layer [] file?
  let entries ← layer entries overrides?
  (ofEntries entries).mapError .custom

end SchemaDecl.Settings

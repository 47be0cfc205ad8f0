import SchemaDecl.Table
import SchemaDecl.Text.Lowercase
import SchemaDecl.Text.Order

/-!
# Registries of generators

A generator is registered under a language and found by that language or an alias of it, in capitals or
small letters.
-/

namespace SchemaDecl

/-- A generator of declarations in a language. One that is not complete can be registered, not made. -/
structure Generator where
  name : String
  language : String
  extension : String
  complete : Bool := true
  deriving DecidableEq, Repr

/-- What a complete generator has and one that is not complete lacks. -/
def Generator.parts : List String := ["file_extension", "generate", "language_name"]

structure Registry where
  generators : Table Generator := []
  aliases : Table String := []
  deriving DecidableEq, Repr

namespace Registry

inductive Fault
  | notGenerator
  | aliasIsLanguage (spelling : String)
  | aliasTaken (spelling language : String)
  | unknown (language : String) (available : List String)
  deriving DecidableEq, Repr

def Fault.message : Fault → String
  | notGenerator => "Generator class must inherit from CodeGenerator"
  | aliasIsLanguage spelling => "Alias '" ++ spelling ++ "' conflicts with existing primary language"
  | aliasTaken spelling language => "Alias '" ++ spelling ++ "' already points to '" ++ language ++ "'"
  | unknown language available =>
    "No generator registered for language: " ++ language ++ ". Available: " ++ ", ".intercalate available

def languages (r : Registry) : List String := Text.sorted r.generators.names

/-- Whether an alias may stand for a language: it names no language, and stands for no other. -/
def checkAlias (r : Registry) (language spelling : String) : Except Fault Unit :=
  let key := Text.lower spelling
  if Table.has key r.generators then .error (.aliasIsLanguage spelling)
  else match Table.get? key r.aliases with
    | some other => if other = language then .ok () else .error (.aliasTaken spelling other)
    | none => .ok ()

/-- Adds aliases one by one up to the first that may not be added. With `replace`, all may. -/
def addAliases (language : String) (replace : Bool) (r : Registry) : List String → Option Fault × Registry
  | [] => (none, r)
  | spelling :: rest =>
    let key := Text.lower spelling
    if key = language then addAliases language replace r rest
    else match if replace then .ok () else r.checkAlias language spelling with
      | .error fault => (some fault, r)
      | .ok () => addAliases language replace { r with aliases := Table.put key language r.aliases } rest

/-- Registers a generator with aliases; `none` is something that is no generator. A language that is
registered keeps its generator and aliases unless they are to be replaced. -/
def register (r : Registry) (language : String) (generator? : Option Generator) (aliases : List String)
    (replace : Bool) : Option Fault × Registry :=
  match generator? with
  | none => (some .notGenerator, r)
  | some generator =>
    let key := Text.lower language
    if Table.has key r.generators && !replace then (none, r)
    else addAliases key replace { r with generators := Table.put key generator r.generators } aliases

def unregister (r : Registry) (language : String) : Registry :=
  let key := Text.lower language
  { generators := Table.erase key r.generators
    aliases := r.aliases.filter fun (_, target) => target ≠ key }

def resolve (r : Registry) (language : String) : Except Fault String :=
  let key := Text.lower language
  if Table.has key r.generators then .ok key
  else match Table.get? key r.aliases with
    | some target => .ok target
    | none => .error (.unknown language r.languages)

def generator (r : Registry) (language : String) : Except Fault Generator := do
  let key ← r.resolve language
  match Table.get? key r.generators with
  | some generator => return generator
  | none => throw (.unknown language r.languages)

def supports (r : Registry) (language : String) : Bool :=
  let key := Text.lower language
  Table.has key r.generators || Table.has key r.aliases

def aliasesOf (r : Registry) (language : String) : List String :=
  let key := Text.lower language
  Text.sorted ((r.aliases.filter fun (_, target) => target = key).map Prod.fst)

structure Info where
  generator : Generator
  aliases : List String
  deriving DecidableEq, Repr

def info (r : Registry) (language : String) : Except Fault Info := do
  let key ← r.resolve language
  return ⟨← r.generator language, r.aliasesOf key⟩

end Registry

def Generator.typescript : Generator := ⟨"TypeScriptGenerator", "typescript", ".d.ts", true⟩

def Registry.standard : Registry := (({} : Registry).register "typescript" (some .typescript) ["ts"] false).2

end SchemaDecl

import SchemaDecl.Declaration.Printer
import SchemaDecl.Fault
import SchemaDecl.Generation.Dependencies
import SchemaDecl.Generation.Skip
import SchemaDecl.Naming.Allocator
import SchemaDecl.Schema.Basic

/-!
# The state of a generation pass

A pass visits records in order and collects what they declare. Visits are actions on its state that can
stop with a fault; what was done before the fault stays.
-/

namespace SchemaDecl.Generation

/-- The blocks of a union, each with the text of its type. Two unions with equal signatures are one. -/
abbrev Signature := List (Json × String)

def Signature.same (a b : Signature) : Bool :=
  a.length = b.length && (a.zip b).all fun ((u, s), (v, t)) => u.sameKey v && s = t

/-- A record whose own declaration name begins with a digit. -/
structure UnusableName where
  uid : String
  isGlobal : Bool
  name : String
  deriving DecidableEq

structure State where
  /-- Global fields by declaration name in the order of first use; nothing while one is being built. -/
  globals : Table (Option Declaration) := []
  unions : List (Signature × String) := []
  /-- Unions that the record in visit was the first to use. -/
  scope : List BlockUnion := []
  /-- The next number for a union whose plain name is taken. -/
  counter : Nat := 1
  skippedFields : List SkippedItem := []
  skippedBlocks : List SkippedItem := []
  warnings : List String := []
  events : List Event := []
  unusable : List UnusableName := []
  /-- Content types that refer to a global field with an unusable name, by its uid. -/
  refusedBy : Table (List String) := []
  owner : Option String := none
  richTextUsed : Bool := false
  contentTypes : List String := []
  dependencies : Dependencies := {}

/-- What a pass works on: the style of its output and the records it was given. -/
structure Input where
  style : Style
  records : List Record

abbrev Visit := ExceptT Fault (StateM State)

/-- Lifts a result that involves no state. -/
def check {α : Type} (result : Except Fault α) : Visit α := liftExcept result

namespace State

def isDeclared (s : State) (name : String) : Bool := Table.has name s.globals

def declaration? (s : State) (name : String) : Option Declaration :=
  (Table.get? name s.globals).join

def unionNames (s : State) : List String := s.unions.map Prod.snd

def findUnion? (s : State) (signature : Signature) : Option String :=
  (s.unions.find? fun (other, _) => other.same signature).map Prod.snd

/-- The content types that were refused a global field, by its uid. -/
def refusals (s : State) (target : String) : List String := (Table.get? target s.refusedBy).getD []

def addRefusal (target owner : String) (s : State) : State :=
  { s with refusedBy := Table.put target (s.refusals target ++ [owner]) s.refusedBy }

/-- The complete global declarations with their names, in the order of first use. -/
def declared (s : State) : Table Declaration :=
  s.globals.filterMap fun (name, d) => d.map fun d => (name, d)

end State

/-- Records a skip and tells the reporter. -/
def skip (place : SkipPlace) (cause : SkipCause) (uid path : Json) : Visit Unit :=
  let item : SkippedItem := ⟨uid, path, cause.reason⟩
  let message := cause.message place uid path
  modify fun s =>
    let s := match place with
      | .field => { s with skippedFields := s.skippedFields ++ [item] }
      | .block => { s with skippedBlocks := s.skippedBlocks ++ [item] }
    { s with warnings := s.warnings ++ [message], events := s.events ++ [.warn message item] }

def track (category : Category) (names : List String) : Visit Unit :=
  modify fun s => { s with dependencies := s.dependencies.track category names }

/-- Runs a visit with a scope of its own and hands over the unions of that scope. -/
def withScope {α : Type} (visit : Visit α) : Visit (List BlockUnion × α) := fun s =>
  let (result, after) := visit { s with scope := [] }
  (result.map fun a => (after.scope, a), { after with scope := s.scope })

/-- Runs a visit as part of a content type. -/
def ownedBy {α : Type} (owner : String) (visit : Visit α) : Visit α := fun s =>
  let (result, after) := visit { s with owner := some owner }
  (result, { after with owner := s.owner })

/-- Declares a global field by a visit of its members, unless its name is declared already. The name is
declared before the visit, so that members that refer to it find it. -/
def declareGlobal (name : String) (description : Json) (members : Visit (List Member)) : Visit Unit := do
  if (← get).isDeclared name then return
  modify fun s => { s with globals := Table.put name none s.globals }
  let (unions, members) ← withScope members
  modify fun s =>
    { s with globals := Table.put name (some ⟨unions, ⟨name, description, false, members⟩⟩) s.globals }

/-- The name of the union with the given blocks, which is declared now if it is new. -/
def unionName (style : Style) (uid : Json) (blocks : List (Json × TypeExpr)) : Visit String := do
  let signature := blocks.map fun (uid, type) => (uid, type.text style)
  let _ ← check (signature.mapM fun (uid, _) => asKey uid)
  match (← get).findUnion? signature with
  | some name => return name
  | none =>
    let base ← check (Naming.declare? style.lead uid)
    modifyGet fun s =>
      let (name, counter) := Naming.unique base s.unionNames s.counter
      (name, { s with
        counter
        unions := s.unions ++ [(signature, name)]
        scope := s.scope ++ [⟨name, blocks⟩] })

end SchemaDecl.Generation

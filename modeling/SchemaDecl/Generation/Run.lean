import SchemaDecl.Declaration.Prelude
import SchemaDecl.Generation.Visit
import SchemaDecl.Schema.Census

/-!
# Running a pass

A pass visits every record in order, reports the skips, and ends with the declarations: the builtin ones,
the global fields in the order of first use, and the content types in the order of the records. It fails
if the name of any record begins with a digit, once all records are visited.
-/

namespace SchemaDecl.Generation

/-- How the declaration of a record is made. Each declaration that one record leads to in another takes
one from the budget. -/
def declareRecord (input : Input) : Nat → Declare
  | 0 => fun _ _ _ => check (.error .budgetSpent)
  | budget + 1 => fun name fields description =>
    declareGlobal name description (visitFields input (declareRecord input budget) (.text "") fields)

/-- The declaration of a record. No chain of declarations is longer than the list of records. -/
def declareTop (input : Input) : Declare := declareRecord input (input.records.length + 1)

def visitMembers (input : Input) (fields : List Field) : Visit (List Member) :=
  visitFields input (declareRecord input input.records.length) (.text "") fields

/-- A record with fields of its own, whether it is among the records of the pass or not. -/
def visitRecord (input : Input) (name : String) (fields : List Field) (description : Json)
    (extendsSystem : Bool) : Visit Declaration := do
  let (unions, members) ← withScope (visitMembers input fields)
  return ⟨unions, ⟨name, description, extendsSystem, members⟩⟩

/-- The name of a record's declaration, or a stand-in for a name that cannot be used. -/
def recordName (input : Input) (record : Record) : Visit (String × String) := do
  match record.uid with
  | .text uid =>
    let name := Naming.declare input.style.lead uid
    if Naming.isUsableName name then return (uid, name)
    else
      modify fun s => { s with unusable := s.unusable ++ [⟨uid, record.isGlobal, name⟩] }
      return (uid, Naming.placeholder name)
  | uid => check (.error (.notText uid.kindName))

def visitContentType (input : Input) (record : Record) : Visit Declaration := do
  let (uid, name) ← recordName input record
  modify fun s => { s with contentTypes := s.contentTypes ++ [name] }
  ownedBy uid (visitRecord input name record.fields record.description input.style.systemFields)

def visitGlobal (input : Input) (record : Record) : Visit Unit := do
  let (_, name) ← recordName input record
  match record.schema? with
  | some fields => declareTop input name fields record.description
  | none => return

def visitRecords (input : Input) : List Record → Visit (List Declaration)
  | [] => return []
  | record :: rest =>
    if record.isGlobal then do
      visitGlobal input record
      visitRecords input rest
    else do
      let declaration ← visitContentType input record
      let declarations ← visitRecords input rest
      return declaration :: declarations

/-- A record whose declaration name begins with a digit, with the content types that refer to it. -/
structure Violation where
  uid : String
  isGlobal : Bool
  name : String
  referencedBy : List String
  deriving DecidableEq

/-- The list without repetitions, each element at its first place. -/
def distinct (names : List String) : List String := names.foldl Dependencies.withName []

def violations (s : State) : List Violation :=
  s.unusable.map fun u =>
    ⟨u.uid, u.isGlobal, u.name, if u.isGlobal then distinct (s.refusals u.uid) else []⟩

namespace Violation

def describe (v : Violation) : String :=
  let label := if v.isGlobal then "Global field" else "Content type"
  let references :=
    if v.referencedBy.isEmpty then ""
    else ", referenced by content types: " ++ ", ".intercalate v.referencedBy
  label ++ " \"" ++ v.uid ++ "\" (interface name \"" ++ v.name ++ "\")" ++ references

def message (violations : List Violation) : String :=
  "\n".intercalate
    (["Type generation failed: " ++ toString violations.length ++
        " declaration name(s) would start with a number:"] ++
      violations.map (fun v => "  - " ++ v.describe) ++
      ["Suggestion: set a naming prefix (for example --prefix I) so every generated interface name " ++
        "starts with a letter."])

end Violation

inductive Failure
  | fault (fault : Fault)
  | unusableNames (violations : List Violation)

def Failure.message : Failure → String
  | fault f => f.message
  | unusableNames vs => Violation.message vs

structure Output where
  prelude : List String
  globals : List Declaration
  contentTypes : List Declaration

def Output.parts (style : Style) (o : Output) : List String :=
  o.prelude ++ o.globals.map (Declaration.text style) ++ o.contentTypes.map (Declaration.text style)

def Output.code (style : Style) (o : Output) : String := joinParts (o.parts style)

def State.summarize (s : State) : State :=
  { s with events := s.events ++ [.summary s.skippedFields s.skippedBlocks] }

/-- What a state declares, together with the content types that were visited last. -/
def State.output (style : Style) (s : State) (contentTypes : List Declaration) : Output :=
  ⟨Prelude.select style s.richTextUsed, s.declared.map Prod.snd, contentTypes⟩

def runFrom (input : Input) (s : State) : Except Failure Output × State :=
  match visitRecords input input.records s with
  | (.error fault, s) => (.error (.fault fault), s)
  | (.ok contentTypes, s) =>
    let s := s.summarize
    if s.unusable.isEmpty then (.ok (s.output input.style contentTypes), s)
    else (.error (.unusableNames (violations s)), s)

/-- The state before a pass. The uids of the records must be able to serve as keys. -/
def start (input : Input) : Except Fault State := do
  let _ ← input.records.mapM fun r => asKey r.uid
  let richTextUsed ← recordsRichText input.records
  return { richTextUsed }

end SchemaDecl.Generation

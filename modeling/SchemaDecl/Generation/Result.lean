import SchemaDecl.Generation.Run
import SchemaDecl.Registry.Basic
import SchemaDecl.Schema.Check
import SchemaDecl.Schema.Reader
import SchemaDecl.Settings.Basic
import SchemaDecl.Text.Layout
import SchemaDecl.Text.Order

/-!
# Results of generation

`generate` runs a pass over a schema export. `generateChecked` also checks the records first, tidies the
code and counts what it went through; it fails with the same faults, and `answer` reports either end in one
form. `generateCode` gives the tidied code alone.
-/

namespace SchemaDecl.Generation

/-- What is known of a pass besides its code. -/
structure Metadata where
  names : List String
  javascript : List String
  contentstack : List String
  globalFields : List String
  /-- The texts of the global fields by name, in the order of first use. -/
  definitions : Table String
  contentTypes : List String
  skippedFields : List SkippedItem
  skippedBlocks : List SkippedItem

def State.metadata (style : Style) (s : State) : Metadata where
  names := s.contentTypes
  javascript := Text.sorted s.dependencies.javascript
  contentstack := Text.sorted s.dependencies.contentstack
  globalFields := Text.sorted s.dependencies.globalFields
  definitions := s.declared.map fun (name, d) => (name, d.text style)
  contentTypes := Text.sorted s.dependencies.contentTypes
  skippedFields := s.skippedFields
  skippedBlocks := s.skippedBlocks

structure Result where
  code : String
  warnings : List String
  metadata : Metadata

/-- The outcome of a pass with the events that its reporter received. -/
structure Outcome where
  result : Except Failure Result
  events : List Event

def run (style : Style) (records : List Record) : Outcome :=
  let input : Input := ⟨style, records⟩
  match start input with
  | .error fault => ⟨.error (.fault fault), []⟩
  | .ok s =>
    let (output, s) := runFrom input s
    ⟨output.map fun output => ⟨output.code style, s.warnings, s.metadata style⟩, s.events⟩

def generate (settings : Settings) (payload : Json) : Outcome :=
  match readPayload payload with
  | .error fault => ⟨.error (.fault fault), []⟩
  | .ok records => run settings.style records

/-- A record as a pass is given it: read before, or as a document. -/
inductive Given
  | record (record : Record)
  | document (raw : Json)

def Given.read : Given → Except Fault Record
  | record r => .ok r
  | document raw => readRecord raw

def runGiven (style : Style) (given : List Given) : Outcome :=
  match given.mapM Given.read with
  | .error fault => ⟨.error (.fault fault), []⟩
  | .ok records => run style records

/-- Records that were read before are taken as they are. -/
@[simp] theorem runGiven_record (style : Style) (records : List Record) :
    runGiven style (records.map .record) = run style records := by
  have hread : (records.map Given.record).mapM Given.read = .ok records := by
    induction records with
    | nil => rfl
    | cons r rest ih =>
      rw [List.map_cons, List.mapM_cons, ih]
      rfl
  rw [runGiven, hread]

/-- A tidied result with the number of records and of fields at every level. -/
structure CheckedResult where
  result : Result
  recordCount : Nat
  fieldCount : Nat

def fieldCount (records : List Record) : Nat := countFields (records.flatMap Record.fields)

/-- A pass over records that were checked before; the warnings of the check come first. -/
def runChecked (style : Style) (records : List Record) : Except Failure CheckedResult × List Event :=
  match checkRecords records with
  | .error fault => (.error (.fault fault), [])
  | .ok warnings =>
    let outcome := runGiven style (records.map .record)
    (outcome.result.map fun r =>
      ⟨{ r with code := Text.tidy r.code, warnings := warnings.map Warning.message ++ r.warnings },
        records.length, fieldCount records⟩, outcome.events)

def generateChecked (settings : Settings) (payload : Json) : Except Failure CheckedResult :=
  match readPayload payload with
  | .error fault => .error (.fault fault)
  | .ok records => (runChecked settings.style records).1

/-- What is known of a pass and of the records that it went through. -/
structure CheckedMetadata extends Metadata where
  language : String
  fileExtension : String
  recordCount : Nat
  fieldCount : Nat

def CheckedResult.metadata (c : CheckedResult) : CheckedMetadata where
  toMetadata := c.result.metadata
  language := Generator.typescript.language
  fileExtension := Generator.typescript.extension
  recordCount := c.recordCount
  fieldCount := c.fieldCount

/-- What is said of a failure where the pass itself does not put it into words. -/
def Failure.report : Failure → String
  | fault f => "Code generation failed: " ++ f.message
  | unusableNames vs => Violation.message vs

/-- The report of a pass, of one that fails as well as of one that gives code. -/
structure Answer where
  success : Bool := true
  code : String := ""
  warnings : List String := []
  metadata? : Option CheckedMetadata := none
  message? : Option String := none
  failure? : Option Failure := none

namespace Answer

/-- Nothing but the failure is reported of a pass that fails. -/
def failed (failure : Failure) : Answer :=
  { success := false, message? := some failure.report, failure? := some failure }

def ofResult : Except Failure CheckedResult → Answer
  | .ok c => { code := c.result.code, warnings := c.result.warnings, metadata? := some c.metadata }
  | .error failure => failed failure

end Answer

def answer (settings : Settings) (payload : Json) : Answer := .ofResult (generateChecked settings payload)

def Outcome.tidied (o : Outcome) : Except Failure String := o.result.map fun r => Text.tidy r.code

def generateCode (settings : Settings) (payload : Json) : Except Failure String :=
  (generate settings payload).tidied

end SchemaDecl.Generation

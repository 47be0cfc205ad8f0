import SchemaDecl.Console.Basic
import SchemaDecl.Generation.Skip
import SchemaDecl.Logging

/-!
# Reporting skips

What a reporter makes of the events of a pass: records of a log, or lines on the console. The summary
says nothing if nothing was skipped.
-/

namespace SchemaDecl.Report

def label : SkipPlace → String
  | .field => "Field"
  | .block => "Block"

/-- The rows of a summary: the fields first, then the blocks. -/
def rows (fields blocks : List SkippedItem) : List (SkipPlace × SkippedItem) :=
  fields.map (fun item => (.field, item)) ++ blocks.map fun item => (.block, item)

def header : String := "Summary of Skipped Items:"

def total (count : Nat) : String := "Total skipped items: " ++ toString count

def completed : String := "Generation completed successfully with partial schema."

def logged : Event → List LogRecord
  | .warn message _ => [⟨.warning, message⟩]
  | .summary fields blocks =>
    let rows := rows fields blocks
    if rows.isEmpty then []
    else
      let lines := rows.map fun (place, item) =>
        "  " ++ label place ++ " " ++ item.uid.display ++ " at " ++ item.path.display
      ([header] ++ lines ++ [total rows.length, completed]).map fun line => ⟨.info, line⟩

inductive Fault
  | notText (kind : String)
  | console (fault : Console.Fault)

def Fault.message : Fault → String
  | notText kind => "unable to render " ++ kind ++ "; a string or other renderable object is required"
  | console fault => fault.message

/-- A cell of the summary: a text, or nothing. -/
def cell : Json → Except Fault String
  | .text s => .ok s
  | .null => .ok ""
  | value => .error (.notText value.kindName)

def cells (rows : List (SkipPlace × SkippedItem)) : Except Fault (List (List String)) :=
  rows.mapM fun (place, item) => do return [label place, ← cell item.uid, ← cell item.path]

/-- The lines that show an event on a console, and the fault that kept the rest from being shown. -/
def shown (console : Console) : Event → List String × Option Fault
  | .warn message _ =>
    match console.message ("[yellow]⚠️  " ++ console.escape message ++ "[/yellow]") with
    | .ok lines => (lines, none)
    | .error fault => ([], some (.console fault))
  | .summary fields blocks =>
    let rows := rows fields blocks
    if rows.isEmpty then ([], none)
    else match cells rows with
      | .error fault => ([], some fault)
      | .ok cells =>
        match console.table ["Type", "Key Name", "Schema Path"] cells with
        | .error fault => (["", header], some (.console fault))
        | .ok lines => (["", header] ++ lines ++ [total rows.length, "✓ " ++ completed], none)

/-- The lines that show events in turn, up to the first that cannot be shown whole. -/
def showAll (console : Console) : List Event → List String × Option Fault
  | [] => ([], none)
  | event :: rest =>
    match shown console event with
    | (lines, some fault) => (lines, some fault)
    | (lines, none) =>
      let (more, fault?) := showAll console rest
      (lines ++ more, fault?)

end SchemaDecl.Report

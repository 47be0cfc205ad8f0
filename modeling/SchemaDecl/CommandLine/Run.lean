import SchemaDecl.CommandLine.Arguments
import SchemaDecl.Generation.Result
import SchemaDecl.Registry.Basic
import SchemaDecl.Report
import SchemaDecl.Settings.Check
import SchemaDecl.Settings.File
import SchemaDecl.Source.Loading

/-!
# Running a command line

A run reads its settings, then its input, generates, and writes the code to one file or shows it. All
that can go wrong goes wrong before the file is written. What cannot be put into words for the user
escapes from the run.
-/

namespace SchemaDecl.CommandLine

/-- What a run can draw on. -/
structure Surroundings where
  console : Console
  files : FileTree
  input : String := ""
  reply : Reply := .noConnection ""

/-- What a run leaves behind: the lines on both consoles, and the files. -/
structure World where
  output : List String := []
  diagnostics : List String := []
  files : FileTree

/-- What escapes from a run. -/
inductive Escape
  | settings (fault : Settings.LoadFault)
  | loading (fault : Loading.Fault)
  | document (fault : Fault)
  | console (fault : Console.Fault)
  | outputNotText (kind : String)
  | outputPath (path : FilePath) (fault : PathFault)

def Escape.message : Escape → String
  | settings fault => fault.message
  | loading fault => fault.message
  | document fault => fault.message
  | console fault => fault.message
  | outputNotText kind => "expected str, bytes or os.PathLike object, not " ++ kind
  | outputPath path fault => fault.message path

inductive Ending
  | exit (code : Nat)
  | escape (e : Escape)

abbrev Session := ExceptT Ending (StateM World)

def tell (lines : List String) : Session Unit :=
  modify fun w => { w with diagnostics := w.diagnostics ++ lines }

/-- The result of the console; where it cannot show something, the run is over. -/
def shown {α : Type} (result : Except Console.Fault α) : Session α :=
  match result with
  | .ok a => return a
  | .error fault => throw (.escape (.console fault))

def say (console : Console) (markup : String) : Session Unit := do
  tell (← shown (console.message markup))

def showTable (console : Console) (title : String) (headers : List String) (rows : List (List String)) :
    Session (List String) :=
  return title :: (← shown (console.table headers rows))

def failWith {α : Type} (console : Console) (markup : String) : Session α := do
  say console markup
  throw (.exit 1)

def fail {α : Type} (console : Console) (text : String) : Session α :=
  failWith console ("[red]✗ Error:[/red] " ++ text)

def Arguments.overrides (a : Arguments) : Entries :=
  (a.leading?.map fun s => ("prefix", Json.text s)).toList ++
  (if a.systemFields then [("system_fields", .bool true)] else []) ++
  (if a.editableTags then [("is_editable_tags", .bool true)] else []) ++
  (if a.referencedEntry then [("include_referenced_entry", .bool true)] else []) ++
  (if a.taxonomyEntry then [("taxonomy_entry", .bool true)] else []) ++
  (if a.noDocs then [("include_documentation", .bool false)] else []) ++
  (match a.output? with
    | some s => if s = "" then [] else [("output_file", .text s)]
    | none => [])

/-- Whether a fault of settings is one that the user is told. -/
def isToldOfSettings : Settings.LoadFault → Bool
  | .file _ (.malformed error) => !error.fault.isLimit
  | .file _ (.unreachable _) | .file _ (.notText _) | .merge (.custom _) => false
  | _ => true

def readSettings (console : Console) (a : Arguments) : Session Settings := do
  match Settings.load (← get).files (a.config?.bind FilePath.given?) (some a.overrides) with
  | .error fault =>
    if isToldOfSettings fault then fail console ("Configuration error: " ++ fault.message)
    else throw (.escape (.settings fault))
  | .ok s =>
    for notice in s.check "typescript" do
      say console ("[yellow]⚠️  " ++ notice.message ++ "[/yellow]")
    return s

def loadDocument (a : Arguments) (s : Surroundings) (files : FileTree) : Loading.Outcome :=
  match a.file?.bind FilePath.given?, a.url? with
  | some path, _ => Loading.fromFile files path
  | none, some address =>
    if address = "" then Loading.fromInput s.input
    else Loading.fromAddress address (.int Loading.patience) s.reply
  | none, none => Loading.fromInput s.input

/-- Whether a fault of loading is one that the user is told. -/
def isToldOfLoading : Loading.Fault → Bool
  | .unreachable _ _ | .notText _ | .tooManyDigits _ | .badHost _ => false
  | _ => true

def recordsOf (console : Console) (data : Json) : Session (List Record) :=
  match readPayload data with
  | .ok [] => fail console "No content types found in the schema input"
  | .ok records => return records
  | .error (.unsupportedPayload kind) =>
    fail console ("Unsupported schema input: " ++ (Fault.unsupportedPayload kind).message)
  | .error (.notRecord kind) => fail console ("Unsupported schema input: " ++ (Fault.notRecord kind).message)
  | .error fault => throw (.escape (.document fault))

def readInput (a : Arguments) (s : Surroundings) : Session (List Record) := do
  match (loadDocument a s (← get).files).result with
  | .ok document => recordsOf s.console document.data
  | .error fault =>
    if isToldOfLoading fault then fail s.console ("Failed to load input: " ++ fault.message)
    else throw (.escape (.loading fault))

def generate (console : Console) (settings : Settings) (records : List Record) :
    Session Generation.CheckedResult := do
  let (result, events) := Generation.runChecked settings.style records
  let (lines, fault?) := Report.showAll console events
  tell lines
  let failed (reason : String) : Session Generation.CheckedResult :=
    failWith console ("[red]✗ Code generation failed:[/red] Code generation failed: " ++ reason)
  match fault?, result with
  | some fault, _ => failed fault.message
  | none, .ok checked => return checked
  | none, .error (.fault fault) => failed fault.message
  | none, .error (.unusableNames violations) =>
    tell ["✗ Invalid interface names"]
    failWith console (Generation.Violation.message violations)

def writeCode (console : Console) (path : FilePath) (code : String) : Session Unit := do
  match (← get).files.write path code.toUTF8 with
  | .error .hasNul => throw (.escape (.outputPath path .hasNul))
  | .error fault =>
    failWith console ("[red]✗ Failed to write to " ++ path.text ++ ":[/red] " ++ fault.message path)
  | .ok files =>
    modify fun w => { w with files }
    say console ("[green]✓[/green] Generated typescript declarations saved to [cyan]" ++ path.text ++ "[/cyan]")

def deliver (console : Console) (settings : Settings) (code : String) : Session Unit := do
  if settings.outputFile.truthy then
    match settings.outputFile with
    | .text s => writeCode console (FilePath.ofString s) code
    | value => throw (.escape (.outputNotText value.kindName))
  else modify fun w => { w with output := w.output ++ console.code code }

def metadataRows (c : Generation.CheckedResult) : List (List String) :=
  let m := c.result.metadata
  let join (names : List String) : String := ", ".intercalate names
  [["Language", "typescript"], ["Records", toString c.recordCount], ["Fields", toString c.fieldCount],
   ["Content Types", join m.names], ["Builtin Types", join m.contentstack],
   ["Global Fields", join m.globalFields], ["References", join m.contentTypes],
   ["Skipped", toString (m.skippedFields.length + m.skippedBlocks.length)]]

def listLanguages (console : Console) : Session Unit := do
  let row (info : Registry.Info) : List String :=
    let aliases := if info.aliases.isEmpty then "[dim]none[/dim]" else ", ".intercalate info.aliases
    [info.generator.language, info.generator.extension, info.generator.name, aliases]
  let infos := Registry.standard.languages.filterMap fun language =>
    (Registry.standard.info language).toOption
  let lines ← showTable console "📋 Supported Languages"
    ["Language", "Extension", "Generator Class", "Aliases"] (infos.map row)
  modify fun w => { w with output := w.output ++ lines }

def checkLanguage (console : Console) (a : Arguments) : Session Unit := do
  let language := Text.lower a.language
  if !Registry.standard.supports language then
    say console ("[red]✗ Unsupported language '" ++ language ++ "'[/red]")
    failWith console ("[dim]Supported languages: " ++ ", ".intercalate Registry.standard.languages ++ "[/dim]")

def generateFor (a : Arguments) (s : Surroundings) : Session Unit := do
  checkLanguage s.console a
  let settings ← readSettings s.console a
  let records ← readInput a s
  let checked ← generate s.console settings records
  deliver s.console settings checked.result.code
  if a.verbose then
    tell (← showTable s.console "📊 Generation Metadata" ["Property", "Value"] (metadataRows checked))

def Arguments.hasInput (a : Arguments) : Bool :=
  (a.file?.getD "") != "" || (a.url?.getD "") != "" || a.stdin

def versionLine : String := "cms-typegen 0.1.0"

def session (words : List String) (s : Surroundings) : Session Unit := do
  match Arguments.read words with
  | .error .usage => throw (.exit 2)
  | .error .help => return
  | .error .version => modify fun w => { w with output := w.output ++ [versionLine] }
  | .ok a =>
    if a.listLanguages then listLanguages s.console
    else if a.hasInput then generateFor a s
    else throw (.exit 2)

def run (words : List String) (s : Surroundings) : Ending × World :=
  match (session words s).run { files := s.files } with
  | (.ok (), world) => (.exit 0, world)
  | (.error ending, world) => (ending, world)

end SchemaDecl.CommandLine

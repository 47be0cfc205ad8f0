import SchemaDecl.Generation.Result
import SchemaDecl.Settings.Merge

/-!
# Requests

Code is asked for with options by name. Besides settings these may hold complete settings under `config`,
which make the others idle, and a reporter under `reporter`. A value that is given for either is neither:
an empty one stands for the default, and any other is found unfit once it is put to use.
-/

namespace SchemaDecl.Generation

structure Options where
  complete : Json := .null
  reporter : Json := .null
  named : Entries := []

namespace Options

/-- The name of what code is generated for, which is no option. -/
def payloadName : String := "content_types"

def ofEntries (entries : Entries) : Options where
  complete := Entries.getD "config" entries
  reporter := Entries.getD "reporter" entries
  named := Table.erase "reporter" (Table.erase "config" entries)

end Options

inductive RequestFault
  /-- The payload is given a second time among the options. -/
  | payloadTwice
  | settings (fault : Settings.MergeFault)
  | unknownOption
  | unfitSettings
  | unfitReporter
  | failure (failure : Failure)

namespace Options

/-- The settings of a generator that is made with options, all of which must name settings. -/
def generatorSettings (o : Options) : Except RequestFault Settings :=
  if o.complete = .null then
    match Settings.ofEntries? o.named with
    | some s => .ok s
    | none => .error .unknownOption
  else if o.complete.truthy then .error .unfitSettings
  else .ok {}

def settings (o : Options) : Except RequestFault Settings :=
  if o.complete = .null then (Settings.merge none (some o.named)).mapError .settings else .ok {}

/-- The tidied code of a pass whose reporter, and whose settings, may turn out to be unfit. -/
def codeOf (o : Options) (settings : Settings) (records : List Record) : Except RequestFault String :=
  let outcome := runGiven settings.style (records.map .record)
  if o.complete.truthy then .error .unfitSettings
  else if o.reporter.truthy && !outcome.events.isEmpty then .error .unfitReporter
  else outcome.tidied.mapError .failure

end Options

def codeFor (entries : Entries) (payload : Json) : Except RequestFault String := do
  if Table.has Options.payloadName entries then throw .payloadTwice
  let options := Options.ofEntries entries
  let settings ← options.settings
  let records ← (readPayload payload).mapError fun fault => .failure (.fault fault)
  options.codeOf settings records

end SchemaDecl.Generation

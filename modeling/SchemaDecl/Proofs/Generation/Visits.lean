import SchemaDecl.Generation.Run

/-!
# Visits as a relation

`Visits input scope task s steps result after` says that the visit of a task in the state `s` takes the
given steps, gives the result and leaves the state `after`. Its rules know no bound on nested declarations:
a field or block that refers to a record goes on in the fields of that record. `Passes` says the same of
the records of a pass. The steps tell in order which names are given out as types, which global fields are
built and from which fields, and which unions the fields of blocks come to.
-/

namespace SchemaDecl.Generation

/-- What is visited: a record between whose fields one is, or nothing while a pass goes from one record to
the next. A content type is known by its position among the content types. -/
inductive Scope
  | top
  | globalField (name : String)
  | contentType (position : Nat)
  deriving DecidableEq

/-- Where the fields of a global field come from: from the field or block that refers to it, or from a
record. -/
inductive Origin
  | inline (target : Json) (fields : List Field)
  | record (record : Record)

namespace Origin

def fields : Origin → List Field
  | inline _ fields => fields
  | record r => r.fields

/-- The uid that the global field is named for. -/
def target : Origin → Json
  | inline target _ => target
  | record r => r.uid

end Origin

/-- The fields for a reference to a global field that is not declared yet. -/
def Input.origin? (input : Input) (target : Json) : Option (List Field) → Option Origin
  | some fields => some (.inline target fields)
  | none => ((input.record? target).filter fun r => r.schema?.isSome).map .record

/-- The blocks of a union with their types. -/
abbrev Blocks := List (Json × TypeExpr)

inductive Step
  /-- The name of a global field is given out as a type. -/
  | refer (name : String)
  /-- The visit of a global field begins. -/
  | build (name : String) (origin : Origin)
  /-- A field of blocks keeps these blocks and gets the name of their union. -/
  | union (scope : Scope) (blocks : Blocks) (name : String)

namespace Step

def built? : Step → Option String
  | build name _ => some name
  | _ => none

def referred? : Step → Option String
  | refer name => some name
  | _ => none

def global? : Step → Option String
  | refer name | build name _ => some name
  | _ => none

end Step

def builds (steps : List Step) : List String := steps.filterMap Step.built?

def referrals (steps : List Step) : List String := steps.filterMap Step.referred?

/-- The names of the global fields that are come across, be it to build them or as types. -/
def encounters (steps : List Step) : List String := steps.filterMap Step.global?

inductive Task
  | field (path : Json) (field : Field)
  | fields (path : Json) (fields : List Field)
  | block (path : Json) (block : Block)
  | blocks (path : Json) (blocks : List Block)
  | reference (place : SkipPlace) (uid path target : Json) (inline? : Option (List Field))
  | declare (name : String) (origin : Origin) (description : Json)

@[reducible] def Task.Result : Task → Type
  | field .. => Option Member
  | fields .. => List Member
  | block .. => Option (Json × TypeExpr)
  | blocks .. => Blocks
  | reference .. => Option TypeExpr
  | declare .. => Unit

/-- The visit for the type of a field that holds no other fields; nothing for one that may. -/
def flatType? (style : Style) (attrs : Attributes) (path : Json) : Option (Visit TypeExpr) :=
  match attrs.literals? with
  | some values => some (repeated attrs (pure (.choices (attrs.kind = .number) values)))
  | none => match attrs.kind with
    | .text | .isodate => some (repeated attrs (primitiveType .string))
    | .number => some (repeated attrs (primitiveType .number))
    | .boolean => some (repeated attrs (primitiveType .boolean))
    | .file => some (repeated attrs (fileType style attrs.uid))
    | .link => some (repeated attrs (linkType style))
    | .taxonomy => some (repeated attrs (taxonomyType style))
    | .json => some (repeated attrs (jsonType attrs))
    | .reference => some (referenceType style attrs path)
    | .unknown => some (unknownType attrs path)
    | .group | .globalField | .blocks => none

/-- The field has a usable uid and is visited as one of a kind that may hold other fields. -/
structure Opens (attrs : Attributes) (kind : Kind) : Prop where
  usable : Naming.isUsable attrs.uid = .ok true
  untyped : attrs.literals? = none
  kind_eq : attrs.kind = kind

def typedMember (attrs : Attributes) (type : TypeExpr) : Except Fault (Option Member) :=
  (memberOf attrs type).map some

def repeatedMember (attrs : Attributes) (type : TypeExpr) : Except Fault (Option Member) :=
  typedMember attrs (type.repeated attrs.multiple attrs.maxInstance)

namespace State

/-- The state in which the visit of a global field begins. -/
def opened (s : State) (name : String) : State :=
  { s with globals := Table.put name none s.globals, scope := [] }

/-- The state after the visit of a global field, back in the scope of before. -/
def closed (s : State) (scope : List BlockUnion) (name : String) (d : Declaration) : State :=
  { s with globals := Table.put name (some d) s.globals, scope }

/-- The state in which the visit of a content type begins. -/
def entered (s : State) (name uid : String) : State :=
  { s with contentTypes := s.contentTypes ++ [name], owner := some uid, scope := [] }

/-- The state after the visit of a content type that began in `before`. -/
def left (s before : State) : State := { s with scope := before.scope, owner := before.owner }

def referred (s : State) (name : String) : State :=
  { s with dependencies := s.dependencies.track .globalFields [name] }

def after (s : State) (visit : Visit Unit) : State := (visit s).2

end State

theorem after_modify (s : State) (f : State → State) : s.after (modify f) = f s := rfl

/-- What is done about a reference to an unusable name. -/
def refuseReference (place : SkipPlace) (uid path target : Json) : Visit Unit := do
  if place = .field then refuse target
  skip place (.unusableGlobal target) uid path

inductive Visits (input : Input) :
    Scope → (task : Task) → State → List Step → Except Fault task.Result → State → Prop
  | fields_nil {scope path s} : Visits input scope (.fields path []) s [] (.ok []) s
  | fields_fault {scope path field rest s steps e after} :
      Visits input scope (.field path field) s steps (.error e) after →
      Visits input scope (.fields path (field :: rest)) s steps (.error e) after
  | fields_cons {scope path field rest s steps member mid steps' result after} :
      Visits input scope (.field path field) s steps (.ok member) mid →
      Visits input scope (.fields path rest) mid steps' result after →
      Visits input scope (.fields path (field :: rest)) s (steps ++ steps')
        (result.map (member.toList ++ ·)) after
  | field_fault {scope path attrs schema? blocks s e} :
      Naming.isUsable attrs.uid = .error e →
      Visits input scope (.field path ⟨attrs, schema?, blocks⟩) s [] (.error e) s
  | field_unusable {scope path attrs schema? blocks s} :
      Naming.isUsable attrs.uid = .ok false →
      Visits input scope (.field path ⟨attrs, schema?, blocks⟩) s [] (.ok none)
        (s.after (skip .field .unusableUid attrs.uid (joinPath path attrs.uid)))
  | field_flat {scope path attrs schema? blocks s visit result after} :
      Naming.isUsable attrs.uid = .ok true →
      flatType? input.style attrs (joinPath path attrs.uid) = some visit →
      visit s = (result, after) →
      Visits input scope (.field path ⟨attrs, schema?, blocks⟩) s [] (result.bind (typedMember attrs))
        after
  | field_group {scope path attrs schema? blocks s steps result after} :
      Opens attrs .group →
      Visits input scope (.fields (joinPath path attrs.uid) (schema?.getD [])) s steps result after →
      Visits input scope (.field path ⟨attrs, schema?, blocks⟩) s steps
        (result.bind fun members => repeatedMember attrs (.object members)) after
  | field_target_fault {scope path attrs schema? blocks s e} :
      Opens attrs .globalField →
      globalTarget attrs = .error e →
      Visits input scope (.field path ⟨attrs, schema?, blocks⟩) s [] (.error e) s
  | field_global {scope path attrs schema? blocks s target steps result after} :
      Opens attrs .globalField →
      globalTarget attrs = .ok target →
      Visits input scope (.reference .field attrs.uid (joinPath path attrs.uid) target schema?) s steps
        result after →
      Visits input scope (.field path ⟨attrs, schema?, blocks⟩) s steps
        (result.bind fun type => repeatedMember attrs (type.getD .fallback)) after
  | field_blocks_fault {scope path attrs schema? blocks s steps e after} :
      Opens attrs .blocks →
      Visits input scope (.blocks (joinPath path attrs.uid) blocks) s steps (.error e) after →
      Visits input scope (.field path ⟨attrs, schema?, blocks⟩) s steps (.error e) after
  | field_no_blocks {scope path attrs schema? blocks s steps after} :
      Opens attrs .blocks →
      Visits input scope (.blocks (joinPath path attrs.uid) blocks) s steps (.ok []) after →
      Visits input scope (.field path ⟨attrs, schema?, blocks⟩) s steps (repeatedMember attrs .fallback)
        after
  | field_union_fault {scope path attrs schema? blocks s steps members mid e after} :
      Opens attrs .blocks →
      Visits input scope (.blocks (joinPath path attrs.uid) blocks) s steps (.ok members) mid →
      members ≠ [] →
      unionName input.style attrs.uid members mid = (.error e, after) →
      Visits input scope (.field path ⟨attrs, schema?, blocks⟩) s steps (.error e) after
  | field_union {scope path attrs schema? blocks s steps members mid name after} :
      Opens attrs .blocks →
      Visits input scope (.blocks (joinPath path attrs.uid) blocks) s steps (.ok members) mid →
      members ≠ [] →
      unionName input.style attrs.uid members mid = (.ok name, after) →
      Visits input scope (.field path ⟨attrs, schema?, blocks⟩) s (steps ++ [.union scope members name])
        (repeatedMember attrs (.declared name)) after
  | blocks_nil {scope path s} : Visits input scope (.blocks path []) s [] (.ok []) s
  | blocks_fault {scope path block rest s steps e after} :
      Visits input scope (.block path block) s steps (.error e) after →
      Visits input scope (.blocks path (block :: rest)) s steps (.error e) after
  | blocks_cons {scope path block rest s steps member mid steps' result after} :
      Visits input scope (.block path block) s steps (.ok member) mid →
      Visits input scope (.blocks path rest) mid steps' result after →
      Visits input scope (.blocks path (block :: rest)) s (steps ++ steps')
        (result.map (member.toList ++ ·)) after
  | block_fault {scope path uid title target schema? s e} :
      Naming.isUsable uid = .error e →
      Visits input scope (.block path ⟨uid, title, target, schema?⟩) s [] (.error e) s
  | block_unusable {scope path uid title target schema? s} :
      Naming.isUsable uid = .ok false →
      Visits input scope (.block path ⟨uid, title, target, schema?⟩) s [] (.ok none)
        (s.after (skip .block .unusableUid uid (joinPath path uid)))
  | block_inline {scope path uid title target schema? s steps result after} :
      Naming.isUsable uid = .ok true →
      target.truthy = false →
      Visits input scope (.fields (joinPath path uid) (schema?.getD [])) s steps result after →
      Visits input scope (.block path ⟨uid, title, target, schema?⟩) s steps
        (result.map fun members => some (uid, .object members)) after
  | block_reference {scope path uid title target schema? s steps result after} :
      Naming.isUsable uid = .ok true →
      target.truthy = true →
      Visits input scope (.reference .block uid (joinPath path uid) target schema?) s steps result after →
      Visits input scope (.block path ⟨uid, title, target, schema?⟩) s steps
        (result.map (Option.map fun type => (uid, type))) after
  | reference_fault {scope place uid path target inline? s e} :
      Naming.declare? input.style.lead target = .error e →
      Visits input scope (.reference place uid path target inline?) s [] (.error e) s
  | reference_unusable {scope place uid path target inline? s name} :
      Naming.declare? input.style.lead target = .ok name →
      Naming.isUsableName name = false →
      Visits input scope (.reference place uid path target inline?) s [] (.ok none)
        (s.after (refuseReference place uid path target))
  | reference_known {scope place uid path target inline? s name} :
      Naming.declare? input.style.lead target = .ok name →
      Naming.isUsableName name = true →
      s.isDeclared name = true →
      Visits input scope (.reference place uid path target inline?) s [.refer name]
        (.ok (some (.declared name))) (s.referred name)
  | reference_missing {scope place uid path target inline? s name} :
      Naming.declare? input.style.lead target = .ok name →
      Naming.isUsableName name = true →
      s.isDeclared name = false →
      input.origin? target inline? = none →
      Visits input scope (.reference place uid path target inline?) s [] (.ok none)
        (s.after (skip place .noSchema uid path))
  | reference_fields_fault {scope place uid path target inline? s name origin steps e after} :
      Naming.declare? input.style.lead target = .ok name →
      Naming.isUsableName name = true →
      s.isDeclared name = false →
      input.origin? target inline? = some origin →
      Visits input scope (.declare name origin (input.descriptionOf target)) s steps (.error e) after →
      Visits input scope (.reference place uid path target inline?) s steps (.error e) after
  | reference_built {scope place uid path target inline? s name origin steps after} :
      Naming.declare? input.style.lead target = .ok name →
      Naming.isUsableName name = true →
      s.isDeclared name = false →
      input.origin? target inline? = some origin →
      Visits input scope (.declare name origin (input.descriptionOf target)) s steps (.ok ()) after →
      Visits input scope (.reference place uid path target inline?) s (steps ++ [.refer name])
        (.ok (some (.declared name))) (after.referred name)
  | declare_known {scope name origin description s} :
      s.isDeclared name = true →
      Visits input scope (.declare name origin description) s [] (.ok ()) s
  | declare_fault {scope name origin description s steps e after} :
      s.isDeclared name = false →
      Visits input (.globalField name) (.fields (.text "") origin.fields) (s.opened name) steps (.error e)
        after →
      Visits input scope (.declare name origin description) s (.build name origin :: steps) (.error e)
        { after with scope := s.scope }
  | declare_built {scope name origin description s steps members after} :
      s.isDeclared name = false →
      Visits input (.globalField name) (.fields (.text "") origin.fields) (s.opened name) steps
        (.ok members) after →
      Visits input scope (.declare name origin description) s (.build name origin :: steps) (.ok ())
        (after.closed s.scope name ⟨after.scope, ⟨name, description, false, members⟩⟩)

/-- The declaration of a content type from what its visit leaves. -/
def State.contentType (s : State) (input : Input) (name : String) (record : Record)
    (members : List Member) : Declaration :=
  ⟨s.scope, ⟨name, record.description, input.style.systemFields, members⟩⟩

/-- The visits of a pass to the records from one on, where `position` content types came before. -/
inductive Passes (input : Input) :
    Nat → List Record → State → List Step → Except Fault (List Declaration) → State → Prop
  | nil {position s} : Passes input position [] s [] (.ok []) s
  | name_fault {position record rest s e after} :
      recordName input record s = (.error e, after) →
      Passes input position (record :: rest) s [] (.error e) after
  | bare {position record rest s uid name mid steps result after} :
      record.isGlobal = true →
      recordName input record s = (.ok (uid, name), mid) →
      record.schema? = none →
      Passes input position rest mid steps result after →
      Passes input position (record :: rest) s steps result after
  | global_fault {position record rest s uid name mid steps e after} :
      record.isGlobal = true →
      recordName input record s = (.ok (uid, name), mid) →
      record.schema?.isSome = true →
      Visits input .top (.declare name (.record record) record.description) mid steps (.error e) after →
      Passes input position (record :: rest) s steps (.error e) after
  | global {position record rest s uid name mid steps mid' steps' result after} :
      record.isGlobal = true →
      recordName input record s = (.ok (uid, name), mid) →
      record.schema?.isSome = true →
      Visits input .top (.declare name (.record record) record.description) mid steps (.ok ()) mid' →
      Passes input position rest mid' steps' result after →
      Passes input position (record :: rest) s (steps ++ steps') result after
  | contentType_fault {position record rest s uid name mid steps e after} :
      record.isGlobal = false →
      recordName input record s = (.ok (uid, name), mid) →
      Visits input (.contentType position) (.fields (.text "") record.fields) (mid.entered name uid) steps
        (.error e) after →
      Passes input position (record :: rest) s steps (.error e) (after.left mid)
  | contentType {position record rest s uid name mid steps members mid' steps' result after} :
      record.isGlobal = false →
      recordName input record s = (.ok (uid, name), mid) →
      Visits input (.contentType position) (.fields (.text "") record.fields) (mid.entered name uid) steps
        (.ok members) mid' →
      Passes input (position + 1) rest (mid'.left mid) steps' result after →
      Passes input position (record :: rest) s (steps ++ steps')
        (result.map (mid'.contentType input name record members :: ·)) after

end SchemaDecl.Generation

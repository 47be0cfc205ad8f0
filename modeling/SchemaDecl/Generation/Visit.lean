import SchemaDecl.Generation.State

/-!
# Visiting fields

A visit turns a field into a member and keeps account of what it uses and what it skips. The recursion
follows the fields; where a field refers to a global field that is a record of its own, the visit goes on
in that record, which `declare` stands for.
-/

namespace SchemaDecl.Generation

/-- How the declaration of a record is made: by its name, fields and description. -/
abbrev Declare := String → List Field → Json → Visit Unit

/-- The record with a uid; the first of several. -/
def Input.record? (input : Input) (uid : Json) : Option Record :=
  input.records.find? fun r => r.uid == uid

def Input.descriptionOf (input : Input) (uid : Json) : Json :=
  ((input.record? uid).map Record.description).getD .null

def builtinUsed (style : Style) (builtin : Builtin) : Visit Unit :=
  track .contentstack [style.nameOf builtin]

def primitiveType (p : Primitive) : Visit TypeExpr := do
  track .javascript [p.name]
  return .primitive p

def fileType (style : Style) (uid : Json) : Visit TypeExpr := do
  if uid == .text "parent_uid" then return .folder
  builtinUsed style .file
  return .file

def linkType (style : Style) : Visit TypeExpr := do
  builtinUsed style .link
  return .link

def taxonomyType (style : Style) : Visit TypeExpr := do
  builtinUsed style .taxonomy
  return .taxonomy

def jsonType (attrs : Attributes) : Visit TypeExpr := do
  if ← check attrs.isExtension then return .extension
  modify fun s => { s with richTextUsed := true }
  return .richText

def unknownType (attrs : Attributes) (path : Json) : Visit TypeExpr := do
  skip .field (.unknownKind attrs.tag) attrs.uid path
  return .fallback

/-- The declaration names of the targets of a reference; a target without a usable name is skipped. -/
def referenceNames (style : Style) (path : Json) : List Json → Visit (List String)
  | [] => return []
  | target :: rest => do
    let name ← check (Naming.declare? style.lead target)
    if Naming.isUsableName name then
      return name :: (← referenceNames style path rest)
    else
      skip .field .unusableReference target path
      referenceNames style path rest

def referenceType (style : Style) (attrs : Attributes) (path : Json) : Visit TypeExpr := do
  let names ← referenceNames style path (← check attrs.targets)
  track .contentTypes names
  return .references names

/-- Takes note of the content type in visit as one that refers to an unusable name. -/
def refuse (target : Json) : Visit Unit :=
  modify fun s =>
    match target, s.owner with
    | .text target, some owner =>
      if owner = "" then s else s.addRefusal target owner
    | _, _ => s

def isNullable (attrs : Attributes) : Except Fault Bool :=
  if attrs.mandatory then .ok false
  else if attrs.kind = .isodate ∨ attrs.kind = .file ∨ attrs.kind = .number then .ok true
  else (asKey attrs.displayType).map fun shown => shown == .text "radio" || shown == .text "dropdown"

def isOptional (attrs : Attributes) : Bool := attrs.kind != .boolean && !attrs.mandatory

def memberOf (attrs : Attributes) (type : TypeExpr) : Except Fault Member :=
  (isNullable attrs).map fun isNullable =>
    ⟨attrs.uid, attrs.displayName, isOptional attrs, isNullable, type⟩

/-- The uid of what a global field refers to: its first target, or its own uid. -/
def globalTarget (attrs : Attributes) : Except Fault Json :=
  attrs.targets.map fun targets => targets.headD attrs.uid

/-- Makes sure that a global field is declared, from its own fields or those of a record with its uid;
false if there are none. -/
def resolveGlobal (input : Input) (declare : Declare) (name : String) (target : Json)
    (inline? : Option (Visit (List Member))) : Visit Bool := do
  let found ←
    if (← get).isDeclared name then pure true
    else match inline? with
      | some members => do
        declareGlobal name (input.descriptionOf target) members
        pure true
      | none =>
        match (input.record? target).bind Record.schema? with
        | some fields => do
          declare name fields (input.descriptionOf target)
          pure true
        | none => pure false
  if found then track .globalFields [name]
  return found

/-- The type of a field or block that refers to a global field; nothing where it had to be skipped. -/
def globalReference (input : Input) (declare : Declare) (place : SkipPlace) (uid path target : Json)
    (inline? : Option (Visit (List Member))) : Visit (Option TypeExpr) := do
  let name ← check (Naming.declare? input.style.lead target)
  if !Naming.isUsableName name then
    if place = .field then refuse target
    skip place (.unusableGlobal target) uid path
    return none
  else if ← resolveGlobal input declare name target inline? then
    return some (.declared name)
  else
    skip place .noSchema uid path
    return none

/-- The type of a field whose single values have the type that a visit finds. -/
def repeated (attrs : Attributes) (visit : Visit TypeExpr) : Visit TypeExpr := do
  let type ← visit
  return type.repeated attrs.multiple attrs.maxInstance

mutual

/-- The member for a field; nothing for a field whose uid cannot name one. -/
def visitField (input : Input) (declare : Declare) (path : Json) : Field → Visit (Option Member)
  | ⟨attrs, schema?, blocks⟩ => do
    let path := joinPath path attrs.uid
    if ← check (Naming.isUsable attrs.uid) then
      let type ← match attrs.literals? with
        | some values => repeated attrs (pure (.choices (attrs.kind = .number) values))
        | none => match attrs.kind with
          | .text | .isodate => repeated attrs (primitiveType .string)
          | .number => repeated attrs (primitiveType .number)
          | .boolean => repeated attrs (primitiveType .boolean)
          | .file => repeated attrs (fileType input.style attrs.uid)
          | .link => repeated attrs (linkType input.style)
          | .taxonomy => repeated attrs (taxonomyType input.style)
          | .json => repeated attrs (jsonType attrs)
          | .reference => referenceType input.style attrs path
          | .unknown => unknownType attrs path
          | .group => repeated attrs (TypeExpr.object <$> visitSchema input declare path schema?)
          | .globalField => repeated attrs do
            let target ← check (globalTarget attrs)
            let type ← globalReference input declare .field attrs.uid path target
              (visitInline input declare schema?)
            return type.getD .fallback
          | .blocks => repeated attrs do
            let members ← visitBlocks input declare path blocks
            if members.isEmpty then return .fallback
            else return .declared (← unionName input.style attrs.uid members)
      return some (← check (memberOf attrs type))
    else
      skip .field .unusableUid attrs.uid path
      return none

def visitFields (input : Input) (declare : Declare) (path : Json) : List Field → Visit (List Member)
  | [] => return []
  | field :: rest => do
    let member ← visitField input declare path field
    let members ← visitFields input declare path rest
    return member.toList ++ members

def visitSchema (input : Input) (declare : Declare) (path : Json) :
    Option (List Field) → Visit (List Member)
  | none => return []
  | some fields => visitFields input declare path fields

/-- The visit of fields that stand in place of a record, if there are any. -/
def visitInline (input : Input) (declare : Declare) :
    Option (List Field) → Option (Visit (List Member))
  | none => none
  | some fields => some (visitFields input declare (.text "") fields)

/-- The type of a block; nothing for a block that refers to an unusable or unknown global field. -/
def visitBlock (input : Input) (declare : Declare) (path : Json) : Block → Visit (Option (Json × TypeExpr))
  | ⟨uid, _, target, schema?⟩ => do
    let path := joinPath path uid
    if ← check (Naming.isUsable uid) then
      let type ←
        if target.truthy then
          globalReference input declare .block uid path target (visitInline input declare schema?)
        else (fun members => some (.object members)) <$> visitSchema input declare path schema?
      return type.map fun type => (uid, type)
    else
      skip .block .unusableUid uid path
      return none

def visitBlocks (input : Input) (declare : Declare) (path : Json) :
    List Block → Visit (List (Json × TypeExpr))
  | [] => return []
  | block :: rest => do
    let member ← visitBlock input declare path block
    let members ← visitBlocks input declare path rest
    return member.toList ++ members

end

variable {input : Input} {declare : Declare} {path : Json} {schema? : Option (List Field)} {e : Fault}

theorem visitSchema_eq (input : Input) (declare : Declare) (path : Json) (schema? : Option (List Field)) :
    visitSchema input declare path schema? = visitFields input declare path (schema?.getD []) := by
  cases schema? with
  | none => rw [visitSchema, Option.getD_none, visitFields]
  | some fields => rw [visitSchema, Option.getD_some]

theorem visitField_fault {attrs : Attributes} {blocks : List Block} (hu : Naming.isUsable attrs.uid = .error e)
    (s : State) :
    visitField input declare path ⟨attrs, schema?, blocks⟩ s = (.error e, s) := by
  rw [visitField, hu]
  rfl

theorem visitBlock_fault {uid title target : Json} (hu : Naming.isUsable uid = .error e) (s : State) :
    visitBlock input declare path ⟨uid, title, target, schema?⟩ s = (.error e, s) := by
  rw [visitBlock, hu]
  rfl

end SchemaDecl.Generation

import SchemaDecl.Proofs.Generation.Declarations
import SchemaDecl.Proofs.Generation.WellTyped

/-!
# Notes of visits

What a visit takes note of: the fields and blocks that it skips, the names that it uses, and rich text. In
a well-typed document the notes for a list of fields can be told from the fields and from which references
lead to a record, whatever is declared by then. What is noted in the records that they lead to is apart.
-/

namespace SchemaDecl.Generation

inductive Note
  | skip (place : SkipPlace) (cause : SkipCause) (uid path : Json)
  | use (category : Category) (name : String)
  | richText

namespace Note

def item? (place : SkipPlace) : Note → Option SkippedItem
  | skip p cause uid path => if p = place then some ⟨uid, path, cause.reason⟩ else none
  | _ => none

def message? : Note → Option String
  | skip place cause uid path => some (cause.message place uid path)
  | _ => none

end Note

/-- The second state has taken the notes since the first. -/
structure Notes (s : State) (notes : List Note) (t : State) : Prop where
  fields : t.skippedFields = s.skippedFields ++ notes.filterMap (Note.item? .field)
  blocks : t.skippedBlocks = s.skippedBlocks ++ notes.filterMap (Note.item? .block)
  warnings : t.warnings = s.warnings ++ notes.filterMap Note.message?
  used : ∀ category name, name ∈ t.dependencies.get category ↔
    name ∈ s.dependencies.get category ∨ .use category name ∈ notes
  richText : t.richTextUsed = true ↔ s.richTextUsed = true ∨ .richText ∈ notes

variable {s t u : State} {ns ns' : List Note} {α β : Type} {a : α} {b : β}

theorem Notes.refl (s : State) : Notes s [] s := ⟨by simp, by simp, by simp, by simp, by simp⟩

theorem Notes.append (h : Notes s ns t) (h' : Notes t ns' u) : Notes s (ns ++ ns') u where
  fields := by rw [h'.fields, h.fields, List.filterMap_append, List.append_assoc]
  blocks := by rw [h'.blocks, h.blocks, List.filterMap_append, List.append_assoc]
  warnings := by rw [h'.warnings, h.warnings, List.filterMap_append, List.append_assoc]
  used category name := by rw [h'.used, h.used, List.mem_append, or_assoc]
  richText := by rw [h'.richText, h.richText, List.mem_append, or_assoc]

/-- The visit always gives the same result and takes the same notes. -/
def Takes (visit : Visit α) (a : α) (ns : List Note) : Prop :=
  ∀ s, (visit s).1 = .ok a ∧ Notes s ns (visit s).2

theorem takes_pure (a : α) : Takes (pure a) a [] := fun s => ⟨rfl, Notes.refl s⟩

theorem Takes.bind {x : Visit α} {f : α → Visit β} (hx : Takes x a ns) (hf : Takes (f a) b ns') :
    Takes (x >>= f) b (ns ++ ns') := by
  intro s
  obtain ⟨hr, hn⟩ := hx s
  rcases hs : x s with ⟨r, t⟩
  rw [hs] at hr hn
  subst hr
  obtain ⟨hr', hn'⟩ := hf t
  rw [bind_apply, hs]
  exact ⟨hr', hn.append hn'⟩

theorem Takes.then {x : Visit α} {y : Visit β} (hx : Takes x a ns) (hy : Takes y b ns') :
    Takes (x >>= fun _ => y) b (ns ++ ns') := hx.bind hy

theorem Takes.bind_pure {x : Visit α} (hx : Takes x a ns) (f : α → β) :
    Takes (x >>= fun a => pure (f a)) (f a) ns := by
  have h := hx.bind (f := fun a => pure (f a)) (takes_pure (f a))
  rwa [List.append_nil] at h

theorem Takes.modify {f : State → State} (h : ∀ s, Notes s ns (f s)) : Takes (modify f) () ns :=
  fun s => ⟨rfl, h s⟩

theorem takes_skip (place : SkipPlace) (cause : SkipCause) (uid path : Json) :
    Takes (skip place cause uid path) () [.skip place cause uid path] := by
  refine .modify fun s => ?_
  cases place <;> exact ⟨by simp [Note.item?], by simp [Note.item?], by simp [Note.message?], by simp, by simp⟩

theorem takes_track (category : Category) (names : List String) :
    Takes (track category names) () (names.map (.use category)) := by
  refine .modify fun s => ⟨?_, ?_, ?_, fun c name => ?_, by simp⟩
  · simp [List.filterMap_map, Function.comp_def, Note.item?]
  · simp [List.filterMap_map, Function.comp_def, Note.item?]
  · simp [List.filterMap_map, Function.comp_def, Note.message?]
  · rw [Dependencies.mem_track, List.mem_map]
    simp [eq_comm, and_comm]

theorem takes_trackAs (category : Category) (names : List String) (type : TypeExpr) :
    Takes (do track category names; return type) type (names.map (.use category)) :=
  (takes_track category names).bind_pure fun _ => type

theorem takes_refuse (target : Json) : Takes (refuse target) () [] := by
  refine .modify fun s => ?_
  split
  · split
    · exact Notes.refl s
    · exact ⟨by simp [State.addRefusal], by simp [State.addRefusal], by simp [State.addRefusal],
        by simp [State.addRefusal], by simp [State.addRefusal]⟩
  · exact Notes.refl s

theorem takes_refuseReference (place : SkipPlace) (uid path target : Json) :
    Takes (refuseReference place uid path target) () [.skip place (.unusableGlobal target) uid path] := by
  cases place with
  | field => exact (takes_refuse target).bind (takes_skip .field _ uid path)
  | block => exact (takes_pure ()).then (takes_skip .block _ uid path)

/-- What is noted of the targets of a reference. -/
def targetNotes (lead : String) (path : Json) (target : Json) : List Note :=
  match Naming.declare? lead target with
  | .ok name =>
    if Naming.isUsableName name then [] else [.skip .field .unusableReference target path]
  | .error _ => []

def usableNames (lead : String) (targets : List Json) : List String :=
  (targets.filterMap fun target => (Naming.declare? lead target).toOption).filter Naming.isUsableName

def targetsOf (attrs : Attributes) : List Json := attrs.targets.toOption.getD []

/-- What is noted of a field that holds no other fields. -/
def flatNotes (style : Style) (attrs : Attributes) (path : Json) : List Note :=
  match attrs.literals? with
  | some _ => []
  | none => match attrs.kind with
    | .text | .isodate => [.use .javascript Primitive.string.name]
    | .number => [.use .javascript Primitive.number.name]
    | .boolean => [.use .javascript Primitive.boolean.name]
    | .file => if attrs.uid == .text "parent_uid" then [] else [.use .contentstack (style.nameOf .file)]
    | .link => [.use .contentstack (style.nameOf .link)]
    | .taxonomy => [.use .contentstack (style.nameOf .taxonomy)]
    | .json => if attrs.isExtension.toOption = some true then [] else [.richText]
    | .reference => (targetsOf attrs).flatMap (targetNotes style.lead path) ++
      (usableNames style.lead (targetsOf attrs)).map (.use .contentTypes)
    | .unknown => [.skip .field (.unknownKind attrs.tag) attrs.uid path]
    | .group | .globalField | .blocks => []

theorem takes_repeated {attrs : Attributes} {visit : Visit TypeExpr} {type : TypeExpr}
    (h : Takes visit type ns) :
    Takes (repeated attrs visit) (type.repeated attrs.multiple attrs.maxInstance) ns :=
  h.bind_pure fun type => type.repeated attrs.multiple attrs.maxInstance

theorem takes_referenceNames (style : Style) (path : Json) (texts : List String) :
    Takes (referenceNames style path (texts.map Json.text)) (usableNames style.lead (texts.map Json.text))
      ((texts.map Json.text).flatMap (targetNotes style.lead path)) := by
  induction texts with
  | nil => exact takes_pure _
  | cons text rest ih =>
    rw [List.map_cons, referenceNames, List.flatMap_cons]
    have hname : Naming.declare? style.lead (.text text) = .ok (Naming.declare style.lead text) := rfl
    rw [hname, check_ok, pure_bind, targetNotes, hname]
    cases hu : Naming.isUsableName (Naming.declare style.lead text) with
    | true =>
      have hnames : usableNames style.lead (.text text :: rest.map Json.text) =
          Naming.declare style.lead text :: usableNames style.lead (rest.map Json.text) := by
        simp [usableNames, hname, Except.toOption, hu]
      rw [hnames, if_pos rfl]
      simp only [hu, if_true, List.nil_append]
      exact ih.bind_pure fun names => Naming.declare style.lead text :: names
    | false =>
      have hnames : usableNames style.lead (.text text :: rest.map Json.text) =
          usableNames style.lead (rest.map Json.text) := by
        simp [usableNames, hname, Except.toOption, hu]
      rw [hnames, if_neg Bool.false_ne_true]
      simp only [hu, Bool.false_eq_true, if_false]
      exact (takes_skip _ _ _ _).then ih

theorem takes_fileType (style : Style) (uid : Json) : ∃ type, Takes (fileType style uid) type
    (if uid == .text "parent_uid" then [] else [.use .contentstack (style.nameOf .file)]) := by
  unfold fileType
  split
  · exact ⟨_, takes_pure _⟩
  · exact ⟨_, takes_trackAs _ [_] _⟩

theorem takes_jsonType {attrs : Attributes} (hw : attrs.WellTyped) : ∃ type, Takes (jsonType attrs) type
    (if attrs.isExtension.toOption = some true then [] else [.richText]) := by
  obtain ⟨isExtension, he⟩ := hw.isExtension
  unfold jsonType
  rw [he, check_ok, pure_bind]
  cases isExtension with
  | true => exact ⟨_, takes_pure _⟩
  | false =>
    have hrich : Takes (modify fun s => { s with richTextUsed := true }) () [.richText] :=
      .modify fun s => ⟨by simp [Note.item?], by simp [Note.item?], by simp [Note.message?], by simp, by simp⟩
    exact ⟨_, hrich.bind_pure fun _ => TypeExpr.richText⟩

theorem takes_referenceType (style : Style) {attrs : Attributes} (path : Json) (hw : attrs.WellTyped) :
    ∃ type, Takes (referenceType style attrs path) type
      ((targetsOf attrs).flatMap (targetNotes style.lead path) ++
        (usableNames style.lead (targetsOf attrs)).map (.use .contentTypes)) := by
  obtain ⟨texts, ht⟩ := hw.targets
  have hof : targetsOf attrs = texts.map Json.text := by
    rw [targetsOf, ht]
    rfl
  unfold referenceType
  rw [ht, hof, check_ok, pure_bind]
  exact ⟨_, (takes_referenceNames style path texts).bind (takes_trackAs _ _ _)⟩

theorem takes_flatType {style : Style} {attrs : Attributes} {path : Json} {visit : Visit TypeExpr}
    (h : flatType? style attrs path = some visit) (hw : attrs.WellTyped) :
    ∃ type, Takes visit type (flatNotes style attrs path) := by
  unfold flatType? at h
  unfold flatNotes
  cases hl : attrs.literals? with
  | some values =>
    rw [hl] at h
    obtain rfl := Option.some.inj h
    exact ⟨_, takes_repeated (takes_pure _)⟩
  | none =>
    rw [hl] at h
    cases hk : attrs.kind <;> rw [hk] at h
    case group | globalField | blocks => cases h
    all_goals obtain rfl := Option.some.inj h
    case file =>
      obtain ⟨type, ht⟩ := takes_fileType style attrs.uid
      exact ⟨_, takes_repeated ht⟩
    case json =>
      obtain ⟨type, ht⟩ := takes_jsonType hw
      exact ⟨_, takes_repeated ht⟩
    case reference => exact takes_referenceType style path hw
    case unknown => exact ⟨_, (takes_skip _ _ _ _).bind_pure fun _ => TypeExpr.fallback⟩
    all_goals exact ⟨_, takes_repeated (takes_trackAs _ [_] _)⟩

/-- What is noted of a reference to a global field. -/
def referenceNotes (lead : String) (resolves : Json → Bool) (place : SkipPlace) (uid path target : Json) :
    List Note :=
  match Naming.declare? lead target with
  | .ok name =>
    if !Naming.isUsableName name then [.skip place (.unusableGlobal target) uid path]
    else if resolves target then [.use .globalFields name]
    else [.skip place .noSchema uid path]
  | .error _ => []

mutual

@[simp] def fieldNotes (style : Style) (resolves : Json → Bool) (path : Json) : Field → List Note
  | ⟨attrs, schema?, blocks⟩ =>
    let path := joinPath path attrs.uid
    if usable attrs.uid then
      match attrs.literals?, attrs.kind with
      | none, .group => schemaNotes style resolves path schema?
      | none, .globalField => (globalTarget attrs).toOption.toList.flatMap
          (referenceNotes style.lead resolves .field attrs.uid path)
      | none, .blocks => blocksNotes style resolves path blocks
      | _, _ => flatNotes style attrs path
    else [.skip .field .unusableUid attrs.uid path]

@[simp] def fieldsNotes (style : Style) (resolves : Json → Bool) (path : Json) : List Field → List Note
  | [] => []
  | field :: rest => fieldNotes style resolves path field ++ fieldsNotes style resolves path rest

@[simp] def schemaNotes (style : Style) (resolves : Json → Bool) (path : Json) : Option (List Field) → List Note
  | none => []
  | some fields => fieldsNotes style resolves path fields

@[simp] def blockNotes (style : Style) (resolves : Json → Bool) (path : Json) : Block → List Note
  | ⟨uid, _, target, schema?⟩ =>
    let path := joinPath path uid
    if usable uid then
      if target.truthy then referenceNotes style.lead resolves .block uid path target
      else schemaNotes style resolves path schema?
    else [.skip .block .unusableUid uid path]

@[simp] def blocksNotes (style : Style) (resolves : Json → Bool) (path : Json) : List Block → List Note
  | [] => []
  | block :: rest => blockNotes style resolves path block ++ blocksNotes style resolves path rest

end

/-- What is noted of a task, apart from the notes of the global fields that it builds. -/
def Task.notes (style : Style) (resolves : Json → Bool) : Task → List Note
  | .field path f => fieldNotes style resolves path f
  | .fields path fs => fieldsNotes style resolves path fs
  | .block path b => blockNotes style resolves path b
  | .blocks path bs => blocksNotes style resolves path bs
  | .reference place uid path target _ => referenceNotes style.lead resolves place uid path target
  | .declare .. => []

section

variable {style : Style} {resolves : Json → Bool} {path uid title target : Json} {attrs : Attributes}
  {schema? : Option (List Field)} {blocks : List Block}

theorem usable_eq {uid : Json} {b : Bool} (hu : Naming.isUsable uid = .ok b) : usable uid = b := by
  rw [usable, hu]
  cases b <;> rfl

theorem schemaNotes_eq (style : Style) (resolves : Json → Bool) (path : Json) (schema? : Option (List Field)) :
    schemaNotes style resolves path schema? = fieldsNotes style resolves path (schema?.getD []) := by
  cases schema? with
  | none => rw [schemaNotes, Option.getD_none, fieldsNotes]
  | some fields => rw [schemaNotes, Option.getD_some]

theorem referenceNotes_unusable {place : SkipPlace} {lead name : String}
    (hn : Naming.declare? lead target = .ok name) (hu : Naming.isUsableName name = false) :
    referenceNotes lead resolves place uid path target = [.skip place (.unusableGlobal target) uid path] := by
  unfold referenceNotes
  rw [hn]
  exact if_pos (by simp [hu])

theorem referenceNotes_resolved {place : SkipPlace} {lead name : String}
    (hn : Naming.declare? lead target = .ok name) (hu : Naming.isUsableName name = true)
    (hr : resolves target = true) :
    referenceNotes lead resolves place uid path target = [.use .globalFields name] := by
  unfold referenceNotes
  rw [hn]
  exact (if_neg (by simp [hu])).trans (if_pos hr)

theorem referenceNotes_missing {place : SkipPlace} {lead name : String}
    (hn : Naming.declare? lead target = .ok name) (hu : Naming.isUsableName name = true)
    (hr : resolves target = false) :
    referenceNotes lead resolves place uid path target = [.skip place .noSchema uid path] := by
  unfold referenceNotes
  rw [hn]
  exact (if_neg (by simp [hu])).trans (if_neg (by simp [hr]))

theorem fieldsNotes_cons (field : Field) (rest : List Field) :
    fieldsNotes style resolves path (field :: rest) =
      fieldNotes style resolves path field ++ fieldsNotes style resolves path rest := by rw [fieldsNotes]

theorem blocksNotes_cons (block : Block) (rest : List Block) :
    blocksNotes style resolves path (block :: rest) =
      blockNotes style resolves path block ++ blocksNotes style resolves path rest := by rw [blocksNotes]

theorem fieldNotes_unusable (hu : Naming.isUsable attrs.uid = .ok false) :
    fieldNotes style resolves path ⟨attrs, schema?, blocks⟩ =
      [.skip .field .unusableUid attrs.uid (joinPath path attrs.uid)] := by
  rw [fieldNotes, usable_eq hu, if_neg Bool.false_ne_true]

theorem fieldNotes_flat {visit : Visit TypeExpr} (hu : Naming.isUsable attrs.uid = .ok true)
    (hv : flatType? style attrs (joinPath path attrs.uid) = some visit) :
    fieldNotes style resolves path ⟨attrs, schema?, blocks⟩ =
      flatNotes style attrs (joinPath path attrs.uid) := by
  rw [fieldNotes, usable_eq hu, if_pos rfl]
  unfold flatType? at hv
  cases hl : attrs.literals? with
  | some values => rfl
  | none =>
    rw [hl] at hv
    cases hk : attrs.kind <;> rw [hk] at hv
    case group | globalField | blocks => cases hv

theorem fieldNotes_group (ho : Opens attrs .group) :
    fieldNotes style resolves path ⟨attrs, schema?, blocks⟩ =
      fieldsNotes style resolves (joinPath path attrs.uid) (schema?.getD []) := by
  rw [fieldNotes, usable_eq ho.usable, if_pos rfl, ho.untyped, ho.kind_eq]
  exact schemaNotes_eq _ _ _ _

theorem fieldNotes_global (ho : Opens attrs .globalField) (ht : globalTarget attrs = .ok target) :
    fieldNotes style resolves path ⟨attrs, schema?, blocks⟩ =
      referenceNotes style.lead resolves .field attrs.uid (joinPath path attrs.uid) target := by
  rw [fieldNotes, usable_eq ho.usable, if_pos rfl, ho.untyped, ho.kind_eq, ht]
  exact List.append_nil _

theorem fieldNotes_blocks (ho : Opens attrs .blocks) :
    fieldNotes style resolves path ⟨attrs, schema?, blocks⟩ =
      blocksNotes style resolves (joinPath path attrs.uid) blocks := by
  rw [fieldNotes, usable_eq ho.usable, if_pos rfl, ho.untyped, ho.kind_eq]

variable (title)

theorem blockNotes_unusable (hu : Naming.isUsable uid = .ok false) :
    blockNotes style resolves path ⟨uid, title, target, schema?⟩ =
      [.skip .block .unusableUid uid (joinPath path uid)] := by
  rw [blockNotes, usable_eq hu, if_neg Bool.false_ne_true]

theorem blockNotes_inline (hu : Naming.isUsable uid = .ok true) (ht : target.truthy = false) :
    blockNotes style resolves path ⟨uid, title, target, schema?⟩ =
      fieldsNotes style resolves (joinPath path uid) (schema?.getD []) := by
  rw [blockNotes, usable_eq hu, if_pos rfl, ht, if_neg Bool.false_ne_true, schemaNotes_eq]

theorem blockNotes_reference (hu : Naming.isUsable uid = .ok true) (ht : target.truthy = true) :
    blockNotes style resolves path ⟨uid, title, target, schema?⟩ =
      referenceNotes style.lead resolves .block uid (joinPath path uid) target := by
  rw [blockNotes, usable_eq hu, if_pos rfl, ht, if_pos rfl]

end

end SchemaDecl.Generation

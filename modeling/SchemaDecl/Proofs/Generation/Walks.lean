import SchemaDecl.Proofs.Generation.Faultless

/-!
# Skips in document order

Where no field or block refers to a global field, the skips of a visit are those of a walk over the fields.
The walk knows neither states nor types: what is skipped depends on the fields alone, in the order in which
the document has them.
-/

namespace SchemaDecl.Generation

/-- What is skipped, and whether it counts as a field or as a block. -/
abbrev Skip := SkipPlace × SkippedItem

def skipOf (place : SkipPlace) (cause : SkipCause) (uid path : Json) : Skip := (place, ⟨uid, path, cause.reason⟩)

/-- The targets of a reference whose names begin with a digit. -/
def targetSkips (lead : String) (path : Json) (targets : List Json) : List Skip :=
  (targets.filter fun target => Naming.startsWithDigit (Naming.declare lead target.display)).map
    fun target => skipOf .field .unusableReference target path

mutual

/-- The skips below a path in document order. Nothing is looked for below a field or block whose uid begins
with a digit, and none below a field whose type is a choice. -/
def fieldSkips (lead : String) (path : Json) : Field → List Skip
  | ⟨attrs, schema?, blocks⟩ =>
    let path := joinPath path attrs.uid
    if Naming.startsWithDigit attrs.uid.display then [skipOf .field .unusableUid attrs.uid path]
    else if attrs.kind ≠ .boolean ∧ attrs.choices.getD [] ≠ [] then []
    else match attrs.kind with
      | .unknown => [skipOf .field (.unknownKind attrs.tag) attrs.uid path]
      | .reference => targetSkips lead path (targetsOf attrs)
      | .group => schemaSkips lead path schema?
      | .blocks => blocksSkips lead path blocks
      | _ => []

def fieldsSkips (lead : String) (path : Json) : List Field → List Skip
  | [] => []
  | field :: rest => fieldSkips lead path field ++ fieldsSkips lead path rest

def schemaSkips (lead : String) (path : Json) : Option (List Field) → List Skip
  | none => []
  | some fields => fieldsSkips lead path fields

def blockSkips (lead : String) (path : Json) : Block → List Skip
  | ⟨uid, _, _, schema?⟩ =>
    let path := joinPath path uid
    if Naming.startsWithDigit uid.display then [skipOf .block .unusableUid uid path]
    else schemaSkips lead path schema?

def blocksSkips (lead : String) (path : Json) : List Block → List Skip
  | [] => []
  | block :: rest => blockSkips lead path block ++ blocksSkips lead path rest

end

/-- The items that are skipped as fields, or those that are skipped as blocks. -/
def itemsAt (place : SkipPlace) (skips : List Skip) : List SkippedItem :=
  (skips.filter fun skip => skip.1 = place).map Prod.snd

/-- Between two states these skips are added to the accounts, and no others. -/
structure State.Skips (s : State) (skips : List Skip) (t : State) : Prop where
  fields : t.skippedFields = s.skippedFields ++ itemsAt .field skips
  blocks : t.skippedBlocks = s.skippedBlocks ++ itemsAt .block skips

variable {s t u : State} {skips skips' : List Skip} {α β : Type} {good : α → Prop} {good' : β → Prop}

theorem itemsAt_append (place : SkipPlace) (skips skips' : List Skip) :
    itemsAt place (skips ++ skips') = itemsAt place skips ++ itemsAt place skips' := by
  rw [itemsAt, List.filter_append, List.map_append]
  rfl

theorem State.Skips.refl (s : State) : s.Skips [] s := ⟨by simp [itemsAt], by simp [itemsAt]⟩

theorem State.Skips.append (h : s.Skips skips t) (h' : t.Skips skips' u) : s.Skips (skips ++ skips') u where
  fields := by rw [h'.fields, h.fields, itemsAt_append, List.append_assoc]
  blocks := by rw [h'.blocks, h.blocks, itemsAt_append, List.append_assoc]

def Note.skip? : Note → Option Skip
  | .skip place cause uid path => some (skipOf place cause uid path)
  | _ => none

theorem itemsAt_notes (place : SkipPlace) (ns : List Note) :
    itemsAt place (ns.filterMap Note.skip?) = ns.filterMap (Note.item? place) := by
  induction ns with
  | nil => rfl
  | cons n rest ih =>
    cases n with
    | skip p cause uid path =>
      by_cases hp : p = place
      · simpa [itemsAt, Note.skip?, Note.item?, skipOf, hp] using ih
      · simpa [itemsAt, Note.skip?, Note.item?, skipOf, hp] using ih
    | use | richText => exact ih

theorem Notes.leaves {ns : List Note} (h : Notes s ns t) : s.Skips (ns.filterMap Note.skip?) t where
  fields := by rw [h.fields, itemsAt_notes]
  blocks := by rw [h.blocks, itemsAt_notes]

/-- From every state the visit comes to a result that is good, with the same skips. -/
def Passing (visit : Visit α) (good : α → Prop) (skips : List Skip) : Prop :=
  ∀ s, ∃ a t, visit s = (.ok a, t) ∧ good a ∧ s.Skips skips t

theorem Passing.pure {a : α} (h : good a) : Passing (pure a) good [] := fun s => ⟨a, s, rfl, h, .refl s⟩

theorem Passing.check {r : Except Fault α} (h : ∃ a, r = .ok a ∧ good a) : Passing (check r) good [] := by
  obtain ⟨a, rfl, ha⟩ := h
  exact .pure ha

theorem Passing.bind {x : Visit α} {f : α → Visit β} (hx : Passing x good skips)
    (hf : ∀ a, good a → Passing (f a) good' skips') : Passing (x >>= f) good' (skips ++ skips') := by
  intro s
  obtain ⟨a, t, ha, hgood, hs⟩ := hx s
  obtain ⟨b, u, hb, hgood', hs'⟩ := hf a hgood t
  exact ⟨b, u, by rw [bind_of_ok ha, hb], hgood', hs.append hs'⟩

theorem Passing.then {x : Visit α} {f : α → Visit β} (hx : Passing x good skips)
    (hf : ∀ a, good a → Passing (f a) good' []) : Passing (x >>= f) good' skips := by
  have h := hx.bind hf
  rwa [List.append_nil] at h

theorem Takes.passing {visit : Visit α} {a : α} {ns : List Note} (h : Takes visit a ns) :
    Passing visit (fun _ => True) (ns.filterMap Note.skip?) :=
  fun s => ⟨a, (visit s).2, Prod.ext (h s).1 rfl, trivial, (h s).2.leaves⟩

theorem passing_member {attrs : Attributes} (hw : attrs.WellTyped) (type : TypeExpr) :
    Passing (check (typedMember attrs type)) (fun _ => True) [] := by
  obtain ⟨member, hm⟩ := hw.typedMember type
  exact .check ⟨_, hm, trivial⟩

theorem passing_unionName {style : Style} {uid : Json} {members : Blocks} (hu : ∃ s, uid = .text s)
    (hm : TextUids members) : Passing (unionName style uid members) (fun _ => True) [] := by
  intro s
  obtain ⟨name, t, hname, hnotes⟩ := hm.unionName hu style s
  exact ⟨name, t, hname, trivial, hnotes.leaves⟩

theorem filterMap_targetNotes (lead : String) (path : Json) (texts : List String) :
    ((texts.map Json.text).flatMap (targetNotes lead path)).filterMap Note.skip? =
      targetSkips lead path (texts.map Json.text) := by
  induction texts with
  | nil => rfl
  | cons text rest ih =>
    rw [List.map_cons, List.flatMap_cons, List.filterMap_append, ih]
    have hnotes : targetNotes lead path (.text text) =
        if Naming.isUsableName (Naming.declare lead text) then []
        else [.skip .field .unusableReference (.text text) path] := rfl
    rw [hnotes, Naming.isUsableName, targetSkips, targetSkips]
    cases hd : Naming.startsWithDigit (Naming.declare lead text) with
    | true => simp [hd, Note.skip?]
    | false => simp [hd]

theorem filterMap_uses (category : Category) (names : List String) :
    (names.map (Note.use category)).filterMap Note.skip? = [] := by
  rw [List.filterMap_map]
  exact List.filterMap_eq_nil_iff.2 fun _ _ => rfl

theorem literals?_eq_none {attrs : Attributes} :
    attrs.literals? = none ↔ ¬ (attrs.kind ≠ .boolean ∧ attrs.choices.getD [] ≠ []) := by
  unfold Attributes.literals?
  split
  next hk => simp [hk]
  next hk =>
    cases attrs.choices with
    | none => simp
    | some values => simp [hk, Option.filter_eq_none_iff]

variable {input : Input} {declare : Declare}

theorem passing_flat {attrs : Attributes} {path : Json} {visit : Visit TypeExpr}
    {schema? : Option (List Field)} {blocks : List Block} (hw : attrs.WellTyped)
    (hu : Naming.startsWithDigit attrs.uid.display = false)
    (hv : flatType? input.style attrs (joinPath path attrs.uid) = some visit) :
    Passing visit (fun _ => True) (fieldSkips input.style.lead path ⟨attrs, schema?, blocks⟩) := by
  obtain ⟨type, ht⟩ := takes_flatType hv hw
  -- What the visit notes is known of all these types, so the walk has to list the skips among its notes.
  suffices hskips : fieldSkips input.style.lead path ⟨attrs, schema?, blocks⟩ =
      (flatNotes input.style attrs (joinPath path attrs.uid)).filterMap Note.skip? by
    rw [hskips]
    exact ht.passing
  rw [fieldSkips, if_neg (by simp [hu]), flatNotes]
  unfold flatType? at hv
  cases hl : attrs.literals? with
  | some values =>
    have hchoice : ¬ attrs.literals? = none := by simp [hl]
    rw [literals?_eq_none, not_not] at hchoice
    rw [if_pos hchoice]
    rfl
  | none =>
    rw [if_neg (literals?_eq_none.1 hl)]
    rw [hl] at hv
    obtain ⟨texts, htexts⟩ := hw.targets
    cases hk : attrs.kind <;> rw [hk] at hv
    case group | globalField | blocks => cases hv
    case reference =>
      have hof : targetsOf attrs = texts.map Json.text := by
        rw [targetsOf, htexts]
        rfl
      dsimp only
      rw [hof, List.filterMap_append, filterMap_uses, filterMap_targetNotes, List.append_nil]
    case file | json =>
      dsimp only
      split <;> rfl
    all_goals rfl

def Part.Plain (part : Part) : Prop := part.WellTyped ∧ part.target? = none

theorem Part.Plain.kind_ne {field : Field} (h : (Part.field field).Plain) : field.attrs.kind ≠ .globalField := by
  intro hk
  obtain ⟨target, ht⟩ := Attributes.WellTyped.globalTarget h.1
  have htarget := h.2
  rw [Part.target?, if_pos hk, ht] at htarget
  cases htarget

theorem Part.Plain.truthy_eq {block : Block} (h : (Part.block block).Plain) : block.target.truthy = false := by
  cases ht : block.target.truthy with
  | false => rfl
  | true =>
    have htarget := h.2
    rw [Part.target?, if_pos ht] at htarget
    cases htarget

theorem isUsable_eq {uid : Json} (h : ∃ s, uid = .text s) :
    Naming.isUsable uid = .ok !(Naming.startsWithDigit uid.display) := by
  obtain ⟨s, rfl⟩ := h
  exact Naming.isUsable_text s

mutual

theorem passing_field (path : Json) : ∀ (field : Field), (∀ part ∈ fieldParts field, part.Plain) →
    Passing (visitField input declare path field) (fun _ => True) (fieldSkips input.style.lead path field)
  | ⟨attrs, schema?, blocks⟩, h => by
    rw [fieldParts, List.forall_mem_cons, List.forall_mem_append] at h
    obtain ⟨hplain, hschema, hblocks⟩ := h
    have hw : attrs.WellTyped := hplain.1
    cases hd : Naming.startsWithDigit attrs.uid.display with
    | true =>
      have hu : Naming.isUsable attrs.uid = .ok false := by rw [isUsable_eq hw.uid, hd]; rfl
      intro s
      refine ⟨none, _, visitField_unusable hu s, trivial, ?_⟩
      rw [fieldSkips, if_pos hd]
      exact (takes_skip _ _ _ _ s).2.leaves
    | false =>
      have hu : Naming.isUsable attrs.uid = .ok true := by rw [isUsable_eq hw.uid, hd]; rfl
      rcases flat_or_opens hu input.style (joinPath path attrs.uid) with ⟨visit, hv⟩ | ho | ho | ho
      · rw [visitField_flat hu hv]
        exact (passing_flat hw hd hv).then fun type _ => passing_member hw type
      · rw [visitField_group ho, fieldSkips, if_neg (by simp [hd]), if_neg (literals?_eq_none.1 ho.untyped),
          ho.kind_eq]
        exact (passing_schema _ schema? hschema).then fun _ _ => passing_member hw _
      · exact absurd ho.kind_eq hplain.kind_ne
      · rw [visitField_blocks ho, fieldSkips, if_neg (by simp [hd]), if_neg (literals?_eq_none.1 ho.untyped),
          ho.kind_eq]
        refine (passing_blocks _ blocks hblocks).then fun members hm => ?_
        split
        · exact passing_member hw _
        · exact (passing_unionName hw.uid hm).then fun _ _ => passing_member hw _

theorem passing_fields (path : Json) : ∀ (fields : List Field), (∀ part ∈ fieldsParts fields, part.Plain) →
    Passing (visitFields input declare path fields) (fun _ => True) (fieldsSkips input.style.lead path fields)
  | [], _ => by
    rw [visitFields, fieldsSkips]
    exact .pure trivial
  | field :: rest, h => by
    rw [fieldsParts, List.forall_mem_append] at h
    rw [visitFields, fieldsSkips]
    refine (passing_field path field h.1).bind fun _ _ => ?_
    exact (passing_fields path rest h.2).then fun _ _ => .pure trivial

theorem passing_schema (path : Json) : ∀ (schema? : Option (List Field)),
    (∀ part ∈ schemaParts schema?, part.Plain) →
    Passing (visitFields input declare path (schema?.getD [])) (fun _ => True)
      (schemaSkips input.style.lead path schema?)
  | none, _ => by
    rw [Option.getD_none, visitFields, schemaSkips]
    exact .pure trivial
  | some fields, h => by
    rw [schemaParts] at h
    rw [Option.getD_some, schemaSkips]
    exact passing_fields path fields h

theorem passing_block (path : Json) : ∀ (block : Block), (∀ part ∈ blockParts block, part.Plain) →
    Passing (visitBlock input declare path block) (fun member => TextUids member.toList)
      (blockSkips input.style.lead path block)
  | ⟨uid, title, target, schema?⟩, h => by
    rw [blockParts, List.forall_mem_cons] at h
    obtain ⟨hplain, hschema⟩ := h
    obtain ⟨name, hname⟩ : ∃ s, uid = .text s := Block.WellTyped.uid hplain.1
    cases hd : Naming.startsWithDigit uid.display with
    | true =>
      have hu : Naming.isUsable uid = .ok false := by rw [isUsable_eq ⟨name, hname⟩, hd]; rfl
      intro s
      refine ⟨none, _, visitBlock_unusable hu s, by simp [TextUids], ?_⟩
      rw [blockSkips, if_pos hd]
      exact (takes_skip _ _ _ _ s).2.leaves
    | false =>
      have hu : Naming.isUsable uid = .ok true := by rw [isUsable_eq ⟨name, hname⟩, hd]; rfl
      rw [visitBlock_inline hu hplain.truthy_eq, map_eq_pure_bind, blockSkips, if_neg (by simp [hd])]
      refine (passing_schema _ schema? hschema).then fun members _ => .pure ?_
      simp [TextUids, hname]

theorem passing_blocks (path : Json) : ∀ (blocks : List Block), (∀ part ∈ blocksParts blocks, part.Plain) →
    Passing (visitBlocks input declare path blocks) TextUids (blocksSkips input.style.lead path blocks)
  | [], _ => by
    rw [visitBlocks, blocksSkips]
    exact .pure (by simp [TextUids])
  | block :: rest, h => by
    rw [blocksParts, List.forall_mem_append] at h
    rw [visitBlocks, blocksSkips]
    refine (passing_block path block h.1).bind fun _ hm => ?_
    refine (passing_blocks path rest h.2).then fun _ hms => .pure ?_
    exact List.forall_mem_append.2 ⟨hm, hms⟩

end

/-- The visit of a record whose fields are well typed and do not refer to global fields comes through from
every state, whatever the lead of the names and the records of the pass are. It adds to the skipped fields and
to the skipped blocks just what a walk over its fields comes to, in document order. -/
theorem visitRecord_skips (input : Input) (name : String) {fields : List Field} (description : Json)
    (extendsSystem : Bool) (h : ∀ part ∈ fieldsParts fields, part.WellTyped ∧ part.target? = none) (s : State) :
    ∃ d t, visitRecord input name fields description extendsSystem s = (.ok d, t) ∧
      t.skippedFields = s.skippedFields ++
        itemsAt .field (fieldsSkips input.style.lead (.text "") fields) ∧
      t.skippedBlocks = s.skippedBlocks ++
        itemsAt .block (fieldsSkips input.style.lead (.text "") fields) := by
  have hpassing : Passing (visitFields input (declareRecord input input.records.length) (.text "") fields)
      (fun _ => True) (fieldsSkips input.style.lead (.text "") fields) := passing_fields (.text "") fields h
  obtain ⟨members, t, hv, -, hs⟩ := hpassing { s with scope := [] }
  have hvisit : visitRecord input name fields description extendsSystem s =
      (.ok ⟨t.scope, ⟨name, description, extendsSystem, members⟩⟩, { t with scope := s.scope }) :=
    bind_of_ok (withScope_of_ok hv) _
  exact ⟨_, _, hvisit, hs.fields, hs.blocks⟩

/-- A group, two fields of blocks that come to one union, and a choice, with fields in them that are skipped,
and fields below these. -/
def skippingDocument : List Json :=
  let typed (uid kind : String) (more : Entries) : Json :=
    .object ([("uid", .text uid), ("data_type", .text kind)] ++ more)
  let numbered : Json := typed "2nd" "group" [("schema", .list [textDocument "3rd" ""])]
  let entries : Json := typed "related" "reference" [("reference_to", .list [.text "1st", .text "page"])]
  let hero : Json :=
    .object [("uid", .text "hero"), ("schema", .list [textDocument "title" "", textDocument "4th" ""])]
  let dated : Json := .object [("uid", .text "5th"), ("schema", .list [typed "when" "date" []])]
  let sections (uid : String) : Json := typed uid "blocks" [("blocks", .list [hero, dated])]
  [typed "main" "group" [("schema", .list [numbered, typed "when" "date" [], entries])],
    sections "top", sections "bottom",
    typed "size" "group" [("enum", .object [("choices", .list [.object [("value", .text "S")]])]),
      ("schema", .list [textDocument "6th" ""])]]

theorem visitRecord_skips_skippingDocument :
    ∃ fields, readFields skippingDocument = .ok fields ∧
      (∀ part ∈ fieldsParts fields, part.WellTyped ∧ part.target? = none) ∧
      ∃ d t, visitRecord ⟨{}, []⟩ "Page" fields .null false {} = (.ok d, t) ∧
        t.skippedFields.map (fun item => (item.uid, item.path)) =
          [(.text "2nd", .text "main.2nd"), (.text "when", .text "main.when"),
            (.text "1st", .text "main.related"), (.text "4th", .text "top.hero.4th"),
            (.text "4th", .text "bottom.hero.4th")] ∧
        t.skippedBlocks.map (fun item => (item.uid, item.path)) =
          [(.text "5th", .text "top.5th"), (.text "5th", .text "bottom.5th")] := by
  have hfields : areFields skippingDocument = true := by decide +kernel
  have hbare : (readFields skippingDocument).map (fun fields =>
      (fieldsParts fields).all fun part => part.target?.isNone) = .ok true := by decide +kernel
  have hskipped : (readFields skippingDocument).map (fun fields =>
      (itemsAt .field (fieldsSkips "" (.text "") fields)).map fun item => (item.uid, item.path)) =
        .ok [(.text "2nd", .text "main.2nd"), (.text "when", .text "main.when"),
          (.text "1st", .text "main.related"), (.text "4th", .text "top.hero.4th"),
          (.text "4th", .text "bottom.hero.4th")] := by decide +kernel
  have hskipped' : (readFields skippingDocument).map (fun fields =>
      (itemsAt .block (fieldsSkips "" (.text "") fields)).map fun item => (item.uid, item.path)) =
        .ok [(.text "5th", .text "top.5th"), (.text "5th", .text "bottom.5th")] := by decide +kernel
  obtain ⟨fields, hread, hw⟩ := readFields_wellTyped skippingDocument hfields
  rw [hread] at hbare hskipped hskipped'
  have hplain : ∀ part ∈ fieldsParts fields, part.WellTyped ∧ part.target? = none := by
    intro part hp
    have hnone := List.all_eq_true.1 (Except.ok.inj hbare) part hp
    exact ⟨hw part hp, Option.isNone_iff_eq_none.1 hnone⟩
  obtain ⟨d, t, hv, hf, hb⟩ := visitRecord_skips ⟨{}, []⟩ "Page" .null false hplain {}
  refine ⟨fields, hread, hplain, d, t, hv, ?_, ?_⟩
  · rw [hf]
    exact Except.ok.inj hskipped
  · rw [hb]
    exact Except.ok.inj hskipped'

end SchemaDecl.Generation

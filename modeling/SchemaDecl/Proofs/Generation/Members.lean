import SchemaDecl.Proofs.Generation.Orders

/-!
# Members without unions

Where a document has no fields of blocks, the members that a list of fields gets can be told from the fields
and from which references lead to a record. So a record has one declaration, whenever it is built.
-/

namespace SchemaDecl.Generation

def referenceType? (lead : String) (resolves : Json → Bool) (target : Json) : Option TypeExpr :=
  match Naming.declare? lead target with
  | .ok name => if Naming.isUsableName name && resolves target then some (.declared name) else none
  | .error _ => none

/-- The type of a field that holds no other fields. -/
def flatMember? (style : Style) (attrs : Attributes) (path : Json) : Option Member :=
  (flatType? style attrs path).bind fun visit => ((visit {}).1.bind (typedMember attrs)).toOption.join

mutual

@[simp] def fieldMember? (style : Style) (resolves : Json → Bool) (path : Json) : Field → Option Member
  | ⟨attrs, schema?, _⟩ =>
    let path := joinPath path attrs.uid
    if usable attrs.uid then
      match attrs.literals?, attrs.kind with
      | none, .group =>
        (repeatedMember attrs (.object (schemaMembers style resolves path schema?))).toOption.join
      | none, .globalField =>
        (globalTarget attrs).toOption.bind fun target =>
          (repeatedMember attrs ((referenceType? style.lead resolves target).getD .fallback)).toOption.join
      | _, _ => flatMember? style attrs path
    else none

@[simp] def fieldsMembers (style : Style) (resolves : Json → Bool) (path : Json) : List Field → List Member
  | [] => []
  | field :: rest => (fieldMember? style resolves path field).toList ++ fieldsMembers style resolves path rest

@[simp] def schemaMembers (style : Style) (resolves : Json → Bool) (path : Json) : Option (List Field) → List Member
  | none => []
  | some fields => fieldsMembers style resolves path fields

end

def Input.members (input : Input) (r : Record) : List Member :=
  fieldsMembers input.style input.resolves (.text "") r.fields

/-- The declaration of a record that is built as a global field. -/
def Input.globalDeclaration (input : Input) (r : Record) : Declaration :=
  ⟨[], ⟨goesBy input.style.lead r, r.description, false, input.members r⟩⟩

/-- The declaration of a record that is a content type. -/
def Input.contentDeclaration (input : Input) (r : Record) : Declaration :=
  ⟨[], ⟨goesBy input.style.lead r, r.description, input.style.systemFields, input.members r⟩⟩

def Input.Blockless (input : Input) : Prop :=
  ∀ field, .field field ∈ input.parts → field.attrs.kind ≠ .blocks

/-- What a visit of the task gives. -/
def Task.Gives (input : Input) : (task : Task) → task.Result → Prop
  | .field path f, member => member = fieldMember? input.style input.resolves path f
  | .fields path fs, members => members = fieldsMembers input.style input.resolves path fs
  | .reference _ _ _ target _, type => type = referenceType? input.style.lead input.resolves target
  | _, _ => True

/-- Between two states no unions are declared, and every global field that is completed is declared as the
record with its name. -/
structure Declares (input : Input) (s t : State) : Prop where
  scope : t.scope = s.scope
  globals : ∀ name d, (name, some d) ∈ t.globals → (name, some d) ∈ s.globals ∨
    ∃ r ∈ input.records, goesBy input.style.lead r = name ∧ d = input.globalDeclaration r

variable {input : Input} {scope : Scope} {task : Task} {s t u : State} {steps : List Step}
  {result : Except Fault task.Result} {name : String} {path target : Json} {attrs : Attributes}
  {schema? : Option (List Field)} {blocks : List Block} {style : Style} {resolves : Json → Bool}

theorem Declares.of_keeps (h : Keeps s t) : Declares input s t :=
  ⟨h.scope, fun name d hm => .inl (by rwa [h.globals] at hm)⟩

theorem Declares.trans (h : Declares input s t) (h' : Declares input t u) : Declares input s u := by
  refine ⟨h'.scope.trans h.scope, fun name d hm => ?_⟩
  rcases h'.globals name d hm with hm | hr
  · exact h.globals name d hm
  · exact .inr hr

theorem schemaMembers_eq (path : Json) (schema? : Option (List Field)) :
    schemaMembers style resolves path schema? = fieldsMembers style resolves path (schema?.getD []) := by
  cases schema? with
  | none => rw [schemaMembers, Option.getD_none, fieldsMembers]
  | some fields => rw [schemaMembers, Option.getD_some]

theorem fieldsMembers_cons (field : Field) (rest : List Field) :
    fieldsMembers style resolves path (field :: rest) =
      (fieldMember? style resolves path field).toList ++ fieldsMembers style resolves path rest := by
  rw [fieldsMembers]

theorem fieldMember?_unusable (hu : Naming.isUsable attrs.uid = .ok false) :
    fieldMember? style resolves path ⟨attrs, schema?, blocks⟩ = none := by
  rw [fieldMember?, usable_eq hu, if_neg Bool.false_ne_true]

theorem fieldMember?_flat {visit : Visit TypeExpr} (hu : Naming.isUsable attrs.uid = .ok true)
    (hv : flatType? style attrs (joinPath path attrs.uid) = some visit) :
    fieldMember? style resolves path ⟨attrs, schema?, blocks⟩ =
      flatMember? style attrs (joinPath path attrs.uid) := by
  rw [fieldMember?, usable_eq hu, if_pos rfl]
  unfold flatType? at hv
  cases hl : attrs.literals? with
  | some values => rfl
  | none =>
    rw [hl] at hv
    cases hk : attrs.kind <;> rw [hk] at hv
    case group | globalField => cases hv

theorem fieldMember?_group (ho : Opens attrs .group) :
    fieldMember? style resolves path ⟨attrs, schema?, blocks⟩ =
      (repeatedMember attrs
        (.object (fieldsMembers style resolves (joinPath path attrs.uid) (schema?.getD [])))).toOption.join := by
  rw [fieldMember?, usable_eq ho.usable, if_pos rfl, ho.untyped, ho.kind_eq, ← schemaMembers_eq]

theorem fieldMember?_global (ho : Opens attrs .globalField) (ht : globalTarget attrs = .ok target) :
    fieldMember? style resolves path ⟨attrs, schema?, blocks⟩ =
      (repeatedMember attrs ((referenceType? style.lead resolves target).getD .fallback)).toOption.join := by
  rw [fieldMember?, usable_eq ho.usable, if_pos rfl, ho.untyped, ho.kind_eq, ht]
  rfl

theorem referenceType?_of_unusable (hn : Naming.declare? style.lead target = .ok name)
    (hu : Naming.isUsableName name = false) : referenceType? style.lead resolves target = none := by
  rw [referenceType?, hn]
  simp [hu]

theorem referenceType?_of_usable (hn : Naming.declare? style.lead target = .ok name)
    (hu : Naming.isUsableName name = true) : referenceType? style.lead resolves target =
      if resolves target then some (.declared name) else none := by
  rw [referenceType?, hn]
  simp [hu]

theorem Declares.opened (h : Declares input (s.opened name) t) : ∀ other d, (other, some d) ∈ t.globals →
    (other, some d) ∈ s.globals ∨ ∃ r ∈ input.records, goesBy input.style.lead r = other ∧
      d = input.globalDeclaration r := by
  intro other d hm
  rcases h.globals other d hm with hm | hr
  · rcases Table.mem_put hm with ⟨-, hnone⟩ | hm
    · cases hnone
    · exact .inl hm
  · exact .inr hr

/-- In an orderly document without fields of blocks a visit gives what can be told beforehand. -/
theorem Visits.gives (h : Visits input scope task s steps result t) (ho : input.Orderly)
    (hblockless : input.Blockless) (hw : task.Within input) (hb : task.Bare input) (hs : input.Sound s) :
    ∀ value, result = .ok value → task.Gives input value ∧ Declares input s t := by
  have hkeeps : ∀ {s t : State}, Keeps s t → Declares input s t := Declares.of_keeps
  induction h with
  | fields_nil =>
    rintro value ⟨⟩
    exact ⟨fieldsMembers.eq_1 _ _ _ ▸ rfl, hkeeps (Keeps.refl _)⟩
  | blocks_nil =>
    rintro value ⟨⟩
    exact ⟨trivial, hkeeps (Keeps.refl _)⟩
  | fields_fault | field_fault | field_target_fault | blocks_fault | block_fault | reference_fault
  | reference_fields_fault | declare_fault => rintro value ⟨⟩
  | fields_cons hv _ ih ih' =>
    intro value hr
    obtain ⟨hgives, hdeclares⟩ := ih hw.head trivial hs _ rfl
    obtain ⟨members, rfl, rfl⟩ := ok_of_map hr
    obtain ⟨hgives', hdeclares'⟩ := ih' hw.tail trivial (hv.sound ho hw.head trivial hs) _ rfl
    refine ⟨?_, hdeclares.trans hdeclares'⟩
    change _ = fieldsMembers _ _ _ _
    rw [fieldsMembers_cons, ← hgives, ← hgives']
  | blocks_cons hv _ ih ih' =>
    intro value hr
    obtain ⟨-, hdeclares⟩ := ih hw.head_block trivial hs _ rfl
    obtain ⟨members, rfl, -⟩ := ok_of_map hr
    obtain ⟨-, hdeclares'⟩ := ih' hw.tail_block trivial (hv.sound ho hw.head_block trivial hs) _ rfl
    exact ⟨trivial, hdeclares.trans hdeclares'⟩
  | field_unusable hu =>
    rintro value ⟨⟩
    exact ⟨(fieldMember?_unusable hu).symm, hkeeps ((quiet_skip _ _ _ _).keeps _)⟩
  | @field_flat _ _ attrs _ _ s visit result _ hu hv hr =>
    intro value hvalue
    have hk := (quiet_flatType hv).keeps s
    obtain ⟨type, ht⟩ := takes_flatType hv (ho.wellTyped _ hw.mem_field)
    have hresult : result = .ok type := by rw [← (ht s).1, hr]
    rw [hr] at hk
    rw [hresult] at hvalue
    refine ⟨?_, hkeeps hk⟩
    change _ = fieldMember? _ _ _ _
    rw [fieldMember?_flat hu hv, flatMember?, hv, Option.bind_some, (ht {}).1, hvalue]
    rfl
  | field_group hopens _ ih =>
    intro value hvalue
    obtain ⟨members, rfl, hmember⟩ := ok_of_bind hvalue
    obtain ⟨hgives, hdeclares⟩ := ih (hw.group _) trivial hs _ rfl
    refine ⟨?_, hdeclares⟩
    change _ = fieldMember? _ _ _ _
    rw [fieldMember?_group hopens, ← hgives, hmember]
    rfl
  | field_global hopens ht _ ih =>
    intro value hvalue
    obtain ⟨type, rfl, hmember⟩ := ok_of_bind hvalue
    obtain ⟨hgives, hdeclares⟩ :=
      ih (hw.global _ _ _ _) (Task.bare_global ho hw hopens.kind_eq ht _) hs _ rfl
    refine ⟨?_, hdeclares⟩
    change _ = fieldMember? _ _ _ _
    rw [fieldMember?_global hopens ht, ← hgives, hmember]
    rfl
  | field_blocks_fault hopens | field_no_blocks hopens | field_union_fault hopens | field_union hopens =>
    exact absurd hopens.kind_eq (hblockless _ hw.mem_field)
  | block_unusable =>
    rintro value ⟨⟩
    exact ⟨trivial, hkeeps ((quiet_skip _ _ _ _).keeps _)⟩
  | block_inline _ _ _ ih =>
    intro value hvalue
    obtain ⟨members, rfl, -⟩ := ok_of_map hvalue
    exact ⟨trivial, (ih (hw.inline _) trivial hs _ rfl).2⟩
  | block_reference _ ht _ ih =>
    intro value hvalue
    obtain ⟨type, rfl, -⟩ := ok_of_map hvalue
    exact ⟨trivial, (ih (hw.reference _ _) (Task.bare_block ho hw ht _) hs _ rfl).2⟩
  | reference_unusable hn hu =>
    rintro value ⟨⟩
    exact ⟨(referenceType?_of_unusable hn hu).symm, hkeeps ((quiet_refuseReference _ _ _ _).keeps _)⟩
  | reference_known hn hu hd =>
    rintro value ⟨⟩
    refine ⟨?_, rfl, fun _ _ => .inl⟩
    change _ = referenceType? _ _ _
    rw [referenceType?_of_usable hn hu, if_pos (hs.resolves ho hb.2 hn hd)]
  | reference_missing hn hu _ horigin =>
    rintro value ⟨⟩
    obtain ⟨rfl, -⟩ := hb
    have hresolves : input.resolves _ = false := congrArg Option.isSome horigin
    refine ⟨?_, hkeeps ((quiet_skip _ _ _ _).keeps _)⟩
    change _ = referenceType? _ _ _
    rw [referenceType?_of_usable hn hu, if_neg (by simp [hresolves])]
  | reference_built hn hu _ horigin _ ih =>
    rintro value ⟨⟩
    obtain ⟨hbare, hresolves, -⟩ := hb.leads hn hu horigin
    obtain ⟨-, hdeclares⟩ := ih (hw.origin horigin _ _) hbare hs _ rfl
    refine ⟨?_, hdeclares.scope, hdeclares.globals⟩
    change _ = referenceType? _ _ _
    rw [referenceType?_of_usable hn hu, if_pos hresolves]
  | declare_known =>
    rintro value ⟨⟩
    exact ⟨trivial, hkeeps (Keeps.refl _)⟩
  | declare_built _ _ ih =>
    rintro value ⟨⟩
    obtain ⟨hgives, hdeclares⟩ := ih (hw.origin_fields _) trivial (hs.opened hb) _ rfl
    obtain ⟨r, hr, rfl, -, rfl, rfl⟩ := hb
    refine ⟨trivial, rfl, fun other d hm => ?_⟩
    rcases Table.mem_put hm with ⟨rfl, hd⟩ | hm
    · refine .inr ⟨r, hr, rfl, (Option.some.inj hd).trans ?_⟩
      rw [Input.globalDeclaration, hdeclares.scope, hgives]
      rfl
    · exact hdeclares.opened other d hm

variable {position : Nat} {records : List Record} {ds : List Declaration} {r : Record}
  {ends : Except Fault (List Declaration)}

theorem Declares.renamed {uid : String} (hn : recordName input r s = (.ok (uid, name), t)) :
    Declares input s t := by
  cases recordName_ok hn <;> exact ⟨rfl, fun _ _ => .inl⟩

theorem Passes.gives (h : Passes input position records s steps ends t) (hends : ends = .ok ds)
    (ho : input.Orderly) (hblockless : input.Blockless) (hsub : records ⊆ input.records) (hs : input.Sound s) :
    ds = (records.filter fun r => !r.isGlobal).map input.contentDeclaration ∧ Declares input s t := by
  induction h generalizing ds with
  | nil =>
    cases hends
    exact ⟨rfl, rfl, fun _ _ => .inl⟩
  | name_fault | global_fault | contentType_fault => cases hends
  | bare hg hn _ _ ih =>
    obtain ⟨hds, hdeclares⟩ := ih hends (List.cons_subset.1 hsub).2 (recordName_sound hs hn)
    rw [List.filter_cons_of_neg (by simp [hg])]
    exact ⟨hds, (Declares.renamed hn).trans hdeclares⟩
  | global hg hn hsome hv _ ih =>
    obtain ⟨hr, hrest⟩ := List.cons_subset.1 hsub
    have hbare := Task.bare_declare hr hsome hn
    have hmid := recordName_sound hs hn
    obtain ⟨-, hdeclare⟩ := hv.gives ho hblockless (within_declare hr _ _) hbare hmid () rfl
    obtain ⟨hds, hdeclares⟩ := ih hends hrest (hv.sound ho (within_declare hr _ _) hbare hmid)
    rw [List.filter_cons_of_neg (by simp [hg])]
    exact ⟨hds, ((Declares.renamed hn).trans hdeclare).trans hdeclares⟩
  | @contentType _ record _ _ uid name mid _ members mid' _ _ _ hg hn hv _ ih =>
    obtain ⟨hr, hrest⟩ := List.cons_subset.1 hsub
    have hmid := recordName_sound hs hn
    obtain ⟨rest, rfl, rfl⟩ := ok_of_map hends
    obtain ⟨hgives, hvisit⟩ := hv.gives ho hblockless (within_fields hr _) trivial hmid members rfl
    obtain ⟨hds, hdeclares⟩ := ih rfl hrest (hv.sound ho (within_fields hr _) trivial hmid)
    have hleft : Declares input mid (mid'.left mid) := ⟨rfl, hvisit.globals⟩
    rw [List.filter_cons_of_pos (by simp [hg]), List.map_cons]
    refine ⟨congrArg₂ List.cons ?_ hds, ((Declares.renamed hn).trans hleft).trans hdeclares⟩
    rw [State.contentType, Input.contentDeclaration, hvisit.scope, recordName_goesBy hn, hgives]
    rfl

end SchemaDecl.Generation

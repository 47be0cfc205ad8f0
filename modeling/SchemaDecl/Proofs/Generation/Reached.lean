import SchemaDecl.Proofs.Generation.Notes

/-!
# Records that are reached

In an orderly document a reference builds a global field from the one record with its name, if there is one
with a schema. Which records are built in a pass is told from the notes of their fields: those of the global
fields with a schema, and those that the fields of a content type or of a record that is built call for.
-/

namespace SchemaDecl.Generation

/-- The global fields that are built, each with what it is built from. -/
def built (steps : List Step) : List (String × Origin) :=
  steps.filterMap fun
    | .build name origin => some (name, origin)
    | _ => none

theorem built_append (steps steps' : List Step) : built (steps ++ steps') = built steps ++ built steps' :=
  List.filterMap_append

theorem builds_eq_map_built (steps : List Step) : builds steps = (built steps).map Prod.fst := by
  rw [builds, built, List.map_filterMap]
  congr 1
  funext step
  cases step <;> rfl

def Input.recordNotes (input : Input) (r : Record) : List Note :=
  fieldsNotes input.style input.resolves (.text "") r.fields

/-- By the notes the record is used as a global field. -/
def Input.Calls (input : Input) (notes : List Note) (r : Record) : Prop :=
  r ∈ input.records ∧ r.schema?.isSome = true ∧ ∃ uid, r.uid = .text uid ∧
    .use .globalFields (Naming.declare input.style.lead uid) ∈ notes

/-- The record is used by the task, or is the one that it declares. -/
def Task.Calls (input : Input) (r : Record) : Task → Prop
  | .declare _ origin _ => origin = .record r
  | task => input.Calls (task.notes input.style input.resolves) r

/-- What a task refers to or declares is a record under its name. -/
def Task.Bare (input : Input) : Task → Prop
  | .reference _ _ _ target inline? => inline? = none ∧ target ∈ input.named
  | .declare name origin description => ∃ r ∈ input.records, origin = .record r ∧ r.schema?.isSome = true ∧
      goesBy input.style.lead r = name ∧ description = r.description
  | _ => True

inductive Input.Reached (input : Input) : Record → Prop
  | global {r} : r ∈ input.records → r.isGlobal = true → r.schema?.isSome = true → Reached input r
  | contentType {r r'} : r ∈ input.records → r.isGlobal = false →
      input.Calls (input.recordNotes r) r' → Reached input r'
  | again {r r'} : Reached input r → input.Calls (input.recordNotes r) r' → Reached input r'

variable {input : Input} {scope : Scope} {task : Task} {s t : State} {steps : List Step}
  {result : Except Fault task.Result} {name : String} {r r' : Record}
  {notes notes' : List Note} {path uid title target description : Json} {place : SkipPlace}
  {attrs : Attributes} {schema? : Option (List Field)} {blocks : List Block}

theorem Input.Calls.left {whole : List Note} (h : input.Calls notes r) (he : whole = notes ++ notes') :
    input.Calls whole r := by
  obtain ⟨hr, hs, uid, hu, hn⟩ := h
  exact ⟨hr, hs, uid, hu, he ▸ List.mem_append_left _ hn⟩

theorem Input.Calls.right {whole : List Note} (h : input.Calls notes' r) (he : whole = notes ++ notes') :
    input.Calls whole r := by
  obtain ⟨hr, hs, uid, hu, hn⟩ := h
  exact ⟨hr, hs, uid, hu, he ▸ List.mem_append_right _ hn⟩

theorem Input.Calls.congr (h : input.Calls notes r) (he : notes' = notes) : input.Calls notes' r := he ▸ h

theorem Input.Orderly.named_text (ho : input.Orderly) (h : target ∈ input.named) :
    ∃ a, target = .text a := by
  rcases List.mem_append.1 h with h | h
  · obtain ⟨r, hr, rfl⟩ := List.mem_map.1 h
    exact ho.uids r hr
  · obtain ⟨part, hp, ht⟩ := List.mem_filterMap.1 h
    have hw := ho.wellTyped part hp
    cases part with
    | field f =>
      obtain ⟨a, ha⟩ := Attributes.WellTyped.globalTarget hw
      rw [Part.target?, ha] at ht
      split at ht
      next => exact ⟨a, (Option.some.inj ht).symm⟩
      next => cases ht
    | block b =>
      rw [Part.target?] at ht
      split at ht
      next htruthy =>
        obtain rfl := Option.some.inj ht
        rcases hw.target with hnull | hs
        · rw [hnull] at htruthy
          cases htruthy
        · exact hs
      next => cases ht

theorem Task.bare_global (ho : input.Orderly) (hw : (Task.field path ⟨attrs, schema?, blocks⟩).Within input)
    (hk : attrs.kind = .globalField) (ht : globalTarget attrs = .ok target) (inner : Json) :
    (Task.reference place uid inner target schema?).Bare input := by
  have htarget : (Part.field ⟨attrs, schema?, blocks⟩).target? = some target := by
    rw [Part.target?, if_pos hk, ht]
    rfl
  refine ⟨ho.bare _ hw.mem_field (by rw [htarget]; rfl), ?_⟩
  exact List.mem_append_right _ (List.mem_filterMap.2 ⟨_, hw.mem_field, htarget⟩)

theorem Task.bare_block (ho : input.Orderly)
    (hw : (Task.block path ⟨uid, title, target, schema?⟩).Within input) (ht : target.truthy = true)
    (inner : Json) : (Task.reference place uid inner target schema?).Bare input := by
  have htarget : (Part.block ⟨uid, title, target, schema?⟩).target? = some target := if_pos ht
  refine ⟨ho.bare _ hw.mem_block (by rw [htarget]; rfl), ?_⟩
  exact List.mem_append_right _ (List.mem_filterMap.2 ⟨_, hw.mem_block, htarget⟩)

theorem Task.Bare.leads {origin : Origin} (hb : (Task.reference place uid path target schema?).Bare input)
    (hn : Naming.declare? input.style.lead target = .ok name) (hu : Naming.isUsableName name = true)
    (horigin : input.origin? target schema? = some origin) :
    (Task.declare name origin (input.descriptionOf target)).Bare input ∧ input.resolves target = true ∧
      ∀ r, origin = .record r →
        input.Calls (referenceNotes input.style.lead input.resolves place uid path target) r := by
  obtain ⟨rfl, -⟩ := hb
  have hresolves : input.resolves target = true := by
    rw [Input.resolves, horigin]
    rfl
  obtain ⟨a, rfl, rfl⟩ := Naming.declare?_ok hn
  have hnotes : referenceNotes input.style.lead input.resolves place uid path (.text a) =
      [.use .globalFields (Naming.declare input.style.lead a)] := referenceNotes_resolved hn hu hresolves
  rcases origin?_eq_some horigin with ⟨fields, hf, -⟩ | ⟨r, -, hr, hs, rfl⟩
  · cases hf
  · have hmem := List.mem_of_find?_eq_some hr
    have huid := record?_uid hr
    have hsome : r.schema?.isSome = true := by
      rw [hs]
      rfl
    have hdescription : input.descriptionOf (.text a) = r.description := by
      rw [Input.descriptionOf, hr]
      rfl
    refine ⟨⟨r, hmem, rfl, hsome, by rw [goesBy_text huid, if_pos hu], hdescription⟩, hresolves, ?_⟩
    rintro r' hr'
    obtain rfl := Origin.record.inj hr'
    exact ⟨hmem, hsome, a, huid, by rw [hnotes]; exact List.mem_singleton_self _⟩

/-- Every global field of a visit is built from a record under its name. If a property is passed on from
the records in use to those that they use, then the records that are built have it. -/
theorem Visits.built_record {P : Record → Prop} (h : Visits input scope task s steps result t)
    (ho : input.Orderly) (hw : task.Within input) (hb : task.Bare input)
    (hP : ∀ r r', P r → input.Calls (input.recordNotes r) r' → P r')
    (hin : ∀ r, task.Calls input r → P r) :
    ∀ name origin, (name, origin) ∈ built steps → ∃ r ∈ input.records, origin = .record r ∧
      r.schema?.isSome = true ∧ goesBy input.style.lead r = name ∧ P r := by
  induction h with
  | fields_fault _ ih =>
    exact ih hw.head trivial fun r hr => hin r (Input.Calls.left hr (fieldsNotes_cons _ _))
  | fields_cons _ _ ih ih' =>
    intro name origin hm
    rw [built_append] at hm
    rcases List.mem_append.1 hm with hm | hm
    · exact ih hw.head trivial (fun r hr => hin r (Input.Calls.left hr (fieldsNotes_cons _ _))) name origin hm
    · exact ih' hw.tail trivial (fun r hr => hin r (Input.Calls.right hr (fieldsNotes_cons _ _))) name origin hm
  | blocks_fault _ ih =>
    exact ih hw.head_block trivial fun r hr => hin r (Input.Calls.left hr (blocksNotes_cons _ _))
  | blocks_cons _ _ ih ih' =>
    intro name origin hm
    rw [built_append] at hm
    rcases List.mem_append.1 hm with hm | hm
    · exact ih hw.head_block trivial (fun r hr => hin r (Input.Calls.left hr (blocksNotes_cons _ _))) name origin hm
    · exact ih' hw.tail_block trivial (fun r hr => hin r (Input.Calls.right hr (blocksNotes_cons _ _))) name origin hm
  | field_group hopens _ ih =>
    exact ih (hw.group _) trivial fun r hr => hin r (Input.Calls.congr hr (fieldNotes_group hopens))
  | field_global hopens ht _ ih =>
    exact ih (hw.global _ _ _ _) (Task.bare_global ho hw hopens.kind_eq ht _) fun r hr =>
      hin r (Input.Calls.congr hr (fieldNotes_global hopens ht))
  | field_blocks_fault hopens _ ih | field_no_blocks hopens _ ih | field_union_fault hopens _ _ _ ih =>
    exact ih (hw.inner_blocks _) trivial fun r hr => hin r (Input.Calls.congr hr (fieldNotes_blocks hopens))
  | field_union hopens _ _ _ ih =>
    intro name origin hm
    rw [built_append, show built [Step.union _ _ _] = [] from rfl, List.append_nil] at hm
    exact ih (hw.inner_blocks _) trivial (fun r hr => hin r (Input.Calls.congr hr (fieldNotes_blocks hopens)))
      name origin hm
  | @block_inline _ _ _ title _ _ _ _ _ _ hu ht _ ih =>
    refine ih (hw.inline _) trivial fun r hr => hin r ?_
    exact Input.Calls.congr hr (blockNotes_inline title hu ht)
  | @block_reference _ _ _ title _ _ _ _ _ _ hu ht _ ih =>
    refine ih (hw.reference _ _) (Task.bare_block ho hw ht _) fun r hr => hin r ?_
    exact Input.Calls.congr hr (blockNotes_reference title hu ht)
  | reference_fields_fault hn hu _ horigin _ ih =>
    obtain ⟨hbare, -, hcalls⟩ := hb.leads hn hu horigin
    exact ih (hw.origin horigin _ _) hbare fun r hr => hin r (hcalls r hr)
  | reference_built hn hu _ horigin _ ih =>
    intro name origin hm
    rw [built_append, show built [Step.refer _] = [] from rfl, List.append_nil] at hm
    obtain ⟨hbare, -, hcalls⟩ := hb.leads hn hu horigin
    exact ih (hw.origin horigin _ _) hbare (fun r hr => hin r (hcalls r hr)) name origin hm
  | @declare_fault _ name _ _ _ _ _ _ _ _ ih | @declare_built _ name _ _ _ _ _ _ _ _ ih =>
    obtain ⟨r, hr, rfl, hsome, hname, -⟩ := hb
    have hPr := hin r rfl
    intro other origin hm
    rcases List.mem_cons.1 hm with he | hm
    · cases he
      exact ⟨r, hr, rfl, hsome, hname, hPr⟩
    · exact ih (hw.origin_fields _) trivial (fun r' hr' => hP r r' hPr hr') other origin hm
  | _ =>
    intro name origin hm
    cases hm

end SchemaDecl.Generation

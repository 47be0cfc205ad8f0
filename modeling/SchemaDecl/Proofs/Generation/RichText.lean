import SchemaDecl.Proofs.Generation.Actions
import SchemaDecl.Proofs.Generation.GlobalFields

/-!
# Rich text in a pass

Rich text is noted before a pass if a look over the records finds a field that allows it, and during the
pass with every json field that is written out as rich text. Whether a visit comes across such a field can
be told from the fields it goes through, those of the global fields that it builds among them.
-/

namespace SchemaDecl.Generation

mutual

/-- The field, or one inside of it, is written out as rich text. A global field is written out apart. -/
@[simp] def FieldShows : Field → Prop
  | ⟨attrs, schema?, blocks⟩ => Naming.isUsable attrs.uid = .ok true ∧ attrs.literals? = none ∧
    match attrs.kind with
    | .json => attrs.isExtension = .ok false
    | .group => SchemaShows schema?
    | .blocks => BlocksShow blocks
    | _ => False

@[simp] def FieldsShow : List Field → Prop
  | [] => False
  | field :: rest => FieldShows field ∨ FieldsShow rest

@[simp] def SchemaShows : Option (List Field) → Prop
  | none => False
  | some fields => FieldsShow fields

@[simp] def BlockShows : Block → Prop
  | ⟨uid, _, target, schema?⟩ => Naming.isUsable uid = .ok true ∧ target.truthy = false ∧ SchemaShows schema?

@[simp] def BlocksShow : List Block → Prop
  | [] => False
  | block :: rest => BlockShows block ∨ BlocksShow rest

end

def Task.Shows : Task → Prop
  | .field _ f => FieldShows f
  | .fields _ fs => FieldsShow fs
  | .block _ b => BlockShows b
  | .blocks _ bs => BlocksShow bs
  | .reference .. | .declare .. => False

def BuildsShow (steps : List Step) : Prop := ∃ name origin, .build name origin ∈ steps ∧ FieldsShow origin.fields

theorem buildsShow_nil : ¬ BuildsShow [] := by
  rintro ⟨_, _, h, -⟩
  cases h

theorem buildsShow_append {steps steps' : List Step} :
    BuildsShow (steps ++ steps') ↔ BuildsShow steps ∨ BuildsShow steps' := by
  simp only [BuildsShow, List.mem_append, or_and_right, exists_or]

theorem buildsShow_build {steps : List Step} {name : String} {origin : Origin} :
    BuildsShow (.build name origin :: steps) ↔ FieldsShow origin.fields ∨ BuildsShow steps := by
  simp only [BuildsShow, List.mem_cons, Step.build.injEq, or_and_right, exists_or]
  refine or_congr_left ⟨?_, fun h => ⟨name, origin, ⟨rfl, rfl⟩, h⟩⟩
  rintro ⟨_, _, ⟨rfl, rfl⟩, h⟩
  exact h

theorem buildsShow_single {step : Step} (h : step.built? = none) : ¬ BuildsShow [step] := by
  rintro ⟨name, origin, hm, -⟩
  obtain rfl := List.mem_singleton.1 hm
  cases h

theorem schemaShows_getD (schema? : Option (List Field)) : FieldsShow (schema?.getD []) = SchemaShows schema? := by
  cases schema? with
  | none => rw [Option.getD_none, FieldsShow, SchemaShows]
  | some fields => rw [Option.getD_some, SchemaShows]

variable {input : Input} {scope : Scope} {task : Task} {s t u : State} {steps steps' : List Step}
  {attrs : Attributes} {schema? : Option (List Field)} {blocks : List Block}

theorem fieldShows_unusable (h : Naming.isUsable attrs.uid = .ok false) :
    ¬ FieldShows ⟨attrs, schema?, blocks⟩ := by
  rw [FieldShows, h]
  simp

theorem fieldShows_flat {style : Style} {path : Json} {visit : Visit TypeExpr}
    (hu : Naming.isUsable attrs.uid = .ok true) (hv : flatType? style attrs path = some visit) :
    FieldShows ⟨attrs, schema?, blocks⟩ ↔ ShowsRichText attrs := by
  rw [FieldShows]
  constructor
  · rintro ⟨-, hl, hk⟩
    rw [flatType?, hl] at hv
    cases hkind : attrs.kind <;> rw [hkind] at hk hv
    case json => exact ⟨hl, hkind, hk⟩
    case group | blocks => cases hv
    all_goals exact hk.elim
  · rintro ⟨hl, hk, he⟩
    rw [hk]
    exact ⟨hu, hl, he⟩

theorem fieldShows_group (h : Opens attrs .group) :
    FieldShows ⟨attrs, schema?, blocks⟩ ↔ FieldsShow (schema?.getD []) := by
  rw [FieldShows, h.kind_eq, schemaShows_getD]
  exact ⟨fun hf => hf.2.2, fun hs => ⟨h.usable, h.untyped, hs⟩⟩

theorem fieldShows_blocks (h : Opens attrs .blocks) :
    FieldShows ⟨attrs, schema?, blocks⟩ ↔ BlocksShow blocks := by
  rw [FieldShows, h.kind_eq]
  exact ⟨fun hf => hf.2.2, fun hs => ⟨h.usable, h.untyped, hs⟩⟩

theorem fieldShows_global (h : Opens attrs .globalField) : ¬ FieldShows ⟨attrs, schema?, blocks⟩ := by
  rw [FieldShows, h.kind_eq]
  exact fun hf => hf.2.2

theorem skip_richText (place : SkipPlace) (cause : SkipCause) (uid path : Json) (s : State) :
    (s.after (skip place cause uid path)).richTextUsed = s.richTextUsed := by cases place <;> rfl

theorem refuse_richText (target : Json) (s : State) :
    (s.after (refuse target)).richTextUsed = s.richTextUsed := by
  rw [State.after]
  obtain h | ⟨_, _, -, -, -, h⟩ := refuse_apply target s <;> rw [h]
  rfl

theorem refuseReference_richText (place : SkipPlace) (uid path target : Json) (s : State) :
    (s.after (refuseReference place uid path target)).richTextUsed = s.richTextUsed := by
  cases place with
  | field => exact (skip_richText .field _ uid path _).trans (refuse_richText target s)
  | block => exact skip_richText .block _ uid path s

/-- Between the states rich text was noted exactly if it is shown, by what is visited or what is built. -/
structure Notices (s : State) (shows : Prop) (steps : List Step) (t : State) : Prop where
  iff : t.richTextUsed = true ↔ s.richTextUsed = true ∨ shows ∨ BuildsShow steps

variable {shows shows' : Prop}

theorem Notices.of_eq (h : t.richTextUsed = s.richTextUsed) (hs : ¬ shows) : Notices s shows [] t := by
  have hnone : ¬ (shows ∨ BuildsShow []) := not_or.2 ⟨hs, buildsShow_nil⟩
  exact ⟨by rw [h, or_iff_left hnone]⟩

theorem Notices.append (h : Notices s shows steps t) (h' : Notices t shows' steps' u) :
    Notices s (shows ∨ shows') (steps ++ steps') u := by
  refine ⟨?_⟩
  rw [h'.iff, h.iff, buildsShow_append]
  grind

theorem Notices.followed {step : Step} (h : Notices s shows steps t) (hu : u.richTextUsed = t.richTextUsed)
    (hs : step.built? = none) : Notices s shows (steps ++ [step]) u :=
  ⟨by rw [hu, h.iff, buildsShow_append, or_iff_left (buildsShow_single hs)]⟩

theorem Notices.congr (h : Notices s shows steps t) (hs : shows ↔ shows') : Notices s shows' steps t :=
  ⟨by rw [h.iff, hs]⟩

theorem unionName_richText {style : Style} {uid : Json} {blocks : Blocks} {result : Except Fault String}
    (h : unionName style uid blocks s = (result, t)) : t.richTextUsed = s.richTextUsed := by
  obtain rfl | ⟨base, rfl⟩ := unionName_joins h <;> rfl

theorem Visits.notices {result : Except Fault task.Result} (h : Visits input scope task s steps result t)
    (hr : result.isOk = true) : Notices s task.Shows steps t := by
  induction h with
  | fields_nil => exact .of_eq rfl (by rw [Task.Shows, FieldsShow]; exact id)
  | blocks_nil => exact .of_eq rfl (by rw [Task.Shows, BlocksShow]; exact id)
  | fields_fault | field_fault | field_target_fault | field_blocks_fault | field_union_fault => cases hr
  | blocks_fault | block_fault | reference_fault | reference_fields_fault | declare_fault => cases hr
  | fields_cons _ _ ih ih' =>
    rw [isOk_map] at hr
    rw [Task.Shows, FieldsShow]
    exact (ih rfl).append (ih' hr)
  | blocks_cons _ _ ih ih' =>
    rw [isOk_map] at hr
    rw [Task.Shows, BlocksShow]
    exact (ih rfl).append (ih' hr)
  | field_unusable hu => exact .of_eq (skip_richText ..) (fieldShows_unusable hu)
  | @field_flat _ _ _ _ _ _ _ result _ hu hv hrun =>
    cases result with
    | error e => cases hr
    | ok type =>
      obtain ⟨-, -, -, -, hrich⟩ := flatType_types hv _ _ _ hrun
      refine ⟨?_⟩
      rw [Task.Shows, fieldShows_flat hu hv, or_iff_left buildsShow_nil]
      exact hrich
  | field_group ho _ ih =>
    rw [Task.Shows, fieldShows_group ho]
    exact ih (isOk_of_bind hr)
  | field_global ho _ _ ih => exact (ih (isOk_of_bind hr)).congr (iff_of_false id (fieldShows_global ho))
  | field_no_blocks ho _ ih =>
    rw [Task.Shows, fieldShows_blocks ho]
    exact ih rfl
  | field_union ho _ _ hu ih =>
    rw [Task.Shows, fieldShows_blocks ho]
    exact (ih rfl).followed (unionName_richText hu) rfl
  | block_unusable hu =>
    refine .of_eq (skip_richText ..) ?_
    rw [Task.Shows, BlockShows, hu]
    simp
  | block_inline hu ht _ ih =>
    rw [isOk_map] at hr
    refine (ih hr).congr ?_
    rw [Task.Shows, Task.Shows, BlockShows, schemaShows_getD]
    exact ⟨fun hs => ⟨hu, ht, hs⟩, fun hb => hb.2.2⟩
  | block_reference hu ht _ ih =>
    rw [isOk_map] at hr
    refine (ih hr).congr (iff_of_false id ?_)
    rw [Task.Shows, BlockShows, ht]
    simp
  | reference_unusable => exact .of_eq (refuseReference_richText ..) id
  | reference_known => exact (Notices.of_eq rfl id).followed rfl rfl
  | reference_missing => exact .of_eq (skip_richText ..) id
  | reference_built _ _ _ _ _ ih => exact (ih rfl).followed rfl rfl
  | declare_known => exact .of_eq rfl id
  | declare_built _ _ ih =>
    refine ⟨?_⟩
    rw [buildsShow_build, Task.Shows, false_or]
    exact (ih rfl).iff

/-- A content type among the records shows rich text. -/
def RecordsShow (records : List Record) : Prop := ∃ r ∈ records, r.isGlobal = false ∧ FieldsShow r.fields

theorem recordsShow_global {record : Record} {rest : List Record} (hg : record.isGlobal = true) :
    RecordsShow (record :: rest) ↔ RecordsShow rest := by
  simp [RecordsShow, hg]

theorem recordsShow_contentType {record : Record} {rest : List Record} (hg : record.isGlobal = false) :
    RecordsShow (record :: rest) ↔ FieldsShow record.fields ∨ RecordsShow rest := by
  simp [RecordsShow, hg]

theorem recordName_richText {record : Record} {uid name : String}
    (h : recordName input record s = (.ok (uid, name), t)) : t.richTextUsed = s.richTextUsed := by
  cases recordName_ok h <;> rfl

theorem Passes.notices {position : Nat} {records : List Record} {result : Except Fault (List Declaration)}
    (h : Passes input position records s steps result t) (hr : result.isOk = true) :
    Notices s (RecordsShow records) steps t := by
  induction h with
  | nil => exact .of_eq rfl (by simp [RecordsShow])
  | name_fault | global_fault | contentType_fault => cases hr
  | bare hg hn _ _ ih =>
    have hrest := (ih hr).congr (recordsShow_global hg).symm
    exact ⟨by rw [hrest.iff, recordName_richText hn]⟩
  | global hg hn _ hv _ ih =>
    have hwhole := (hv.notices rfl).append (ih hr)
    refine ⟨?_⟩
    rw [hwhole.iff, recordName_richText hn, recordsShow_global hg, Task.Shows, false_or]
  | @contentType _ _ _ _ _ _ mid _ _ mid' _ _ _ hg hn hv _ ih =>
    rw [isOk_map] at hr
    -- The scope of the content type begins and ends without a note.
    have hfields : Notices _ _ _ (mid'.left mid) := ⟨(hv.notices rfl).iff⟩
    have hwhole := hfields.append (ih hr)
    refine ⟨?_⟩
    rw [hwhole.iff, recordsShow_contentType hg, ← recordName_richText hn]
    rfl

theorem recordsRichText_iff {records : List Record} {b : Bool} (h : recordsRichText records = .ok b) :
    b = true ↔ ∃ r ∈ records, fieldsRichText r.fields = .ok true := by
  induction records with
  | nil =>
    cases h
    simp
  | cons record rest ih =>
    rw [recordsRichText] at h
    cases hf : fieldsRichText record.fields with
    | error e =>
      rw [hf] at h
      cases h
    | ok found =>
      rw [hf] at h
      cases found with
      | true =>
        cases h
        simp [hf]
      | false =>
        rw [ih h]
        simp [hf]

/-- After a run rich text is noted if one of its fields shows it, or if a record allows it. -/
theorem run_notices {ds : List Declaration} (hs : start input = .ok s)
    (hp : Passes input 0 input.records s steps (.ok ds) t) :
    t.richTextUsed = true ↔ RecordsShow input.records ∨ BuildsShow steps ∨
      ∃ r ∈ input.records, fieldsRichText r.fields = .ok true := by
  rw [(hp.notices rfl).iff, recordsRichText_iff (start_richText hs), or_comm, or_assoc]

end SchemaDecl.Generation

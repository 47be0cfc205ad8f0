import SchemaDecl.Proofs.Generation.Pass

/-!
# Parts of documents

The fields and blocks of a document at every level. Whatever a visit comes to is among the parts of what
it began with or among those of the records, so what holds of all parts of a document holds wherever a
pass goes.
-/

namespace SchemaDecl.Generation

inductive Part
  | field (field : Field)
  | block (block : Block)

mutual

@[simp] def fieldParts : Field → List Part
  | ⟨attrs, schema?, blocks⟩ => .field ⟨attrs, schema?, blocks⟩ :: (schemaParts schema? ++ blocksParts blocks)

@[simp] def fieldsParts : List Field → List Part
  | [] => []
  | field :: rest => fieldParts field ++ fieldsParts rest

@[simp] def schemaParts : Option (List Field) → List Part
  | none => []
  | some fields => fieldsParts fields

@[simp] def blockParts : Block → List Part
  | ⟨uid, title, target, schema?⟩ => .block ⟨uid, title, target, schema?⟩ :: schemaParts schema?

@[simp] def blocksParts : List Block → List Part
  | [] => []
  | block :: rest => blockParts block ++ blocksParts rest

end

def Task.parts : Task → List Part
  | .field _ f => fieldParts f
  | .fields _ fs => fieldsParts fs
  | .block _ b => blockParts b
  | .blocks _ bs => blocksParts bs
  | .reference _ _ _ _ inline? => schemaParts inline?
  | .declare _ origin _ => fieldsParts origin.fields

def Input.parts (input : Input) : List Part := input.records.flatMap fun r => fieldsParts r.fields

/-- All that a task holds is part of the document. -/
def Task.Within (input : Input) (task : Task) : Prop := task.parts ⊆ input.parts

variable {input : Input} {record : Record}

theorem mem_fieldsParts {field : Field} {fields : List Field} (h : field ∈ fields) :
    .field field ∈ fieldsParts fields := by
  induction fields with
  | nil => cases h
  | cons first rest ih =>
    rw [fieldsParts, List.mem_append]
    rcases List.mem_cons.1 h with rfl | hm
    · obtain ⟨attrs, schema?, blocks⟩ := field
      exact .inl (by rw [fieldParts]; exact List.mem_cons_self)
    · exact .inr (ih hm)

theorem fieldsParts_getD (schema? : Option (List Field)) :
    fieldsParts (schema?.getD []) = schemaParts schema? := by
  cases schema? with
  | none => rw [Option.getD_none, fieldsParts, schemaParts]
  | some fields => rw [Option.getD_some, schemaParts]

theorem within_fields (hr : record ∈ input.records) (path : Json) :
    (Task.fields path record.fields).Within input :=
  fun _ hp => List.mem_flatMap.2 ⟨record, hr, hp⟩

theorem within_declare (hr : record ∈ input.records) (name : String) (description : Json) :
    (Task.declare name (.record record) description).Within input :=
  fun _ hp => List.mem_flatMap.2 ⟨record, hr, hp⟩

theorem Task.Within.mem_field {path : Json} {field : Field} (h : (Task.field path field).Within input) :
    .field field ∈ input.parts := by
  refine h ?_
  obtain ⟨attrs, schema?, blocks⟩ := field
  rw [Task.parts, fieldParts]
  exact List.mem_cons_self

theorem Task.Within.mem_block {path : Json} {block : Block} (h : (Task.block path block).Within input) :
    .block block ∈ input.parts := by
  refine h ?_
  obtain ⟨uid, title, target, schema?⟩ := block
  rw [Task.parts, blockParts]
  exact List.mem_cons_self

namespace Task.Within

variable {path uid title target : Json} {field : Field} {fields : List Field} {block : Block}
  {blocks : List Block} {attrs : Attributes} {schema? : Option (List Field)} {place : SkipPlace}

theorem head (h : (Task.fields path (field :: fields)).Within input) : (Task.field path field).Within input := by
  refine fun part hp => h ?_
  rw [Task.parts, fieldsParts]
  exact List.mem_append_left _ hp

theorem tail (h : (Task.fields path (field :: fields)).Within input) : (Task.fields path fields).Within input := by
  refine fun part hp => h ?_
  rw [Task.parts, fieldsParts]
  exact List.mem_append_right _ hp

theorem head_block (h : (Task.blocks path (block :: blocks)).Within input) :
    (Task.block path block).Within input := by
  refine fun part hp => h ?_
  rw [Task.parts, blocksParts]
  exact List.mem_append_left _ hp

theorem tail_block (h : (Task.blocks path (block :: blocks)).Within input) :
    (Task.blocks path blocks).Within input := by
  refine fun part hp => h ?_
  rw [Task.parts, blocksParts]
  exact List.mem_append_right _ hp

theorem group (h : (Task.field path ⟨attrs, schema?, blocks⟩).Within input) (inner : Json) :
    (Task.fields inner (schema?.getD [])).Within input := by
  refine fun part hp => h ?_
  rw [Task.parts, fieldsParts_getD] at hp
  rw [Task.parts, fieldParts]
  exact List.mem_cons_of_mem _ (List.mem_append_left _ hp)

theorem global (h : (Task.field path ⟨attrs, schema?, blocks⟩).Within input) (place : SkipPlace)
    (uid inner target : Json) : (Task.reference place uid inner target schema?).Within input := by
  refine fun part hp => h ?_
  rw [Task.parts, fieldParts]
  exact List.mem_cons_of_mem _ (List.mem_append_left _ hp)

theorem inner_blocks (h : (Task.field path ⟨attrs, schema?, blocks⟩).Within input) (inner : Json) :
    (Task.blocks inner blocks).Within input := by
  refine fun part hp => h ?_
  rw [Task.parts, fieldParts]
  exact List.mem_cons_of_mem _ (List.mem_append_right _ hp)

theorem inline (h : (Task.block path ⟨uid, title, target, schema?⟩).Within input) (inner : Json) :
    (Task.fields inner (schema?.getD [])).Within input := by
  refine fun part hp => h ?_
  rw [Task.parts, fieldsParts_getD] at hp
  rw [Task.parts, blockParts]
  exact List.mem_cons_of_mem _ hp

theorem reference (h : (Task.block path ⟨uid, title, target, schema?⟩).Within input) (place : SkipPlace)
    (inner : Json) : (Task.reference place uid inner target schema?).Within input := by
  refine fun part hp => h ?_
  rw [Task.parts, blockParts]
  exact List.mem_cons_of_mem _ hp

theorem origin {origin : Origin} (h : (Task.reference place uid path target schema?).Within input)
    (ho : input.origin? target schema? = some origin) (name : String) (description : Json) :
    (Task.declare name origin description).Within input := by
  rcases origin?_eq_some ho with ⟨fields, rfl, rfl⟩ | ⟨r, rfl, hr, -, rfl⟩
  · refine fun part hp => h ?_
    rw [Task.parts, schemaParts]
    exact hp
  · exact within_declare (List.mem_of_find?_eq_some hr) name description

theorem origin_fields {name : String} {origin : Origin} {description : Json}
    (h : (Task.declare name origin description).Within input) (inner : Json) :
    (Task.fields inner origin.fields).Within input := h

end Task.Within

end SchemaDecl.Generation

import SchemaDecl.Proofs.Generation.Termination

/-!
# Where global fields come from

A global field is built for a record or for a reference: a field or a block that names a target and may
have fields of its own in its place. `references` lists them at every level, and `allocated` the names
that a document can ask for.
-/

namespace SchemaDecl.Generation

/-- What a field or block refers to, with the fields that it has itself. -/
structure Reference where
  target : Json
  inline? : Option (List Field)

def ownReference (attrs : Attributes) (schema? : Option (List Field)) : List Reference :=
  if attrs.kind = .globalField then
    (globalTarget attrs).toOption.toList.map fun target => ⟨target, schema?⟩
  else []

mutual

def fieldReferences : Field → List Reference
  | ⟨attrs, schema?, blocks⟩ =>
    ownReference attrs schema? ++ schemaReferences schema? ++ blocksReferences blocks

def fieldsReferences : List Field → List Reference
  | [] => []
  | field :: rest => fieldReferences field ++ fieldsReferences rest

def schemaReferences : Option (List Field) → List Reference
  | none => []
  | some fields => fieldsReferences fields

def blockReferences : Block → List Reference
  | ⟨_, _, target, schema?⟩ => ⟨target, schema?⟩ :: schemaReferences schema?

def blocksReferences : List Block → List Reference
  | [] => []
  | block :: rest => blockReferences block ++ blocksReferences rest

end

def Task.references : Task → List Reference
  | .field _ f => fieldReferences f
  | .fields _ fs => fieldsReferences fs
  | .block _ b => blockReferences b
  | .blocks _ bs => blocksReferences bs
  | .reference _ _ _ target inline? => ⟨target, inline?⟩ :: schemaReferences inline?
  | .declare _ origin _ => fieldsReferences origin.fields

namespace Input

def references (input : Input) : List Reference :=
  input.records.flatMap fun r => fieldsReferences r.fields

def targets (input : Input) : List Json :=
  input.records.map Record.uid ++ input.references.map Reference.target

/-- The names that can be asked for: one for each target, and its stand-in. -/
def allocated (input : Input) : List String :=
  (input.targets.filterMap fun target => (Naming.declare? input.style.lead target).toOption).flatMap
    fun name => [name, Naming.placeholder name]

end Input

variable {input : Input} {scope : Scope} {task : Task} {s t : State} {steps : List Step}
  {result : Except Fault task.Result} {name : String} {origin : Origin} {refs refs' : List Reference}

/-- The origin is what one of the references, or one of the document, leads to. -/
structure Sourced (input : Input) (refs : List Reference) (name : String) (origin : Origin) : Prop where
  named : Naming.declare? input.style.lead origin.target = .ok name
  mem : ∃ inline?, ⟨origin.target, inline?⟩ ∈ refs ++ input.references ∧
    input.origin? origin.target inline? = some origin

theorem Sourced.mono (h : Sourced input refs name origin) (hsub : refs ⊆ refs' ++ input.references) :
    Sourced input refs' name origin := by
  obtain ⟨inline?, hm, ho⟩ := h.mem
  refine ⟨h.named, inline?, ?_, ho⟩
  rcases List.mem_append.1 hm with hm | hm
  · exact hsub hm
  · exact List.mem_append_right _ hm

theorem fieldsReferences_getD (schema? : Option (List Field)) :
    fieldsReferences (schema?.getD []) = schemaReferences schema? := by
  cases schema? with
  | none => rw [Option.getD_none, fieldsReferences, schemaReferences]
  | some fields => rw [Option.getD_some, schemaReferences]

theorem mem_references {r : Record} {ref : Reference} (hr : r ∈ input.records)
    (h : ref ∈ fieldsReferences r.fields) : ref ∈ input.references := List.mem_flatMap.2 ⟨r, hr, h⟩

theorem mem_ownReference {attrs : Attributes} {schema? : Option (List Field)} {target : Json}
    (hk : attrs.kind = .globalField) (h : globalTarget attrs = .ok target) :
    ⟨target, schema?⟩ ∈ ownReference attrs schema? := by
  rw [ownReference, if_pos hk, h]
  simp [Except.toOption]

theorem sourced_reference {target : Json} {inline? : Option (List Field)}
    (hn : Naming.declare? input.style.lead target = .ok name)
    (ho : input.origin? target inline? = some origin) :
    Sourced input (⟨target, inline?⟩ :: schemaReferences inline?) name origin ∧
      fieldsReferences origin.fields ⊆
        (⟨target, inline?⟩ :: schemaReferences inline?) ++ input.references := by
  have htarget : origin.target = target := by
    rcases origin?_eq_some ho with ⟨fields, -, rfl⟩ | ⟨r, -, hr, -, rfl⟩
    · rfl
    · exact record?_uid hr
  refine ⟨⟨by rw [htarget, hn], inline?, by simp [htarget], by rw [htarget, ho]⟩, ?_⟩
  rcases origin?_eq_some ho with ⟨fields, rfl, rfl⟩ | ⟨r, rfl, hr, -, rfl⟩
  · intro ref href
    simp only [schemaReferences, List.cons_append]
    exact List.mem_cons_of_mem _ (List.mem_append_left _ href)
  · intro ref href
    exact List.mem_append_right _ (mem_references (List.mem_of_find?_eq_some hr) href)

/-- Every build is that of the task itself, or its origin is named for a target. -/
def BuildsFrom (input : Input) (task : Task) (steps : List Step) : Prop :=
  ∀ name origin, .build name origin ∈ steps →
    (∃ description, task = .declare name origin description) ∨ Sourced input task.references name origin

theorem BuildsFrom.of_builds_eq_nil (h : builds steps = []) : BuildsFrom input task steps := by
  intro name origin hb
  have hm : name ∈ builds steps := List.mem_filterMap.2 ⟨_, hb, rfl⟩
  rw [h] at hm
  cases hm

theorem BuildsFrom.append {steps' : List Step} (h : BuildsFrom input task steps)
    (h' : BuildsFrom input task steps') : BuildsFrom input task (steps ++ steps') := by
  intro name origin hb
  rcases List.mem_append.1 hb with hb | hb
  · exact h name origin hb
  · exact h' name origin hb

theorem BuildsFrom.lift {child : Task} (h : BuildsFrom input child steps)
    (hchild : ∀ name origin description, child ≠ .declare name origin description)
    (hsub : child.references ⊆ task.references) : BuildsFrom input task steps := by
  intro name origin hb
  rcases h name origin hb with ⟨d, hd⟩ | hs
  · exact absurd hd (hchild _ _ _)
  · exact .inr (hs.mono fun x hx => List.mem_append_left _ (hsub hx))

theorem BuildsFrom.lift_reference {place : SkipPlace} {uid path target description : Json}
    {inline? : Option (List Field)} (hn : Naming.declare? input.style.lead target = .ok name)
    (ho : input.origin? target inline? = some origin)
    (h : BuildsFrom input (.declare name origin description) steps) :
    BuildsFrom input (.reference place uid path target inline?) steps := by
  obtain ⟨hs, hsub⟩ := sourced_reference hn ho
  intro name' origin' hb
  rcases h name' origin' hb with ⟨d, hd⟩ | hs'
  · cases hd
    exact .inr hs
  · exact .inr (hs'.mono hsub)

theorem Visits.buildsFrom (h : Visits input scope task s steps result t) :
    BuildsFrom input task steps := by
  induction h with
  | fields_fault _ ih => exact ih.lift (by simp) fun x hx => by simp_all [Task.references, fieldsReferences]
  | blocks_fault _ ih => exact ih.lift (by simp) fun x hx => by simp_all [Task.references, blocksReferences]
  | fields_cons _ _ ih ih' =>
    refine (ih.lift (by simp) fun x hx => ?_).append (ih'.lift (by simp) fun x hx => ?_)
    · simp_all [Task.references, fieldsReferences]
    · simp_all [Task.references, fieldsReferences]
  | blocks_cons _ _ ih ih' =>
    refine (ih.lift (by simp) fun x hx => ?_).append (ih'.lift (by simp) fun x hx => ?_)
    · simp_all [Task.references, blocksReferences]
    · simp_all [Task.references, blocksReferences]
  | field_group _ _ ih =>
    refine ih.lift (by simp) fun x hx => ?_
    simp_all [Task.references, fieldReferences, fieldsReferences_getD]
  | field_global ho ht _ ih =>
    refine ih.lift (by simp) fun x hx => ?_
    rcases List.mem_cons.1 hx with rfl | hx
    · exact List.mem_append_left _ (List.mem_append_left _ (mem_ownReference ho.kind_eq ht))
    · exact List.mem_append_left _ (List.mem_append_right _ hx)
  | field_blocks_fault _ _ ih | field_no_blocks _ _ ih | field_union_fault _ _ _ _ ih =>
    exact ih.lift (by simp) fun x hx => by simp_all [Task.references, fieldReferences]
  | field_union _ _ _ _ ih =>
    refine (ih.lift (by simp) fun x hx => ?_).append (.of_builds_eq_nil rfl)
    simp_all [Task.references, fieldReferences]
  | block_inline _ _ _ ih =>
    refine ih.lift (by simp) fun x hx => ?_
    simp_all [Task.references, blockReferences, fieldsReferences_getD]
  | block_reference _ _ _ ih =>
    exact ih.lift (by simp) fun x hx => by simp_all [Task.references, blockReferences]
  | reference_fields_fault hn _ _ ho _ ih => exact ih.lift_reference hn ho
  | reference_built hn _ _ ho _ ih => exact (ih.lift_reference hn ho).append (.of_builds_eq_nil rfl)
  | declare_fault _ _ ih | declare_built _ _ ih =>
    intro name origin hb
    rcases List.mem_cons.1 hb with hb | hb
    · cases hb
      exact .inl ⟨_, rfl⟩
    · exact .inr ((ih name origin hb).resolve_left (by simp))
  | _ => exact .of_builds_eq_nil rfl

end SchemaDecl.Generation

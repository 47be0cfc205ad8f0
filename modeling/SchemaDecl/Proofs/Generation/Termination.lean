import SchemaDecl.Proofs.Generation.Agreement

/-!
# Every visit ends

`Calls` is the recursion of the visitors: a call is a task with the state in which its visit begins. Each
call declares a name of a record that was undeclared or leaves fewer fields to visit, so the recursion is
well founded, and the rules of `Visits` lead to an end from any state.
-/

namespace SchemaDecl.Generation

variable {input : Input} {scope : Scope} {s t : State} {name : String}

/-- The second call makes the first. -/
inductive Calls (input : Input) : Task × State → Task × State → Prop
  | fields_head {path field rest s} :
      Calls input (.field path field, s) (.fields path (field :: rest), s)
  | fields_tail {scope path field rest s steps member t} :
      Visits input scope (.field path field) s steps (.ok member) t →
      Calls input (.fields path rest, t) (.fields path (field :: rest), s)
  | field_group {path attrs schema? blocks s} :
      Opens attrs .group →
      Calls input (.fields (joinPath path attrs.uid) (schema?.getD []), s)
        (.field path ⟨attrs, schema?, blocks⟩, s)
  | field_global {path attrs schema? blocks s target} :
      Opens attrs .globalField →
      globalTarget attrs = .ok target →
      Calls input (.reference .field attrs.uid (joinPath path attrs.uid) target schema?, s)
        (.field path ⟨attrs, schema?, blocks⟩, s)
  | field_blocks {path attrs schema? blocks s} :
      Opens attrs .blocks →
      Calls input (.blocks (joinPath path attrs.uid) blocks, s) (.field path ⟨attrs, schema?, blocks⟩, s)
  | blocks_head {path block rest s} :
      Calls input (.block path block, s) (.blocks path (block :: rest), s)
  | blocks_tail {scope path block rest s steps member t} :
      Visits input scope (.block path block) s steps (.ok member) t →
      Calls input (.blocks path rest, t) (.blocks path (block :: rest), s)
  | block_inline {path uid title target schema? s} :
      target.truthy = false →
      Calls input (.fields (joinPath path uid) (schema?.getD []), s)
        (.block path ⟨uid, title, target, schema?⟩, s)
  | block_reference {path uid title target schema? s} :
      target.truthy = true →
      Calls input (.reference .block uid (joinPath path uid) target schema?, s)
        (.block path ⟨uid, title, target, schema?⟩, s)
  | reference {place uid path target inline? s name origin} :
      Naming.declare? input.style.lead target = .ok name →
      s.isDeclared name = false →
      input.origin? target inline? = some origin →
      Calls input (.declare name origin (input.descriptionOf target), s)
        (.reference place uid path target inline?, s)
  | declare {name origin description s} :
      s.isDeclared name = false →
      Calls input (.fields (.text "") origin.fields, s.opened name) (.declare name origin description, s)

mutual

def fieldSize : Field → Nat
  | ⟨_, schema?, blocks⟩ => 1 + schemaSize schema? + blocksSize blocks

def fieldsSize : List Field → Nat
  | [] => 0
  | field :: rest => 1 + fieldSize field + fieldsSize rest

def schemaSize : Option (List Field) → Nat
  | none => 0
  | some fields => 2 + fieldsSize fields

def blockSize : Block → Nat
  | ⟨_, _, _, schema?⟩ => 1 + schemaSize schema?

def blocksSize : List Block → Nat
  | [] => 0
  | block :: rest => 1 + blockSize block + blocksSize rest

end

/-- How much there is to visit in a task, as far as it does not lead to a record. -/
def Task.size : Task → Nat
  | .field _ f => fieldSize f
  | .fields _ fs => fieldsSize fs
  | .block _ b => blockSize b
  | .blocks _ bs => blocksSize bs
  | .reference _ _ _ _ inline? => schemaSize inline?
  | .declare _ origin _ => 1 + fieldsSize origin.fields

theorem fieldsSize_getD_le (schema? : Option (List Field)) :
    fieldsSize (schema?.getD []) ≤ schemaSize schema? := by
  cases schema? with
  | none => simp [fieldsSize]
  | some fields => simp [schemaSize]

/-- A call either declares a name that was undeclared, or has less to visit. -/
theorem Calls.decreases {task task' : Task} (h : Calls input (task', t) (task, s)) :
    task'.pending input t < task.pending input s ∨
      task'.pending input t ≤ task.pending input s ∧ task'.size < task.size := by
  cases h with
  | fields_head => exact .inr ⟨Nat.le_refl _, by simp only [Task.size, fieldsSize]; omega⟩
  | fields_tail hv =>
    exact .inr ⟨hv.grows.pending_le input, by simp only [Task.size, fieldsSize]; omega⟩
  | @field_group _ _ schema? =>
    have hle := fieldsSize_getD_le schema?
    exact .inr ⟨Nat.le_refl _, by simp only [Task.size, fieldSize]; omega⟩
  | field_global => exact .inr ⟨Nat.le_refl _, by simp only [Task.size, fieldSize]; omega⟩
  | field_blocks => exact .inr ⟨Nat.le_refl _, by simp only [Task.size, fieldSize]; omega⟩
  | blocks_head => exact .inr ⟨Nat.le_refl _, by simp only [Task.size, blocksSize]; omega⟩
  | blocks_tail hv =>
    exact .inr ⟨hv.grows.pending_le input, by simp only [Task.size, blocksSize]; omega⟩
  | @block_inline _ _ _ _ schema? =>
    have hle := fieldsSize_getD_le schema?
    exact .inr ⟨Nat.le_refl _, by simp only [Task.size, blockSize]; omega⟩
  | block_reference => exact .inr ⟨Nat.le_refl _, by simp only [Task.size, blockSize]; omega⟩
  | @reference _ _ _ _ _ _ name origin hn hd ho =>
    rcases origin?_eq_some ho with ⟨fields, rfl, rfl⟩ | ⟨r, rfl, hr, -, rfl⟩
    · refine .inr ⟨pending_opened_le input s name, ?_⟩
      simp only [Task.size, Origin.fields, schemaSize]
      omega
    · exact .inl (pending_opened_lt hd (mem_recordNames hr hn))
  | declare => exact .inr ⟨Nat.le_refl _, by simp only [Task.size]; omega⟩

/-- The names of records that are undeclared, and then what is left to visit. -/
def Task.measure (input : Input) (call : Task × State) : Nat × Nat :=
  (call.1.pending input call.2, call.1.size)

theorem calls_wf (input : Input) : WellFounded (Calls input) := by
  refine Subrelation.wf (r := InvImage (Prod.Lex (· < ·) (· < ·)) (Task.measure input)) ?_
    (InvImage.wf _ (Prod.lex Nat.lt_wfRel Nat.lt_wfRel).wf)
  rintro ⟨task', t⟩ ⟨task, s⟩ h
  rcases h.decreases with hlt | ⟨hle, hlt⟩
  · exact Prod.Lex.left _ _ hlt
  · rcases Nat.lt_or_eq_of_le hle with hlt' | heq
    · exact Prod.Lex.left _ _ hlt'
    · simp only [InvImage, Task.measure, heq]
      exact Prod.Lex.right _ hlt

/-- The rules lead to an end of the visit, be it a fault. -/
def Ends (input : Input) (scope : Scope) (task : Task) (s : State) : Prop :=
  ∃ steps result after, Visits input scope task s steps result after

theorem ends_declare {origin : Origin} {description : Json}
    (h : s.isDeclared name = false →
      Ends input (.globalField name) (.fields (.text "") origin.fields) (s.opened name)) :
    Ends input scope (.declare name origin description) s := by
  cases hd : s.isDeclared name with
  | true => exact ⟨_, _, _, .declare_known hd⟩
  | false =>
    obtain ⟨steps, result, after, hv⟩ := h hd
    cases result with
    | error e => exact ⟨_, _, _, .declare_fault hd hv⟩
    | ok members => exact ⟨_, _, _, .declare_built hd hv⟩

theorem ends_reference {place : SkipPlace} {uid path target : Json} {inline? : Option (List Field)}
    (h : ∀ {name origin}, Naming.declare? input.style.lead target = .ok name →
      s.isDeclared name = false → input.origin? target inline? = some origin →
      Ends input scope (.declare name origin (input.descriptionOf target)) s) :
    Ends input scope (.reference place uid path target inline?) s := by
  cases hn : Naming.declare? input.style.lead target with
  | error e => exact ⟨_, _, _, .reference_fault hn⟩
  | ok name =>
    cases hu : Naming.isUsableName name with
    | false => exact ⟨_, _, _, .reference_unusable hn hu⟩
    | true =>
      cases hd : s.isDeclared name with
      | true => exact ⟨_, _, _, .reference_known hn hu hd⟩
      | false =>
        cases ho : input.origin? target inline? with
        | none => exact ⟨_, _, _, .reference_missing hn hu hd ho⟩
        | some origin =>
          obtain ⟨steps, result, after, hv⟩ := h hn hd ho
          cases result with
          | error e => exact ⟨_, _, _, .reference_fields_fault hn hu hd ho hv⟩
          | ok _ => exact ⟨_, _, _, .reference_built hn hu hd ho hv⟩

theorem ends_fields_cons {path : Json} {field : Field} {rest : List Field}
    (hfield : Ends input scope (.field path field) s)
    (hrest : ∀ {t steps member}, Visits input scope (.field path field) s steps (.ok member) t →
      Ends input scope (.fields path rest) t) :
    Ends input scope (.fields path (field :: rest)) s := by
  obtain ⟨steps, result, mid, hv⟩ := hfield
  cases result with
  | error e => exact ⟨_, _, _, .fields_fault hv⟩
  | ok member =>
    obtain ⟨steps', result', after, hv'⟩ := hrest hv
    exact ⟨_, _, _, .fields_cons hv hv'⟩

theorem ends_blocks_cons {path : Json} {block : Block} {rest : List Block}
    (hblock : Ends input scope (.block path block) s)
    (hrest : ∀ {t steps member}, Visits input scope (.block path block) s steps (.ok member) t →
      Ends input scope (.blocks path rest) t) :
    Ends input scope (.blocks path (block :: rest)) s := by
  obtain ⟨steps, result, mid, hv⟩ := hblock
  cases result with
  | error e => exact ⟨_, _, _, .blocks_fault hv⟩
  | ok member =>
    obtain ⟨steps', result', after, hv'⟩ := hrest hv
    exact ⟨_, _, _, .blocks_cons hv hv'⟩

theorem ends_field_blocks {path : Json} {attrs : Attributes} {schema? : Option (List Field)}
    {blocks : List Block} (ho : Opens attrs .blocks)
    (hblocks : Ends input scope (.blocks (joinPath path attrs.uid) blocks) s) :
    Ends input scope (.field path ⟨attrs, schema?, blocks⟩) s := by
  obtain ⟨steps, result, mid, hv⟩ := hblocks
  cases result with
  | error e => exact ⟨_, _, _, .field_blocks_fault ho hv⟩
  | ok members =>
    cases members with
    | nil => exact ⟨_, _, _, .field_no_blocks ho hv⟩
    | cons member rest =>
      rcases hu : unionName input.style attrs.uid (member :: rest) mid with ⟨_ | name, after⟩
      · exact ⟨_, _, _, .field_union_fault ho hv (List.cons_ne_nil _ _) hu⟩
      · exact ⟨_, _, _, .field_union ho hv (List.cons_ne_nil _ _) hu⟩

/-- A field either has a type of its own or is of a kind that holds others. -/
theorem flat_or_opens {attrs : Attributes} (hu : Naming.isUsable attrs.uid = .ok true) (style : Style)
    (path : Json) :
    (∃ visit, flatType? style attrs path = some visit) ∨
      Opens attrs .group ∨ Opens attrs .globalField ∨ Opens attrs .blocks := by
  unfold flatType?
  cases hl : attrs.literals? with
  | some values => exact .inl ⟨_, rfl⟩
  | none =>
    cases hk : attrs.kind
    case group => exact .inr (.inl ⟨hu, hl, hk⟩)
    case globalField => exact .inr (.inr (.inl ⟨hu, hl, hk⟩))
    case blocks => exact .inr (.inr (.inr ⟨hu, hl, hk⟩))
    all_goals exact .inl ⟨_, rfl⟩

theorem ends_of_calls {task : Task}
    (ih : ∀ {task' t}, Calls input (task', t) (task, s) → ∀ scope, Ends input scope task' t) :
    Ends input scope task s := by
  cases task with
  | fields path fields =>
    cases fields with
    | nil => exact ⟨_, _, _, .fields_nil⟩
    | cons field rest =>
      exact ends_fields_cons (ih .fields_head _) fun hv => ih (.fields_tail hv) _
  | blocks path blocks =>
    cases blocks with
    | nil => exact ⟨_, _, _, .blocks_nil⟩
    | cons block rest =>
      exact ends_blocks_cons (ih .blocks_head _) fun hv => ih (.blocks_tail hv) _
  | field path field =>
    obtain ⟨attrs, schema?, blocks⟩ := field
    cases hu : Naming.isUsable attrs.uid with
    | error e => exact ⟨_, _, _, .field_fault hu⟩
    | ok usable =>
      cases usable with
      | false => exact ⟨_, _, _, .field_unusable hu⟩
      | true =>
        rcases flat_or_opens hu input.style (joinPath path attrs.uid) with ⟨visit, hv⟩ | ho | ho | ho
        · exact ⟨_, _, _, .field_flat hu hv rfl⟩
        · obtain ⟨steps, result, after, hv⟩ := ih (.field_group ho) scope
          exact ⟨_, _, _, .field_group ho hv⟩
        · cases ht : globalTarget attrs with
          | error e => exact ⟨_, _, _, .field_target_fault ho ht⟩
          | ok target =>
            obtain ⟨steps, result, after, hv⟩ := ih (.field_global ho ht) scope
            exact ⟨_, _, _, .field_global ho ht hv⟩
        · exact ends_field_blocks ho (ih (.field_blocks ho) _)
  | block path block =>
    obtain ⟨uid, title, target, schema?⟩ := block
    cases hu : Naming.isUsable uid with
    | error e => exact ⟨_, _, _, .block_fault hu⟩
    | ok usable =>
      cases usable with
      | false => exact ⟨_, _, _, .block_unusable hu⟩
      | true =>
        cases ht : target.truthy with
        | false =>
          obtain ⟨steps, result, after, hv⟩ := ih (.block_inline ht) scope
          exact ⟨_, _, _, .block_inline hu ht hv⟩
        | true =>
          obtain ⟨steps, result, after, hv⟩ := ih (.block_reference ht) scope
          exact ⟨_, _, _, .block_reference hu ht hv⟩
  | reference place uid path target inline? =>
    exact ends_reference fun hn hd ho => ih (.reference hn hd ho) _
  | declare name origin description => exact ends_declare fun hd => ih (.declare hd) _

theorem visit_ends (input : Input) (scope : Scope) (task : Task) (s : State) :
    Ends input scope task s := by
  have hcall : ∀ call : Task × State, ∀ scope, Ends input scope call.1 call.2 := by
    intro call
    induction call using (calls_wf input).induction with
    | _ call ih =>
      intro scope
      exact ends_of_calls fun hc => ih _ hc
  exact hcall (task, s) scope

theorem Visits.fault {task : Task} {steps : List Step} {result : Except Fault task.Result}
    (h : Visits input scope task s steps result t) : result ≠ .error .budgetSpent := by
  induction h with
  | fields_fault _ ih | blocks_fault _ ih => simpa using ih
  | fields_cons _ _ _ ih' | blocks_cons _ _ _ ih' => exact map_fault _ ih'
  | field_fault hu | block_fault hu =>
    rw [ne_eq, Except.error.injEq]
    exact fun he => isUsable_fault _ (hu.trans (congrArg _ he))
  | @field_flat _ _ attrs _ _ s _ _ _ _ hv hr =>
    have hf := (quiet_flatType hv).fault s
    rw [hr] at hf
    exact bind_fault hf (typedMember_fault attrs)
  | field_group _ _ ih | field_global _ _ _ ih => exact bind_fault ih fun _ => typedMember_fault _ _
  | field_target_fault _ ht =>
    rw [ne_eq, Except.error.injEq]
    exact fun he => map_fault _ (targets_fault _) (ht.trans (congrArg _ he))
  | field_blocks_fault _ _ ih => simpa using ih
  | field_no_blocks => exact typedMember_fault _ _
  | field_union_fault _ _ _ hu =>
    rw [ne_eq, Except.error.injEq]
    exact (unionName_fault hu).2
  | field_union => exact typedMember_fault _ _
  | block_inline _ _ _ ih | block_reference _ _ _ ih => exact map_fault _ ih
  | reference_fault hn =>
    rw [ne_eq, Except.error.injEq]
    exact fun he => declare?_fault _ _ (hn.trans (congrArg _ he))
  | reference_fields_fault _ _ _ _ _ ih => simpa using ih
  | declare_fault _ _ ih => simpa using ih
  | _ => simp

end SchemaDecl.Generation

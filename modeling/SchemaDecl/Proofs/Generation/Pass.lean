import SchemaDecl.Proofs.Generation.Origins

/-!
# Passes

A pass does what the rules of `Passes` say, and these lead to an end: every build takes up a name that was
undeclared, and the document has finitely many names.
-/

namespace SchemaDecl.Generation

variable {input : Input} {s t : State} {record : Record} {uid name : String}

/-- A record goes by the name for its uid, or by a stand-in, and then the unusable name is kept. -/
inductive Named (input : Input) (record : Record) (s : State) : String → String → State → Prop
  | usable {u} (h : record.uid = .text u)
      (hu : Naming.isUsableName (Naming.declare input.style.lead u) = true) :
      Named input record s u (Naming.declare input.style.lead u) s
  | unusable {u} (h : record.uid = .text u)
      (hu : Naming.isUsableName (Naming.declare input.style.lead u) = false) :
      Named input record s u (Naming.placeholder (Naming.declare input.style.lead u))
        { s with unusable := s.unusable ++ [⟨u, record.isGlobal, Naming.declare input.style.lead u⟩] }

theorem recordName_text (h : record.uid = .text uid) :
    recordName input record s =
      if Naming.isUsableName (Naming.declare input.style.lead uid) then
        (.ok (uid, Naming.declare input.style.lead uid), s)
      else (.ok (uid, Naming.placeholder (Naming.declare input.style.lead uid)),
        { s with unusable := s.unusable ++
            [⟨uid, record.isGlobal, Naming.declare input.style.lead uid⟩] }) := by
  unfold recordName
  rw [h]
  dsimp only
  split <;> rfl

theorem recordName_ok (h : recordName input record s = (.ok (uid, name), t)) :
    Named input record s uid name t := by
  cases hu : record.uid with
  | text u =>
    rw [recordName_text hu] at h
    split at h
    next hs => cases h; exact .usable hu hs
    next hs => cases h; exact .unusable hu (by simpa using hs)
  | _ =>
    unfold recordName at h
    rw [hu] at h
    cases h

theorem recordName_fault {e : Fault} (h : recordName input record s = (.error e, t)) :
    t = s ∧ e ≠ .budgetSpent := by
  cases hu : record.uid with
  | text u =>
    rw [recordName_text hu] at h
    split at h <;> cases h
  | _ =>
    unfold recordName at h
    rw [hu] at h
    cases h
    exact ⟨rfl, by simp⟩

theorem visitGlobal_fault {e : Fault} (h : recordName input record s = (.error e, t)) :
    visitGlobal input record s = (.error e, t) := bind_of_error h _

theorem visitGlobal_bare (h : recordName input record s = (.ok (uid, name), t))
    (hs : record.schema? = none) : visitGlobal input record s = (.ok (), t) := by
  unfold visitGlobal
  rw [bind_of_ok h, hs]
  rfl

theorem visitGlobal_declare (h : recordName input record s = (.ok (uid, name), t))
    (hs : record.schema?.isSome = true) :
    visitGlobal input record s =
      Task.visit input (declareRecord input input.records.length)
        (.declare name (.record record) record.description) t := by
  obtain ⟨fields, hf⟩ := Option.isSome_iff_exists.1 hs
  unfold visitGlobal
  rw [bind_of_ok h, hf, Task.visit, Origin.fields, Record.fields, hf]
  rfl

theorem visitContentType_fault {e : Fault} (h : recordName input record s = (.error e, t)) :
    visitContentType input record s = (.error e, t) := bind_of_error h _

theorem visitContentType_eq {result : Except Fault (List Member)} {u : State}
    (h : recordName input record s = (.ok (uid, name), t))
    (hv : visitMembers input record.fields (t.entered name uid) = (result, u)) :
    visitContentType input record s = (result.map (u.contentType input name record), u.left t) := by
  have hscope : withScope (visitMembers input record.fields)
      { t with contentTypes := t.contentTypes ++ [name], owner := some uid } =
        (result.map fun members => (u.scope, members), { u with scope := t.scope }) := by
    unfold withScope
    rw [show ({ t with contentTypes := t.contentTypes ++ [name], owner := some uid, scope := [] } :
      State) = t.entered name uid from rfl, hv]
  unfold visitContentType
  rw [bind_of_ok h]
  change ownedBy uid (visitRecord input name record.fields record.description input.style.systemFields)
    { t with contentTypes := t.contentTypes ++ [name] } = _
  unfold ownedBy visitRecord
  simp only [bind_apply, hscope]
  cases result <;> rfl

theorem Task.pending_le_records (input : Input) (task : Task) (s : State) :
    task.pending input s ≤ input.records.length := by
  cases task <;> exact Generation.pending_le_records input _

/-- A budget of one for each record suffices for every visit. -/
theorem Visits.visit_records {scope : Scope} {task : Task} {steps : List Step}
    {result : Except Fault task.Result} (h : Visits input scope task s steps result t) {budget : Nat}
    (hb : input.records.length ≤ budget) :
    task.visit input (declareRecord input budget) s = (result, t) :=
  h.visit_eq budget (Nat.le_trans (Task.pending_le_records input task s) hb)

variable {position : Nat} {records : List Record} {steps : List Step}
  {result : Except Fault (List Declaration)}

theorem Passes.visit_eq (h : Passes input position records s steps result t) :
    visitRecords input records s = (result, t) := by
  induction h with
  | nil => rfl
  | @name_fault _ record _ _ _ _ hn =>
    rw [visitRecords]
    split
    · exact bind_of_error (visitGlobal_fault hn) _
    · exact bind_of_error (visitContentType_fault hn) _
  | bare hg hn hs _ ih =>
    rw [visitRecords, if_pos hg, bind_of_ok (visitGlobal_bare hn hs), ih]
  | global_fault hg hn hs hv =>
    have hd := (visitGlobal_declare hn hs).trans (hv.visit_records (Nat.le_refl _))
    rw [visitRecords, if_pos hg]
    exact bind_of_error hd _
  | global hg hn hs hv _ ih =>
    have hd := (visitGlobal_declare hn hs).trans (hv.visit_records (Nat.le_refl _))
    rw [visitRecords, if_pos hg, bind_of_ok hd, ih]
  | contentType_fault hg hn hv =>
    have hc := visitContentType_eq hn (hv.visit_records (Nat.le_refl _))
    rw [visitRecords, if_neg (by simp [hg])]
    exact bind_of_error hc _
  | @contentType _ _ _ _ _ _ _ _ _ _ _ result _ hg hn hv _ ih =>
    have hc := visitContentType_eq hn (hv.visit_records (Nat.le_refl _))
    rw [visitRecords, if_neg (by simp [hg]), bind_of_ok hc, bind_apply, ih]
    cases result <;> rfl

theorem passes_end (input : Input) (records : List Record) (position : Nat) (s : State) :
    ∃ steps result t, Passes input position records s steps result t := by
  induction records generalizing position s with
  | nil => exact ⟨_, _, _, .nil⟩
  | cons record rest ih =>
    rcases hn : recordName input record s with ⟨e | ⟨uid, name⟩, mid⟩
    · exact ⟨_, _, _, .name_fault hn⟩
    cases hg : record.isGlobal with
    | true =>
      cases hs : record.schema?.isSome with
      | false =>
        obtain ⟨steps, result, t, hp⟩ := ih position mid
        exact ⟨_, _, _, .bare hg hn (by simpa using hs) hp⟩
      | true =>
        obtain ⟨steps, result, mid', hv⟩ :=
          visit_ends input .top (.declare name (.record record) record.description) mid
        cases result with
        | error e => exact ⟨_, _, _, .global_fault hg hn hs hv⟩
        | ok _ =>
          obtain ⟨steps', result', t, hp⟩ := ih position mid'
          exact ⟨_, _, _, .global hg hn hs hv hp⟩
    | false =>
      obtain ⟨steps, result, mid', hv⟩ := visit_ends input (.contentType position)
        (.fields (.text "") record.fields) (mid.entered name uid)
      cases result with
      | error e => exact ⟨_, _, _, .contentType_fault hg hn hv⟩
      | ok members =>
        obtain ⟨steps', result', t, hp⟩ := ih (position + 1) (mid'.left mid)
        exact ⟨_, _, _, .contentType hg hn hv hp⟩

theorem Passes.fault (h : Passes input position records s steps result t) :
    result ≠ .error .budgetSpent := by
  induction h with
  | nil => simp
  | name_fault hn =>
    rw [ne_eq, Except.error.injEq]
    exact (recordName_fault hn).2
  | bare _ _ _ _ ih | global _ _ _ _ _ ih => exact ih
  | global_fault _ _ _ hv | contentType_fault _ _ hv => simpa using hv.fault
  | contentType _ _ _ _ ih => exact map_fault _ ih

theorem runFrom_fault {e : Fault} (h : visitRecords input input.records s = (.error e, t)) :
    runFrom input s = (.error (.fault e), t) := by
  unfold runFrom
  rw [h]

theorem runFrom_eq {declarations : List Declaration}
    (h : visitRecords input input.records s = (.ok declarations, t)) :
    runFrom input s =
      if t.unusable.isEmpty then (.ok (t.summarize.output input.style declarations), t.summarize)
      else (.error (.unusableNames (violations t.summarize)), t.summarize) := by
  unfold runFrom
  rw [h]
  rfl

theorem runFrom_ok {o : Output} (h : runFrom input s = (.ok o, t)) :
    ∃ steps u, Passes input 0 input.records s steps (.ok o.contentTypes) u ∧ u.unusable = [] ∧
      t = u.summarize ∧ o = t.output input.style o.contentTypes := by
  obtain ⟨steps, result, u, hp⟩ := passes_end input input.records 0 s
  cases result with
  | error e =>
    rw [runFrom_fault hp.visit_eq] at h
    cases h
  | ok declarations =>
    rw [runFrom_eq hp.visit_eq] at h
    split at h
    next hu =>
      cases h
      exact ⟨steps, u, hp, List.isEmpty_iff.1 hu, rfl, rfl⟩
    next => cases h

theorem recordName_globals (h : recordName input record s = (.ok (uid, name), t)) :
    t.globals = s.globals := by
  cases recordName_ok h <;> rfl

theorem Passes.adds (h : Passes input position records s steps result t) :
    Adds s (builds steps) t := by
  induction h with
  | nil => exact .of_globals rfl
  | name_fault hn => exact .of_globals (congrArg State.globals (recordName_fault hn).1)
  | bare _ hn _ _ ih => exact ih.congr (recordName_globals hn).symm rfl
  | global_fault _ hn _ hv => exact hv.trace.adds.congr (recordName_globals hn).symm rfl
  | global _ hn _ hv _ ih =>
    rw [builds_append]
    exact (hv.trace.adds.congr (recordName_globals hn).symm rfl).append ih
  | contentType_fault _ hn hv => exact hv.trace.adds.congr (recordName_globals hn).symm rfl
  | @contentType _ _ _ s _ _ mid _ _ mid' _ _ _ _ hn hv _ ih =>
    have hadds : Adds s _ (mid'.left mid) :=
      hv.trace.adds.congr (recordName_globals hn).symm rfl
    rw [builds_append]
    exact hadds.append ih

/-- The origin is a record under its name or a stand-in for one that is unusable, or is what a reference
leads to. -/
def Input.Offers (input : Input) (name : String) (origin : Origin) : Prop :=
  (∃ r ∈ input.records, ∃ uid, origin = .record r ∧ r.uid = .text uid ∧
    (name = Naming.declare input.style.lead uid ∨
      Naming.isUsableName (Naming.declare input.style.lead uid) = false ∧
        name = Naming.placeholder (Naming.declare input.style.lead uid))) ∨
  Sourced input [] name origin

variable {scope : Scope} {origin : Origin}

theorem offers_of_declare {name' : String} {result : Except Fault Unit} {u : State}
    (hr : record ∈ input.records) (hn : recordName input record s = (.ok (uid, name), t))
    (hv : Visits input scope (.declare name (.record record) record.description) t steps result u)
    (hb : .build name' origin ∈ steps) : input.Offers name' origin := by
  rcases hv.buildsFrom name' origin hb with ⟨d, hd⟩ | hs
  · cases hd
    refine .inl ⟨record, hr, uid, rfl, ?_⟩
    cases recordName_ok hn with
    | usable hu => exact ⟨hu, .inl rfl⟩
    | unusable hu hunusable => exact ⟨hu, .inr ⟨hunusable, rfl⟩⟩
  · exact .inr (hs.mono fun x hx => mem_references hr hx)

theorem offers_of_fields {path : Json} {result : Except Fault (List Member)}
    (hr : record ∈ input.records) (hv : Visits input scope (.fields path record.fields) s steps result t)
    (hb : .build name origin ∈ steps) : input.Offers name origin := by
  have hs := (hv.buildsFrom name origin hb).resolve_left (by simp)
  exact .inr (hs.mono fun x hx => mem_references hr hx)

/-- A pass builds from its records and from what their fields refer to. -/
theorem Passes.offers (h : Passes input position records s steps result t)
    (hr : records ⊆ input.records) : ∀ name origin, .build name origin ∈ steps →
      input.Offers name origin := by
  induction h with
  | nil | name_fault => simp
  | bare _ _ _ _ ih => exact ih (List.cons_subset.1 hr).2
  | global_fault _ hn _ hv =>
    exact fun name origin hb => offers_of_declare (List.cons_subset.1 hr).1 hn hv hb
  | global _ hn _ hv _ ih =>
    intro name origin hb
    rcases List.mem_append.1 hb with hb | hb
    · exact offers_of_declare (List.cons_subset.1 hr).1 hn hv hb
    · exact ih (List.cons_subset.1 hr).2 name origin hb
  | contentType_fault _ _ hv =>
    exact fun name origin hb => offers_of_fields (List.cons_subset.1 hr).1 hv hb
  | contentType _ _ hv _ ih =>
    intro name origin hb
    rcases List.mem_append.1 hb with hb | hb
    · exact offers_of_fields (List.cons_subset.1 hr).1 hv hb
    · exact ih (List.cons_subset.1 hr).2 name origin hb

theorem mem_allocated {target : Json} (ht : target ∈ input.targets)
    (hn : Naming.declare? input.style.lead target = .ok name) :
    name ∈ input.allocated ∧ Naming.placeholder name ∈ input.allocated := by
  have hm : name ∈ input.targets.filterMap fun target =>
      (Naming.declare? input.style.lead target).toOption :=
    List.mem_filterMap.2 ⟨target, ht, by rw [hn]; rfl⟩
  exact ⟨List.mem_flatMap.2 ⟨name, hm, by simp⟩, List.mem_flatMap.2 ⟨name, hm, by simp⟩⟩

theorem Input.Offers.mem_allocated (h : input.Offers name origin) : name ∈ input.allocated := by
  rcases h with ⟨r, hr, uid, -, hu, hname⟩ | hs
  · have ht : r.uid ∈ input.targets := List.mem_append_left _ (List.mem_map_of_mem hr)
    have hdeclare : Naming.declare? input.style.lead r.uid =
        .ok (Naming.declare input.style.lead uid) := by
      rw [hu]
      rfl
    have hm := Generation.mem_allocated ht hdeclare
    rcases hname with rfl | ⟨-, rfl⟩
    · exact hm.1
    · exact hm.2
  · obtain ⟨inline?, hm, -⟩ := hs.mem
    have ht : origin.target ∈ input.targets :=
      List.mem_append_right _ (List.mem_map_of_mem (f := Reference.target) (by simpa using hm))
    exact (Generation.mem_allocated ht hs.named).1

/-- Every pass ends, from whatever state. The recursion of the visitors is well founded, since each call
declares a name of a record that was undeclared or leaves less to visit, and no budget beyond one for each
record changes what they do. Each global field that is built takes up one of the finitely many names that
the document can ask for, one that was undeclared, and none is built twice. -/
theorem pass_ends (input : Input) (s : State) :
    WellFounded (Calls input) ∧
      (∀ task task' t t', Calls input (task', t') (task, t) →
        task'.pending input t' < task.pending input t ∨
          task'.pending input t' ≤ task.pending input t ∧ task'.size < task.size) ∧
      (∀ budget task t, input.records.length ≤ budget →
        Task.visit input (declareRecord input budget) task t =
          Task.visit input (declareRecord input input.records.length) task t) ∧
      (runFrom input s).1 ≠ .error (.fault .budgetSpent) ∧
      ∃ steps,
        Passes input 0 input.records s steps (visitRecords input input.records s).1
          (visitRecords input input.records s).2 ∧
        (builds steps).Nodup ∧
        ∀ name ∈ builds steps, s.isDeclared name = false ∧ name ∈ input.allocated := by
  obtain ⟨steps, result, t, hp⟩ := passes_end input input.records 0 s
  have hvisit : visitRecords input input.records s = (result, t) := hp.visit_eq
  refine ⟨calls_wf input, fun _ _ _ _ hc => hc.decreases, fun budget task u hb => ?_, ?_, steps, ?_,
    hp.adds.nodup, fun name hn => ?_⟩
  · obtain ⟨steps, result, v, hv⟩ := visit_ends input .top task u
    rw [hv.visit_records hb, hv.visit_records (Nat.le_refl _)]
  · cases result with
    | error e =>
      rw [runFrom_fault hvisit]
      simpa using hp.fault
    | ok declarations =>
      rw [runFrom_eq hvisit]
      split <;> simp
  · rw [hvisit]
    exact hp
  · obtain ⟨step, hstep, hb⟩ := List.mem_filterMap.1 hn
    refine ⟨hp.adds.fresh name hn, ?_⟩
    cases step with
    | build other origin =>
      obtain rfl := Option.some.inj hb
      exact (hp.offers (List.Subset.refl _) other origin hstep).mem_allocated
    | refer | union => cases hb

end SchemaDecl.Generation

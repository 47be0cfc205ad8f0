import SchemaDecl.Proofs.Generation.Equations

/-!
# Traces of visits

What a visit does to the declarations, whatever it visits: it goes on quietly, gives out the name of a
global field, names a union, or builds a global field by a visit in a scope of that field. `Trace` has a
rule for each of these, and tells by a flag a visit that came to its end from one that was stopped.
-/

namespace SchemaDecl.Generation

inductive Trace (input : Input) : Scope → State → List Step → Bool → State → Prop
  | quiet {scope s t} : Keeps s t → Trace input scope s [] true t
  | stopped {scope s steps t} : Trace input scope s steps true t → Trace input scope s steps false t
  | append {scope s steps t steps' whole u} :
      Trace input scope s steps true t →
      Trace input scope t steps' whole u →
      Trace input scope s (steps ++ steps') whole u
  | refer {scope s name} :
      s.isDeclared name = true →
      Trace input scope s [.refer name] true (s.referred name)
  | union {scope s uid blocks name t} :
      (∀ block ∈ blocks, Naming.isUsable block.1 = .ok true) →
      unionName input.style uid blocks s = (.ok name, t) →
      Trace input scope s [.union scope blocks name] true t
  | fault {scope name origin s steps t} :
      s.isDeclared name = false →
      Trace input (.globalField name) (s.opened name) steps false t →
      Trace input scope s (.build name origin :: steps) false { t with scope := s.scope }
  | built {scope name origin description s steps members t} :
      s.isDeclared name = false →
      Visits input (.globalField name) (.fields (.text "") origin.fields) (s.opened name) steps
        (.ok members) t →
      Trace input (.globalField name) (s.opened name) steps true t →
      Trace input scope s (.build name origin :: steps) true
        (t.closed s.scope name ⟨t.scope, ⟨name, description, false, members⟩⟩)

variable {input : Input} {scope : Scope} {task : Task} {s t u : State} {steps : List Step}
  {result : Except Fault task.Result} {name : String} {whole : Bool}

@[simp] theorem isDeclared_opened (other : String) :
    (s.opened name).isDeclared other = (decide (name = other) || s.isDeclared other) := by
  simp only [State.isDeclared, State.opened, Table.has, Table.get?_put]
  by_cases h : name = other <;> simp [h]

@[simp] theorem isDeclared_closed (before : List BlockUnion) (d : Declaration) (other : String) :
    (s.closed before name d).isDeclared other = (decide (name = other) || s.isDeclared other) := by
  simp only [State.isDeclared, State.closed, Table.has, Table.get?_put]
  by_cases h : name = other <;> simp [h]

theorem Visits.declared {origin : Origin} {description : Json} {result : Except Fault Unit}
    (h : Visits input scope (.declare name origin description) s steps result t)
    (hr : result = .ok ()) : t.isDeclared name = true := by
  cases h with
  | declare_known hd => exact hd
  | declare_fault => cases hr
  | declare_built => simp

theorem Visits.usable_block {path : Json} {block : Block} {result : Except Fault (Option (Json × TypeExpr))}
    {member : Json × TypeExpr} (h : Visits input scope (.block path block) s steps result t)
    (hr : result = .ok (some member)) : Naming.isUsable member.1 = .ok true := by
  cases h with
  | block_fault | block_unusable => cases hr
  | block_inline hu =>
    obtain ⟨members, -, hm⟩ := ok_of_map hr
    rwa [← Option.some.inj hm]
  | block_reference hu =>
    obtain ⟨type?, -, hm⟩ := ok_of_map hr
    obtain ⟨type, -, rfl⟩ := Option.map_eq_some_iff.1 hm
    exact hu

theorem Visits.usable_blocks {path : Json} {blocks : List Block} {result : Except Fault Blocks}
    {members : Blocks} (h : Visits input scope (.blocks path blocks) s steps result t)
    (hr : result = .ok members) : ∀ member ∈ members, Naming.isUsable member.1 = .ok true := by
  induction blocks generalizing s steps result t members with
  | nil =>
    cases h
    cases hr
    simp
  | cons block rest ih =>
    cases h with
    | blocks_fault => cases hr
    | blocks_cons hb hbs =>
      obtain ⟨members', rfl, rfl⟩ := ok_of_map hr
      refine List.forall_mem_append.2 ⟨fun kept hk => ?_, ih hbs rfl⟩
      obtain rfl := Option.mem_toList.1 hk
      exact hb.usable_block rfl

theorem Trace.of_keeps (h : Keeps s t) : ∀ whole, Trace input scope s [] whole t
  | true => .quiet h
  | false => .stopped (.quiet h)

/-- A whole trace is also one that may have been stopped. -/
theorem Trace.weaken (h : Trace input scope s steps true t) : ∀ whole, Trace input scope s steps whole t
  | true => h
  | false => .stopped h

theorem isOk_map {α β : Type} (r : Except Fault α) (f : α → β) : (r.map f).isOk = r.isOk := by
  cases r <;> rfl

theorem isOk_of_bind {α β : Type} {r : Except Fault α} {f : α → Except Fault β}
    (h : (r.bind f).isOk = true) : r.isOk = true := by
  cases r with
  | error e => cases h
  | ok a => rfl

theorem Trace.bind {α β : Type} {r : Except Fault α} (h : Trace input scope s steps r.isOk t)
    (f : α → Except Fault β) : Trace input scope s steps (r.bind f).isOk t := by
  cases r with
  | error e => exact h
  | ok a => exact h.weaken _

/-- Every visit has a trace, a whole one if it gives a result. -/
theorem Visits.trace (h : Visits input scope task s steps result t) :
    Trace input scope s steps result.isOk t := by
  induction h with
  | fields_nil | blocks_nil | field_fault | block_fault => exact .of_keeps (Keeps.refl _) _
  | reference_fault | field_target_fault | declare_known => exact .of_keeps (Keeps.refl _) _
  | fields_fault _ ih | blocks_fault _ ih => exact ih
  | fields_cons _ _ ih ih' | blocks_cons _ _ ih ih' =>
    rw [isOk_map]
    exact ih.append ih'
  | field_unusable => exact .quiet ((quiet_skip _ _ _ _).keeps _)
  | block_unusable => exact .quiet ((quiet_skip _ _ _ _).keeps _)
  | reference_missing => exact .quiet ((quiet_skip _ _ _ _).keeps _)
  | reference_unusable => exact .quiet ((quiet_refuseReference _ _ _ _).keeps _)
  | @field_flat _ _ _ _ _ s _ _ _ _ hv hr =>
    have hk := (quiet_flatType hv).keeps s
    rw [hr] at hk
    exact .of_keeps hk _
  | field_group _ _ ih | field_global _ _ _ ih => exact ih.bind _
  | field_blocks_fault _ _ ih => exact ih
  | field_no_blocks _ _ ih => exact ih.weaken _
  | field_union_fault _ _ _ hu ih =>
    rw [(unionName_fault hu).1]
    exact ih.stopped
  | field_union _ hb _ hu ih => exact (ih.append (.union (hb.usable_blocks rfl) hu)).weaken _
  | block_inline _ _ _ ih | block_reference _ _ _ ih =>
    rw [isOk_map]
    exact ih
  | reference_known _ _ hd => exact .refer hd
  | reference_fields_fault _ _ _ _ _ ih => exact ih
  | reference_built _ _ _ _ hv ih => exact ih.append (.refer (hv.declared rfl))
  | declare_fault hd _ ih => exact .fault hd ih
  | declare_built hd hv ih => exact .built hd hv ih

@[simp] theorem builds_append (steps steps' : List Step) :
    builds (steps ++ steps') = builds steps ++ builds steps' := List.filterMap_append

theorem isDeclared_iff : s.isDeclared name = true ↔ name ∈ Table.names s.globals :=
  Table.has_iff_mem_names name s.globals

theorem isDeclared_eq_false_iff : s.isDeclared name = false ↔ name ∉ Table.names s.globals := by
  rw [← isDeclared_iff, Bool.not_eq_true]

theorem names_opened (h : s.isDeclared name = false) :
    Table.names (s.opened name).globals = Table.names s.globals ++ [name] := by
  rw [State.opened, Table.put_of_not_mem (isDeclared_eq_false_iff.1 h)]
  exact List.map_append

theorem names_closed (h : t.isDeclared name = true) (before : List BlockUnion) (d : Declaration) :
    Table.names (t.closed before name d).globals = Table.names t.globals :=
  Table.names_put_of_mem (isDeclared_iff.1 h) _

/-- The second state has the global fields of the first and then new ones in this order. -/
structure Adds (s : State) (built : List String) (t : State) : Prop where
  names : Table.names t.globals = Table.names s.globals ++ built
  fresh : ∀ name ∈ built, s.isDeclared name = false
  nodup : built.Nodup

theorem Adds.of_globals (h : t.globals = s.globals) : Adds s [] t :=
  ⟨by rw [h, List.append_nil], by simp, List.nodup_nil⟩

theorem Adds.isDeclared_iff {built : List String} (h : Adds s built t) :
    t.isDeclared name = true ↔ s.isDeclared name = true ∨ name ∈ built := by
  rw [Generation.isDeclared_iff, h.names, List.mem_append, Generation.isDeclared_iff]

theorem Adds.append {built built' : List String} (h : Adds s built t) (h' : Adds t built' u) :
    Adds s (built ++ built') u := by
  have hfresh : ∀ name ∈ built', s.isDeclared name = false ∧ name ∉ built := by
    intro name hn
    have ht := h'.fresh name hn
    rw [← Bool.not_eq_true, h.isDeclared_iff, not_or] at ht
    exact ⟨Bool.not_eq_true _ ▸ ht.1, ht.2⟩
  refine ⟨by rw [h'.names, h.names, List.append_assoc], ?_, ?_⟩
  · exact List.forall_mem_append.2 ⟨h.fresh, fun name hn => (hfresh name hn).1⟩
  · refine List.nodup_append.2 ⟨h.nodup, h'.nodup, fun name hn other hn' heq => ?_⟩
    exact (hfresh other hn').2 (heq ▸ hn)

theorem Adds.congr {s' t' : State} {built : List String} (h : Adds s built t)
    (hs : s'.globals = s.globals) (ht : t'.globals = t.globals) : Adds s' built t' := by
  refine ⟨by rw [ht, hs, h.names], fun name hn => ?_, h.nodup⟩
  rw [State.isDeclared, hs]
  exact h.fresh name hn

theorem Adds.opened (h : s.isDeclared name = false) : Adds s [name] (s.opened name) :=
  ⟨names_opened h, by simpa using h, by simp⟩

theorem Adds.closed {built : List String} (h : Adds s built t) (hd : t.isDeclared name = true)
    (before : List BlockUnion) (d : Declaration) : Adds s built (t.closed before name d) :=
  ⟨by rw [names_closed hd, h.names], h.fresh, h.nodup⟩

/-- A visit adds the global fields that it builds, each of them once. -/
theorem Trace.adds (h : Trace input scope s steps whole t) : Adds s (builds steps) t := by
  induction h with
  | quiet hk => exact .of_globals hk.globals
  | stopped _ ih => exact ih
  | append _ _ ih ih' =>
    rw [builds_append]
    exact ih.append ih'
  | refer => exact .of_globals rfl
  | union _ hu => exact .of_globals (unionName_globals hu)
  | fault hd _ ih =>
    have hadds := (Adds.opened hd).append ih
    exact ⟨hadds.names, hadds.fresh, hadds.nodup⟩
  | @built _ name _ _ _ _ _ t hd _ _ ih =>
    have hdeclared : t.isDeclared name = true := ih.isDeclared_iff.2 (.inl (by simp))
    exact ((Adds.opened hd).append ih).closed hdeclared _ _

/-- What is declared in the first state is declared in the second. -/
def Grows (s t : State) : Prop := ∀ name, s.isDeclared name = true → t.isDeclared name = true

theorem Visits.grows (h : Visits input scope task s steps result t) : Grows s t := fun _ hn =>
  h.trace.adds.isDeclared_iff.2 (.inl hn)

end SchemaDecl.Generation

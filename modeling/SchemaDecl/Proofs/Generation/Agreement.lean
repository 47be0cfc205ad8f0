import SchemaDecl.Proofs.Generation.Trace

/-!
# Visits and visitors

A record is visited for a global field only while its name is undeclared, and then the name is declared
first. So a visitor with a budget of one for each undeclared name of a record does what the rules of
`Visits` say.
-/

namespace SchemaDecl.Generation

variable {input : Input} {scope : Scope} {task : Task} {s t : State} {steps : List Step}
  {result : Except Fault task.Result} {name : String}

theorem grows_opened (s : State) (name : String) : Grows s (s.opened name) := by
  intro other h
  rw [isDeclared_opened, h, Bool.or_true]

def Input.recordNames (input : Input) : List String :=
  input.records.filterMap fun r => (Naming.declare? input.style.lead r.uid).toOption

/-- How many names of records are undeclared. -/
def Input.pending (input : Input) (s : State) : Nat :=
  input.recordNames.countP fun name => !s.isDeclared name

/-- How many names of records are undeclared when the fields of a task are visited. -/
def Task.pending (input : Input) (s : State) : Task → Nat
  | .declare name _ _ => input.pending (s.opened name)
  | _ => input.pending s

theorem pending_le_records (input : Input) (s : State) : input.pending s ≤ input.records.length :=
  Nat.le_trans List.countP_le_length (List.length_filterMap_le _ _)

theorem Grows.pending_le (h : Grows s t) (input : Input) : input.pending t ≤ input.pending s := by
  refine List.countP_mono_left fun name _ hn => ?_
  cases hd : s.isDeclared name with
  | false => rfl
  | true => simp [h name hd] at hn

theorem pending_opened_le (input : Input) (s : State) (name : String) :
    input.pending (s.opened name) ≤ input.pending s := (grows_opened s name).pending_le input

theorem countP_opened_lt {names : List String} (hd : s.isDeclared name = false) (hm : name ∈ names) :
    names.countP (fun n => !(s.opened name).isDeclared n) < names.countP fun n => !s.isDeclared n := by
  induction names with
  | nil => cases hm
  | cons n rest ih =>
    have hle : rest.countP (fun n => !(s.opened name).isDeclared n) ≤
        rest.countP fun n => !s.isDeclared n :=
      List.countP_mono_left fun n _ hn => by simp_all
    rw [List.countP_cons, List.countP_cons, isDeclared_opened]
    by_cases hn : name = n
    · subst hn
      simp only [decide_true, Bool.true_or, Bool.not_true, Bool.false_eq_true, if_false, hd,
        Bool.not_false, if_true]
      omega
    · have hlt := ih ((List.mem_cons.1 hm).resolve_left hn)
      simp only [hn, decide_false, Bool.false_or]
      omega

theorem pending_opened_lt (hd : s.isDeclared name = false) (hm : name ∈ input.recordNames) :
    input.pending (s.opened name) < input.pending s := countP_opened_lt hd hm

theorem record?_uid {target : Json} {r : Record} (hr : input.record? target = some r) :
    r.uid = target := by
  have hb : (r.uid == target) = true := List.find?_some (p := fun r : Record => r.uid == target) hr
  exact Json.eq_of_beq hb

theorem mem_recordNames {target : Json} {r : Record} (hr : input.record? target = some r)
    (hn : Naming.declare? input.style.lead target = .ok name) : name ∈ input.recordNames := by
  refine List.mem_filterMap.2 ⟨r, List.mem_of_find?_eq_some hr, ?_⟩
  rw [record?_uid hr, hn]
  rfl

theorem declareRecord_succ (budget : Nat) (fields : List Field) (description : Json) :
    declareRecord input (budget + 1) name fields description =
      declareGlobal name description
        (visitFields input (declareRecord input budget) (.text "") fields) := rfl

/-- With a budget for the undeclared names, an origin's fields are visited with one for those that are
undeclared then. -/
theorem Origin.declare_eq {target : Json} {inline? : Option (List Field)} {origin : Origin} {budget : Nat}
    (description : Json) (hd : s.isDeclared name = false)
    (hn : Naming.declare? input.style.lead target = .ok name)
    (ho : input.origin? target inline? = some origin) (hb : input.pending s ≤ budget) :
    ∃ rest, input.pending (s.opened name) ≤ rest ∧
      origin.declare input (declareRecord input budget) name description =
        declareGlobal name description
          (visitFields input (declareRecord input rest) (.text "") origin.fields) := by
  rcases origin?_eq_some ho with ⟨fields, rfl, rfl⟩ | ⟨r, rfl, hr, -, rfl⟩
  · exact ⟨budget, Nat.le_trans (pending_opened_le input s name) hb, rfl⟩
  · have hlt := pending_opened_lt hd (mem_recordNames hr hn)
    cases budget with
    | zero => omega
    | succ rest => exact ⟨rest, by omega, declareRecord_succ rest _ _⟩

/-- A visitor does what the rules say, given a budget for the names of records that are undeclared. -/
theorem Visits.visit_eq (h : Visits input scope task s steps result t) :
    ∀ budget, task.pending input s ≤ budget →
      task.visit input (declareRecord input budget) s = (result, t) := by
  induction h with
  | fields_nil => intro budget _; rw [Task.visit, visitFields]; rfl
  | blocks_nil => intro budget _; rw [Task.visit, visitBlocks]; rfl
  | fields_fault _ ih =>
    intro budget hb
    simp only [Task.visit] at ih ⊢
    rw [visitFields]
    exact bind_of_error (ih budget hb) _
  | blocks_fault _ ih =>
    intro budget hb
    simp only [Task.visit] at ih ⊢
    rw [visitBlocks]
    exact bind_of_error (ih budget hb) _
  | @fields_cons _ _ _ _ _ _ _ _ _ result _ hf _ ih ih' =>
    intro budget hb
    simp only [Task.visit] at ih ih' ⊢
    rw [visitFields, bind_of_ok (ih budget hb), bind_apply,
      ih' budget (Nat.le_trans (hf.grows.pending_le input) hb)]
    cases result <;> rfl
  | @blocks_cons _ _ _ _ _ _ _ _ _ result _ hf _ ih ih' =>
    intro budget hb
    simp only [Task.visit] at ih ih' ⊢
    rw [visitBlocks, bind_of_ok (ih budget hb), bind_apply,
      ih' budget (Nat.le_trans (hf.grows.pending_le input) hb)]
    cases result <;> rfl
  | field_fault hu => intro budget _; exact visitField_fault hu _
  | field_unusable hu => intro budget _; exact visitField_unusable hu _
  | field_flat hu hv hr =>
    intro budget _
    rw [Task.visit, visitField_flat hu hv, bind_check_apply, hr]
  | field_group ho _ ih =>
    intro budget hb
    simp only [Task.visit] at ih ⊢
    rw [visitField_group ho, bind_check_apply, ih budget hb]
  | field_target_fault ho ht =>
    intro budget _
    rw [Task.visit, visitField_global ho, ht]
    rfl
  | field_global ho ht _ ih =>
    intro budget hb
    simp only [Task.visit] at ih ⊢
    rw [visitField_global ho, ht, check_ok, pure_bind, bind_check_apply, ih budget hb]
  | field_blocks_fault ho _ ih =>
    intro budget hb
    simp only [Task.visit] at ih ⊢
    rw [visitField_blocks ho]
    exact bind_of_error (ih budget hb) _
  | field_no_blocks ho _ ih =>
    intro budget hb
    simp only [Task.visit] at ih ⊢
    rw [visitField_blocks ho, bind_of_ok (ih budget hb), List.isEmpty_nil, if_pos rfl,
      check_apply]
  | field_union_fault ho _ hm hu ih =>
    intro budget hb
    simp only [Task.visit] at ih ⊢
    rw [visitField_blocks ho, bind_of_ok (ih budget hb), if_neg (by simpa using hm)]
    exact bind_of_error hu _
  | field_union ho _ hm hu ih =>
    intro budget hb
    simp only [Task.visit] at ih ⊢
    rw [visitField_blocks ho, bind_of_ok (ih budget hb), if_neg (by simpa using hm),
      bind_of_ok hu, check_apply]
  | block_fault hu => intro budget _; rw [Task.visit, visitBlock_fault hu]
  | block_unusable hu => intro budget _; rw [Task.visit, visitBlock_unusable hu]
  | block_inline hu ht _ ih =>
    intro budget hb
    simp only [Task.visit] at ih ⊢
    rw [visitBlock_inline hu ht, map_apply, ih budget hb]
  | block_reference hu ht _ ih =>
    intro budget hb
    simp only [Task.visit] at ih ⊢
    rw [visitBlock_reference hu ht, map_apply, ih budget hb]
  | reference_fault hn => intro budget _; exact globalReference_fault hn
  | reference_unusable hn hu => intro budget _; exact globalReference_unusable hn hu
  | reference_known hn hu hd =>
    intro budget _
    rw [Task.visit, globalReference_eq hn hu, bind_of_ok (resolveGlobal_known hd _)]
    rfl
  | reference_missing hn hu hd ho =>
    intro budget _
    rw [Task.visit, globalReference_eq hn hu, bind_of_ok (resolveGlobal_missing hd ho)]
    rfl
  | reference_fields_fault hn hu hd ho _ ih =>
    intro budget hb
    obtain ⟨rest, hrest, heq⟩ := Origin.declare_eq (input.descriptionOf _) hd hn ho hb
    simp only [Task.visit] at ih ⊢
    rw [globalReference_eq hn hu, bind_apply, resolveGlobal_eq hd ho, heq,
      bind_of_error (ih rest hrest)]
  | reference_built hn hu hd ho _ ih =>
    intro budget hb
    obtain ⟨rest, hrest, heq⟩ := Origin.declare_eq (input.descriptionOf _) hd hn ho hb
    simp only [Task.visit] at ih ⊢
    rw [globalReference_eq hn hu, bind_apply, resolveGlobal_eq hd ho, heq,
      bind_of_ok (ih rest hrest)]
    rfl
  | declare_known hd => intro budget _; exact declareGlobal_known hd
  | declare_fault hd _ ih => intro budget hb; exact declareGlobal_fault hd (ih budget hb)
  | declare_built hd _ ih => intro budget hb; exact declareGlobal_built hd (ih budget hb)

end SchemaDecl.Generation

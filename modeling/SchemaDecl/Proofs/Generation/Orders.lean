import SchemaDecl.Proofs.Generation.Accounts

/-!
# Orders of records

A pass over the records of an orderly document builds those that are reached, and notes what is noted in its
content types and in the records that it builds. So the order of the records has no influence on what is
skipped, used and declared.
-/

namespace SchemaDecl.Generation

variable {input : Input} {position : Nat} {records : List Record} {s t : State} {steps : List Step}
  {result : Except Fault (List Declaration)} {ds : List Declaration} {r r' : Record} {name : String}

theorem recordName_isOk {result : Except Fault (String × String)} (hu : ∃ uid, r.uid = .text uid)
    (hn : recordName input r s = (result, t)) : result.isOk = true := by
  obtain ⟨uid, hu⟩ := hu
  rw [recordName_text hu] at hn
  split at hn <;> cases hn <;> rfl

theorem recordName_notes {uid : String} (hn : recordName input r s = (.ok (uid, name), t)) :
    Notes s [] t := by
  have hrefl := Notes.refl s
  cases recordName_ok hn with
  | usable => exact hrefl
  | unusable => exact ⟨hrefl.fields, hrefl.blocks, hrefl.warnings, hrefl.used, hrefl.richText⟩

theorem recordName_sound {uid : String} (hs : input.Sound s)
    (hn : recordName input r s = (.ok (uid, name), t)) : input.Sound t := by
  intro other ho
  rw [State.isDeclared, recordName_globals hn] at ho
  exact hs other ho

theorem Task.bare_declare {uid : String} (hr : r ∈ input.records) (hsome : r.schema?.isSome = true)
    (hn : recordName input r s = (.ok (uid, name), t)) :
    (Task.declare name (.record r) r.description).Bare input :=
  ⟨r, hr, rfl, hsome, (recordName_goesBy hn).symm, rfl⟩

/-- What is noted in the content types among the records. -/
def Input.contentNotes (input : Input) (records : List Record) : List Note :=
  (records.filter fun r => !r.isGlobal).flatMap input.recordNotes

theorem Passes.accounts (h : Passes input position records s steps result t) (ho : input.Orderly)
    (hsub : records ⊆ input.records) (hs : input.Sound s) :
    result.isOk = true ∧ input.Sound t ∧ Accounts input (input.contentNotes records) s steps t := by
  induction h with
  | nil => exact ⟨rfl, hs, .of_notes (Notes.refl _) rfl⟩
  | name_fault hn => cases recordName_isOk (ho.uids _ (List.cons_subset.1 hsub).1) hn
  | bare hg hn _ _ ih =>
    obtain ⟨hok, hst, hacc⟩ := ih (List.cons_subset.1 hsub).2 (recordName_sound hs hn)
    have hname : Accounts input [] _ [] _ := .of_notes (recordName_notes hn) rfl
    rw [Input.contentNotes, List.filter_cons_of_neg (by simp [hg])]
    exact ⟨hok, hst, hname.append hacc⟩
  | global_fault _ hn hsome hv =>
    obtain ⟨hr, -⟩ := List.cons_subset.1 hsub
    cases (hv.accounts ho (within_declare hr _ _) (Task.bare_declare hr hsome hn)
      (recordName_sound hs hn)).1
  | global hg hn hsome hv _ ih =>
    obtain ⟨hr, hrest⟩ := List.cons_subset.1 hsub
    have hbare := Task.bare_declare hr hsome hn
    have hmid := recordName_sound hs hn
    obtain ⟨-, hdeclare⟩ := hv.accounts ho (within_declare hr _ _) hbare hmid
    obtain ⟨hok, hst, hacc⟩ := ih hrest (hv.sound ho (within_declare hr _ _) hbare hmid)
    have hname : Accounts input [] _ [] _ := .of_notes (recordName_notes hn) rfl
    rw [Input.contentNotes, List.filter_cons_of_neg (by simp [hg])]
    exact ⟨hok, hst, (hname.append hdeclare).append hacc⟩
  | contentType_fault _ hn hv =>
    have hmid := recordName_sound hs hn
    cases (hv.accounts ho (within_fields (List.cons_subset.1 hsub).1 _) trivial hmid).1
  | @contentType _ record _ _ uid name mid steps _ mid' _ _ _ hg hn hv _ ih =>
    obtain ⟨hr, hrest⟩ := List.cons_subset.1 hsub
    have hmid := recordName_sound hs hn
    obtain ⟨-, notes, hnotes, hperm⟩ := hv.accounts ho (within_fields hr _) trivial hmid
    obtain ⟨hok, hst, hacc⟩ := ih hrest (hv.sound ho (within_fields hr _) trivial hmid)
    have hname : Accounts input [] _ [] _ := .of_notes (recordName_notes hn) rfl
    have hfields : Accounts input (input.recordNotes record) mid steps (mid'.left mid) :=
      ⟨notes, ⟨hnotes.fields, hnotes.blocks, hnotes.warnings, hnotes.used, hnotes.richText⟩, hperm⟩
    rw [isOk_map, Input.contentNotes, List.filter_cons_of_pos (by simp [hg]), List.flatMap_cons]
    exact ⟨hok, hst, (hname.append hfields).append hacc⟩

/-- A global field is built from a record that is reached, under the name of that record. -/
def Input.BuiltReached (input : Input) (steps : List Step) : Prop :=
  ∀ name origin, (name, origin) ∈ built steps → ∃ r ∈ input.records, origin = .record r ∧
    r.schema?.isSome = true ∧ goesBy input.style.lead r = name ∧ input.Reached r

theorem Input.BuiltReached.append {steps' : List Step} (h : input.BuiltReached steps)
    (h' : input.BuiltReached steps') : input.BuiltReached (steps ++ steps') := by
  intro name origin hm
  rw [built_append] at hm
  exact (List.mem_append.1 hm).elim (h name origin) (h' name origin)

theorem Visits.built_reached {scope : Scope} {task : Task} {result : Except Fault task.Result}
    (h : Visits input scope task s steps result t) (ho : input.Orderly) (hw : task.Within input)
    (hb : task.Bare input) (hin : ∀ r, task.Calls input r → input.Reached r) : input.BuiltReached steps :=
  h.built_record ho hw hb (fun _ _ => .again) hin

theorem Passes.built_reached (h : Passes input position records s steps result t) (ho : input.Orderly)
    (hsub : records ⊆ input.records) : input.BuiltReached steps := by
  have hglobal : ∀ {r name description}, r ∈ input.records → r.isGlobal = true → r.schema?.isSome = true →
      ∀ r', (Task.declare name (.record r) description).Calls input r' → input.Reached r' := by
    intro r name description hr hg hsome r' hcalls
    obtain rfl := Origin.record.inj hcalls
    exact .global hr hg hsome
  induction h with
  | nil | name_fault =>
    intro name origin hm
    cases hm
  | bare _ _ _ _ ih => exact ih (List.cons_subset.1 hsub).2
  | global_fault hg hn hsome hv =>
    obtain ⟨hr, -⟩ := List.cons_subset.1 hsub
    exact hv.built_reached ho (within_declare hr _ _) (Task.bare_declare hr hsome hn) (hglobal hr hg hsome)
  | global hg hn hsome hv _ ih =>
    obtain ⟨hr, hrest⟩ := List.cons_subset.1 hsub
    have hdeclare := hv.built_reached ho (within_declare hr _ _) (Task.bare_declare hr hsome hn)
      (hglobal hr hg hsome)
    exact hdeclare.append (ih hrest)
  | contentType_fault hg _ hv =>
    obtain ⟨hr, -⟩ := List.cons_subset.1 hsub
    exact hv.built_reached ho (within_fields hr _) trivial fun _ => .contentType hr hg
  | contentType hg _ hv _ ih =>
    obtain ⟨hr, hrest⟩ := List.cons_subset.1 hsub
    exact (hv.built_reached ho (within_fields hr _) trivial fun _ => .contentType hr hg).append (ih hrest)

theorem Passes.global_declared (h : Passes input position records s steps result t) (hr : result = .ok ds) :
    ∀ r ∈ records, r.isGlobal = true → r.schema?.isSome = true →
      t.isDeclared (goesBy input.style.lead r) = true := by
  induction h generalizing ds with
  | nil => simp
  | name_fault | global_fault | contentType_fault => cases hr
  | bare _ _ hnone _ ih =>
    refine List.forall_mem_cons.2 ⟨fun _ hsome => ?_, ih hr⟩
    rw [hnone] at hsome
    cases hsome
  | global _ hn _ hv hp ih =>
    refine List.forall_mem_cons.2 ⟨fun _ _ => ?_, ih hr⟩
    rw [← recordName_goesBy hn]
    exact hp.adds.isDeclared_iff.2 (.inl (hv.declared rfl))
  | contentType hg _ _ _ ih =>
    obtain ⟨rest, rfl, -⟩ := ok_of_map hr
    refine List.forall_mem_cons.2 ⟨fun hglobal => ?_, ih rfl⟩
    rw [hg] at hglobal
    cases hglobal

theorem Passes.used_declared (h : Passes input position records s steps result t) (hr : result = .ok ds)
    (hs : s.dependencies.globalFields = []) (hn : name ∈ t.dependencies.globalFields) :
    t.isDeclared name = true := by
  have hres := h.resolves hr
  rw [← hres.referred, hs, Dependencies.mem_foldl_withName] at hn
  have hmem := encounters_of_referral (hn.resolve_left (by simp))
  rw [isDeclared_iff, ← hres.encountered]
  exact Dependencies.mem_foldl_withName.2 (.inr hmem)

theorem Input.Reached.mem (h : input.Reached r) : r ∈ input.records := by
  cases h with
  | global hr => exact hr
  | contentType _ _ hcalls => exact hcalls.1
  | again _ hcalls => exact hcalls.1

theorem sound_start (hs : start input = .ok s) : input.Sound s := by
  obtain ⟨richTextUsed, rfl⟩ := start_eq hs
  intro name hn
  cases hn

/-- A record that goes by a name is declared if the name is used. -/
theorem Input.Calls.declared {notes : List Note} (hcalls : input.Calls notes r) (ho : input.Orderly)
    (hst : input.Sound t) (hused : ∀ name, .use .globalFields name ∈ notes → t.isDeclared name = true) :
    t.isDeclared (goesBy input.style.lead r) = true := by
  obtain ⟨hr, -, uid, huid, hn⟩ := hcalls
  have hdeclared := hused _ hn
  obtain ⟨r', hr', -, hname⟩ := hst _ hdeclared
  have hsame : r' = r :=
    ho.eq_of_uid hr' hr ((ho.uid_eq_of_goesBy hr' (mem_named hr huid) hname).trans huid.symm)
  rw [← hsame, hname]
  exact hdeclared

theorem exists_built (hn : name ∈ builds steps) : ∃ origin, (name, origin) ∈ built steps := by
  rw [builds_eq_map_built] at hn
  obtain ⟨⟨_, origin⟩, hm, rfl⟩ := List.mem_map.1 hn
  exact ⟨origin, hm⟩

theorem Passes.builds_names (h : Passes input position records s steps result t)
    (hs : start input = .ok s) : Table.names t.globals = builds steps := by
  obtain ⟨richTextUsed, rfl⟩ := start_eq hs
  exact h.adds.names

theorem Passes.built_of_declared (h : Passes input 0 input.records s steps result t) (ho : input.Orderly)
    (hs : start input = .ok s) (hr : r ∈ input.records)
    (hd : t.isDeclared (goesBy input.style.lead r) = true) :
    (goesBy input.style.lead r, .record r) ∈ built steps := by
  rw [isDeclared_iff, h.builds_names hs] at hd
  obtain ⟨origin, hm⟩ := exists_built hd
  obtain ⟨r', hr', rfl, -, hname, -⟩ := h.built_reached ho (List.Subset.refl _) _ _ hm
  rwa [ho.goesBy_injective hr' hr hname] at hm

theorem Input.Reached.declared (hreached : input.Reached r) (ho : input.Orderly) (hs : start input = .ok s)
    (h : Passes input 0 input.records s steps (.ok ds) t) :
    t.isDeclared (goesBy input.style.lead r) = true := by
  obtain ⟨-, hst, notes, hnotes, hperm⟩ := h.accounts ho (List.Subset.refl _) (sound_start hs)
  have hused : ∀ name, .use .globalFields name ∈ input.contentNotes input.records ++ builtNotes input steps →
      t.isDeclared name = true := by
    intro name hn
    have hempty : s.dependencies.globalFields = [] := by
      obtain ⟨richTextUsed, rfl⟩ := start_eq hs
      rfl
    exact h.used_declared rfl hempty ((hnotes.used .globalFields name).2 (.inr (hperm.mem_iff.2 hn)))
  induction hreached with
  | global hr hg hsome => exact h.global_declared rfl _ hr hg hsome
  | contentType hr hg hcalls =>
    refine hcalls.declared ho hst fun name hn => hused name (List.mem_append_left _ ?_)
    exact List.mem_flatMap.2 ⟨_, List.mem_filter.2 ⟨hr, by simp [hg]⟩, hn⟩
  | again hr hcalls ih =>
    have hm := h.built_of_declared ho hs hr.mem ih
    refine hcalls.declared ho hst fun name hn => hused name (List.mem_append_right _ ?_)
    exact List.mem_flatMap.2 ⟨_, hm, hn⟩

/-- A pass builds the records that are reached, each under its name. -/
theorem Passes.mem_built_iff (h : Passes input 0 input.records s steps (.ok ds) t) (ho : input.Orderly)
    (hs : start input = .ok s) (entry : String × Origin) :
    entry ∈ built steps ↔ ∃ r, input.Reached r ∧ entry = (goesBy input.style.lead r, .record r) := by
  constructor
  · intro hm
    obtain ⟨name, origin⟩ := entry
    obtain ⟨r, -, rfl, -, rfl, hreached⟩ := h.built_reached ho (List.Subset.refl _) _ _ hm
    exact ⟨r, hreached, rfl⟩
  · rintro ⟨r, hreached, rfl⟩
    exact h.built_of_declared ho hs hreached.mem (hreached.declared ho hs h)

theorem Passes.built_nodup (h : Passes input position records s steps result t) : (built steps).Nodup := by
  have hnodup := h.adds.nodup
  rw [builds_eq_map_built] at hnodup
  exact hnodup.of_map _

def Input.ordered (input : Input) (records : List Record) : Input := ⟨input.style, records⟩

section Reorder

variable (hperm : input.records.Perm records)

include hperm

theorem parts_perm : input.parts.Perm (input.ordered records).parts := hperm.flatMap_right _

theorem mem_parts_iff (part : Part) : part ∈ (input.ordered records).parts ↔ part ∈ input.parts :=
  (parts_perm hperm).mem_iff.symm

theorem mem_named_iff (target : Json) : target ∈ (input.ordered records).named ↔ target ∈ input.named :=
  ((hperm.map _).append ((parts_perm hperm).filterMap _)).mem_iff.symm

theorem Input.Orderly.reorder (ho : input.Orderly) : (input.ordered records).Orderly where
  wellTyped part hp := ho.wellTyped part ((mem_parts_iff hperm part).1 hp)
  uids r hr := ho.uids r (hperm.mem_iff.2 hr)
  distinct := (hperm.map _).nodup_iff.1 ho.distinct
  injective a b ha hb := ho.injective a b ((mem_named_iff hperm _).1 ha) ((mem_named_iff hperm _).1 hb)
  bare part hp := ho.bare part ((mem_parts_iff hperm part).1 hp)

theorem resolves_reorder (ho : input.Orderly) : (input.ordered records).resolves = input.resolves := by
  funext target
  rw [Bool.eq_iff_iff, (ho.reorder hperm).resolves_iff, ho.resolves_iff]
  refine exists_congr fun r => and_congr_left fun _ => ?_
  exact hperm.mem_iff.symm

theorem calls_reorder (notes : List Note) (r : Record) :
    (input.ordered records).Calls notes r ↔ input.Calls notes r :=
  and_congr_left fun _ => hperm.mem_iff.symm

theorem recordNotes_reorder (ho : input.Orderly) (r : Record) :
    (input.ordered records).recordNotes r = input.recordNotes r := by
  rw [Input.recordNotes, Input.recordNotes, resolves_reorder hperm ho]
  rfl

theorem Input.Reached.reorder (ho : input.Orderly) (h : input.Reached r) :
    (input.ordered records).Reached r := by
  induction h with
  | global hr hg hsome => exact .global (hperm.mem_iff.1 hr) hg hsome
  | @contentType r _ hr hg hcalls =>
    refine .contentType (hperm.mem_iff.1 hr) hg ((calls_reorder hperm _ _).2 ?_)
    rwa [recordNotes_reorder hperm ho]
  | again _ hcalls ih =>
    refine .again ih ((calls_reorder hperm _ _).2 ?_)
    rwa [recordNotes_reorder hperm ho]

end Reorder

end SchemaDecl.Generation

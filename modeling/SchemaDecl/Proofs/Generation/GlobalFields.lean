import SchemaDecl.Generation.Result
import SchemaDecl.Proofs.Declaration.Texts
import SchemaDecl.Proofs.Generation.Pass

/-!
# Global fields are complete

While a global field is being built, its name is given out before there is a declaration. At the end of a
visit that came through, every global field that it built has one, so a name that was given out is never
left without a declaration.
-/

namespace SchemaDecl.Generation

variable {input : Input} {scope : Scope} {s t u : State} {steps steps' : List Step} {name : String}

/-- The declaration has the members that a visit of the fields gives, and the unions that are new in it. -/
def BuiltFrom (input : Input) (scope : Scope) (fields : List Field) (d : Declaration) : Prop :=
  ∃ s steps t, s.scope = [] ∧
    Visits input scope (.fields (.text "") fields) s steps (.ok d.main.members) t ∧ t.scope = d.unions

def entryOf (d : Declaration) : String × Option Declaration := (d.main.name, some d)

/-- Between two states the global fields that the steps build are completed, and those are tracked whose
names the steps give out. -/
structure Resolves (input : Input) (s : State) (steps : List Step) (t : State) : Prop where
  complete : ∃ ds : List Declaration, t.globals = s.globals ++ ds.map entryOf ∧
    ∀ d ∈ ds, ∃ origin, .build d.main.name origin ∈ steps ∧
      BuiltFrom input (.globalField d.main.name) origin.fields d
  encountered : (encounters steps).foldl Dependencies.withName (Table.names s.globals) =
    Table.names t.globals
  referred : (referrals steps).foldl Dependencies.withName s.dependencies.globalFields =
    t.dependencies.globalFields

theorem Resolves.of_eq (hg : t.globals = s.globals)
    (hr : t.dependencies.globalFields = s.dependencies.globalFields) : Resolves input s [] t :=
  ⟨⟨[], by simp [hg], by simp⟩, by rw [hg]; rfl, hr.symm⟩

theorem Resolves.append (h : Resolves input s steps t) (h' : Resolves input t steps' u) :
    Resolves input s (steps ++ steps') u := by
  obtain ⟨ds, hds, hbuilt⟩ := h.complete
  obtain ⟨ds', hds', hbuilt'⟩ := h'.complete
  refine ⟨⟨ds ++ ds', ?_, ?_⟩, ?_, ?_⟩
  · rw [hds', hds, List.map_append, List.append_assoc]
  · intro d hd
    rcases List.mem_append.1 hd with hd | hd
    · obtain ⟨origin, hb, hf⟩ := hbuilt d hd
      exact ⟨origin, List.mem_append_left _ hb, hf⟩
    · obtain ⟨origin, hb, hf⟩ := hbuilt' d hd
      exact ⟨origin, List.mem_append_right _ hb, hf⟩
  · rw [encounters, List.filterMap_append, List.foldl_append, ← encounters, ← encounters,
      h.encountered, h'.encountered]
  · rw [referrals, List.filterMap_append, List.foldl_append, ← referrals, ← referrals,
      h.referred, h'.referred]

theorem withName_of_mem {names : List String} (h : name ∈ names) :
    Dependencies.withName names name = names := if_pos h

theorem withName_of_not_mem {names : List String} (h : name ∉ names) :
    Dependencies.withName names name = names ++ [name] := if_neg h

theorem Resolves.refer (h : s.isDeclared name = true) :
    Resolves input s [.refer name] (s.referred name) :=
  ⟨⟨[], by simp [State.referred], by simp⟩, withName_of_mem (isDeclared_iff.1 h), rfl⟩

theorem Resolves.union {style : Style} {uid : Json} {blocks : Blocks}
    (h : unionName style uid blocks s = (.ok name, t)) :
    Resolves input s [.union scope blocks name] t := by
  have hg := unionName_globals h
  have hr : t.dependencies.globalFields = s.dependencies.globalFields := by
    obtain rfl | ⟨base, rfl⟩ := unionName_joins h <;> rfl
  exact ⟨⟨[], by simp [hg], by simp⟩, by rw [hg]; rfl, hr.symm⟩

theorem Resolves.built {origin : Origin} {description : Json} {members : List Member}
    (hd : s.isDeclared name = false)
    (hv : Visits input (.globalField name) (.fields (.text "") origin.fields) (s.opened name) steps
      (.ok members) t)
    (h : Resolves input (s.opened name) steps t) :
    Resolves input s (.build name origin :: steps)
      (t.closed s.scope name ⟨t.scope, ⟨name, description, false, members⟩⟩) := by
  have hfresh := isDeclared_eq_false_iff.1 hd
  have hopened : (s.opened name).globals = s.globals ++ [(name, none)] := Table.put_of_not_mem hfresh _
  obtain ⟨ds, hds, hbuilt⟩ := h.complete
  refine ⟨⟨⟨t.scope, ⟨name, description, false, members⟩⟩ :: ds, ?_, ?_⟩, ?_, h.referred⟩
  · rw [State.closed, hds, hopened, List.append_assoc, Table.put_append_of_not_mem hfresh]
    simp [Table.put, entryOf]
  · refine List.forall_mem_cons.2 ⟨⟨origin, List.mem_cons_self, ?_⟩, fun d hd => ?_⟩
    · exact ⟨s.opened name, steps, t, rfl, hv, rfl⟩
    · obtain ⟨o, hb, hf⟩ := hbuilt d hd
      exact ⟨o, List.mem_cons_of_mem _ hb, hf⟩
  · have hclosed : t.isDeclared name = true := by
      rw [isDeclared_iff, hds, hopened]
      simp [Table.names]
    have hfirst : encounters (.build name origin :: steps) = name :: encounters steps := rfl
    rw [names_closed hclosed, ← h.encountered, names_opened hd, hfirst, List.foldl_cons,
      withName_of_not_mem hfresh]

/-- A visit that comes through completes all that it builds. -/
theorem Trace.resolves {whole : Bool} (h : Trace input scope s steps whole t) (hw : whole = true) :
    Resolves input s steps t := by
  induction h with
  | quiet hk => exact .of_eq hk.globals hk.referred
  | stopped | fault => cases hw
  | append _ _ ih ih' => exact (ih rfl).append (ih' hw)
  | refer hd => exact .refer hd
  | union _ hu => exact .union hu
  | built hd hv _ ih => exact .built hd hv (ih rfl)

theorem Passes.resolves {position : Nat} {records : List Record} {result : Except Fault (List Declaration)}
    (h : Passes input position records s steps result t) {declarations : List Declaration}
    (hr : result = .ok declarations) : Resolves input s steps t := by
  have hname : ∀ {record s uid name t}, recordName input record s = (.ok (uid, name), t) →
      Resolves input s [] t := by
    intro record s uid name t hn
    cases recordName_ok hn <;> exact .of_eq rfl rfl
  induction h generalizing declarations with
  | nil => exact .of_eq rfl rfl
  | name_fault | global_fault | contentType_fault => cases hr
  | bare _ hn _ _ ih => exact (hname hn).append (ih hr)
  | global _ hn _ hv _ ih => exact ((hname hn).append (hv.trace.resolves rfl)).append (ih hr)
  | @contentType _ _ _ _ uid name mid _ _ mid' _ _ _ _ hn hv _ ih =>
    obtain ⟨rest, rfl, -⟩ := ok_of_map hr
    have henter : Resolves input mid [] (mid.entered name uid) := .of_eq rfl rfl
    have hleave : Resolves input mid' [] (mid'.left mid) := .of_eq rfl rfl
    exact (((hname hn).append henter).append (hv.trace.resolves rfl)).append (hleave.append (ih rfl))

theorem start_ok (h : start input = .ok s) :
    ∃ richTextUsed, recordsRichText input.records = .ok richTextUsed ∧ s = { richTextUsed } := by
  unfold start at h
  cases hk : input.records.mapM fun r => asKey r.uid with
  | error e => rw [hk] at h; cases h
  | ok keys =>
    rw [hk] at h
    cases hr : recordsRichText input.records with
    | error e => rw [hr] at h; cases h
    | ok richText =>
      rw [hr] at h
      exact ⟨richText, rfl, (Except.ok.inj h).symm⟩

theorem start_eq (h : start input = .ok s) : ∃ richTextUsed, s = { richTextUsed } := by
  obtain ⟨richTextUsed, -, hs⟩ := start_ok h
  exact ⟨richTextUsed, hs⟩

theorem start_richText (h : start input = .ok s) : recordsRichText input.records = .ok s.richTextUsed := by
  obtain ⟨richTextUsed, hr, rfl⟩ := start_ok h
  exact hr

theorem declared_of_entries {ds : List Declaration} (h : s.globals = ds.map entryOf) :
    s.declared = ds.map fun d => (d.main.name, d) := by
  rw [State.declared, h]
  clear h
  induction ds with
  | nil => rfl
  | cons d rest ih => exact congrArg ((d.main.name, d) :: ·) ih

theorem names_of_entries {ds : List Declaration} (h : s.globals = ds.map entryOf) :
    Table.names s.globals = ds.map fun d => d.main.name := by
  rw [h, Table.names, List.map_map]
  rfl

theorem get?_entries {ds : List Declaration} (h : name ∈ ds.map fun d => d.main.name) :
    ∃ d, Table.get? name (ds.map entryOf) = some (some d) ∧ d.main.name = name := by
  induction ds with
  | nil => cases h
  | cons d rest ih =>
    by_cases hd : d.main.name = name
    · exact ⟨d, if_pos hd, hd⟩
    · have hrest : name ∈ rest.map fun d => d.main.name := (List.mem_cons.1 h).resolve_left (Ne.symm hd)
      obtain ⟨d', hget, hname⟩ := ih hrest
      refine ⟨d', ?_, hname⟩
      rw [← hget]
      exact if_neg hd

/-- A reference that has a type has the name of its target as one, and a step that gives it out. -/
theorem Visits.referred {place : SkipPlace} {uid path target : Json} {inline? : Option (List Field)}
    {result : Except Fault (Option TypeExpr)} {type : TypeExpr}
    (h : Visits input scope (.reference place uid path target inline?) s steps result t)
    (hr : result = .ok (some type)) :
    ∃ name, Naming.declare? input.style.lead target = .ok name ∧ type = .declared name ∧
      name ∈ referrals steps := by
  cases h with
  | reference_fault | reference_unusable | reference_missing | reference_fields_fault => cases hr
  | reference_known hn =>
    cases hr
    exact ⟨_, hn, rfl, List.mem_singleton_self _⟩
  | reference_built hn =>
    cases hr
    refine ⟨_, hn, rfl, ?_⟩
    rw [referrals, List.filterMap_append]
    exact List.mem_append_right _ (List.mem_singleton_self _)

theorem encounters_of_referral (h : name ∈ referrals steps) : name ∈ encounters steps := by
  obtain ⟨step, hstep, hn⟩ := List.mem_filterMap.1 h
  refine List.mem_filterMap.2 ⟨step, hstep, ?_⟩
  cases step with
  | refer => exact hn
  | build | union => cases hn

theorem Passes.unique {steps' : List Step} {position : Nat} {records : List Record}
    {result result' : Except Fault (List Declaration)} (h : Passes input position records s steps result t)
    (h' : Passes input position records s steps' result' u) : result = result' ∧ t = u := by
  have heq := h.visit_eq.symm.trans h'.visit_eq
  exact ⟨congrArg Prod.fst heq, congrArg Prod.snd heq⟩

/-- The global fields at the end of a run are those of its output, and each is built from its origin. -/
theorem run_built {o : Output} {result : Except Fault (List Declaration)} (hs : start input = .ok s)
    (hr : runFrom input s = (.ok o, t)) (hp : Passes input 0 input.records s steps result u) :
    t.globals = o.globals.map entryOf ∧ ∀ d ∈ o.globals, ∃ origin, .build d.main.name origin ∈ steps ∧
      BuiltFrom input (.globalField d.main.name) origin.fields d := by
  obtain ⟨steps₀, u₀, hp₀, -, ht, ho⟩ := runFrom_ok hr
  obtain ⟨rfl, rfl⟩ := hp.unique hp₀
  obtain ⟨richTextUsed, rfl⟩ := start_eq hs
  obtain ⟨ds, hds, hbuilt⟩ := (hp.resolves rfl).complete
  have hentries : t.globals = ds.map entryOf := by
    rw [ht]
    exact hds
  have houtput : o.globals = ds := by
    rw [ho, State.output, declared_of_entries hentries, List.map_map]
    exact List.map_id ds
  rw [houtput]
  exact ⟨hentries, hbuilt⟩

/-- In a run that gives an output, every name of a global field that was given out as a type, be it while
the global field was still being built, has a declaration with a text at the end. Each global field is
built once, none is left without a declaration, and the output holds each of them once, in the order in
which their names were come across. All names that are noted as used have a definition. -/
theorem run_completes_globals {o : Output} (hs : start input = .ok s) (hr : runFrom input s = (.ok o, t)) :
    (∃ steps u, Passes input 0 input.records s steps (.ok o.contentTypes) u) ∧
      ∀ steps result u, Passes input 0 input.records s steps result u →
        (∀ name ∈ referrals steps, ∃ d, Table.get? name t.globals = some (some d) ∧ d.main.name = name ∧
          d.text input.style ≠ "") ∧
        (builds steps).Nodup ∧
        (∀ entry ∈ t.globals, entry.2.isSome = true) ∧
        t.globals = o.globals.map entryOf ∧
        o.globals.map (fun d => d.main.name) = distinct (encounters steps) ∧
        distinct (encounters steps) = builds steps ∧
        (t.metadata input.style).definitions =
          o.globals.map (fun d => (d.main.name, d.text input.style)) ∧
        o.parts input.style = o.prelude ++ (t.metadata input.style).definitions.map Prod.snd ++
          o.contentTypes.map (fun d => d.text input.style) ∧
        ∀ name ∈ (t.metadata input.style).globalFields,
          name ∈ Table.names (t.metadata input.style).definitions := by
  obtain ⟨steps₀, u₀, hp₀, -, ht, -⟩ := runFrom_ok hr
  refine ⟨⟨steps₀, u₀, hp₀⟩, fun steps result u hp => ?_⟩
  obtain ⟨rfl, rfl⟩ := hp.unique hp₀
  obtain ⟨hentries, -⟩ := run_built hs hr hp
  obtain ⟨richTextUsed, rfl⟩ := start_eq hs
  have hres := hp.resolves rfl
  have hnames : Table.names u.globals = o.globals.map fun d => d.main.name := by
    rw [← names_of_entries hentries, ht]
    rfl
  have hencounters : distinct (encounters steps) = o.globals.map fun d => d.main.name :=
    hres.encountered.trans hnames
  have hbuilds : builds steps = o.globals.map fun d => d.main.name := hp.adds.names.symm.trans hnames
  have hreferred : ∀ name ∈ referrals steps, name ∈ o.globals.map fun d => d.main.name := by
    intro name hn
    rw [← hencounters]
    exact Dependencies.mem_foldl_withName.2 (.inr (encounters_of_referral hn))
  have hdefinitions : (t.metadata input.style).definitions =
      o.globals.map fun d => (d.main.name, d.text input.style) := by
    simp [State.metadata, declared_of_entries hentries]
  refine ⟨fun name hn => ?_, hp.adds.nodup, ?_, hentries, hencounters.symm, ?_, hdefinitions, ?_, ?_⟩
  · obtain ⟨d, hget, hname⟩ := get?_entries (hreferred name hn)
    exact ⟨d, by rw [hentries, hget], hname, d.text_ne_empty input.style⟩
  · rw [hentries]
    simp [entryOf]
  · rw [hencounters, hbuilds]
  · rw [hdefinitions, List.map_map]
    rfl
  · intro name hn
    have hmem : name ∈ t.dependencies.globalFields := Text.mem_sorted.1 hn
    rw [ht, State.summarize, ← hres.referred, Dependencies.mem_foldl_withName] at hmem
    rw [hdefinitions, Table.names, List.map_map]
    exact hreferred name (hmem.resolve_left (by simp))

def selfReference : Input :=
  let seo : Field := ⟨{ uid := .text "seo", kind := .globalField, tag := "global_field" }, none, []⟩
  ⟨{}, [⟨.text "page", .null, .null, some [seo], false⟩, ⟨.text "seo", .null, .null, some [seo], true⟩]⟩

theorem run_completes_selfReference :
    start selfReference = .ok {} ∧
      ∃ o t steps, runFrom selfReference {} = (.ok o, t) ∧ (builds steps).Nodup ∧
        (∀ entry ∈ t.globals, entry.2.isSome = true) ∧
        o.globals.map (fun d => d.main.name) = distinct (encounters steps) := by
  have hstart : start selfReference = .ok {} := by rfl
  have hok : (runFrom selfReference {}).1.isOk = true := by decide +kernel
  rcases hr : runFrom selfReference {} with ⟨e | o, t⟩
  · rw [hr] at hok
    cases hok
  · obtain ⟨⟨steps, u, hp⟩, hall⟩ := run_completes_globals hstart hr
    obtain ⟨-, hnodup, hcomplete, -, horder, -⟩ := hall steps _ u hp
    exact ⟨hstart, o, t, steps, rfl, hnodup, hcomplete, horder⟩

end SchemaDecl.Generation

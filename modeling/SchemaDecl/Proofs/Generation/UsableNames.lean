import SchemaDecl.Proofs.Generation.Declarations
import SchemaDecl.Proofs.Generation.Parts
import SchemaDecl.Proofs.Naming.Heads

/-!
# Usable names

A pass gives code only if no record has a name that begins with a digit, and a reference to such a name
builds nothing. So no content type and no global field of an output has one. The name of a union is made
from the uid of a field of blocks.
-/

namespace SchemaDecl.Generation

variable {input : Input} {scope : Scope} {task : Task} {s t u : State} {steps : List Step}
  {result : Except Fault task.Result} {name : String}

/-- Every name that is built is usable, save that of the task itself. -/
def BuildsUsable (task : Task) (steps : List Step) : Prop :=
  ∀ name ∈ builds steps, Naming.isUsableName name = true ∨
    ∃ origin description, task = .declare name origin description

theorem BuildsUsable.lift {child : Task} (h : BuildsUsable child steps)
    (hchild : ∀ name origin description, child ≠ .declare name origin description) :
    BuildsUsable task steps := by
  intro name hn
  rcases h name hn with hu | ⟨origin, description, hc⟩
  · exact .inl hu
  · exact absurd hc (hchild _ _ _)

theorem BuildsUsable.append {steps' : List Step} (h : BuildsUsable task steps)
    (h' : BuildsUsable task steps') : BuildsUsable task (steps ++ steps') := by
  intro name hn
  rw [builds_append] at hn
  exact (List.mem_append.1 hn).elim (h name) (h' name)

theorem BuildsUsable.lift_declare {origin : Origin} {description : Json}
    (h : BuildsUsable (.declare name origin description) steps)
    (hu : Naming.isUsableName name = true) : BuildsUsable task steps := by
  intro other hn
  rcases h other hn with hother | ⟨_, _, hc⟩
  · exact .inl hother
  · cases hc
    exact .inl hu

theorem BuildsUsable.of_builds_eq_nil (h : builds steps = []) : BuildsUsable task steps := by
  intro name hn
  rw [h] at hn
  cases hn

theorem Visits.builds_usable (h : Visits input scope task s steps result t) : BuildsUsable task steps := by
  induction h with
  | fields_fault _ ih | blocks_fault _ ih => exact ih.lift (by simp)
  | fields_cons _ _ ih ih' | blocks_cons _ _ ih ih' => exact (ih.lift (by simp)).append (ih'.lift (by simp))
  | field_group _ _ ih | field_global _ _ _ ih | field_blocks_fault _ _ ih | field_no_blocks _ _ ih =>
    exact ih.lift (by simp)
  | field_union_fault _ _ _ _ ih => exact ih.lift (by simp)
  | field_union _ _ _ _ ih => exact (ih.lift (by simp)).append (.of_builds_eq_nil rfl)
  | block_inline _ _ _ ih | block_reference _ _ _ ih => exact ih.lift (by simp)
  | reference_fields_fault _ hu _ _ _ ih => exact ih.lift_declare hu
  | reference_built _ hu _ _ _ ih => exact (ih.lift_declare hu).append (.of_builds_eq_nil rfl)
  | @declare_fault _ name origin description _ steps _ _ _ _ ih
  | @declare_built _ name origin description _ steps _ _ _ _ ih =>
    intro other hn
    rcases List.mem_cons.1 hn with rfl | hn
    · exact .inr ⟨origin, description, rfl⟩
    · exact .inl ((ih other hn).resolve_right (by simp))
  | _ => exact .of_builds_eq_nil rfl

variable {position : Nat} {records : List Record} {ends : Except Fault (List Declaration)}
  {ds : List Declaration}

theorem Passes.builds_usable (h : Passes input position records s steps ends t) (hr : ends = .ok ds)
    (ht : t.unusable = []) : ∀ name ∈ builds steps, Naming.isUsableName name = true := by
  induction h generalizing ds with
  | nil => simp [builds]
  | name_fault | global_fault | contentType_fault => cases hr
  | bare _ _ _ _ ih => exact ih hr ht
  | global _ hn _ hv hp ih =>
    have hmid := hv.trace.unusable.symm.trans (hp.unusable_eq_nil ht)
    obtain ⟨-, -, hname⟩ := recordName_usable hn hmid
    intro name hb
    rw [builds_append] at hb
    rcases List.mem_append.1 hb with hb | hb
    · rcases hv.builds_usable name hb with hu | ⟨_, _, hc⟩
      · exact hu
      · cases hc
        exact hname
    · exact ih hr ht name hb
  | contentType _ _ hv _ ih =>
    obtain ⟨rest, rfl, -⟩ := ok_of_map hr
    intro name hb
    rw [builds_append] at hb
    rcases List.mem_append.1 hb with hb | hb
    · exact (hv.builds_usable name hb).resolve_right (by simp)
    · exact ih rfl ht name hb

/-- The name is made from the uid of a field of blocks that has a usable uid. -/
def Input.NamesUnion (input : Input) (name : String) : Prop :=
  ∃ field uid, .field field ∈ input.parts ∧ Opens field.attrs .blocks ∧ field.attrs.uid = .text uid ∧
    Naming.Extends (Naming.declare input.style.lead uid) name

def NamesUnions (input : Input) (s t : State) : Prop :=
  ∀ name ∈ t.unionNames, name ∈ s.unionNames ∨ input.NamesUnion name

theorem NamesUnions.of_eq (h : t.unions = s.unions) : NamesUnions input s t := by
  intro name hn
  rw [State.unionNames, h] at hn
  exact .inl hn

theorem NamesUnions.trans (h : NamesUnions input s t) (h' : NamesUnions input t u) :
    NamesUnions input s u := by
  intro name hn
  rcases h' name hn with hn | hn
  · exact h name hn
  · exact .inr hn

theorem NamesUnions.union {field : Field} {blocks : Blocks} (hf : .field field ∈ input.parts)
    (ho : Opens field.attrs .blocks)
    (h : unionName input.style field.attrs.uid blocks s = (.ok name, t)) : NamesUnions input s t := by
  rcases (unionName_ok h).2 with ⟨-, rfl⟩ | ⟨-, base, hbase, -, rfl⟩
  · exact .of_eq rfl
  · obtain ⟨uid, huid, rfl⟩ := Naming.declare?_ok hbase
    intro other hn
    have hunions : other ∈ s.unionNames ++
        [(Naming.unique (Naming.declare input.style.lead uid) s.unionNames s.counter).1] := by
      rw [State.unionNames, State.joined] at hn
      rwa [List.map_append] at hn
    rcases List.mem_append.1 hunions with hn | hn
    · exact .inl hn
    · rw [List.mem_singleton] at hn
      subst hn
      exact .inr ⟨field, uid, hf, ho, huid, Naming.unique_extends _ _ _⟩

theorem Visits.names_unions (h : Visits input scope task s steps result t) (hw : task.Within input) :
    NamesUnions input s t := by
  induction h with
  | fields_fault _ ih => exact ih hw.head
  | fields_cons _ _ ih ih' => exact (ih hw.head).trans (ih' hw.tail)
  | blocks_fault _ ih => exact ih hw.head_block
  | blocks_cons _ _ ih ih' => exact (ih hw.head_block).trans (ih' hw.tail_block)
  | field_unusable | block_unusable | reference_missing =>
    exact .of_eq ((quiet_skip _ _ _ _).keeps _).unions
  | reference_unusable => exact .of_eq ((quiet_refuseReference _ _ _ _).keeps _).unions
  | @field_flat _ _ _ _ _ s _ _ _ _ hv hr =>
    have hk := (quiet_flatType hv).keeps s
    rw [hr] at hk
    exact .of_eq hk.unions
  | field_group _ _ ih => exact ih (hw.group _)
  | field_global _ _ _ ih => exact ih (hw.global _ _ _ _)
  | field_blocks_fault _ _ ih | field_no_blocks _ _ ih => exact ih (hw.inner_blocks _)
  | field_union_fault _ _ _ hu ih =>
    rw [(unionName_fault hu).1]
    exact ih (hw.inner_blocks _)
  | field_union ho _ _ hu ih => exact (ih (hw.inner_blocks _)).trans (.union hw.mem_field ho hu)
  | block_inline _ _ _ ih => exact ih (hw.inline _)
  | block_reference _ _ _ ih => exact ih (hw.reference _ _)
  | reference_fields_fault _ _ _ ho _ ih | reference_built _ _ _ ho _ ih => exact ih (hw.origin ho _ _)
  | declare_fault _ _ ih | declare_built _ _ ih => exact ih (hw.origin_fields _)
  | _ => exact .of_eq rfl

theorem recordName_unions {record : Record} {uid : String}
    (h : recordName input record s = (.ok (uid, name), t)) : t.unions = s.unions := by
  cases recordName_ok h <;> rfl

theorem Passes.names_unions (h : Passes input position records s steps ends t)
    (hsub : records ⊆ input.records) : NamesUnions input s t := by
  induction h with
  | nil => exact .of_eq rfl
  | name_fault hn => exact .of_eq (congrArg State.unions (recordName_fault hn).1)
  | bare _ hn _ _ ih => exact (NamesUnions.of_eq (recordName_unions hn)).trans (ih (List.cons_subset.1 hsub).2)
  | global_fault _ hn _ hv =>
    have hr := (List.cons_subset.1 hsub).1
    exact (NamesUnions.of_eq (recordName_unions hn)).trans (hv.names_unions (within_declare hr _ _))
  | global _ hn _ hv _ ih =>
    obtain ⟨hr, hrest⟩ := List.cons_subset.1 hsub
    have hmid := (NamesUnions.of_eq (recordName_unions hn)).trans (hv.names_unions (within_declare hr _ _))
    exact hmid.trans (ih hrest)
  | contentType_fault _ hn hv =>
    have hr := (List.cons_subset.1 hsub).1
    exact (NamesUnions.of_eq (recordName_unions hn)).trans (hv.names_unions (within_fields hr _))
  | contentType _ hn hv _ ih =>
    obtain ⟨hr, hrest⟩ := List.cons_subset.1 hsub
    have hmid := (NamesUnions.of_eq (recordName_unions hn)).trans (hv.names_unions (within_fields hr _))
    exact hmid.trans (ih hrest)

/-- What is kept of a record whose name begins with a digit. -/
def unusable? (lead : String) (record : Record) : Option UnusableName :=
  match record.uid with
  | .text uid =>
    if Naming.isUsableName (Naming.declare lead uid) then none
    else some ⟨uid, record.isGlobal, Naming.declare lead uid⟩
  | _ => none

/-- The records whose names begin with a digit, in order. -/
def Input.unusable (input : Input) : List UnusableName :=
  input.records.filterMap (unusable? input.style.lead)

theorem recordName_unusable {record : Record} {uid : String}
    (h : recordName input record s = (.ok (uid, name), t)) :
    t.unusable = s.unusable ++ (unusable? input.style.lead record).toList := by
  cases recordName_ok h with
  | usable huid hu => simp [unusable?, huid, hu]
  | unusable huid hu => simp [unusable?, huid, hu]

theorem filterMap_cons_toList {α β : Type} (f : α → Option β) (a : α) (rest : List α) :
    (a :: rest).filterMap f = (f a).toList ++ rest.filterMap f := by
  rw [List.filterMap_cons]
  cases f a <;> rfl

theorem Passes.unusable_eq (h : Passes input position records s steps ends t) (hr : ends = .ok ds) :
    t.unusable = s.unusable ++ records.filterMap (unusable? input.style.lead) := by
  induction h generalizing ds with
  | nil => simp
  | name_fault | global_fault | contentType_fault => cases hr
  | bare _ hn _ _ ih =>
    rw [ih hr, recordName_unusable hn, List.append_assoc, ← filterMap_cons_toList]
  | global _ hn _ hv _ ih =>
    rw [ih hr, hv.trace.unusable, recordName_unusable hn, List.append_assoc, ← filterMap_cons_toList]
  | @contentType _ _ _ _ _ _ mid _ _ mid' _ _ _ _ hn hv _ ih =>
    obtain ⟨rest, rfl, -⟩ := ok_of_map hr
    have hmid : (mid'.left mid).unusable = mid.unusable := hv.trace.unusable
    rw [ih rfl, hmid, recordName_unusable hn, List.append_assoc, ← filterMap_cons_toList]

def Violation.record (v : Violation) : UnusableName := ⟨v.uid, v.isGlobal, v.name⟩

theorem violations_record (s : State) : (violations s).map Violation.record = s.unusable := by
  rw [violations, List.map_map]
  exact List.map_id s.unusable

/-- A run that is not stopped gives an output exactly if no record has an unusable name, and else reports
all records that have. -/
theorem runFrom_unusable (hs : start input = .ok s) :
    match (runFrom input s).1 with
    | .ok _ => input.unusable = []
    | .error (.unusableNames vs) => input.unusable ≠ [] ∧ vs.map Violation.record = input.unusable
    | .error (.fault _) => True := by
  obtain ⟨richTextUsed, rfl⟩ := start_eq hs
  obtain ⟨steps, result, u, hp⟩ := passes_end input input.records 0 { richTextUsed }
  cases result with
  | error e =>
    rw [runFrom_fault hp.visit_eq]
    trivial
  | ok declarations =>
    have hunusable : u.unusable = input.unusable := hp.unusable_eq rfl
    rw [runFrom_eq hp.visit_eq]
    cases hu : u.unusable with
    | nil => exact hunusable.symm.trans hu
    | cons first rest =>
      refine ⟨by rw [← hunusable, hu]; simp, ?_⟩
      rw [violations_record]
      exact hunusable

theorem Input.Offers.named {origin : Origin} (h : input.Offers name origin)
    (hunusable : input.unusable = []) :
    ∃ uid, .text uid ∈ input.targets ∧ name = Naming.declare input.style.lead uid := by
  rcases h with ⟨r, hr, uid, -, huid, hname⟩ | hs
  · have hmem : Json.text uid ∈ input.targets :=
      List.mem_append_left _ (List.mem_map.2 ⟨r, hr, huid⟩)
    rcases hname with rfl | ⟨hu, -⟩
    · exact ⟨uid, hmem, rfl⟩
    · have hnone := List.filterMap_eq_nil_iff.1 hunusable r hr
      rw [unusable?, huid] at hnone
      simp [hu] at hnone
  · obtain ⟨inline?, hm, -⟩ := hs.mem
    obtain ⟨uid, huid, hname⟩ := Naming.declare?_ok hs.named
    have hmem : origin.target ∈ input.targets :=
      List.mem_append_right _ (List.mem_map_of_mem (f := Reference.target) (by simpa using hm))
    exact ⟨uid, huid ▸ hmem, hname⟩

theorem contentType_named {d : Declaration} (h : List.Forall₂ (DeclaresContentType input) records ds)
    (hsub : records ⊆ input.records) (hd : d ∈ ds) :
    ∃ r ∈ input.records, ∃ uid, r.uid = .text uid ∧ d.main.name = Naming.declare input.style.lead uid := by
  induction h with
  | nil => cases hd
  | cons hrd _ ih =>
    obtain ⟨hr, hrest⟩ := List.cons_subset.1 hsub
    rcases List.mem_cons.1 hd with rfl | hd
    · obtain ⟨uid, huid, hname⟩ := Naming.declare?_ok hrd.name
      exact ⟨_, hr, uid, huid, hname⟩
    · exact ih hrest hd

theorem usable_of_unusable_eq_nil {record : Record} {uid : String} (hunusable : input.unusable = [])
    (hr : record ∈ input.records) (huid : record.uid = .text uid) :
    Naming.isUsableName (Naming.declare input.style.lead uid) = true := by
  have hnone := List.filterMap_eq_nil_iff.1 hunusable record hr
  rw [unusable?, huid] at hnone
  by_contra hu
  simp [hu] at hnone

/-- The name is usable if it has a lead, or is made from an identifier whose first letter or digit is a
letter. -/
theorem usable_of_extends {lead base uid : String} (hlead : Naming.isUsableName (Naming.declare lead base) = true)
    (h : Naming.Extends (Naming.declare lead uid) name)
    (hletter : lead ≠ "" ∨ ∃ c, Naming.firstWordChar? uid = some c ∧ Naming.isDigit c = false) :
    name ≠ "" ∧ Naming.isUsableName name = true := by
  have hdigit : lead ≠ "" → Naming.startsWithDigit lead = false := by
    intro hne
    rw [Naming.isUsableName, Naming.startsWithDigit_declare, if_neg hne] at hlead
    simpa using hlead
  refine h.usable ?_ ?_
  · rw [ne_eq, Naming.declare_eq_empty_iff]
    rintro ⟨rfl, hnone⟩
    rcases hletter with hne | ⟨c, hc, -⟩
    · exact hne rfl
    · rw [hnone] at hc
      cases hc
  · rw [Naming.isUsableName, Naming.startsWithDigit_declare]
    by_cases hne : lead = ""
    · obtain ⟨c, hc, hcd⟩ := hletter.resolve_left (fun hl => hl hne)
      rw [if_pos hne, hc]
      simp [hcd]
    · rw [if_neg hne, hdigit hne]
      rfl

/-- In a run that gives an output, every content type and every global field goes by the name for a uid or
for a target, which does not begin with a digit and is empty only if there is no lead and no letter or
digit to make it from. A union goes by the name for the uid of a field of blocks, which neither is empty
nor begins with a digit if there is a lead, or if the first letter or digit of that uid is a letter. A run
that comes through all records gives an output exactly if no record has a name that begins with a digit,
and else reports the records that have, in order. -/
theorem run_declares_usable (hs : start input = .ok s) :
    (∀ o t, runFrom input s = (.ok o, t) →
      (∀ d ∈ o.globals ++ o.contentTypes, Naming.isUsableName d.main.name = true ∧
        ∃ uid, .text uid ∈ input.targets ∧ d.main.name = Naming.declare input.style.lead uid ∧
          (d.main.name = "" ↔ input.style.lead = "" ∧ Naming.firstWordChar? uid = none)) ∧
      ∀ name ∈ o.unionNames, ∃ field uid, .field field ∈ input.parts ∧ field.attrs.uid = .text uid ∧
        Opens field.attrs .blocks ∧ Naming.Extends (Naming.declare input.style.lead uid) name ∧
        (input.style.lead ≠ "" ∨ (∃ c, Naming.firstWordChar? uid = some c ∧ Naming.isDigit c = false) →
          name ≠ "" ∧ Naming.isUsableName name = true)) ∧
    match (runFrom input s).1 with
    | .ok _ => input.unusable = []
    | .error (.unusableNames vs) => input.unusable ≠ [] ∧ vs.map Violation.record = input.unusable
    | .error (.fault _) => True := by
  have hends := runFrom_unusable hs
  refine ⟨fun o t hr => ?_, hends⟩
  rw [hr] at hends
  obtain ⟨steps, u, hp, hunusable, -, -⟩ := runFrom_ok hr
  obtain ⟨-, hbuilt⟩ := run_built hs hr hp
  obtain ⟨hunites, -, -, -, hperm⟩ := run_leaves hs hr hp
  have hnamed : ∀ d ∈ o.globals ++ o.contentTypes, Naming.isUsableName d.main.name = true ∧
      ∃ uid, .text uid ∈ input.targets ∧ d.main.name = Naming.declare input.style.lead uid := by
    intro d hd
    rcases List.mem_append.1 hd with hd | hd
    · obtain ⟨origin, hb, -⟩ := hbuilt d hd
      have hmem : d.main.name ∈ builds steps := List.mem_filterMap.2 ⟨_, hb, rfl⟩
      exact ⟨hp.builds_usable rfl hunusable _ hmem,
        (hp.offers (List.Subset.refl _) _ origin hb).named hends⟩
    · have htypes := hp.contentTypes rfl hunusable
      have hsub : (input.records.filter fun r => !r.isGlobal) ⊆ input.records := List.filter_subset_self _
      obtain ⟨r, hr, uid, huid, hname⟩ := contentType_named htypes hsub hd
      refine ⟨hname ▸ usable_of_unusable_eq_nil hends hr huid, uid, ?_, hname⟩
      exact List.mem_append_left _ (List.mem_map.2 ⟨r, hr, huid⟩)
  refine ⟨fun d hd => ?_, fun name hn => ?_⟩
  · obtain ⟨hu, uid, hmem, hname⟩ := hnamed d hd
    refine ⟨hu, uid, hmem, hname, ?_⟩
    rw [hname]
    exact Naming.declare_eq_empty_iff _ _
  · have hunion : name ∈ u.unionNames := by
      obtain ⟨union, hu, rfl⟩ := List.mem_map.1 hn
      obtain ⟨m, hm, rfl⟩ := List.mem_map.1 (hperm.mem_iff.1 hu)
      obtain ⟨richTextUsed, rfl⟩ := start_eq hs
      rw [State.unionNames, hunites.unions]
      exact List.mem_map.2 ⟨m.entry input.style, List.mem_append_right _ (List.mem_map_of_mem hm), rfl⟩
    obtain ⟨richTextUsed, rfl⟩ := start_eq hs
    have hnames := hp.names_unions (List.Subset.refl _) name hunion
    obtain ⟨field, uid, hf, ho, huid, hextends⟩ := hnames.resolve_left (by simp [State.unionNames])
    refine ⟨field, uid, hf, huid, ho, hextends, fun hletter => ?_⟩
    -- The field stands in a record, and the name of that record shows that the lead is no digit.
    obtain ⟨r, hr, -⟩ := List.mem_flatMap.1 hf
    obtain ⟨ruid, hruid, -, -⟩ := hp.declared rfl hunusable r hr
    exact usable_of_extends (usable_of_unusable_eq_nil hends hr hruid) hextends hletter

theorem run_declares_usable_referringPage :
    start referringPage = .ok {} ∧
      ∃ o t, runFrom referringPage {} = (.ok o, t) ∧
        (∀ d ∈ o.globals ++ o.contentTypes, Naming.isUsableName d.main.name = true) ∧
        referringPage.unusable = [] := by
  have hstart : start referringPage = .ok {} := by rfl
  have hok : (runFrom referringPage {}).1.isOk = true := by decide +kernel
  obtain ⟨hnames, hends⟩ := run_declares_usable hstart
  rcases hr : runFrom referringPage {} with ⟨e | o, t⟩
  · rw [hr] at hok
    cases hok
  · rw [hr] at hends
    exact ⟨hstart, o, t, rfl, fun d hd => ((hnames o t hr).1 d hd).1, hends⟩

/-- A page with blocks in a field whose uid has a digit after its underscore, and a record with a uid of
underscores alone. -/
def unnamedRecord : Input :=
  let hero : Block := ⟨.text "hero", .null, .null, some [titled "title"]⟩
  let sections : Field := ⟨{ uid := .text "_1abc", kind := .blocks, tag := "blocks" }, none, [hero]⟩
  ⟨{}, [⟨.text "__", .null, .null, some [], false⟩, ⟨.text "page", .null, .null, some [sections], false⟩]⟩

/-- A pass may give an output in which the name of a content type is empty and that of a union begins with a
digit. -/
theorem unnamedRecord_declares_unusable :
    start unnamedRecord = .ok {} ∧
      ∃ o t, runFrom unnamedRecord {} = (.ok o, t) ∧
        "" ∈ o.contentTypes.map (fun d => d.main.name) ∧
        ∃ name ∈ o.unionNames, Naming.isUsableName name = false := by
  have hstart : start unnamedRecord = .ok {} := by rfl
  have hnames : (runFrom unnamedRecord {}).1.toOption.map (fun o =>
      (o.contentTypes.map fun d => d.main.name, o.unionNames)) = some (["", "Page"], ["1Abc"]) := by
    decide +kernel
  have hdigit : Naming.isUsableName "1Abc" = false := by decide +kernel
  rcases hr : runFrom unnamedRecord {} with ⟨e | o, t⟩
  · rw [hr] at hnames
    cases hnames
  · rw [hr] at hnames
    obtain ⟨htypes, hunions⟩ := Prod.mk.inj (Option.some.inj hnames)
    exact ⟨hstart, o, t, rfl, by simp [htypes], "1Abc", by simp [hunions], hdigit⟩

end SchemaDecl.Generation

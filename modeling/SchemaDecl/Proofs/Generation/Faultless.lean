import SchemaDecl.Proofs.Generation.Reordered
import SchemaDecl.Proofs.Generation.Styles
import SchemaDecl.Proofs.Schema.Documents

/-!
# Passes over well-typed documents

Nothing in a well-typed document stops a pass: every handler finds what it asks for, wherever a reference
leads. So a run over a well-typed export gives code, or reports the records with unusable names after all
records were visited.
-/

namespace SchemaDecl.Generation

variable {input : Input} {scope : Scope} {task : Task} {s t : State} {steps : List Step}
  {result : Except Fault task.Result} {position : Nat} {records : List Record}
  {ends : Except Fault (List Declaration)}

structure Input.WellTyped (input : Input) : Prop where
  uids : ∀ r ∈ input.records, ∃ uid, r.uid = .text uid
  parts : ∀ part ∈ input.parts, part.WellTyped

theorem Input.WellTyped.of_records (style : Style) (h : ∀ r ∈ records, r.WellTyped) :
    (Input.mk style records).WellTyped where
  uids r hr := (h r hr).uid
  parts part hp := by
    obtain ⟨r, hr, hp⟩ := List.mem_flatMap.1 hp
    exact (h r hr).parts part hp

/-- Where a reference is resolved, its target is a text. -/
def Task.NamesText : Task → Prop
  | .reference _ _ _ target _ => ∃ s, target = .text s
  | _ => True

theorem isOk_repeatedMember {attrs : Attributes} (hw : attrs.WellTyped) (type : TypeExpr) :
    (repeatedMember attrs type).isOk = true := isOk_typedMember hw _

theorem Visits.isOk (h : Visits input scope task s steps result t)
    (hi : ∀ part ∈ input.parts, part.WellTyped) (hw : task.Within input) (htext : task.NamesText) :
    result.isOk = true := by
  induction h with
  | fields_nil | blocks_nil | field_unusable | block_unusable => rfl
  | fields_fault _ ih => cases ih hw.head trivial
  | blocks_fault _ ih => cases ih hw.head_block trivial
  | fields_cons _ _ _ ih =>
    rw [isOk_map]
    exact ih hw.tail trivial
  | blocks_cons _ _ _ ih =>
    rw [isOk_map]
    exact ih hw.tail_block trivial
  | field_fault hu =>
    obtain ⟨b, hb⟩ := (hi _ hw.mem_field).isUsable
    cases hu.symm.trans hb
  | block_fault hu =>
    obtain ⟨b, hb⟩ := (hi _ hw.mem_block).isUsable
    cases hu.symm.trans hb
  | @field_flat _ _ attrs _ _ s _ _ _ _ hv hr =>
    have htyped : attrs.WellTyped := hi _ hw.mem_field
    obtain ⟨type, htakes⟩ := takes_flatType hv htyped
    have hok := (htakes s).1
    rw [hr] at hok
    subst hok
    exact isOk_typedMember htyped type
  | field_group _ _ ih =>
    exact isOk_bind (ih (hw.group _) trivial) fun _ => isOk_repeatedMember (hi _ hw.mem_field) _
  | field_target_fault _ ht =>
    obtain ⟨target, htarget⟩ := (hi _ hw.mem_field).globalTarget
    cases ht.symm.trans htarget
  | field_global _ ht _ ih =>
    obtain ⟨target, htarget⟩ := (hi _ hw.mem_field).globalTarget
    obtain rfl := Except.ok.inj (ht.symm.trans htarget)
    have hok := ih (hw.global _ _ _ _) ⟨target, rfl⟩
    exact isOk_bind hok fun _ => isOk_repeatedMember (hi _ hw.mem_field) _
  | field_blocks_fault _ _ ih => cases ih (hw.inner_blocks _) trivial
  | field_no_blocks | field_union => exact isOk_repeatedMember (hi _ hw.mem_field) _
  | field_union_fault _ hv _ hu =>
    cases (unionName_isOk (hi _ hw.mem_field).uid (hw.wellTyped_blocks hi) hv hu).1
  | block_inline _ _ _ ih =>
    rw [isOk_map]
    exact ih (hw.inline _) trivial
  | block_reference _ ht _ ih =>
    rw [isOk_map]
    exact ih (hw.reference _ _) ((hi _ hw.mem_block).text_of_truthy ht)
  | reference_fault hn =>
    obtain ⟨s, rfl⟩ := htext
    cases hn
  | reference_unusable | reference_known | reference_missing | reference_built => rfl
  | reference_fields_fault _ _ _ ho _ ih => cases ih (hw.origin ho _ _) trivial
  | declare_known | declare_built => rfl
  | declare_fault _ _ ih => cases ih (hw.origin_fields _) trivial

theorem Passes.isOk (h : Passes input position records s steps ends t) (hw : input.WellTyped)
    (hsub : records ⊆ input.records) : ends.isOk = true := by
  induction h with
  | nil => rfl
  | name_fault hn => cases recordName_isOk (hw.uids _ (List.cons_subset.1 hsub).1) hn
  | bare _ _ _ _ ih | global _ _ _ _ _ ih => exact ih (List.cons_subset.1 hsub).2
  | global_fault _ _ _ hv =>
    cases hv.isOk hw.parts (within_declare (List.cons_subset.1 hsub).1 _ _) trivial
  | contentType_fault _ _ hv =>
    cases hv.isOk hw.parts (within_fields (List.cons_subset.1 hsub).1 _) trivial
  | contentType _ _ _ _ ih =>
    rw [isOk_map]
    exact ih (List.cons_subset.1 hsub).2

theorem Input.WellTyped.start_eq (hw : input.WellTyped) :
    start input = .ok { richTextUsed := input.records.any allowsRichText } :=
  start_wellTyped hw.parts hw.uids

theorem Input.WellTyped.passes (hw : input.WellTyped) (s : State) :
    ∃ steps ds t, Passes input 0 input.records s steps (.ok ds) t := by
  obtain ⟨steps, result, t, h⟩ := passes_end input input.records 0 s
  obtain ⟨ds, rfl⟩ := exists_ok (h.isOk hw (List.Subset.refl _))
  exact ⟨steps, ds, t, h⟩

/-- The name of a record begins with a digit. -/
def namedByDigit (lead : String) (r : Record) : Prop :=
  ∃ uid, r.uid = .text uid ∧ Naming.startsWithDigit (Naming.declare lead uid) = true

theorem unusable?_eq_none {lead : String} {r : Record} : unusable? lead r = none ↔ ¬ namedByDigit lead r := by
  unfold unusable? namedByDigit Naming.isUsableName
  cases r.uid with
  | text uid => simp
  | _ => simp

theorem run_wellTyped {style : Style} (hw : (Input.mk style records).WellTyped) :
    ((run style records).result.isOk = true ↔ ∀ r ∈ records, ¬ namedByDigit style.lead r) ∧
      ∀ failure, (run style records).result = .error failure →
        ∃ vs, failure = .unusableNames vs ∧
          vs.map Violation.record = records.filterMap (unusable? style.lead) := by
  have hs := hw.start_eq
  obtain ⟨steps, ds, u, hp⟩ := hw.passes { richTextUsed := records.any allowsRichText }
  have hunusable : u.unusable = records.filterMap (unusable? style.lead) := hp.unusable_eq rfl
  have hnil : u.unusable = [] ↔ ∀ r ∈ records, ¬ namedByDigit style.lead r := by
    rw [hunusable, List.filterMap_eq_nil_iff]
    simp only [unusable?_eq_none]
  rw [run_eq hs, runFrom_eq hp.visit_eq, ← hnil]
  cases hu : u.unusable with
  | nil =>
    refine ⟨iff_of_true rfl rfl, fun failure hf => ?_⟩
    cases hf
  | cons first rest =>
    refine ⟨iff_of_false Bool.false_ne_true (by simp), fun failure hf => ?_⟩
    cases hf
    exact ⟨_, rfl, (violations_record u.summarize).trans hunusable⟩

theorem generate_eq {settings : Settings} {payload : Json} (hr : readPayload payload = .ok records) :
    generate settings payload = run settings.style records := by
  unfold generate
  rw [hr]

/-- What a generation comes to that no fault stops is what the run over the records of its payload comes to. -/
theorem generate_runs {settings : Settings} {payload : Json}
    (hf : ∀ fault, (generate settings payload).result ≠ .error (.fault fault)) :
    ∃ (records : List Record) (s t : State) (result : Except Failure Output),
      readPayload payload = .ok records ∧ start ⟨settings.style, records⟩ = .ok s ∧
      runFrom ⟨settings.style, records⟩ s = (result, t) ∧ (∀ fault, result ≠ .error (.fault fault)) ∧
      generate settings payload =
        ⟨result.map fun o => ⟨o.code settings.style, t.warnings, t.metadata settings.style⟩, t.events⟩ := by
  cases hp : readPayload payload with
  | error fault =>
    refine absurd ?_ (hf fault)
    unfold generate
    rw [hp]
  | ok records =>
    rw [generate_eq hp] at hf ⊢
    cases hs : start ⟨settings.style, records⟩ with
    | error fault =>
      refine absurd ?_ (hf fault)
      unfold run
      simp only [hs]
    | ok s =>
      rw [run_eq hs] at hf ⊢
      rcases hr : runFrom ⟨settings.style, records⟩ s with ⟨result, t⟩
      rw [hr] at hf
      refine ⟨records, s, t, result, rfl, hs, hr, ?_, rfl⟩
      rintro fault rfl
      exact hf fault rfl

/-- A run over a well-typed export gives code exactly if no name of a record begins with a digit. Else it
fails, and in no other way than with the records that have such names: each of them once and in order, by its
uid, what it is, and the name that was made for it. -/
theorem generate_wellTyped {payload : Json} (h : isPayload payload = true) (settings : Settings) :
    ∃ records, readPayload payload = .ok records ∧ (∀ r ∈ records, ∃ uid, r.uid = .text uid) ∧
      ((generate settings payload).result.isOk = true ↔ ∀ r ∈ records, ¬ namedByDigit settings.lead r) ∧
      ∀ failure, (generate settings payload).result = .error failure →
        ∃ vs, failure = .unusableNames vs ∧
          vs.map Violation.record = records.filterMap (unusable? settings.lead) := by
  obtain ⟨records, hr, hw⟩ := readPayload_wellTyped h
  have hinput := Input.WellTyped.of_records settings.style hw
  rw [generate_eq hr]
  exact ⟨records, hr, hinput.uids, run_wellTyped hinput⟩

/-- A content type and a global field whose uids begin with digits; the content type refers to that global
field, to itself and to another global field. -/
def numberedDocument : Json :=
  let reference (uid : String) : Json :=
    .object [("uid", .text uid), ("data_type", .text "global_field"), ("reference_to", .text uid)]
  let entries : Json := .object [("uid", .text "related"), ("data_type", .text "reference"),
    ("reference_to", .list [.text "404_page", .text "page"])]
  .object
    [("content_types", .list [.object [("uid", .text "404_page"),
      ("schema", .list [reference "2fa", reference "seo", entries])]]),
     ("global_fields", .list [.object [("uid", .text "2fa"), ("schema", .list [])],
      .object [("uid", .text "seo"), ("schema", .list [textDocument "title" "Title", reference "seo"])]])]

theorem generate_wellTyped_numberedDocument :
    isPayload numberedDocument = true ∧
      ∃ vs, (generate {} numberedDocument).result = .error (.unusableNames vs) ∧
        vs.map Violation.record = [⟨"2fa", true, "2Fa"⟩, ⟨"404_page", false, "404Page"⟩] := by
  have hpayload : isPayload numberedDocument = true := by decide +kernel
  have hok : (generate {} numberedDocument).result.isOk = false := by decide +kernel
  have hunusable : (readPayload numberedDocument).map (List.filterMap (unusable? "")) =
      .ok [⟨"2fa", true, "2Fa"⟩, ⟨"404_page", false, "404Page"⟩] := by decide +kernel
  obtain ⟨records, hr, -, -, hfails⟩ := generate_wellTyped hpayload {}
  cases he : (generate {} numberedDocument).result with
  | ok result =>
    rw [he] at hok
    cases hok
  | error failure =>
    obtain ⟨vs, rfl, hvs⟩ := hfails failure he
    rw [hr] at hunusable
    exact ⟨hpayload, vs, rfl, hvs.trans (Except.ok.inj hunusable)⟩

end SchemaDecl.Generation

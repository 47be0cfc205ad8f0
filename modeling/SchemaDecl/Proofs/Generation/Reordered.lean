import SchemaDecl.Proofs.Generation.Members
import SchemaDecl.Proofs.Generation.UsableNames

/-!
# Records in another order

A pass over the records of an orderly document comes to the same end in every order of them: what is skipped,
used and declared is the same but for its order, and so are the declarations where there are no fields of
blocks.
-/

namespace SchemaDecl.Generation

variable {input : Input} {records : List Record} {s t t' : State} {steps steps' : List Step}
  {ds ds' : List Declaration}

theorem orFind_ok {first second : Except Fault Bool} (h : ∃ b, first = .ok b) (h' : ∃ b, second = .ok b) :
    ∃ b, orFind first second = .ok b := by
  obtain ⟨b, rfl⟩ := h
  cases b with
  | false => exact h'
  | true => exact ⟨true, rfl⟩

mutual

theorem fieldRichText_ok : ∀ (field : Field), (∀ part ∈ fieldParts field, part.WellTyped) →
    ∃ b, fieldRichText field = .ok b
  | ⟨attrs, schema?, blocks⟩, h => by
    rw [fieldParts, List.forall_mem_cons, List.forall_mem_append] at h
    obtain ⟨hattrs, hschema, hblocks⟩ := h
    rw [fieldRichText]
    cases attrs.kind with
    | json => exact Attributes.WellTyped.allowsRichText hattrs
    | group => exact schemaRichText_ok schema? hschema
    | blocks => exact blocksRichText_ok blocks hblocks
    | _ => exact ⟨false, rfl⟩

theorem fieldsRichText_ok : ∀ (fields : List Field), (∀ part ∈ fieldsParts fields, part.WellTyped) →
    ∃ b, fieldsRichText fields = .ok b
  | [], _ => ⟨false, by rw [fieldsRichText]⟩
  | field :: rest, h => by
    rw [fieldsParts, List.forall_mem_append] at h
    rw [fieldsRichText]
    exact orFind_ok (fieldRichText_ok field h.1) (fieldsRichText_ok rest h.2)

theorem schemaRichText_ok : ∀ (schema? : Option (List Field)), (∀ part ∈ schemaParts schema?, part.WellTyped) →
    ∃ b, schemaRichText schema? = .ok b
  | none, _ => ⟨false, by rw [schemaRichText]⟩
  | some fields, h => by
    rw [schemaParts] at h
    rw [schemaRichText]
    exact fieldsRichText_ok fields h

theorem blockRichText_ok : ∀ (block : Block), (∀ part ∈ blockParts block, part.WellTyped) →
    ∃ b, blockRichText block = .ok b
  | ⟨uid, title, target, schema?⟩, h => by
    rw [blockParts, List.forall_mem_cons] at h
    rw [blockRichText]
    exact schemaRichText_ok schema? h.2

theorem blocksRichText_ok : ∀ (blocks : List Block), (∀ part ∈ blocksParts blocks, part.WellTyped) →
    ∃ b, blocksRichText blocks = .ok b
  | [], _ => ⟨false, by rw [blocksRichText]⟩
  | block :: rest, h => by
    rw [blocksParts, List.forall_mem_append] at h
    rw [blocksRichText]
    exact orFind_ok (blockRichText_ok block h.1) (blocksRichText_ok rest h.2)

end

/-- Some field of the record allows rich text. -/
def allowsRichText (r : Record) : Bool := (fieldsRichText r.fields).toOption.getD false

theorem recordsRichText_eq {records : List Record}
    (h : ∀ r ∈ records, ∀ part ∈ fieldsParts r.fields, part.WellTyped) :
    recordsRichText records = .ok (records.any allowsRichText) := by
  induction records with
  | nil => rfl
  | cons r rest ih =>
    obtain ⟨hr, hrest⟩ := List.forall_mem_cons.1 h
    obtain ⟨found, hfound⟩ := fieldsRichText_ok r.fields hr
    rw [recordsRichText, hfound, ih hrest, List.any_cons, allowsRichText, hfound]
    cases found <;> rfl

theorem mapM_asKey_uids {records : List Record} (h : ∀ r ∈ records, ∃ uid, r.uid = .text uid) :
    (records.mapM fun r => asKey r.uid) = .ok (records.map Record.uid) := by
  have htexts : (records.map Record.uid).mapM asKey = .ok (records.map Record.uid) :=
    mapM_asKey_texts (List.forall_mem_map.2 h)
  rwa [List.mapM_map] at htexts

theorem start_wellTyped (hparts : ∀ part ∈ input.parts, part.WellTyped)
    (huids : ∀ r ∈ input.records, ∃ uid, r.uid = .text uid) :
    start input = .ok { richTextUsed := input.records.any allowsRichText } := by
  have hfound := recordsRichText_eq fun r hr part hp => hparts part (List.mem_flatMap.2 ⟨r, hr, hp⟩)
  rw [start, mapM_asKey_uids huids, hfound]
  rfl

theorem Input.Orderly.start_eq (ho : input.Orderly) :
    start input = .ok { richTextUsed := input.records.any allowsRichText } :=
  start_wellTyped ho.wellTyped ho.uids

/-- The states are the same in what is noted and in which names are declared, but for its order. -/
structure State.Reorders (s t : State) : Prop where
  skippedFields : s.skippedFields.Perm t.skippedFields
  skippedBlocks : s.skippedBlocks.Perm t.skippedBlocks
  warnings : s.warnings.Perm t.warnings
  globals : (Table.names s.globals).Perm (Table.names t.globals)
  used : ∀ category name, name ∈ s.dependencies.get category ↔ name ∈ t.dependencies.get category
  richTextUsed : s.richTextUsed = t.richTextUsed
  unusable : s.unusable.Perm t.unusable

theorem Notes.reorders {notes notes' : List Note} (h : Notes s notes t) (h' : Notes s notes' t')
    (hp : notes.Perm notes') (hg : (Table.names t.globals).Perm (Table.names t'.globals))
    (hu : t.unusable.Perm t'.unusable) : t.Reorders t' where
  skippedFields := by
    rw [h.fields, h'.fields]
    exact (hp.filterMap _).append_left _
  skippedBlocks := by
    rw [h.blocks, h'.blocks]
    exact (hp.filterMap _).append_left _
  warnings := by
    rw [h.warnings, h'.warnings]
    exact (hp.filterMap _).append_left _
  globals := hg
  used category name := by rw [h.used, h'.used, hp.mem_iff]
  richTextUsed := by rw [Bool.eq_iff_iff, h.richText, h'.richText, hp.mem_iff]
  unusable := hu

section

variable (ho : input.Orderly) (hperm : input.records.Perm records)

include ho hperm

theorem reached_reorder (r : Record) : (input.ordered records).Reached r ↔ input.Reached r :=
  ⟨Input.Reached.reorder hperm.symm (ho.reorder hperm), Input.Reached.reorder hperm ho⟩

theorem contentNotes_reorder :
    (input.contentNotes input.records).Perm ((input.ordered records).contentNotes records) := by
  rw [Input.contentNotes, Input.contentNotes, funext (recordNotes_reorder hperm ho)]
  exact (hperm.filter _).flatMap_right _

variable (hs : start input = .ok s) (hs' : start (input.ordered records) = .ok s)
  (h : Passes input 0 input.records s steps (.ok ds) t)
  (h' : Passes (input.ordered records) 0 records s steps' (.ok ds') t')

include hs hs' h h'

theorem Passes.built_reorder : (built steps).Perm (built steps') := by
  refine (List.perm_ext_iff_of_nodup h.built_nodup h'.built_nodup).2 fun entry => ?_
  rw [h.mem_built_iff ho hs, Passes.mem_built_iff h' (ho.reorder hperm) hs']
  exact exists_congr fun r => and_congr_left fun _ => (reached_reorder ho hperm r).symm

theorem Passes.reorders : t.Reorders t' := by
  have ho' := ho.reorder hperm
  have hbuilt := h.built_reorder ho hperm hs hs' h'
  obtain ⟨-, -, notes, hnotes, hp⟩ := h.accounts ho (List.Subset.refl _) (sound_start hs)
  obtain ⟨-, -, notes', hnotes', hp'⟩ := h'.accounts ho' (List.Subset.refl _) (sound_start hs')
  have hbuiltNotes : (builtNotes input steps).Perm (builtNotes (input.ordered records) steps') := by
    rw [builtNotes, builtNotes, resolves_reorder hperm ho]
    exact hbuilt.flatMap_right _
  refine hnotes.reorders hnotes' ?_ ?_ ?_
  · exact (hp.trans ((contentNotes_reorder ho hperm).append hbuiltNotes)).trans hp'.symm
  · rw [h.builds_names hs, Passes.builds_names h' hs', builds_eq_map_built, builds_eq_map_built]
    exact hbuilt.map _
  · rw [h.unusable_eq rfl, h'.unusable_eq rfl]
    exact (hperm.filterMap _).append_left _

end

/-- The outputs are the same but for the order of the declarations. -/
structure Output.Reorders (o o' : Output) : Prop where
  prelude : o.prelude = o'.prelude
  globals : o.globals.Perm o'.globals
  contentTypes : o.contentTypes.Perm o'.contentTypes

theorem Output.Reorders.parts {o o' : Output} (h : o.Reorders o') (style : Style) :
    (o.parts style).Perm (o'.parts style) := by
  rw [Output.parts, Output.parts, h.prelude]
  exact ((h.globals.map _).append_left _).append (h.contentTypes.map _)

theorem Passes.declared_iff (h : Passes input 0 input.records s steps (.ok ds) t) (ho : input.Orderly)
    (hs : start input = .ok s) {r : Record} (hr : r ∈ input.records) :
    t.isDeclared (goesBy input.style.lead r) = true ↔ input.Reached r := by
  refine ⟨fun hd => ?_, fun hreached => hreached.declared ho hs h⟩
  obtain ⟨r', hreached, he⟩ := (h.mem_built_iff ho hs _).1 (h.built_of_declared ho hs hr hd)
  obtain rfl := Origin.record.inj (Prod.mk.inj he).2
  exact hreached

/-- A pass over an orderly document without fields of blocks declares each record that is reached, once. -/
theorem Passes.globals_eq (h : Passes input 0 input.records s steps (.ok ds) t) (ho : input.Orderly)
    (hblockless : input.Blockless) (hs : start input = .ok s) :
    ∃ gs : List Declaration, t.globals = gs.map entryOf ∧ gs.Nodup ∧
      ∀ d, d ∈ gs ↔ ∃ r, input.Reached r ∧ d = input.globalDeclaration r := by
  obtain ⟨-, hdeclares⟩ := h.gives rfl ho hblockless (List.Subset.refl _) (sound_start hs)
  obtain ⟨gs, hgs, -⟩ := (h.resolves rfl).complete
  have hempty : s.globals = [] := by
    rw [ho.start_eq] at hs
    cases hs
    rfl
  rw [hempty, List.nil_append] at hgs
  have hnames : gs.map (fun d => d.main.name) = builds steps := by
    rw [← names_of_entries hgs, h.builds_names hs]
  have hgiven : ∀ d ∈ gs, ∃ r ∈ input.records, d = input.globalDeclaration r := by
    intro d hd
    rcases hdeclares.globals d.main.name d (hgs ▸ List.mem_map_of_mem hd) with hm | ⟨r, hr, -, he⟩
    · rw [hempty] at hm
      cases hm
    · exact ⟨r, hr, he⟩
  refine ⟨gs, hgs, .of_map _ (hnames ▸ h.adds.nodup), fun d => ⟨fun hd => ?_, ?_⟩⟩
  · obtain ⟨r, hr, rfl⟩ := hgiven d hd
    refine ⟨r, (h.declared_iff ho hs hr).1 ?_, rfl⟩
    rw [isDeclared_iff, h.builds_names hs, ← hnames]
    exact List.mem_map_of_mem hd
  · rintro ⟨r, hreached, rfl⟩
    have hd := hreached.declared ho hs h
    rw [isDeclared_iff, h.builds_names hs, ← hnames] at hd
    obtain ⟨d, hd, hname⟩ := List.mem_map.1 hd
    obtain ⟨r', hr', rfl⟩ := hgiven d hd
    rwa [ho.goesBy_injective hr' hreached.mem hname] at hd

theorem Input.Blockless.reorder (h : input.Blockless) (hperm : input.records.Perm records) :
    (input.ordered records).Blockless := fun field hf => h field ((mem_parts_iff hperm _).1 hf)

section

variable (ho : input.Orderly) (hperm : input.records.Perm records)

include ho hperm

theorem members_reorder : (input.ordered records).members = input.members := by
  funext r
  rw [Input.members, Input.members, resolves_reorder hperm ho]
  rfl

theorem globalDeclaration_reorder : (input.ordered records).globalDeclaration = input.globalDeclaration := by
  funext r
  rw [Input.globalDeclaration, members_reorder ho hperm]
  rfl

theorem contentDeclaration_reorder : (input.ordered records).contentDeclaration = input.contentDeclaration := by
  funext r
  rw [Input.contentDeclaration, members_reorder ho hperm]
  rfl

variable (hblockless : input.Blockless)

include hblockless

variable (hs : start input = .ok s) (hs' : start (input.ordered records) = .ok s)
  (h : Passes input 0 input.records s steps (.ok ds) t)
  (h' : Passes (input.ordered records) 0 records s steps' (.ok ds') t')

include hs hs' h h'

theorem Passes.globals_reorder : t.globals.Perm t'.globals := by
  obtain ⟨gs, hgs, hnodup, hmem⟩ := h.globals_eq ho hblockless hs
  obtain ⟨gs', hgs', hnodup', hmem'⟩ :=
    Passes.globals_eq h' (ho.reorder hperm) (hblockless.reorder hperm) hs'
  rw [hgs, hgs']
  refine List.Perm.map _ ((List.perm_ext_iff_of_nodup hnodup hnodup').2 fun d => ?_)
  rw [hmem, hmem', globalDeclaration_reorder ho hperm]
  simp only [reached_reorder ho hperm]

theorem Passes.output_reorders :
    (t.summarize.output input.style ds).Reorders (t'.summarize.output input.style ds') := by
  have hsub := List.Subset.refl records
  refine ⟨?_, ?_, ?_⟩
  · exact congrArg (Prelude.select input.style) (h.reorders ho hperm hs hs' h').richTextUsed
  · exact ((h.globals_reorder ho hperm hblockless hs hs' h').filterMap _).map _
  · obtain ⟨rfl, -⟩ := h.gives rfl ho hblockless (List.Subset.refl _) (sound_start hs)
    obtain ⟨rfl, -⟩ :=
      h'.gives rfl (ho.reorder hperm) (hblockless.reorder hperm) hsub (sound_start hs')
    rw [State.output, State.output, contentDeclaration_reorder ho hperm]
    exact (hperm.filter _).map _

end

/-- Two runs come to the same end: both give an output or both have the same unusable names, in some order. -/
inductive SameEnds (R : Output → Output → Prop) : Except Failure Output → Except Failure Output → Prop
  | ok {o o'} : R o o' → SameEnds R (.ok o) (.ok o')
  | unusableNames {vs vs'} : (vs.map Violation.record).Perm (vs'.map Violation.record) →
      SameEnds R (.error (.unusableNames vs)) (.error (.unusableNames vs'))

theorem exists_ok {α : Type} {result : Except Fault α} (h : result.isOk = true) : ∃ a, result = .ok a := by
  cases result with
  | error e => cases h
  | ok a => exact ⟨a, rfl⟩

theorem State.Reorders.summarize (h : t.Reorders t') : t.summarize.Reorders t'.summarize :=
  ⟨h.skippedFields, h.skippedBlocks, h.warnings, h.globals, h.used, h.richTextUsed, h.unusable⟩

/-- The order of the records of an orderly document has no influence on how a run ends, on what is skipped and
warned of, on which global fields are declared, which names are used, and whether rich text is. Where there
are no fields of blocks, the declarations are the same too, and the code changes in their order only. -/
theorem runFrom_reordered (ho : input.Orderly) (hperm : input.records.Perm records) :
    ∃ s, start input = .ok s ∧ start (input.ordered records) = .ok s ∧
      (runFrom input s).2.Reorders (runFrom (input.ordered records) s).2 ∧
      (input.Blockless → (runFrom input s).2.globals.Perm (runFrom (input.ordered records) s).2.globals) ∧
      SameEnds (fun o o' => input.Blockless →
          o.Reorders o' ∧ (o.parts input.style).Perm (o'.parts input.style))
        (runFrom input s).1 (runFrom (input.ordered records) s).1 := by
  have ho' := ho.reorder hperm
  have hs := ho.start_eq
  have hs' : start (input.ordered records) = .ok { richTextUsed := input.records.any allowsRichText } := by
    rw [ho'.start_eq, hperm.any_eq]
    rfl
  obtain ⟨steps, result, t, h⟩ := passes_end input input.records 0 _
  obtain ⟨steps', result', t', h'⟩ := passes_end (input.ordered records) records 0 _
  refine ⟨_, hs, hs', ?_⟩
  obtain ⟨ds, rfl⟩ := exists_ok (h.accounts ho (List.Subset.refl _) (sound_start hs)).1
  obtain ⟨ds', rfl⟩ := exists_ok (h'.accounts ho' (List.Subset.refl _) (sound_start hs')).1
  have hreorders := h.reorders ho hperm hs hs' h'
  have hglobals := fun hblockless => h.globals_reorder ho hperm hblockless hs hs' h'
  have hvisit : visitRecords (input.ordered records) (input.ordered records).records _ = _ := h'.visit_eq
  rw [runFrom_eq h.visit_eq, runFrom_eq hvisit, hreorders.unusable.isEmpty_eq]
  split
  · refine ⟨hreorders.summarize, hglobals, .ok fun hblockless => ?_⟩
    have houtput := h.output_reorders ho hperm hblockless hs hs' h'
    exact ⟨houtput, houtput.parts input.style⟩
  · refine ⟨hreorders.summarize, hglobals, .unusableNames ?_⟩
    rw [violations_record, violations_record]
    exact hreorders.unusable

theorem parts_referringPage : referringPage.parts =
    [.field ⟨{ uid := .text "seo", kind := .globalField, tag := "global_field" }, none, []⟩,
      .field (titled "keywords")] := by rfl

theorem named_referringPage : referringPage.named = [.text "page", .text "seo", .text "seo"] := by rfl

theorem orderly_referringPage : referringPage.Orderly where
  wellTyped := by
    rw [parts_referringPage]
    simp only [List.forall_mem_cons]
    exact ⟨⟨⟨_, rfl⟩, .inl rfl, ⟨_, rfl⟩, .inl rfl⟩, ⟨⟨_, rfl⟩, .inl rfl, ⟨_, rfl⟩, .inl rfl⟩, by simp⟩
  uids := by
    simp only [referringPage, List.forall_mem_cons]
    exact ⟨⟨_, rfl⟩, ⟨_, rfl⟩, by simp⟩
  distinct := by simp [referringPage, seoRecord]
  injective := by
    have hne : Naming.pascalCase "page" ≠ Naming.pascalCase "seo" := by decide +kernel
    intro a b ha hb h
    simp only [named_referringPage, List.mem_cons, Json.text.injEq, List.not_mem_nil, or_false, or_self] at ha hb
    rcases ha with rfl | rfl <;> rcases hb with rfl | rfl
    · rfl
    · exact absurd h hne
    · exact absurd h.symm hne
    · rfl
  bare := by
    rw [parts_referringPage]
    simp only [List.forall_mem_cons]
    exact ⟨fun _ => rfl, fun _ => rfl, by simp⟩

theorem runFrom_reordered_referringPage :
    referringPage.Orderly ∧ referringPage.Blockless ∧
      referringPage.records.Perm referringPage.records.reverse ∧
      ∃ s o o', start referringPage = .ok s ∧ (runFrom referringPage s).1 = .ok o ∧
        (runFrom (referringPage.ordered referringPage.records.reverse) s).1 = .ok o' ∧
        (o.parts referringPage.style).Perm (o'.parts referringPage.style) := by
  have hperm := (List.reverse_perm referringPage.records).symm
  have hblockless : referringPage.Blockless := by
    intro field hf
    rw [parts_referringPage] at hf
    simp only [List.mem_cons, Part.field.injEq, List.not_mem_nil, or_false] at hf
    rcases hf with rfl | rfl <;> simp [titled]
  have hok : (runFrom referringPage {}).1.isOk = true := by decide +kernel
  have hstart : start referringPage = .ok {} := by rfl
  obtain ⟨s, hs, -, -, -, hends⟩ := runFrom_reordered orderly_referringPage hperm
  obtain rfl := Except.ok.inj (hstart.symm.trans hs)
  refine ⟨orderly_referringPage, hblockless, hperm, {}, ?_⟩
  generalize (runFrom referringPage {}).1 = ends at hok hends
  generalize (runFrom (referringPage.ordered referringPage.records.reverse) {}).1 = ends' at hends
  cases hends with
  | ok h => exact ⟨_, _, hstart, rfl, rfl, (h hblockless).2⟩
  | unusableNames => cases hok

end SchemaDecl.Generation

import SchemaDecl.Proofs.Generation.GlobalFields
import SchemaDecl.Proofs.Generation.Parallel
import SchemaDecl.Proofs.Schema.RichText

/-!
# One more record

A visit does not read the accounts that it keeps, so it does the same whatever they hold, and only ever adds
to them. Hence a record at the end of the list, which nothing before it looks up, takes nothing away from what
a run over the other records comes to: it only adds to the end, and may bring in rich text.
-/

namespace SchemaDecl.Generation

/-- The state with its accounts put after those of another. -/
def State.following (s before : State) : State :=
  { s with
    skippedFields := before.skippedFields ++ s.skippedFields
    skippedBlocks := before.skippedBlocks ++ s.skippedBlocks
    warnings := before.warnings ++ s.warnings
    contentTypes := before.contentTypes ++ s.contentTypes
    richTextUsed := before.richTextUsed || s.richTextUsed }

/-- The state with its accounts still empty. -/
def State.blank (s : State) : State :=
  { s with skippedFields := [], skippedBlocks := [], warnings := [], contentTypes := [], richTextUsed := false }

section Following

variable {input : Input} {style : Style} {records : List Record} (s before : State)

theorem State.blank_following : s.blank.following s = s := by
  simp [State.blank, State.following]

theorem State.following_empty : s.following {} = s := by
  simp [State.following]

theorem after_skip_following (place : SkipPlace) (cause : SkipCause) (uid path : Json) :
    (s.following before).after (skip place cause uid path) =
      (s.after (skip place cause uid path)).following before := by
  unfold skip
  rw [after_modify, after_modify]
  cases place <;> simp [State.following]

theorem after_refuse_following (target : Json) :
    (s.following before).after (refuse target) = (s.after (refuse target)).following before := by
  unfold refuse
  rw [after_modify, after_modify, show (s.following before).owner = s.owner from rfl]
  split
  · split <;> rfl
  · rfl

theorem unionName_following (uid : Json) (blocks : Blocks) :
    unionName style uid blocks (s.following before) =
      ((unionName style uid blocks s).1, (unionName style uid blocks s).2.following before) := by
  rw [unionName_apply, unionName_apply, show (s.following before).findUnion? = s.findUnion? from rfl]
  cases (signatureOf style blocks).uids.mapM asKey with
  | error e => rfl
  | ok keys =>
    cases s.findUnion? (signatureOf style blocks) with
    | some name => rfl
    | none => cases Naming.declare? style.lead uid <;> rfl

theorem recordName_following (r : Record) :
    recordName input r (s.following before) =
      ((recordName input r s).1, (recordName input r s).2.following before) := by
  cases hu : r.uid with
  | text uid =>
    rw [recordName_text hu, recordName_text hu]
    split <;> rfl
  | _ =>
    unfold recordName
    rw [hu]
    rfl

end Following

theorem object_eq_of_alike {members members' : List Member}
    (h : List.Forall₂ (Member.Alike Eq) members members') : TypeExpr.object members = .object members' := by
  rw [eq_of_alike h]

/-- Two passes over the same records whose accounts follow different ones, and which know the same records
under all targets that are looked up. -/
def accounted (input : Input) (records : List Record) (before before' : State)
    (hrecord : ∀ target ∈ input.lookups, Input.record? ⟨input.style, records⟩ target = input.record? target) :
    Parallel input ⟨input.style, records⟩ where
  states s s' := ∃ w : State, s = w.following before ∧ s' = w.following before'
  names := Eq
  types := Eq
  declarations := Eq
  targets target := Input.record? ⟨input.style, records⟩ target = input.record? target
  lookups := hrecord
  record? h := h
  declare? h := ⟨_, h, rfl, rfl⟩
  builtin _ := rfl
  isDeclared := by
    rintro _ _ _ _ ⟨w, rfl, rfl⟩ rfl
    rfl
  skip := by
    rintro _ _ place cause uid path ⟨w, rfl, rfl⟩
    exact ⟨_, after_skip_following w before _ _ _ _, after_skip_following w before' _ _ _ _⟩
  refuse := by
    rintro _ _ target ⟨w, rfl, rfl⟩
    exact ⟨_, after_refuse_following w before target, after_refuse_following w before' target⟩
  track := by
    rintro _ _ used _ category h ⟨w, rfl, rfl⟩
    rw [category.alike_eq, List.forall₂_eq_eq_eq] at h
    subst h
    exact ⟨w.after (track category used), rfl, rfl⟩
  richText := by
    rintro _ _ ⟨w, rfl, rfl⟩
    exact ⟨{ w with richTextUsed := true }, by simp [State.following], by simp [State.following]⟩
  opened := by
    rintro _ _ name _ ⟨w, rfl, rfl⟩ rfl
    exact ⟨w.opened name, rfl, rfl⟩
  closed := by
    rintro _ _ _ _ name _ _ members description ⟨w, rfl, rfl⟩ rfl ⟨v, rfl, rfl⟩ h
    obtain rfl := eq_of_alike h
    exact ⟨v.closed w.scope name ⟨v.scope, ⟨name, description, false, members⟩⟩, rfl, rfl⟩
  named := by
    rintro r _ _ t uid name _ ⟨w, rfl, rfl⟩ h
    rw [recordName_following] at h
    obtain ⟨hname, rfl⟩ := Prod.mk.inj h
    refine ⟨name, (recordName input r w).2.following before', (recordName_following w before' r).trans ?_, rfl, _,
      rfl, rfl⟩
    exact Prod.ext hname rfl
  entered := by
    rintro _ _ name _ uid ⟨w, rfl, rfl⟩ rfl
    exact ⟨w.entered name uid, by simp [State.following, State.entered], by simp [State.following, State.entered]⟩
  left := by
    rintro _ _ _ _ ⟨w, rfl, rfl⟩ ⟨v, rfl, rfl⟩
    exact ⟨v.left w, rfl, rfl⟩
  contentType := by
    rintro _ _ _ _ _ _ r ⟨w, rfl, rfl⟩ rfl h
    obtain rfl := eq_of_alike h
    rfl
  refl _ := rfl
  declared h := congrArg _ h
  references h := by
    rw [List.forall₂_eq_eq_eq] at h
    rw [h]
  object := object_eq_of_alike
  repeated _ _ _ _ h := by rw [h]
  union := by
    rintro _ _ _ _ _ name _ _ ⟨w, rfl, rfl⟩ hb h
    obtain rfl := blocks_eq_of_alike hb
    rw [unionName_following] at h
    obtain ⟨hname, rfl⟩ := Prod.mk.inj h
    refine ⟨name, _, (unionName_following w before' _ _).trans ?_, rfl, _, rfl, rfl⟩
    exact Prod.ext hname rfl

variable {input : Input} {style : Style} {records records' : List Record} {r : Record} {s s' t t' : State}
  {ds : List Declaration}

theorem visitRecords_append (records records' : List Record) :
    visitRecords input (records ++ records') = do
      let ds ← visitRecords input records
      let ds' ← visitRecords input records'
      return ds ++ ds' := by
  induction records with
  | nil => simp [visitRecords]
  | cons r rest ih =>
    rw [List.cons_append, visitRecords, visitRecords, ih]
    split <;> simp

/-- The second state goes on from the first: its global fields and its accounts begin with those of the
first. -/
structure State.ExtendedBy (s t : State) : Prop where
  globals : s.globals <+: t.globals
  skippedFields : s.skippedFields <+: t.skippedFields
  skippedBlocks : s.skippedBlocks <+: t.skippedBlocks
  warnings : s.warnings <+: t.warnings
  contentTypes : s.contentTypes <+: t.contentTypes
  richTextUsed : s.richTextUsed = true → t.richTextUsed = true

theorem State.ExtendedBy.trans {u : State} (h : s.ExtendedBy t) (h' : t.ExtendedBy u) : s.ExtendedBy u :=
  ⟨h.globals.trans h'.globals, h.skippedFields.trans h'.skippedFields, h.skippedBlocks.trans h'.skippedBlocks,
    h.warnings.trans h'.warnings, h.contentTypes.trans h'.contentTypes, h'.richTextUsed ∘ h.richTextUsed⟩

theorem State.ExtendedBy.declared (h : s.ExtendedBy t) : s.declared <+: t.declared := h.globals.filterMap _

theorem visitRecords_extends (hsub : records ⊆ input.records) (h : visitRecords input records s = (.ok ds, t)) :
    s.ExtendedBy t := by
  -- The pass is one from blank accounts, whose accounts are put after those of `s`.
  have hs : (accounted input input.records s {} fun _ _ => rfl).states s s.blank :=
    ⟨s.blank, s.blank_following.symm, s.blank.following_empty.symm⟩
  obtain ⟨_, _, -, -, w, rfl, -⟩ := Parallel.follows_records records hsub _ _ _ _ hs h
  obtain ⟨steps, result, u, hp⟩ := passes_end input records 0 s
  obtain ⟨rfl, rfl⟩ := Prod.mk.inj (hp.visit_eq.symm.trans h)
  obtain ⟨gs, hgs, -⟩ := (hp.resolves rfl).complete
  refine ⟨hgs ▸ List.prefix_append _ _, ?_, ?_, ?_, ?_, fun hrich => ?_⟩
  · exact List.prefix_append s.skippedFields w.skippedFields
  · exact List.prefix_append s.skippedBlocks w.skippedBlocks
  · exact List.prefix_append s.warnings w.warnings
  · exact List.prefix_append s.contentTypes w.contentTypes
  · simp [State.following, hrich]

theorem recordsRichText_append (records records' : List Record) :
    recordsRichText (records ++ records') = orFind (recordsRichText records) (recordsRichText records') := by
  induction records with
  | nil => rfl
  | cons r rest ih => rw [List.cons_append, recordsRichText, recordsRichText, ih, orFind_assoc]

theorem start_append (hs : start ⟨style, records⟩ = .ok s) (hs' : start ⟨style, records ++ records'⟩ = .ok s') :
    s'.richTextUsed = true ∨ s.richTextUsed = false := by
  have hrich := start_richText hs'
  rw [recordsRichText_append, start_richText hs] at hrich
  cases hb : s.richTextUsed with
  | false => exact .inr rfl
  | true =>
    rw [hb] at hrich
    exact .inl (Except.ok.inj hrich).symm

theorem record?_append {target : Json} (h : target ≠ r.uid) :
    Input.record? ⟨style, records ++ [r]⟩ target = Input.record? ⟨style, records⟩ target := by
  have hnone : [r].find? (fun r => r.uid == target) = none := by
    rw [List.find?_singleton, if_neg]
    exact fun he => h (Json.eq_of_beq he).symm
  rw [Input.record?, Input.record?, List.find?_append, hnone, Option.or_none]

/-- Two passes that begin with empty accounts, one of which may know of rich text beforehand. -/
theorem accounted_start {b b' : Bool} (h : b' = true ∨ b = false)
    (hrecord : ∀ target ∈ input.lookups, Input.record? ⟨input.style, records⟩ target = input.record? target) :
    (accounted input records {} { richTextUsed := b' } hrecord).states { richTextUsed := b }
      { richTextUsed := b' } := by
  refine ⟨{ richTextUsed := b }, rfl, ?_⟩
  rcases h with rfl | rfl
  · rfl
  · exact congrArg (fun richTextUsed => ({ richTextUsed } : State)) (Bool.or_false b').symm

theorem State.following_extends (w : State) (b : Bool) :
    (w.following {}).ExtendedBy (w.following { richTextUsed := b }) := by
  refine ⟨List.prefix_refl _, List.prefix_refl _, List.prefix_refl _, List.prefix_refl _, List.prefix_refl _, ?_⟩
  intro hw
  rw [State.following_empty] at hw
  simp [State.following, hw]

/-- A pass with one more record at the end does the same up to there, and goes on from that. -/
theorem visitRecords_extended {ds' : List Declaration} (hr : r.uid ∉ Input.lookups ⟨style, records⟩)
    (hs : start ⟨style, records⟩ = .ok s) (hs' : start ⟨style, records ++ [r]⟩ = .ok s')
    (h : visitRecords ⟨style, records⟩ records s = (.ok ds, t))
    (h' : visitRecords ⟨style, records ++ [r]⟩ (records ++ [r]) s' = (.ok ds', t')) :
    ds <+: ds' ∧ t.ExtendedBy t' := by
  have hrich := start_append hs hs'
  obtain ⟨b, rfl⟩ := start_eq hs
  obtain ⟨b', rfl⟩ := start_eq hs'
  have hrecord : ∀ target ∈ Input.lookups ⟨style, records⟩,
      Input.record? ⟨style, records ++ [r]⟩ target = Input.record? ⟨style, records⟩ target :=
    fun target ht => record?_append fun he => hr (he ▸ ht)
  obtain ⟨ds₁, _, h₁, hds, w, rfl, rfl⟩ :=
    Parallel.follows_records records (List.Subset.refl _) _ _ _ _ (accounted_start hrich hrecord) h
  rw [visitRecords_append, bind_of_ok h₁] at h'
  rcases h₂ : visitRecords ⟨style, records ++ [r]⟩ [r] (w.following { richTextUsed := b' }) with ⟨e | ds₂, u⟩
  · rw [bind_of_error h₂] at h'
    cases h'
  · rw [bind_of_ok h₂] at h'
    cases h'
    obtain rfl : ds = ds₁ := List.forall₂_eq_eq_eq ▸ hds
    refine ⟨List.prefix_append _ _, (w.following_extends b').trans (visitRecords_extends ?_ h₂)⟩
    exact List.subset_append_right _ _

/-- The list itself, or the list with one more entry somewhere. -/
def Inserted {α : Type} (a : α) (as bs : List α) : Prop :=
  bs = as ∨ ∃ front rear, as = front ++ rear ∧ bs = front ++ a :: rear

theorem select_eq (style : Style) : ∃ front rear, ∀ richTextUsed, Prelude.select style richTextUsed =
    front ++ (if richTextUsed then [Prelude.richText.render (Prelude.context style)] else []) ++ rear :=
  ⟨_, _, fun _ => List.append_assoc _ _ _⟩

theorem select_inserted (style : Style) {b b' : Bool} (h : b = true → b' = true) :
    Inserted (Prelude.richText.render (Prelude.context style)) (Prelude.select style b)
      (Prelude.select style b') := by
  obtain ⟨front, rear, hselect⟩ := select_eq style
  rw [hselect, hselect]
  cases b with
  | true => exact .inl (by rw [h rfl])
  | false =>
    cases b' with
    | false => exact .inl rfl
    | true => exact .inr ⟨front, rear, by simp, by simp⟩

/-- Everything in the first output stands in the second one too, and nothing comes between. -/
structure Output.ExtendedBy (style : Style) (o o' : Output) : Prop where
  prelude : Inserted (Prelude.richText.render (Prelude.context style)) o.prelude o'.prelude
  globals : o.globals <+: o'.globals
  contentTypes : o.contentTypes <+: o'.contentTypes

structure Metadata.ExtendedBy (m m' : Metadata) : Prop where
  names : m.names <+: m'.names
  definitions : m.definitions <+: m'.definitions
  skippedFields : m.skippedFields <+: m'.skippedFields
  skippedBlocks : m.skippedBlocks <+: m'.skippedBlocks

/-- A record at the end of a list takes nothing away from what a run over the others produces, if no reference
among the fields of the others looks it up. The content types have the same declarations and come first, in the
same order. The global fields and their texts, the names, the skips and the warnings are those of the run
without the record, and then more of them. Before the declarations, rich text may have come in. -/
theorem run_extended {o o' : Output} (hr : r.uid ∉ Input.lookups ⟨style, records⟩)
    (hs : start ⟨style, records⟩ = .ok s) (hs' : start ⟨style, records ++ [r]⟩ = .ok s')
    (h : runFrom ⟨style, records⟩ s = (.ok o, t)) (h' : runFrom ⟨style, records ++ [r]⟩ s' = (.ok o', t')) :
    o.ExtendedBy style o' ∧ (t.metadata style).ExtendedBy (t'.metadata style) ∧ t.warnings <+: t'.warnings := by
  obtain ⟨_, u, hp, -, rfl, ho⟩ := runFrom_ok h
  obtain ⟨_, u', hp', -, rfl, ho'⟩ := runFrom_ok h'
  obtain ⟨hds, hu⟩ := visitRecords_extended hr hs hs' hp.visit_eq hp'.visit_eq
  have hdeclared : u.summarize.declared <+: u'.summarize.declared := hu.declared
  refine ⟨⟨?_, ?_, hds⟩, ⟨hu.contentTypes, hdeclared.map _, hu.skippedFields, hu.skippedBlocks⟩, hu.warnings⟩
  · rw [ho, ho']
    exact select_inserted style hu.richTextUsed
  · rw [ho, ho']
    exact hdeclared.map _

def articleRecord : Record :=
  let body : Field := ⟨{ uid := .text "body", kind := .json, tag := "json" }, none, []⟩
  let seo : Field := ⟨{ uid := .text "seo", kind := .globalField, tag := "global_field" }, none, []⟩
  ⟨.text "article", .null, .null, some [body, seo], false⟩

theorem run_extended_articleRecord :
    articleRecord.uid ∉ referringPage.lookups ∧ start referringPage = .ok {} ∧
      start ⟨{}, referringPage.records ++ [articleRecord]⟩ = .ok {} ∧
      ∃ o t o' t', runFrom referringPage {} = (.ok o, t) ∧
        runFrom ⟨{}, referringPage.records ++ [articleRecord]⟩ {} = (.ok o', t') ∧
        o.ExtendedBy {} o' ∧ o'.prelude ≠ o.prelude ∧ (t.metadata {}).ExtendedBy (t'.metadata {}) := by
  have hlookups : articleRecord.uid ∉ referringPage.lookups := by
    have heq : referringPage.lookups = [.text "seo"] := by decide +kernel
    rw [heq]
    simp [articleRecord]
  have hs : start referringPage = .ok {} := by rfl
  have hs' : start ⟨{}, referringPage.records ++ [articleRecord]⟩ = .ok {} := by rfl
  have hok : (runFrom referringPage {}).1.toOption.map (fun o => o.prelude.length) = some 5 := by decide +kernel
  have hok' : (runFrom ⟨{}, referringPage.records ++ [articleRecord]⟩ {}).1.toOption.map
      (fun o => o.prelude.length) = some 6 := by decide +kernel
  rcases h : runFrom referringPage {} with ⟨e | o, t⟩
  · rw [h] at hok
    cases hok
  rcases h' : runFrom ⟨{}, referringPage.records ++ [articleRecord]⟩ {} with ⟨e | o', t'⟩
  · rw [h'] at hok'
    cases hok'
  obtain ⟨houtput, hmetadata, -⟩ := run_extended hlookups hs hs' h h'
  refine ⟨hlookups, hs, hs', o, t, o', t', rfl, rfl, houtput, fun he => ?_, hmetadata⟩
  rw [h] at hok
  rw [h'] at hok'
  have hlength : some o'.prelude.length = some 5 := (congrArg (fun p => some (List.length p)) he).trans hok
  cases hok'.symm.trans hlength

end SchemaDecl.Generation

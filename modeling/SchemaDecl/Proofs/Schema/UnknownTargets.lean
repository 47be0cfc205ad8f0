import SchemaDecl.Proofs.Generation.Agreement
import SchemaDecl.Proofs.Generation.Reordered
import SchemaDecl.Proofs.Json.Same
import SchemaDecl.Schema.Check

/-!
# Warnings of unknown targets

A global field without fields of its own needs a record. The check warns of it if none of its targets is the uid of a
record; a pass looks for one uid only, that of the first target, or of the field itself where it has no target. So the
two differ over a field without targets that goes by the uid of a record, and over one whose first target is unknown
while another is not.
-/

namespace SchemaDecl

variable {records rest : List Record} {r : Record} {field : Field} {fields : List Field} {known seen : List Json}

def Warning.isUnknownTarget : Warning → Bool
  | unknownTarget _ _ _ => true
  | _ => false

/-- A global field without fields of its own. -/
def Field.isHollow (field : Field) : Bool := field.attrs.kind = .globalField && field.schema?.isNone

/-- None of the targets of the hollow field is the uid of a record. -/
def Field.isUnmet (records : List Record) (field : Field) : Bool :=
  field.isHollow && !(field.attrs.targets.toOption.getD []).any fun target => records.any fun r => r.uid == target

/-- The warning of a field of a record. -/
def Field.unmetWarning (r : Record) (field : Field) : Warning := .unknownTarget r.uid field.attrs.uid field.attrs.target

def unmetWarnings (records : List Record) : List Warning :=
  records.flatMap fun r => (r.fields.filter (·.isUnmet records)).map (·.unmetWarning r)

/-- The uids are texts, and so are the targets of hollow fields. -/
structure TextKeys (records : List Record) : Prop where
  uids : ∀ r ∈ records, ∃ uid, r.uid = .text uid
  targets : ∀ r ∈ records, ∀ field ∈ r.fields, field.isHollow = true →
    ∃ texts : List String, field.attrs.targets = .ok (texts.map Json.text)

theorem uid_beq_iff {uid : Json} : (r.uid == uid) = true ↔ r.uid = uid := Json.beq_iff_eq

theorem isAmong_uids (huids : ∀ r ∈ records, ∃ uid, r.uid = .text uid) (s : String) :
    isAmong (.text s) (records.map Record.uid) = records.any fun r => r.uid == .text s := by
  rw [isAmong, List.any_map, Bool.eq_iff_iff, List.any_eq_true, List.any_eq_true]
  refine exists_congr fun r => and_congr_right fun hr => ?_
  obtain ⟨uid, huid⟩ := huids r hr
  rw [uid_beq_iff, Function.comp, huid, Json.text.injEq]
  simp [Json.sameKey, eq_comm]

theorem checkField_hollow (hk : TextKeys records) (hr : r ∈ records) (hf : field ∈ r.fields) :
    checkField r.uid (records.map Record.uid) field =
      .ok (if field.isUnmet records then [field.unmetWarning r] else []) := by
  have htargets := hk.targets r hr field hf
  obtain ⟨attrs, schema?, blocks⟩ := field
  cases schema? with
  | some fields => rw [checkField, Field.isUnmet, Field.isHollow] <;> simp
  | none =>
    rw [checkField, Field.isUnmet]
    by_cases hkind : attrs.kind = .globalField
    · have hhollow : Field.isHollow ⟨attrs, none, blocks⟩ = true := by simp [Field.isHollow, hkind]
      obtain ⟨texts, htexts⟩ := htargets hhollow
      have hkeys : (texts.map Json.text).mapM asKey = .ok (texts.map Json.text) :=
        Generation.mapM_asKey_texts (List.forall_mem_map.2 fun s _ => ⟨s, rfl⟩)
      have hany : (texts.map Json.text).any (isAmong · (records.map Record.uid)) =
          (texts.map Json.text).any fun target => records.any fun r => r.uid == target := by
        rw [List.any_map, List.any_map]
        exact congrArg texts.any (funext fun s => isAmong_uids hk.uids s)
      rw [if_pos hkind, hhollow]
      dsimp only at htexts ⊢
      rw [htexts]
      change ((texts.map Json.text).mapM asKey).bind _ = _
      rw [hkeys]
      change (if (texts.map Json.text).any _ then _ else _) = _
      rw [hany]
      change _ = Except.ok (if (true && !(texts.map Json.text).any _) = true then _ else _)
      cases (texts.map Json.text).any fun target => records.any fun r => r.uid == target <;> rfl
    · rw [if_neg hkind]
      simp [Field.isHollow, hkind]

theorem checkFields_unmet (hk : TextKeys records) (hr : r ∈ records) (hf : ∀ field ∈ fields, field ∈ r.fields) :
    ∃ warnings, fields.mapM (checkField r.uid (records.map Record.uid)) = .ok warnings ∧
      warnings.flatten = (fields.filter (·.isUnmet records)).map (·.unmetWarning r) := by
  induction fields with
  | nil => exact ⟨[], rfl, rfl⟩
  | cons field rest ih =>
    obtain ⟨hfield, hrest⟩ := List.forall_mem_cons.1 hf
    obtain ⟨warnings, hwarnings, hflat⟩ := ih hrest
    refine ⟨_, by rw [List.mapM_cons, checkField_hollow hk hr hfield, hwarnings]; rfl, ?_⟩
    rw [List.flatten_cons, hflat, List.filter_cons]
    cases field.isUnmet records <;> rfl

theorem filter_isUnknownTarget (fields : List Field) (r : Record) :
    (fields.map (·.unmetWarning r)).filter Warning.isUnknownTarget = fields.map (·.unmetWarning r) := by
  refine List.filter_eq_self.2 fun warning hw => ?_
  obtain ⟨field, -, rfl⟩ := List.mem_map.1 hw
  rfl

theorem checkRecord_unmet (hk : TextKeys records) (hr : r ∈ records) (seen : List Json) :
    ∃ warnings, checkRecord (records.map Record.uid) seen r = .ok warnings ∧
      warnings.filter Warning.isUnknownTarget = (r.fields.filter (·.isUnmet records)).map (·.unmetWarning r) := by
  obtain ⟨warnings, hwarnings, hflat⟩ := checkFields_unmet hk hr fun _ h => h
  have hduplicate :
      (if isAmong r.uid seen then [Warning.duplicate r.uid] else []).filter Warning.isUnknownTarget = [] := by
    split <;> rfl
  have hempty : (if r.fields.isEmpty then [Warning.noFields r.uid] else []).filter Warning.isUnknownTarget = [] := by
    split <;> rfl
  refine ⟨_, by rw [checkRecord, hwarnings]; rfl, ?_⟩
  rw [List.filter_append, List.filter_append, hduplicate, hempty, hflat, filter_isUnknownTarget]
  rfl

/-- Record by record, the warnings of unknown targets are those of the unmet fields. -/
theorem checkFrom_unmet (hk : TextKeys records) (hr : ∀ r ∈ rest, r ∈ records) (seen : List Json) :
    ∃ warnings, checkFrom (records.map Record.uid) seen rest = .ok warnings ∧
      warnings.filter Warning.isUnknownTarget =
        rest.flatMap fun r => (r.fields.filter (·.isUnmet records)).map (·.unmetWarning r) := by
  induction rest generalizing seen with
  | nil => exact ⟨[], rfl, rfl⟩
  | cons r rest ih =>
    obtain ⟨hhead, hrest⟩ := List.forall_mem_cons.1 hr
    obtain ⟨warnings, hwarnings, hunmet⟩ := checkRecord_unmet hk hhead seen
    obtain ⟨others, hothers, hunmet'⟩ := ih hrest (seen ++ [r.uid])
    refine ⟨warnings ++ others, by rw [checkFrom, hwarnings, hothers]; rfl, ?_⟩
    rw [List.filter_append, hunmet, hunmet', List.flatMap_cons]

theorem checkRecords_unmet (hk : TextKeys records) :
    ∃ warnings, checkRecords records = .ok warnings ∧
      warnings.filter Warning.isUnknownTarget = unmetWarnings records := by
  obtain ⟨warnings, hwarnings, hunmet⟩ := checkFrom_unmet hk (fun _ h => h) []
  exact ⟨warnings, by rw [checkRecords, Generation.mapM_asKey_uids hk.uids]; exact hwarnings, hunmet⟩

namespace Generation

variable {input : Input} {uid : Json}

theorem record?_eq_none_iff : input.record? uid = none ↔ ∀ r ∈ input.records, r.uid ≠ uid := by
  rw [Input.record?, List.find?_eq_none]
  exact forall₂_congr fun r _ => not_congr uid_beq_iff

theorem isUnmet_iff {targets : List Json} (input : Input) (hhollow : field.isHollow = true)
    (htargets : field.attrs.targets = .ok targets) :
    field.isUnmet input.records = true ↔ ∀ target ∈ targets, input.record? target = none := by
  rw [Field.isUnmet, hhollow, htargets, Bool.true_and, Bool.not_eq_true']
  change (targets.any fun target => input.records.any fun r => r.uid == target) = false ↔ _
  simp only [List.any_eq_false, List.any_eq_true, not_exists, not_and, record?_eq_none_iff, uid_beq_iff, ne_eq]

theorem globalTarget_eq {targets : List Json} (htargets : field.attrs.targets = .ok targets) :
    globalTarget field.attrs = .ok (targets.headD field.attrs.uid) := by
  rw [globalTarget, htargets]
  rfl

end Generation

/-- Among records whose uids and targets are texts, the check comes to an end, and its warnings of unknown targets are,
in the order of records and fields, those of the hollow fields with no target that is the uid of a record. The uid that
a pass looks for is the first target, or the uid of the field where it has no target. The warning tells whether a pass
finds no record, except over a field without targets that goes by the uid of a record, and over one whose first target
is unknown while another is not. -/
theorem unknownTarget_warned (style : Style) (hk : TextKeys records) :
    (∃ warnings, checkRecords records = .ok warnings ∧
        warnings.filter Warning.isUnknownTarget = unmetWarnings records) ∧
      ∀ r ∈ records, ∀ field ∈ r.fields, field.isHollow = true →
        ∃ targets target, field.attrs.targets = .ok targets ∧ Generation.globalTarget field.attrs = .ok target ∧
          target = targets.headD field.attrs.uid ∧
          (field.isUnmet records = true ↔
            ∀ other ∈ targets, (Generation.Input.mk style records).record? other = none) ∧
          ((field.isUnmet records = true ↔ (Generation.Input.mk style records).record? target = none) ↔
            (targets = [] → (Generation.Input.mk style records).record? target = none) ∧
            ((Generation.Input.mk style records).record? target = none →
              ∀ other ∈ targets, (Generation.Input.mk style records).record? other = none)) := by
  refine ⟨checkRecords_unmet hk, fun r hr field hf hhollow => ?_⟩
  obtain ⟨texts, htargets⟩ := hk.targets r hr field hf hhollow
  have hunmet := Generation.isUnmet_iff ⟨style, records⟩ hhollow htargets
  refine ⟨_, _, htargets, Generation.globalTarget_eq htargets, rfl, hunmet, ?_⟩
  rw [hunmet]
  cases texts with
  | nil => simp
  | cons first rest =>
    -- the first target is among the targets, so that only one direction can fail
    have hfirst : (∀ other ∈ (first :: rest).map Json.text,
        (Generation.Input.mk style records).record? other = none) →
        (Generation.Input.mk style records).record? (((first :: rest).map Json.text).headD field.attrs.uid) = none :=
      fun h => h _ List.mem_cons_self
    exact ⟨fun h => ⟨by rintro ⟨⟩, h.2⟩, fun h => ⟨hfirst, h.2⟩⟩

def globalField (uid : String) (target : Json) : Field :=
  ⟨{ uid := .text uid, kind := .globalField, tag := "global_field", target }, none, []⟩

def pageWith (fields : List Field) : List Record :=
  [{ uid := .text "page", schema? := some fields },
   { uid := .text "seo", schema? := some [⟨{ uid := .text "title", kind := .text, tag := "text" }, none, []⟩]
     isGlobal := true }]

/-- A field without targets that goes by the uid of a record. -/
def ownUid : Field := globalField "seo" .null

/-- A field whose first target is unknown, while another is not. -/
def secondTarget : Field := globalField "meta" (.list [.text "lost", .text "seo"])

/-- A field whose one target is unknown. -/
def lostTarget : Field := globalField "hero" (.text "hero")

theorem textKeys_pageWith : TextKeys (pageWith [ownUid, secondTarget, lostTarget]) where
  uids r hr := by
    simp only [pageWith, List.mem_cons, List.not_mem_nil, or_false] at hr
    rcases hr with rfl | rfl
    · exact ⟨"page", rfl⟩
    · exact ⟨"seo", rfl⟩
  targets r hr field hf hhollow := by
    simp only [pageWith, List.mem_cons, List.not_mem_nil, or_false] at hr
    rcases hr with rfl | rfl
    · simp only [Record.fields, Option.getD_some, List.mem_cons, List.not_mem_nil, or_false] at hf
      rcases hf with rfl | rfl | rfl
      · exact ⟨[], rfl⟩
      · exact ⟨["lost", "seo"], rfl⟩
      · exact ⟨["hero"], rfl⟩
    · simp only [Record.fields, Option.getD_some, List.mem_cons, List.not_mem_nil, or_false] at hf
      subst hf
      cases hhollow

/-- There are warnings of the first field and of the last; only that of the last tells that no record is found. -/
theorem unknownTarget_warned_pageWith :
    TextKeys (pageWith [ownUid, secondTarget, lostTarget]) ∧
      (∃ warnings, checkRecords (pageWith [ownUid, secondTarget, lostTarget]) = .ok warnings ∧
        warnings.filter Warning.isUnknownTarget =
          [.unknownTarget (.text "page") (.text "seo") .null,
            .unknownTarget (.text "page") (.text "hero") (.text "hero")]) ∧
      ∃ targets target, secondTarget.attrs.targets = .ok targets ∧
        Generation.globalTarget secondTarget.attrs = .ok target ∧
        ((Generation.Input.mk {} (pageWith [ownUid, secondTarget, lostTarget])).record? target).isNone = true ∧
        secondTarget.isUnmet (pageWith [ownUid, secondTarget, lostTarget]) = false := by
  obtain ⟨⟨warnings, hwarnings, hunmet⟩, hfields⟩ := unknownTarget_warned {} textKeys_pageWith
  refine ⟨textKeys_pageWith, ⟨warnings, hwarnings, hunmet.trans rfl⟩, ?_⟩
  obtain ⟨targets, target, htargets, htarget, rfl, -⟩ :=
    hfields _ List.mem_cons_self secondTarget (List.mem_cons_of_mem _ List.mem_cons_self) rfl
  cases htargets
  exact ⟨_, _, rfl, htarget, rfl, rfl⟩

/-- There is a warning of a field without targets, and a pass finds the record that has its uid. -/
theorem ownUid_warned :
    checkRecords (pageWith [ownUid]) = .ok [.unknownTarget (.text "page") (.text "seo") .null] ∧
      Generation.globalTarget ownUid.attrs = .ok (.text "seo") ∧
      ((Generation.Input.mk {} (pageWith [ownUid])).record? (.text "seo")).isSome = true := by
  refine ⟨?_, ?_, ?_⟩
  · rfl
  · rfl
  · rfl

end SchemaDecl

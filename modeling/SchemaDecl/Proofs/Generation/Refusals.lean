import SchemaDecl.Proofs.Generation.Actions
import SchemaDecl.Proofs.Generation.Faultless

/-!
# Refused references

A violation of a global field lists content types that refer to it. A field that refers to a name that cannot be
used is noted together with the content type in visit, a block that does so is not. So the list has every content
type with such a field of its own, and none that does not come to one, there or in a global field that it leads to.
-/

namespace SchemaDecl

namespace Dependencies

theorem nodup_withName {names : List String} (h : names.Nodup) (name : String) : (withName names name).Nodup := by
  unfold withName
  split
  · exact h
  next hn => simpa [List.nodup_append] using ⟨h, fun other ho hname => hn (hname ▸ ho)⟩

theorem nodup_foldl_withName {names : List String} (h : names.Nodup) (more : List String) :
    (more.foldl withName names).Nodup := by
  induction more generalizing names with
  | nil => exact h
  | cons name more ih => exact ih (nodup_withName h name)

end Dependencies

namespace Generation

theorem nodup_distinct (names : List String) : (distinct names).Nodup :=
  Dependencies.nodup_foldl_withName .nil names

theorem mem_distinct {names : List String} {name : String} : name ∈ distinct names ↔ name ∈ names := by
  rw [distinct, Dependencies.mem_foldl_withName]
  exact or_iff_right List.not_mem_nil

/-- A field or a block that refers to a global field. -/
structure Mention extends Reference where
  place : SkipPlace

mutual

/-- The mentions in a field, in groups and in blocks with fields of their own, as far as they are visited. -/
@[simp] def fieldMentions : Field → List Mention
  | ⟨attrs, schema?, blocks⟩ =>
    if usable attrs.uid then
      match attrs.literals?, attrs.kind with
      | none, .group => schemaMentions schema?
      | none, .globalField =>
        (globalTarget attrs).toOption.toList.map fun target => ⟨⟨target, schema?⟩, .field⟩
      | none, .blocks => blocksMentions blocks
      | _, _ => []
    else []

@[simp] def fieldsMentions : List Field → List Mention
  | [] => []
  | field :: rest => fieldMentions field ++ fieldsMentions rest

@[simp] def schemaMentions : Option (List Field) → List Mention
  | none => []
  | some fields => fieldsMentions fields

@[simp] def blockMentions : Block → List Mention
  | ⟨uid, _, target, schema?⟩ =>
    if usable uid then
      if target.truthy then [⟨⟨target, schema?⟩, .block⟩] else schemaMentions schema?
    else []

@[simp] def blocksMentions : List Block → List Mention
  | [] => []
  | block :: rest => blockMentions block ++ blocksMentions rest

end

def Task.mentions : Task → List Mention
  | .field _ f => fieldMentions f
  | .fields _ fs => fieldsMentions fs
  | .block _ b => blockMentions b
  | .blocks _ bs => blocksMentions bs
  | .reference place _ _ target inline? => [⟨⟨target, inline?⟩, place⟩]
  | .declare _ origin _ => fieldsMentions origin.fields

def Mentions (r : Record) (place : SkipPlace) (target : Json) : Prop :=
  ∃ m ∈ fieldsMentions r.fields, m.place = place ∧ m.target = target

/-- A field that refers to the target is among the mentions, or in a global field that they lead to. -/
inductive Input.Meets (input : Input) (target : Json) : List Mention → Prop
  | field {ms m} : m ∈ ms → m.place = .field → m.target = target → Meets input target ms
  | within {ms m name origin} :
      m ∈ ms →
      Naming.declare? input.style.lead m.target = .ok name →
      Naming.isUsableName name = true →
      input.origin? m.target m.inline? = some origin →
      Meets input target (fieldsMentions origin.fields) → Meets input target ms

variable {input : Input} {scope : Scope} {task : Task} {s t u : State} {steps : List Step}
  {result : Except Fault task.Result} {ms ms' : List Mention} {target owner : String}

theorem Input.Meets.mono {target : Json} (h : input.Meets target ms) (hsub : ms ⊆ ms') :
    input.Meets target ms' := by
  cases h with
  | field hm hplace htarget => exact .field (hsub hm) hplace htarget
  | within hm hn hu ho h => exact .within (hsub hm) hn hu ho h

section

variable {attrs : Attributes} {schema? : Option (List Field)} {blocks : List Block} {uid title target : Json}

theorem schemaMentions_eq (schema? : Option (List Field)) :
    schemaMentions schema? = fieldsMentions (schema?.getD []) := by
  cases schema? with
  | none => rw [schemaMentions, Option.getD_none, fieldsMentions]
  | some fields => rw [schemaMentions, Option.getD_some]

theorem fieldMentions_unusable (hu : Naming.isUsable attrs.uid = .ok false) :
    fieldMentions ⟨attrs, schema?, blocks⟩ = [] := by
  rw [fieldMentions, usable_eq hu, if_neg Bool.false_ne_true]

theorem fieldMentions_flat {style : Style} {path : Json} {visit : Visit TypeExpr}
    (hv : flatType? style attrs path = some visit) : fieldMentions ⟨attrs, schema?, blocks⟩ = [] := by
  rw [fieldMentions]
  unfold flatType? at hv
  cases hl : attrs.literals? with
  | some values => exact ite_self _
  | none =>
    rw [hl] at hv
    cases hk : attrs.kind <;> rw [hk] at hv
    case group | globalField | blocks => cases hv
    all_goals exact ite_self _

theorem fieldMentions_group (ho : Opens attrs .group) :
    fieldMentions ⟨attrs, schema?, blocks⟩ = fieldsMentions (schema?.getD []) := by
  rw [fieldMentions, usable_eq ho.usable, if_pos rfl, ho.untyped, ho.kind_eq]
  exact schemaMentions_eq _

theorem fieldMentions_global (ho : Opens attrs .globalField) (ht : globalTarget attrs = .ok target) :
    fieldMentions ⟨attrs, schema?, blocks⟩ = [⟨⟨target, schema?⟩, .field⟩] := by
  rw [fieldMentions, usable_eq ho.usable, if_pos rfl, ho.untyped, ho.kind_eq, ht]
  rfl

theorem fieldMentions_blocks (ho : Opens attrs .blocks) :
    fieldMentions ⟨attrs, schema?, blocks⟩ = blocksMentions blocks := by
  rw [fieldMentions, usable_eq ho.usable, if_pos rfl, ho.untyped, ho.kind_eq]

theorem blockMentions_unusable (hu : Naming.isUsable uid = .ok false) :
    blockMentions ⟨uid, title, target, schema?⟩ = [] := by
  rw [blockMentions, usable_eq hu, if_neg Bool.false_ne_true]

theorem blockMentions_inline (hu : Naming.isUsable uid = .ok true) (ht : target.truthy = false) :
    blockMentions ⟨uid, title, target, schema?⟩ = fieldsMentions (schema?.getD []) := by
  rw [blockMentions, usable_eq hu, if_pos rfl, ht, if_neg Bool.false_ne_true, schemaMentions_eq]

theorem blockMentions_reference (hu : Naming.isUsable uid = .ok true) (ht : target.truthy = true) :
    blockMentions ⟨uid, title, target, schema?⟩ = [⟨⟨target, schema?⟩, .block⟩] := by
  rw [blockMentions, usable_eq hu, if_pos rfl, ht, if_pos rfl]

end

/-- From the first state to the second all refusals stay that were noted, and those that come in are allowed. -/
structure Refuses (allowed : String → String → Prop) (s t : State) : Prop where
  owner : t.owner = s.owner
  stays {target owner} : owner ∈ s.refusals target → owner ∈ t.refusals target
  enters {target owner} : owner ∈ t.refusals target → owner ∈ s.refusals target ∨ allowed target owner

namespace Refuses

variable {allowed allowed' : String → String → Prop}

theorem of_same (howner : t.owner = s.owner) (h : t.refusedBy = s.refusedBy) : Refuses allowed s t := by
  have hsame : t.refusals = s.refusals := by
    funext target
    rw [State.refusals, h, State.refusals]
  exact ⟨howner, fun hm => hsame ▸ hm, fun hm => .inl (hsame ▸ hm)⟩

theorem refl (s : State) : Refuses allowed s s := of_same rfl rfl

theorem mono (h : Refuses allowed s t) (hsub : ∀ target owner, allowed target owner → allowed' target owner) :
    Refuses allowed' s t :=
  ⟨h.owner, h.stays, fun hm => (h.enters hm).imp_right (hsub _ _)⟩

theorem trans (h : Refuses allowed s t) (h' : Refuses allowed t u) : Refuses allowed s u :=
  ⟨h'.owner.trans h.owner, fun hm => h'.stays (h.stays hm),
    fun hm => (h'.enters hm).elim h.enters .inr⟩

end Refuses

/-- The content type in visit may be noted as one that was refused a global field, if the mentions lead to a field
that refers to it. -/
def Allows (input : Input) (owner? : Option String) (ms : List Mention) (target owner : String) : Prop :=
  owner? = some owner ∧ owner ≠ "" ∧ input.Meets (.text target) ms

theorem Refuses.subset {owner? : Option String} (h : Refuses (Allows input owner? ms) s t) (hsub : ms ⊆ ms') :
    Refuses (Allows input owner? ms') s t :=
  h.mono fun _ _ ⟨hs, hne, hm⟩ => ⟨hs, hne, hm.mono hsub⟩

theorem Refuses.within {owner? : Option String} {m : Mention} {name : String} {origin : Origin}
    (h : Refuses (Allows input owner? (fieldsMentions origin.fields)) s t) (hm : m ∈ ms)
    (hn : Naming.declare? input.style.lead m.target = .ok name) (hu : Naming.isUsableName name = true)
    (ho : input.origin? m.target m.inline? = some origin) : Refuses (Allows input owner? ms) s t :=
  h.mono fun _ _ ⟨hs, hne, hmeets⟩ => ⟨hs, hne, .within hm hn hu ho hmeets⟩

theorem refusals_addRefusal (target uid owner : String) :
    (s.addRefusal uid owner).refusals target =
      if uid = target then s.refusals target ++ [owner] else s.refusals target := by
  rw [State.refusals, State.addRefusal, Table.get?_put]
  split
  next h => rw [h, Option.getD_some]
  next => rfl

/-- The visit leaves the account of refusals as it is. -/
def KeepsRefusals {α : Type} (visit : Visit α) : Prop :=
  ∀ s, (visit s).2.owner = s.owner ∧ (visit s).2.refusedBy = s.refusedBy

theorem keepsRefusals_skip (place : SkipPlace) (cause : SkipCause) (uid path : Json) :
    KeepsRefusals (skip place cause uid path) := by
  intro s
  cases place <;> exact ⟨rfl, rfl⟩

theorem composable_keepsRefusals : ComposableFlat KeepsRefusals where
  pure _ _ := ⟨rfl, rfl⟩
  check r s := by
    rw [check_apply]
    exact ⟨rfl, rfl⟩
  bind {_ _ x f} hx hf s := by
    have ht := hx s
    rw [bind_apply]
    rcases hr : x s with ⟨_ | a, t⟩ <;> rw [hr] at ht
    · exact ht
    · exact ⟨(hf a t).1.trans ht.1, (hf a t).2.trans ht.2⟩
  skip := keepsRefusals_skip
  track _ _ _ := ⟨rfl, rfl⟩
  noteRichText _ := ⟨rfl, rfl⟩

theorem refuses_skip {allowed : String → String → Prop} (place : SkipPlace) (cause : SkipCause) (uid path : Json) :
    Refuses allowed s (s.after (skip place cause uid path)) :=
  .of_same (keepsRefusals_skip place cause uid path s).1 (keepsRefusals_skip place cause uid path s).2

theorem refuses_union {allowed : String → String → Prop} {style : Style} {uid : Json} {blocks : Blocks}
    {result : Except Fault String} (h : unionName style uid blocks s = (result, t)) : Refuses allowed s t := by
  obtain rfl | ⟨base, rfl⟩ := unionName_joins h
  · exact .refl t
  · exact .of_same rfl rfl

theorem after_refuse (hs : s.owner = some owner) (hne : owner ≠ "") :
    s.after (refuse (.text target)) = s.addRefusal target owner := by
  rw [refuse, after_modify, hs]
  exact if_neg hne

theorem refuses_addRefusal {allowed : String → String → Prop} (h : allowed target owner) :
    Refuses allowed s (s.addRefusal target owner) := by
  refine ⟨rfl, fun {other _} hm => ?_, fun {other _} hm => ?_⟩
  · rw [refusals_addRefusal]
    split
    · exact List.mem_append_left _ hm
    · exact hm
  · rw [refusals_addRefusal] at hm
    split at hm
    next heq =>
      refine (List.mem_append.1 hm).imp_right fun howner => ?_
      rw [List.mem_singleton.1 howner, ← heq]
      exact h
    next => exact .inl hm

/-- A field that refers to an unusable name is noted with the content type in visit, and a block is not. -/
theorem refuses_reference (place : SkipPlace) (uid path target : Json) (inline? : Option (List Field)) :
    Refuses (Allows input s.owner [⟨⟨target, inline?⟩, place⟩]) s
      (s.after (refuseReference place uid path target)) := by
  cases place with
  | block => exact refuses_skip .block _ uid path
  | field =>
    refine Refuses.trans (t := s.after (refuse target)) ?_ (refuses_skip .field _ uid path)
    rw [State.after]
    obtain h | ⟨g, owner, rfl, hs, hne, h⟩ := refuse_apply target s <;> rw [h]
    · exact .refl s
    · exact refuses_addRefusal ⟨hs, hne, .field List.mem_cons_self rfl rfl⟩

theorem mem_refusals_reference (uid path : Json) (hs : s.owner = some owner) (hne : owner ≠ "") :
    owner ∈ (s.after (refuseReference .field uid path (.text target))).refusals target := by
  have hrefused : owner ∈ (s.after (refuse (.text target))).refusals target := by
    rw [after_refuse hs hne, refusals_addRefusal, if_pos rfl]
    exact List.mem_append_right _ List.mem_cons_self
  have hskip : Refuses (fun _ _ => False) (s.after (refuse (.text target)))
      (s.after (refuseReference .field uid path (.text target))) := refuses_skip .field _ uid path
  exact hskip.stays hrefused

/-- A visit notes only the content type that it is part of, and only for targets that are mentioned. -/
theorem Visits.refuses (h : Visits input scope task s steps result t) :
    Refuses (Allows input s.owner task.mentions) s t := by
  induction h with
  | fields_nil | blocks_nil | field_fault | block_fault => exact .refl _
  | field_target_fault | reference_fault | declare_known => exact .refl _
  | field_unusable => exact refuses_skip _ _ _ _
  | block_unusable => exact refuses_skip _ _ _ _
  | reference_missing => exact refuses_skip _ _ _ _
  | fields_fault _ ih =>
    rw [Task.mentions, fieldsMentions]
    exact ih.subset (List.subset_append_left _ _)
  | blocks_fault _ ih =>
    rw [Task.mentions, blocksMentions]
    exact ih.subset (List.subset_append_left _ _)
  | fields_cons _ _ ih ih' =>
    rw [ih.owner] at ih'
    rw [Task.mentions, fieldsMentions]
    exact (ih.subset (List.subset_append_left _ _)).trans (ih'.subset (List.subset_append_right _ _))
  | blocks_cons _ _ ih ih' =>
    rw [ih.owner] at ih'
    rw [Task.mentions, blocksMentions]
    exact (ih.subset (List.subset_append_left _ _)).trans (ih'.subset (List.subset_append_right _ _))
  | @field_flat _ _ _ _ _ s _ _ _ _ hv hr =>
    have hkeeps := composable_keepsRefusals.flatType hv s
    rw [hr] at hkeeps
    exact .of_same hkeeps.1 hkeeps.2
  | field_group ho _ ih =>
    rw [Task.mentions, fieldMentions_group ho]
    exact ih
  | field_global ho ht _ ih =>
    rw [Task.mentions, fieldMentions_global ho ht]
    exact ih
  | field_blocks_fault ho _ ih | field_no_blocks ho _ ih =>
    rw [Task.mentions, fieldMentions_blocks ho]
    exact ih
  | field_union_fault ho _ _ hu ih | field_union ho _ _ hu ih =>
    rw [Task.mentions, fieldMentions_blocks ho]
    exact ih.trans (refuses_union hu)
  | block_inline hu ht _ ih =>
    rw [Task.mentions, blockMentions_inline hu ht]
    exact ih
  | block_reference hu ht _ ih =>
    rw [Task.mentions, blockMentions_reference hu ht]
    exact ih
  | reference_unusable => exact refuses_reference _ _ _ _ _
  | reference_known => exact .of_same rfl rfl
  | reference_fields_fault hn hu _ ho _ ih => exact ih.within List.mem_cons_self hn hu ho
  | reference_built hn hu _ ho _ ih => exact (ih.within List.mem_cons_self hn hu ho).trans (.of_same rfl rfl)
  | declare_fault _ _ ih | declare_built _ _ ih => exact ⟨ih.owner, ih.stays, ih.enters⟩

/-- Where a visit comes to its end, each of its own fields that refer to an unusable name is noted with the content
type that it is part of. -/
theorem Visits.refused {m : Mention} (h : Visits input scope task s steps result t) (hok : result.isOk = true)
    (hown : ∀ name origin description, task ≠ .declare name origin description) (hm : m ∈ task.mentions)
    (hplace : m.place = .field) (htarget : m.target = .text target)
    (hn : Naming.isUsableName (Naming.declare input.style.lead target) = false) (hs : s.owner = some owner)
    (hne : owner ≠ "") : owner ∈ t.refusals target := by
  induction h with
  | fields_nil | blocks_nil => cases hm
  | fields_fault | field_fault | field_target_fault | field_blocks_fault | field_union_fault => cases hok
  | blocks_fault | block_fault | reference_fault | reference_fields_fault => cases hok
  | declare_known | declare_fault | declare_built => exact absurd rfl (hown _ _ _)
  | fields_cons hv hvs ih ih' =>
    rw [Task.mentions, fieldsMentions] at hm
    rw [isOk_map] at hok
    rcases List.mem_append.1 hm with hm | hm
    · exact hvs.refuses.stays (ih rfl (by simp) hm hs)
    · exact ih' hok (by simp) hm (hv.refuses.owner.trans hs)
  | blocks_cons hv hvs ih ih' =>
    rw [Task.mentions, blocksMentions] at hm
    rw [isOk_map] at hok
    rcases List.mem_append.1 hm with hm | hm
    · exact hvs.refuses.stays (ih rfl (by simp) hm hs)
    · exact ih' hok (by simp) hm (hv.refuses.owner.trans hs)
  | field_unusable hu =>
    rw [Task.mentions, fieldMentions_unusable hu] at hm
    cases hm
  | block_unusable hu =>
    rw [Task.mentions, blockMentions_unusable hu] at hm
    cases hm
  | field_flat _ hv =>
    rw [Task.mentions, fieldMentions_flat hv] at hm
    cases hm
  | field_group ho _ ih =>
    rw [Task.mentions, fieldMentions_group ho] at hm
    exact ih (isOk_of_bind hok) (by simp) hm hs
  | field_global ho ht _ ih =>
    rw [Task.mentions, fieldMentions_global ho ht] at hm
    exact ih (isOk_of_bind hok) (by simp) hm hs
  | field_no_blocks ho _ ih =>
    rw [Task.mentions, fieldMentions_blocks ho] at hm
    exact ih rfl (by simp) hm hs
  | field_union ho _ _ hu ih =>
    rw [Task.mentions, fieldMentions_blocks ho] at hm
    have hunion : Refuses (fun _ _ => False) _ _ := refuses_union hu
    exact hunion.stays (ih rfl (by simp) hm hs)
  | block_inline hu ht _ ih =>
    rw [Task.mentions, blockMentions_inline hu ht] at hm
    rw [isOk_map] at hok
    exact ih hok (by simp) hm hs
  | block_reference hu ht _ ih =>
    rw [Task.mentions, blockMentions_reference hu ht] at hm
    rw [isOk_map] at hok
    exact ih hok (by simp) hm hs
  | reference_unusable =>
    obtain rfl := List.mem_singleton.1 hm
    subst hplace htarget
    exact mem_refusals_reference _ _ hs hne
  | reference_known hdeclare hu | reference_missing hdeclare hu | reference_built hdeclare hu =>
    obtain rfl := List.mem_singleton.1 hm
    subst htarget
    rw [← Except.ok.inj hdeclare, hn] at hu
    cases hu

/-- The record is a content type with the uid, and its fields lead to one that refers to the target. -/
structure Refers (input : Input) (target owner : String) (r : Record) : Prop where
  contentType : r.isGlobal = false
  uid : r.uid = .text owner
  named : owner ≠ ""
  meets : input.Meets (.text target) (fieldsMentions r.fields)

def AllowsAny (input : Input) (records : List Record) (target owner : String) : Prop :=
  ∃ r ∈ records, Refers input target owner r

variable {position : Nat} {records : List Record} {ends : Except Fault (List Declaration)} {record : Record}
  {uid name : String}

theorem recordName_owner (h : recordName input record s = (.ok (uid, name), t)) : t.owner = s.owner := by
  cases recordName_ok h <;> rfl

theorem recordName_uid (h : recordName input record s = (.ok (uid, name), t)) : record.uid = .text uid := by
  cases recordName_ok h <;> assumption

theorem recordName_refuses {allowed : String → String → Prop}
    (h : recordName input record s = (.ok (uid, name), t)) : Refuses allowed s t := by
  cases recordName_ok h <;> exact .of_same rfl rfl

theorem Refuses.later (h : Refuses (AllowsAny input records) s t) :
    Refuses (AllowsAny input (record :: records)) s t :=
  h.mono fun _ _ ⟨r, hr, hrefers⟩ => ⟨r, List.mem_cons_of_mem _ hr, hrefers⟩

theorem contentType_refuses {path : Json} {result : Except Fault (List Member)} (hr : record ∈ records)
    (hg : record.isGlobal = false) (hn : recordName input record s = (.ok (uid, name), t))
    (hv : Visits input scope (.fields path record.fields) (t.entered name uid) steps result u) :
    Refuses (AllowsAny input records) s (u.left t) := by
  refine (recordName_refuses hn).trans ⟨rfl, hv.refuses.stays, fun hm => (hv.refuses.enters hm).imp_right ?_⟩
  rintro ⟨howner, hne, hmeets⟩
  obtain rfl := Option.some.inj howner
  exact ⟨record, hr, hg, recordName_uid hn, hne, hmeets⟩

theorem Visits.refuses_unowned {allowed : String → String → Prop} (h : Visits input scope task s steps result t)
    (hs : s.owner = none) : Refuses allowed s t := by
  refine h.refuses.mono fun target owner hallowed => ?_
  cases hs.symm.trans hallowed.1

/-- What a pass notes are content types among its records, for targets that their fields lead to. -/
theorem Passes.refuses (h : Passes input position records s steps ends t) (hs : s.owner = none) :
    Refuses (AllowsAny input records) s t := by
  induction h with
  | nil => exact .refl _
  | name_fault hn =>
    rw [(recordName_fault hn).1]
    exact .refl _
  | bare _ hn _ _ ih => exact (recordName_refuses hn).trans (ih ((recordName_owner hn).trans hs)).later
  | global_fault _ hn _ hv =>
    exact (recordName_refuses hn).trans (hv.refuses_unowned ((recordName_owner hn).trans hs))
  | global _ hn _ hv _ ih =>
    have hmid := (recordName_owner hn).trans hs
    have hrest := ih (hv.refuses.owner.trans hmid)
    exact (recordName_refuses hn).trans ((hv.refuses_unowned hmid).trans hrest.later)
  | contentType_fault hg hn hv => exact contentType_refuses List.mem_cons_self hg hn hv
  | contentType hg hn hv _ ih =>
    have hrest := ih ((recordName_owner hn).trans hs)
    exact (contentType_refuses List.mem_cons_self hg hn hv).trans hrest.later

/-- Where a pass comes to its end, each of its content types is noted for the unusable names that its own fields
refer to. -/
theorem Passes.refused (h : Passes input position records s steps ends t) (hok : ends.isOk = true)
    (hs : s.owner = none) (hr : record ∈ records) (hg : record.isGlobal = false) (huid : record.uid = .text owner)
    (hne : owner ≠ "") (hm : Mentions record .field (.text target))
    (hn : Naming.isUsableName (Naming.declare input.style.lead target) = false) :
    owner ∈ t.refusals target := by
  induction h with
  | nil => cases hr
  | name_fault | global_fault | contentType_fault => cases hok
  | bare hglobal hname _ _ ih =>
    rcases List.mem_cons.1 hr with rfl | hr
    · cases hglobal.symm.trans hg
    · exact ih hok ((recordName_owner hname).trans hs) hr
  | global hglobal hname _ hv _ ih =>
    rcases List.mem_cons.1 hr with rfl | hr
    · cases hglobal.symm.trans hg
    · exact ih hok (hv.refuses.owner.trans ((recordName_owner hname).trans hs)) hr
  | contentType _ hname hv hrest ih =>
    rw [isOk_map] at hok
    have hmid := (recordName_owner hname).trans hs
    rcases List.mem_cons.1 hr with rfl | hr
    · obtain ⟨m, hm, hplace, htarget⟩ := hm
      obtain rfl := Json.text.inj ((recordName_uid hname).symm.trans huid)
      have hnoted := hv.refused rfl (by simp) hm hplace htarget hn rfl hne
      exact (hrest.refuses hmid).stays hnoted
    · exact ih hok hmid hr

theorem unusableName_of_mem {lead : String} {u : UnusableName} (h : u ∈ records.filterMap (unusable? lead)) :
    Naming.isUsableName (Naming.declare lead u.uid) = false := by
  obtain ⟨r, -, hu⟩ := List.mem_filterMap.1 h
  unfold unusable? at hu
  split at hu
  · split at hu
    next => cases hu
    next hn =>
      cases hu
      exact Bool.eq_false_of_not_eq_true hn
  · cases hu

theorem passes_of_unusableNames {settings : Settings} {payload : Json} {vs : List Violation}
    (h : (generate settings payload).result = .error (.unusableNames vs)) :
    ∃ records s steps ds t, readPayload payload = .ok records ∧ start ⟨settings.style, records⟩ = .ok s ∧
      Passes ⟨settings.style, records⟩ 0 records s steps (.ok ds) t ∧ vs = violations t := by
  obtain ⟨records, s, t, result, hr, hs, hrun, -, he⟩ := generate_runs fun fault hf => by
    rw [h] at hf
    cases hf
  rw [he] at h
  obtain ⟨steps, ends, u, hp⟩ := passes_end ⟨settings.style, records⟩ records 0 s
  cases ends with
  | error e =>
    rw [runFrom_fault hp.visit_eq] at hrun
    cases hrun
    cases h
  | ok ds =>
    rw [runFrom_eq hp.visit_eq] at hrun
    split at hrun
    · cases hrun
      cases h
    · cases hrun
      cases h
      exact ⟨records, s, steps, ds, u, hr, hs, hp, rfl⟩

/-- Where a run fails for unusable names, the list that goes with each global field among them has no content type
twice. It has each content type with a field of its own that refers to the global field, and none but those whose
fields lead to such a field: blocks do not count. -/
theorem generate_referencedBy {settings : Settings} {payload : Json} {vs : List Violation}
    (h : (generate settings payload).result = .error (.unusableNames vs)) :
    ∃ records, readPayload payload = .ok records ∧
      ∀ v ∈ vs, v.isGlobal = true → v.referencedBy.Nodup ∧
        (∀ r ∈ records, ∀ owner, r.isGlobal = false → r.uid = .text owner → owner ≠ "" →
          Mentions r .field (.text v.uid) → owner ∈ v.referencedBy) ∧
        ∀ owner ∈ v.referencedBy, ∃ r ∈ records, Refers ⟨settings.style, records⟩ v.uid owner r := by
  obtain ⟨records, s, steps, ds, t, hr, hs, hp, rfl⟩ := passes_of_unusableNames h
  obtain ⟨richTextUsed, rfl⟩ := start_eq hs
  refine ⟨records, hr, fun v hv hglobal => ?_⟩
  obtain ⟨u, hu, rfl⟩ := List.mem_map.1 hv
  have hlist : (if u.isGlobal then distinct (t.refusals u.uid) else []) = distinct (t.refusals u.uid) :=
    if_pos hglobal
  rw [hp.unusable_eq rfl] at hu
  refine ⟨?_, fun r hrecord owner hg huid hne hm => ?_, fun owner howner => ?_⟩
  · rw [hlist]
    exact nodup_distinct _
  · rw [hlist, mem_distinct]
    exact hp.refused rfl rfl hrecord hg huid hne hm (unusableName_of_mem hu)
  · rw [hlist, mem_distinct] at howner
    exact ((hp.refuses rfl).enters howner).resolve_left List.not_mem_nil

def Failure.violations? : Failure → Option (List Violation)
  | fault _ => none
  | unusableNames vs => some vs

def Outcome.violations? (o : Outcome) : Option (List Violation) :=
  match o.result with
  | .ok _ => none
  | .error failure => failure.violations?

theorem Outcome.result_eq {o : Outcome} {vs : List Violation} (h : o.violations? = some vs) :
    o.result = .error (.unusableNames vs) := by
  unfold violations? at h
  cases hr : o.result with
  | ok result =>
    rw [hr] at h
    cases h
  | error failure =>
    rw [hr] at h
    cases failure with
    | fault f => cases h
    | unusableNames ws =>
      cases h
      rfl

def withNumberedGlobal (field : Json) : Json :=
  .list [.object [("uid", .text "page"), ("schema", .list [field])],
    .object [("uid", .text "1seo"), ("schema_type", .text "global_field"), ("schema", .list [])]]

/-- A content type that refers to the global field by a field in a group. -/
def fieldDocument : Json :=
  let seo : Json :=
    .object [("uid", .text "seo"), ("data_type", .text "global_field"), ("reference_to", .text "1seo")]
  withNumberedGlobal (.object [("uid", .text "head"), ("data_type", .text "group"), ("schema", .list [seo])])

theorem generate_referencedBy_fieldDocument :
    (generate {} fieldDocument).result = .error (.unusableNames [⟨"1seo", true, "1Seo", ["page"]⟩]) ∧
      ∃ records, readPayload fieldDocument = .ok records ∧
        ∃ r ∈ records, Refers ⟨Settings.style {}, records⟩ "1seo" "page" r := by
  have hfails : (generate {} fieldDocument).violations? = some [⟨"1seo", true, "1Seo", ["page"]⟩] := by
    decide +kernel
  have hresult := Outcome.result_eq hfails
  obtain ⟨records, hr, hlists⟩ := generate_referencedBy hresult
  obtain ⟨-, -, hrefers⟩ := hlists _ List.mem_cons_self rfl
  exact ⟨hresult, records, hr, hrefers "page" List.mem_cons_self⟩

/-- A content type that refers to the global field by a block. -/
def blockDocument : Json :=
  let hero : Json := .object [("uid", .text "hero"), ("reference_to", .text "1seo")]
  withNumberedGlobal
    (.object [("uid", .text "sections"), ("data_type", .text "blocks"), ("blocks", .list [hero])])

/-- A content type that refers to a global field by a block alone is left out of the list. -/
theorem blockDocument_unlisted :
    (generate {} blockDocument).result = .error (.unusableNames [⟨"1seo", true, "1Seo", []⟩]) ∧
      ∃ records, readPayload blockDocument = .ok records ∧
        ∃ r ∈ records, r.isGlobal = false ∧ r.uid = .text "page" ∧ Mentions r .block (.text "1seo") := by
  have hfails : (generate {} blockDocument).violations? = some [⟨"1seo", true, "1Seo", []⟩] := by decide +kernel
  have hrecords : (readPayload blockDocument).map (List.map fun r =>
      (r.isGlobal, r.uid, (fieldsMentions r.fields).map fun m => (m.place, m.target))) =
      .ok [(false, .text "page", [(.block, .text "1seo")]), (true, .text "1seo", [])] := by decide +kernel
  refine ⟨Outcome.result_eq hfails, ?_⟩
  cases hr : readPayload blockDocument with
  | error e =>
    rw [hr] at hrecords
    cases hrecords
  | ok records =>
    rw [hr] at hrecords
    obtain ⟨r, rest, rfl, hpage, -⟩ := List.map_eq_cons_iff.1 (Except.ok.inj hrecords)
    simp only [Prod.mk.injEq, List.map_eq_singleton_iff] at hpage
    obtain ⟨hg, huid, m, hm, hplace, htarget⟩ := hpage
    exact ⟨r :: rest, rfl, r, List.mem_cons_self, hg, huid, m, hm ▸ List.mem_cons_self, hplace, htarget⟩

end Generation

end SchemaDecl

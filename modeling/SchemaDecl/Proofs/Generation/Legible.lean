import SchemaDecl.Proofs.Declaration.Comments
import SchemaDecl.Proofs.Generation.UsableNames

/-!
# Legible documents

A document is legible if what it adds to the output as it stands keeps to one line, and if the brackets in
the comments of repeated groups match. All that a pass over it declares is legible.
-/

namespace SchemaDecl

open TypeExpr (MembersLegible labelsOf Neutral)

mutual

/-- What the comments of a field say, with those of the fields of a group. -/
def fieldLabels : Field → List Json
  | ⟨attrs, schema?, _⟩ => attrs.displayName :: (if attrs.kind = .group then schemaLabels schema? else [])

def fieldsLabels : List Field → List Json
  | [] => []
  | field :: rest => fieldLabels field ++ fieldsLabels rest

def schemaLabels : Option (List Field) → List Json
  | none => []
  | some fields => fieldsLabels fields

end

structure Attributes.Legible (a : Attributes) : Prop where
  uid : ∃ s, a.uid = .text s ∧ OneLine s
  label : OneLine a.displayName.display
  count : OneLine a.maxInstance.display

instance (value : Json) : Decidable (∃ s, value = .text s ∧ OneLine s) :=
  match value with
  | .text s => decidable_of_iff (OneLine s) (by simp)
  | .null | .bool _ | .int _ | .float _ | .list _ | .object _ => isFalse (by simp)

instance (a : Attributes) : Decidable a.Legible :=
  decidable_of_iff ((∃ s, a.uid = .text s ∧ OneLine s) ∧ OneLine a.displayName.display ∧ OneLine a.maxInstance.display)
    ⟨fun ⟨hu, hl, hc⟩ => ⟨hu, hl, hc⟩, fun ⟨hu, hl, hc⟩ => ⟨hu, hl, hc⟩⟩

/-- The attributes are legible, and the comments in a group that may be repeated without end are neutral. -/
structure Field.Legible (f : Field) : Prop where
  attrs : f.attrs.Legible
  neutral : f.attrs.kind = .group → f.attrs.multiple = true → f.attrs.maxInstance.truthy = false →
    ∀ label ∈ schemaLabels f.schema?, Neutral label.display

instance (f : Field) : Decidable f.Legible :=
  decidable_of_iff (f.attrs.Legible ∧ (f.attrs.kind = .group → f.attrs.multiple = true →
      f.attrs.maxInstance.truthy = false → ∀ label ∈ schemaLabels f.schema?, Neutral label.display))
    ⟨fun ⟨ha, hn⟩ => ⟨ha, hn⟩, fun ⟨ha, hn⟩ => ⟨ha, hn⟩⟩

namespace Generation

def Part.Legible : Part → Prop
  | .field f => f.Legible
  | .block b => ∃ s, b.uid = .text s ∧ OneLine s

instance : DecidablePred Part.Legible
  | .field f => inferInstanceAs (Decidable f.Legible)
  | .block b => inferInstanceAs (Decidable (∃ s, b.uid = .text s ∧ OneLine s))

structure Input.Legible (input : Input) : Prop where
  lead : OneLine input.style.lead
  parts : ∀ part ∈ input.parts, part.Legible
  descriptions : ∀ r ∈ input.records, OneLine r.description.display

instance (input : Input) : Decidable input.Legible :=
  decidable_of_iff (OneLine input.style.lead ∧ (∀ part ∈ input.parts, part.Legible) ∧
      ∀ r ∈ input.records, OneLine r.description.display)
    ⟨fun ⟨hl, hp, hd⟩ => ⟨hl, hp, hd⟩, fun ⟨hl, hp, hd⟩ => ⟨hl, hp, hd⟩⟩

/-- All that a state declares is legible. -/
structure State.Legible (s : State) : Prop where
  globals : ∀ n d, (n, some d) ∈ s.globals → d.Legible
  scope : ∀ u ∈ s.scope, u.Legible
  names : ∀ name ∈ s.unionNames, OneLine name

/-- The result of a task is legible, and its comments are those of the fields. -/
def Task.Legible : (task : Task) → task.Result → Prop
  | .field _ f => fun member => MembersLegible member.toList ∧ labelsOf member.toList ⊆ fieldLabels f
  | .fields _ fs => fun members => MembersLegible members ∧ labelsOf members ⊆ fieldsLabels fs
  | .block .. => fun block => ∀ b ∈ block.toList, BlockLegible b
  | .blocks .. => fun blocks => ∀ b ∈ blocks, BlockLegible b
  | .reference .. => fun type => ∀ t ∈ type, t.Legible ∧ t.labels = []
  | .declare .. => fun _ => True

variable {input : Input} {scope : Scope} {task : Task} {s t : State} {steps : List Step} {attrs : Attributes}
  {type : TypeExpr} {member : Option Member}

theorem State.Legible.of_keeps (hs : s.Legible) (hk : Keeps s t) : t.Legible where
  globals := by
    rw [hk.globals]
    exact hs.globals
  scope := by
    rw [hk.scope]
    exact hs.scope
  names := by
    rw [State.unionNames, hk.unions]
    exact hs.names

theorem membersLegible_append {members members' : List Member} (h : MembersLegible members)
    (h' : MembersLegible members') : MembersLegible (members ++ members') := by
  induction members with
  | nil => exact h'
  | cons member rest ih =>
    rw [MembersLegible] at h
    rw [List.cons_append, MembersLegible]
    exact ⟨h.1, ih h.2⟩

theorem labelsOf_append (members members' : List Member) :
    labelsOf (members ++ members') = labelsOf members ++ labelsOf members' := by
  induction members with
  | nil => rfl
  | cons member rest ih => rw [List.cons_append, labelsOf, labelsOf, ih, List.append_assoc]

theorem typedMember_legible (ha : attrs.Legible) (ht : type.Legible) (h : typedMember attrs type = .ok member) :
    MembersLegible member.toList ∧ labelsOf member.toList = attrs.displayName :: type.labels := by
  obtain ⟨nullable, -, rfl⟩ := typedMember_ok h
  simp only [Option.toList_some, MembersLegible, TypeExpr.MemberLegible, labelsOf, TypeExpr.memberLabels,
    List.append_nil, and_true]
  exact ⟨ha.uid, ha.label, ht⟩

theorem labels_repeated (type : TypeExpr) (multiple : Bool) (count : Json) :
    (type.repeated multiple count).labels = type.labels := by
  unfold TypeExpr.repeated
  split
  · rfl
  · split <;> rw [TypeExpr.labels]

theorem legible_repeated (ha : attrs.Legible) (ht : type.Legible)
    (hn : attrs.multiple = true → attrs.maxInstance.truthy = false →
      ∀ label ∈ type.labels, Neutral label.display) :
    (type.repeated attrs.multiple attrs.maxInstance).Legible := by
  unfold TypeExpr.repeated
  split
  next => exact ht
  next hm =>
    split
    next =>
      rw [TypeExpr.Legible]
      exact ⟨ht, ha.count⟩
    next hc =>
      rw [TypeExpr.Legible]
      exact ⟨ht, hn (by simpa using hm) (by simpa using hc)⟩

theorem repeatedMember_legible (ha : attrs.Legible) (ht : type.Legible)
    (hn : attrs.multiple = true → attrs.maxInstance.truthy = false →
      ∀ label ∈ type.labels, Neutral label.display) (h : repeatedMember attrs type = .ok member) :
    MembersLegible member.toList ∧ labelsOf member.toList = attrs.displayName :: type.labels := by
  have hmember := typedMember_legible ha (legible_repeated ha ht hn) h
  rwa [labels_repeated] at hmember

/-- Whatever the visit gives has the property. -/
def Yields {α : Type} (P : α → Prop) (visit : Visit α) : Prop := ∀ s a t, visit s = (.ok a, t) → P a

section Yields

variable {α β : Type} {P : α → Prop} {Q : β → Prop}

theorem Yields.pure {a : α} (h : P a) : Yields P (pure a : Visit α) := by
  intro s a t hs
  cases hs
  exact h

theorem Yields.bind {x : Visit α} {f : α → Visit β} (hx : Yields P x) (hf : ∀ a, P a → Yields Q (f a)) :
    Yields Q (x >>= f) := by
  intro s b t hs
  rw [bind_apply] at hs
  rcases hr : x s with ⟨_ | a, mid⟩ <;> rw [hr] at hs
  · cases hs
  · exact hf a (hx s a mid hr) mid b t hs

theorem Yields.trivial (x : Visit α) : Yields (fun _ => True) x := fun _ _ _ _ => True.intro

theorem Yields.check {r : Except Fault α} (h : ∀ a, r = .ok a → P a) : Yields P (check r) := by
  intro s a t hs
  rw [check_apply] at hs
  exact h a (Prod.mk.inj hs).1

end Yields

def Silent (type : TypeExpr) : Prop := type.Legible ∧ type.labels = []

theorem yields_referenceNames {style : Style} (hlead : OneLine style.lead) (path : Json) (targets : List Json) :
    Yields (fun names => ∀ name ∈ names, OneLine name) (referenceNames style path targets) := by
  induction targets with
  | nil => exact .pure (by simp)
  | cons target rest ih =>
    refine Yields.bind (.check fun _ h => Naming.oneLine_declare? hlead h) fun name hn => ?_
    split
    · exact ih.bind fun names hns => .pure (List.forall_mem_cons.2 ⟨hn, hns⟩)
    · exact (Yields.trivial _).bind fun _ _ => ih

theorem yields_after {α : Type} (x : Visit α) (h : Silent type) : Yields Silent (do let _ ← x; return type) :=
  (Yields.trivial x).bind fun _ _ => .pure h

theorem yields_repeated (ha : attrs.Legible) {visit : Visit TypeExpr} (h : Yields Silent visit) :
    Yields Silent (repeated attrs visit) := by
  refine h.bind fun type ht => .pure ⟨legible_repeated ha ht.1 ?_, (labels_repeated _ _ _).trans ht.2⟩
  rw [ht.2]
  exact fun _ _ _ h => by cases h

theorem silent_flat {type : TypeExpr} (hflat : TypeExpr.isFlat type = true) (hd : ∀ name, type ≠ .declared name)
    (hr : ∀ names, type ≠ .references names) : Silent type := by
  cases type with
  | object | array | atMost => cases hflat
  | declared name => exact absurd rfl (hd name)
  | references names => exact absurd rfl (hr names)
  | _ => simp [Silent, TypeExpr.Legible, TypeExpr.labels]

theorem yields_fileType (style : Style) (uid : Json) : Yields Silent (fileType style uid) := by
  unfold fileType
  split
  · exact .pure (silent_flat rfl (by simp) (by simp))
  · exact yields_after _ (silent_flat rfl (by simp) (by simp))

theorem yields_jsonType (attrs : Attributes) : Yields Silent (jsonType attrs) := by
  refine (Yields.trivial _).bind fun isExtension _ => ?_
  split
  · exact .pure (silent_flat rfl (by simp) (by simp))
  · exact yields_after _ (silent_flat rfl (by simp) (by simp))

theorem yields_referenceType {style : Style} (hlead : OneLine style.lead) (attrs : Attributes) (path : Json) :
    Yields Silent (referenceType style attrs path) := by
  refine (Yields.trivial _).bind fun targets _ => (yields_referenceNames hlead path targets).bind fun names hn => ?_
  exact yields_after _ (by simpa [Silent, TypeExpr.Legible, TypeExpr.labels] using hn)

theorem yields_flatType {style : Style} {path : Json} {visit : Visit TypeExpr} (hlead : OneLine style.lead)
    (ha : attrs.Legible) (h : flatType? style attrs path = some visit) : Yields Silent visit := by
  unfold flatType? at h
  cases hl : attrs.literals? with
  | some values =>
    rw [hl] at h
    obtain rfl := Option.some.inj h
    exact yields_repeated ha (.pure (silent_flat rfl (by simp) (by simp)))
  | none =>
    rw [hl] at h
    cases hk : attrs.kind <;> rw [hk] at h
    case group | globalField | blocks => cases h
    all_goals obtain rfl := Option.some.inj h
    case file => exact yields_repeated ha (yields_fileType _ _)
    case json => exact yields_repeated ha (yields_jsonType _)
    case reference => exact yields_referenceType hlead _ _
    case unknown => exact yields_after _ (silent_flat rfl (by simp) (by simp))
    all_goals exact yields_repeated ha (yields_after _ (silent_flat rfl (by simp) (by simp)))

theorem schemaLabels_getD (schema? : Option (List Field)) :
    fieldsLabels (schema?.getD []) = schemaLabels schema? := by
  cases schema? with
  | none => rw [Option.getD_none, fieldsLabels, schemaLabels]
  | some fields => rw [Option.getD_some, schemaLabels]

theorem State.Legible.union {uid : Json} {blocks : Blocks} {result : Except Fault String} (hs : s.Legible)
    (hlead : OneLine input.style.lead) (hb : ∀ block ∈ blocks, BlockLegible block)
    (h : unionName input.style uid blocks s = (result, t)) :
    t.Legible ∧ ∀ name, result = .ok name → OneLine name := by
  cases result with
  | error e =>
    rw [(unionName_fault h).1]
    exact ⟨hs, by simp⟩
  | ok name =>
    rcases (unionName_ok h).2 with ⟨hfind, rfl⟩ | ⟨-, base, hbase, rfl, rfl⟩
    · refine ⟨hs, ?_⟩
      rintro _ ⟨⟩
      obtain ⟨entry, hm, -, rfl⟩ := findUnion?_eq_some hfind
      exact hs.names _ (List.mem_map_of_mem hm)
    · have hname := (Naming.unique_extends base s.unionNames s.counter).oneLine (Naming.oneLine_declare? hlead hbase)
      refine ⟨⟨hs.globals, ?_, ?_⟩, ?_⟩
      · exact List.forall_mem_append.2 ⟨hs.scope, List.forall_mem_singleton.2 ⟨hname, hb⟩⟩
      · rw [State.unionNames, State.joined, List.map_append]
        exact List.forall_mem_append.2 ⟨hs.names, List.forall_mem_singleton.2 hname⟩
      · rintro _ ⟨⟩
        exact hname

theorem descriptionOf_oneLine (hl : input.Legible) (target : Json) : OneLine (input.descriptionOf target).display := by
  unfold Input.descriptionOf
  cases hr : input.record? target with
  | none => decide
  | some r => exact hl.descriptions r (List.mem_of_find?_eq_some hr)

/-- The name and the description of what a task declares stay on one line. -/
def Task.OneLine : Task → Prop
  | .declare name _ description => SchemaDecl.OneLine name ∧ SchemaDecl.OneLine description.display
  | _ => True

def MeetsLegible (steps : List Step) : Prop := ∀ m ∈ meetings steps, ∀ block ∈ m.blocks, BlockLegible block

theorem MeetsLegible.append {steps' : List Step} (h : MeetsLegible steps) (h' : MeetsLegible steps') :
    MeetsLegible (steps ++ steps') := by
  rw [MeetsLegible, meetings_append]
  exact List.forall_mem_append.2 ⟨h, h'⟩

theorem MeetsLegible.nil : MeetsLegible [] := fun _ h => by cases h

/-- What a visit to a legible document leaves and gives is legible. -/
structure LegibleVisit (task : Task) (steps : List Step) (result : Except Fault task.Result) (t : State) : Prop where
  state : t.Legible
  met : MeetsLegible steps
  result : ∀ r, result = .ok r → task.Legible r

section LegibleVisit

variable {task' task'' : Task} {result : Except Fault task.Result} {u : State} {steps' : List Step}

theorem LegibleVisit.fault {e : Fault} (ht : t.Legible) (hm : MeetsLegible steps) :
    LegibleVisit task steps (.error e) t := ⟨ht, hm, fun _ h => by cases h⟩

theorem LegibleVisit.of_action {visit : Visit Unit} {r : task.Result} (hs : s.Legible)
    (hk : Keeps s (s.after visit)) (hr : task.Legible r) : LegibleVisit task [] (.ok r) (s.after visit) := by
  refine ⟨hs.of_keeps hk, .nil, ?_⟩
  rintro _ ⟨⟩
  exact hr

theorem LegibleVisit.bind {f : task.Result → Except Fault task'.Result} (h : LegibleVisit task steps result t)
    (hf : ∀ r r', task.Legible r → f r = .ok r' → task'.Legible r') :
    LegibleVisit task' steps (result.bind f) t := by
  refine ⟨h.state, h.met, fun r' hr => ?_⟩
  obtain ⟨r, rfl, hr⟩ := ok_of_bind hr
  exact hf r r' (h.result r rfl) hr

theorem LegibleVisit.map {f : task.Result → task'.Result} (h : LegibleVisit task steps result t)
    (hf : ∀ r, task.Legible r → task'.Legible (f r)) : LegibleVisit task' steps (result.map f) t := by
  refine ⟨h.state, h.met, fun r' hr => ?_⟩
  obtain ⟨r, rfl, rfl⟩ := ok_of_map hr
  exact hf r (h.result r rfl)

theorem LegibleVisit.andThen {first : task.Result} {result : Except Fault task'.Result}
    {f : task'.Result → task''.Result} (h : LegibleVisit task steps (.ok first) t)
    (h' : LegibleVisit task' steps' result u)
    (hf : task.Legible first → ∀ r, task'.Legible r → task''.Legible (f r)) :
    LegibleVisit task'' (steps ++ steps') (result.map f) u :=
  have hrest := h'.map (hf (h.result first rfl))
  ⟨hrest.state, h.met.append hrest.met, hrest.result⟩

end LegibleVisit

theorem Part.Legible.field {field : Field} (hl : input.Legible) {path : Json}
    (hw : (Task.field path field).Within input) : field.Legible := hl.parts _ hw.mem_field

theorem silent_member {field : Field} (ha : field.attrs.Legible) (ht : Silent type)
    (h : repeatedMember field.attrs type = .ok member) :
    MembersLegible member.toList ∧ labelsOf member.toList ⊆ fieldLabels field := by
  obtain ⟨hlegible, hmember⟩ := repeatedMember_legible ha ht.1 (by simp [ht.2]) h
  obtain ⟨attrs, schema?, blocks⟩ := field
  refine ⟨hlegible, ?_⟩
  rw [hmember, ht.2, fieldLabels]
  exact List.cons_subset_cons _ (List.nil_subset _)

/-- The member of a group with legible members, whose comments are those of its fields. -/
theorem group_member {field : Field} {members : List Member} (hf : field.Legible) (hk : field.attrs.kind = .group)
    (hlegible : MembersLegible members) (hlabels : labelsOf members ⊆ schemaLabels field.schema?)
    (h : repeatedMember field.attrs (.object members) = .ok member) :
    MembersLegible member.toList ∧ labelsOf member.toList ⊆ fieldLabels field := by
  have hobject : (TypeExpr.object members).labels = labelsOf members := by rw [TypeExpr.labels]
  have hneutral : field.attrs.multiple = true → field.attrs.maxInstance.truthy = false →
      ∀ label ∈ (TypeExpr.object members).labels, Neutral label.display := by
    rw [hobject]
    exact fun hmultiple hcount label hl => hf.neutral hk hmultiple hcount label (hlabels hl)
  obtain ⟨hmember, hcomments⟩ := repeatedMember_legible hf.attrs (by rwa [TypeExpr.Legible]) hneutral h
  obtain ⟨attrs, schema?, blocks⟩ := field
  refine ⟨hmember, ?_⟩
  rw [hcomments, fieldLabels, if_pos hk, hobject]
  exact List.cons_subset_cons _ hlabels

theorem silent_fallback : Silent .fallback := silent_flat rfl (by simp) (by simp)

theorem silent_declared {name : String} (h : OneLine name) : Silent (.declared name) := by
  simpa [Silent, TypeExpr.Legible, TypeExpr.labels] using h

theorem State.Legible.opened (hs : s.Legible) (name : String) : (s.opened name).Legible where
  globals n d hm := by
    rcases Table.mem_put hm with ⟨-, heq⟩ | hm
    · cases heq
    · exact hs.globals n d hm
  scope := by simp [State.opened]
  names := hs.names

theorem State.Legible.closed {scope : List BlockUnion} {name : String} {d : Declaration} (ht : t.Legible)
    (hscope : ∀ u ∈ scope, u.Legible) (hd : d.Legible) : (t.closed scope name d).Legible where
  globals n d' hm := by
    rcases Table.mem_put hm with ⟨-, heq⟩ | hm
    · cases heq
      exact hd
    · exact ht.globals n d' hm
  scope := hscope
  names := ht.names

theorem Visits.legible {result : Except Fault task.Result} (h : Visits input scope task s steps result t)
    (hl : input.Legible) (hw : task.Within input) (hd : task.OneLine) (hs : s.Legible) :
    LegibleVisit task steps result t := by
  induction h with
  | fields_nil =>
    refine ⟨hs, .nil, ?_⟩
    rintro _ ⟨⟩
    exact ⟨trivial, by simp [labelsOf]⟩
  | fields_fault _ ih =>
    have hfield := ih hw.head trivial hs
    exact .fault hfield.state hfield.met
  | fields_cons _ _ ih ih' =>
    have hfield := ih hw.head trivial hs
    have hrest := ih' hw.tail trivial hfield.state
    refine (hfield.andThen hrest) ?_
    rintro ⟨hlegible, hlabels⟩ members ⟨hlegible', hlabels'⟩
    refine ⟨membersLegible_append hlegible hlegible', ?_⟩
    rw [labelsOf_append, fieldsLabels]
    exact List.append_subset.2
      ⟨List.subset_append_of_subset_left _ hlabels, List.subset_append_of_subset_right _ hlabels'⟩
  | field_fault => exact .fault hs .nil
  | field_unusable => exact .of_action hs ((quiet_skip _ _ _ _).keeps _) ⟨trivial, by simp [labelsOf]⟩
  | @field_flat _ _ _ _ _ s _ _ _ _ hv hr =>
    have ha := (Part.Legible.field hl hw).attrs
    have hk := (quiet_flatType hv).keeps s
    rw [hr] at hk
    refine ⟨hs.of_keeps hk, .nil, fun member hm => ?_⟩
    obtain ⟨type, rfl, hm⟩ := ok_of_bind hm
    obtain ⟨htype, hlabels⟩ := yields_flatType hl.lead ha hv _ _ _ hr
    obtain ⟨hlegible, hmember⟩ := typedMember_legible ha htype hm
    refine ⟨hlegible, ?_⟩
    rw [hmember, hlabels, fieldLabels]
    exact List.cons_subset_cons _ (List.nil_subset _)
  | field_group ho _ ih =>
    refine (ih (hw.group _) trivial hs).bind ?_
    rintro members member ⟨hlegible, hlabels⟩
    rw [schemaLabels_getD] at hlabels
    exact group_member (Part.Legible.field hl hw) ho.kind_eq hlegible hlabels
  | field_target_fault => exact .fault hs .nil
  | field_global _ _ _ ih =>
    refine (ih (hw.global _ _ _ _) trivial hs).bind fun type _ htype =>
      silent_member (Part.Legible.field hl hw).attrs ?_
    cases type with
    | none => exact silent_fallback
    | some type => exact htype type rfl
  | field_blocks_fault _ _ ih =>
    have hblocks := ih (hw.inner_blocks _) trivial hs
    exact .fault hblocks.state hblocks.met
  | field_no_blocks _ _ ih =>
    have hblocks := ih (hw.inner_blocks _) trivial hs
    exact ⟨hblocks.state, hblocks.met, fun member hm =>
      silent_member (Part.Legible.field hl hw).attrs silent_fallback hm⟩
  | field_union_fault _ _ _ hu ih =>
    have hblocks := ih (hw.inner_blocks _) trivial hs
    obtain ⟨hstate, -⟩ := hblocks.state.union hl.lead (hblocks.result _ rfl) hu
    exact .fault hstate hblocks.met
  | field_union _ _ _ hu ih =>
    have hblocks := ih (hw.inner_blocks _) trivial hs
    have hkept := hblocks.result _ rfl
    obtain ⟨hstate, hname⟩ := hblocks.state.union hl.lead hkept hu
    refine ⟨hstate, hblocks.met.append ?_, fun member hm =>
      silent_member (Part.Legible.field hl hw).attrs (silent_declared (hname _ rfl)) hm⟩
    exact List.forall_mem_singleton.2 hkept
  | blocks_nil =>
    refine ⟨hs, .nil, ?_⟩
    rintro _ ⟨⟩ _ ⟨⟩
  | blocks_fault _ ih =>
    have hblock := ih hw.head_block trivial hs
    exact .fault hblock.state hblock.met
  | blocks_cons _ _ ih ih' =>
    have hblock := ih hw.head_block trivial hs
    have hrest := ih' hw.tail_block trivial hblock.state
    exact (hblock.andThen hrest) fun hmember _ hmembers => List.forall_mem_append.2 ⟨hmember, hmembers⟩
  | block_fault => exact .fault hs .nil
  | block_unusable => exact .of_action hs ((quiet_skip _ _ _ _).keeps _) fun _ h => by cases h
  | block_inline _ _ _ ih =>
    refine (ih (hw.inline _) trivial hs).map fun members hmembers => ?_
    have htype : (TypeExpr.object members).Legible := by
      rw [TypeExpr.Legible]
      exact hmembers.1
    exact List.forall_mem_singleton.2 ⟨hl.parts _ hw.mem_block, htype⟩
  | block_reference _ _ _ ih =>
    refine (ih (hw.reference _ _) trivial hs).map fun type htype => ?_
    cases type with
    | none => exact fun _ h => by cases h
    | some type => exact List.forall_mem_singleton.2 ⟨hl.parts _ hw.mem_block, (htype type rfl).1⟩
  | reference_fault => exact .fault hs .nil
  | reference_unusable =>
    exact .of_action hs ((quiet_refuseReference _ _ _ _).keeps _) fun _ h => by cases h
  | reference_known hn =>
    refine ⟨⟨hs.globals, hs.scope, hs.names⟩, .nil, ?_⟩
    rintro _ ⟨⟩ _ ⟨⟩
    exact silent_declared (Naming.oneLine_declare? hl.lead hn)
  | reference_missing => exact .of_action hs ((quiet_skip _ _ _ _).keeps _) fun _ h => by cases h
  | reference_fields_fault hn _ _ ho _ ih =>
    have hdeclare := ih (hw.origin ho _ _) ⟨Naming.oneLine_declare? hl.lead hn, descriptionOf_oneLine hl _⟩ hs
    exact .fault hdeclare.state hdeclare.met
  | reference_built hn _ _ ho _ ih =>
    have hname := Naming.oneLine_declare? hl.lead hn
    have hdeclare := ih (hw.origin ho _ _) ⟨hname, descriptionOf_oneLine hl _⟩ hs
    refine ⟨⟨hdeclare.state.globals, hdeclare.state.scope, hdeclare.state.names⟩, hdeclare.met.append .nil, ?_⟩
    rintro _ ⟨⟩ _ ⟨⟩
    exact silent_declared hname
  | declare_known => exact ⟨hs, .nil, fun _ _ => trivial⟩
  | declare_fault _ _ ih =>
    have hfields := ih (hw.origin_fields _) trivial (hs.opened _)
    exact .fault ⟨hfields.state.globals, hs.scope, hfields.state.names⟩ hfields.met
  | declare_built _ _ ih =>
    have hfields := ih (hw.origin_fields _) trivial (hs.opened _)
    have hmain := (hfields.result _ rfl).1
    exact ⟨hfields.state.closed hs.scope ⟨hfields.state.scope, ⟨hd.1, hd.2, hmain⟩⟩, hfields.met, fun _ _ => trivial⟩

theorem recordName_legible {record : Record} {uid name : String} (hlead : OneLine input.style.lead)
    (hs : s.Legible) (h : recordName input record s = (.ok (uid, name), t)) : t.Legible ∧ OneLine name := by
  cases recordName_ok h with
  | usable => exact ⟨hs, Naming.oneLine_declare hlead _⟩
  | unusable =>
    exact ⟨⟨hs.globals, hs.scope, hs.names⟩, Naming.oneLine_placeholder (Naming.oneLine_declare hlead _)⟩

theorem State.Legible.alone (hs : s.Legible) (name uid : String) : (s.entered name uid).Legible :=
  ⟨hs.globals, by simp [State.entered], hs.names⟩

theorem State.Legible.left {before : State} (hs : s.Legible) (hb : before.Legible) : (s.left before).Legible :=
  ⟨hs.globals, hb.scope, hs.names⟩

/-- What a pass over legible records leaves and gives is legible. -/
structure LegiblePass (steps : List Step) (result : Except Fault (List Declaration)) (t : State) : Prop where
  state : t.Legible
  met : MeetsLegible steps
  declarations : ∀ ds, result = .ok ds → ∀ d ∈ ds, d.Legible

theorem Passes.legible {position : Nat} {records : List Record} {result : Except Fault (List Declaration)}
    (h : Passes input position records s steps result t) (hl : input.Legible) (hsub : records ⊆ input.records)
    (hs : s.Legible) : LegiblePass steps result t := by
  induction h with
  | nil =>
    refine ⟨hs, .nil, ?_⟩
    rintro _ ⟨⟩
    exact fun _ h => by cases h
  | name_fault hn =>
    rw [(recordName_fault hn).1]
    exact ⟨hs, .nil, fun _ h => by cases h⟩
  | bare _ hn _ _ ih => exact ih (List.cons_subset.1 hsub).2 (recordName_legible hl.lead hs hn).1
  | global_fault _ hn _ hv =>
    have hr := (List.cons_subset.1 hsub).1
    obtain ⟨hmid, hname⟩ := recordName_legible hl.lead hs hn
    have hdeclare := hv.legible hl (within_declare hr _ _) ⟨hname, hl.descriptions _ hr⟩ hmid
    exact ⟨hdeclare.state, hdeclare.met, fun _ h => by cases h⟩
  | global _ hn _ hv _ ih =>
    obtain ⟨hr, hrest⟩ := List.cons_subset.1 hsub
    obtain ⟨hmid, hname⟩ := recordName_legible hl.lead hs hn
    have hdeclare := hv.legible hl (within_declare hr _ _) ⟨hname, hl.descriptions _ hr⟩ hmid
    have hends := ih hrest hdeclare.state
    exact ⟨hends.state, hdeclare.met.append hends.met, hends.declarations⟩
  | contentType_fault _ hn hv =>
    obtain ⟨hmid, -⟩ := recordName_legible hl.lead hs hn
    have hfields := hv.legible hl (within_fields (List.cons_subset.1 hsub).1 _) trivial (hmid.alone _ _)
    exact ⟨hfields.state.left hmid, hfields.met, fun _ h => by cases h⟩
  | contentType _ hn hv _ ih =>
    obtain ⟨hr, hrest⟩ := List.cons_subset.1 hsub
    obtain ⟨hmid, hname⟩ := recordName_legible hl.lead hs hn
    have hfields := hv.legible hl (within_fields hr _) trivial (hmid.alone _ _)
    have hends := ih hrest (hfields.state.left hmid)
    refine ⟨hends.state, hfields.met.append hends.met, fun ds hm => ?_⟩
    obtain ⟨rest, rfl, rfl⟩ := ok_of_map hm
    have hmain := (hfields.result _ rfl).1
    exact List.forall_mem_cons.2 ⟨⟨hfields.state.scope, hname, hl.descriptions _ hr, hmain⟩,
      hends.declarations _ rfl⟩

theorem legible_start (hs : start input = .ok s) : s.Legible := by
  obtain ⟨richTextUsed, rfl⟩ := start_eq hs
  exact ⟨by simp, by simp, by simp [State.unionNames]⟩

/-- The code of a run over a legible document without its comments is the code of its output without
comments. -/
theorem withoutComments_code {o : Output} (hl : input.Legible) (hs : start input = .ok s)
    (hr : runFrom input s = (.ok o, t)) :
    Text.withoutComments (o.code input.style) = o.code input.style.undocumented := by
  obtain ⟨steps, u, hp, -, rfl, ho⟩ := runFrom_ok hr
  have hpass := hp.legible hl (List.Subset.refl _) (legible_start hs)
  have hglobals : ∀ d ∈ o.globals, d.Legible := by
    intro d hd
    rw [ho] at hd
    obtain ⟨entry, he, rfl⟩ := List.mem_map.1 hd
    obtain ⟨⟨name, d?⟩, hm, hsome⟩ := List.mem_filterMap.1 he
    obtain ⟨d, rfl, rfl⟩ := Option.map_eq_some_iff.1 hsome
    exact hpass.state.globals name d hm
  have hprelude : o.prelude = Prelude.select input.style u.richTextUsed := by
    rw [ho]
    rfl
  have hbuiltins : List.Forall₂ Uncomments o.prelude o.prelude := by
    rw [List.forall₂_same, hprelude]
    exact fun part hp => (Prelude.commentless_select hl.lead _ part hp).omits
  have hdeclarations : ∀ ds : List Declaration, (∀ d ∈ ds, d.Legible) →
      List.Forall₂ Uncomments (ds.map (Declaration.text input.style))
        (ds.map (Declaration.text input.style.undocumented)) :=
    fun ds hds => forall₂_map fun d hd => Declaration.uncomments hl.lead (hds d hd)
  have hparts : List.Forall₂ Uncomments (o.parts input.style) (o.parts input.style.undocumented) :=
    List.rel_append (List.rel_append hbuiltins (hdeclarations _ hglobals))
      (hdeclarations _ (hpass.declarations _ rfl))
  exact Text.withoutComments_eq (uncomments_joinParts hparts)

end Generation

end SchemaDecl

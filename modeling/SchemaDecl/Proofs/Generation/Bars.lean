import SchemaDecl.Proofs.Generation.Standards
import SchemaDecl.Proofs.Schema.RichText
import SchemaDecl.Proofs.TypeExpr.Sealed

/-!
# Bars in the lines of members

Where a field and those inside of it bring no brackets to their types, the type in the line of its member has a
bar outside brackets for a `null` at its end only, and has that exactly if the member may be empty. The names of
unions that a pass gives out are part of this, so it is a property of every state that a pass can be in.
-/

namespace SchemaDecl

open Text (Balanced)

/-- The uid, the comment and the limit of a field bring no brackets, nor do the texts among its choices. -/
structure Attributes.Tame (a : Attributes) : Prop where
  uid : ∃ s, a.uid = .text s ∧ Unbracketed s
  label : Unbracketed a.displayName.display
  count : Unbracketed a.maxInstance.display
  choices : ∀ values ∈ a.literals?, ∀ value ∈ values, value.unbracketed = true

theorem unbracketed_limit {limit : Json} (h : limit = .null ∨ ∃ n, limit = .int n) : Unbracketed limit.display := by
  rcases h with rfl | ⟨n, rfl⟩
  · decide
  · exact (bare_int n).unbracketed

/-- The field brings no brackets, and none of those that can be reached in it does. -/
def Field.Tame (field : Field) : Prop := ∀ f ∈ fieldWalk isReached field, f.attrs.Tame

theorem Field.Tame.own {attrs : Attributes} {schema? : Option (List Field)} {blocks : List Block}
    (h : Field.Tame ⟨attrs, schema?, blocks⟩) : attrs.Tame :=
  h ⟨attrs, schema?, blocks⟩ (by rw [fieldWalk]; exact List.mem_cons_self)

theorem Field.Tame.group {attrs : Attributes} {schema? : Option (List Field)} {blocks : List Block}
    (h : Field.Tame ⟨attrs, schema?, blocks⟩) (hk : attrs.kind = .group) :
    ∀ f ∈ fieldsWalk isReached (schema?.getD []), f.attrs.Tame := by
  intro f hf
  refine h f ?_
  rw [fieldWalk, hk]
  refine List.mem_cons_of_mem _ (List.mem_append_left _ ?_)
  cases schema? with
  | none =>
    rw [Option.getD_none, fieldsWalk] at hf
    cases hf
  | some fields =>
    rw [schemaWalk]
    exact hf

namespace Generation

open TypeExpr (MembersTame MemberTame membersTame_iff OuterBar shown)

/-- The states that a pass can be in where a visit begins: a pass begins with one, and naming a record, visiting
anything, and going on in another scope lead from one to another. -/
inductive Input.Reaches (input : Input) : State → Prop
  | start {s} : start input = .ok s → input.Reaches s
  | named {s} (record : Record) : input.Reaches s → input.Reaches (recordName input record s).2
  | visited {s} (task : Task) :
      input.Reaches s → input.Reaches (task.visit input (declareRecord input input.records.length) s).2
  | opened {s} (name : String) : input.Reaches s → input.Reaches (s.opened name)
  | moved {s} (contentTypes : List String) (scope : List BlockUnion) (owner : Option String) :
      input.Reaches s → input.Reaches { s with contentTypes, scope, owner }

variable {input : Input} {scope : Scope} {task : Task} {s t : State} {steps : List Step} {attrs : Attributes}
  {type : TypeExpr} {member : Member} {name : String}

theorem Input.Reaches.visits {result : Except Fault task.Result} (hs : input.Reaches s)
    (h : Visits input scope task s steps result t) : input.Reaches t := by
  have hvisited := hs.visited task
  rwa [h.visit_records (Nat.le_refl _)] at hvisited

theorem Input.Reaches.calls {task' : Task} (hs : input.Reaches s) (h : Generation.Calls input (task', t) (task, s)) :
    input.Reaches t := by
  cases h with
  | fields_tail hv | blocks_tail hv => exact hs.visits hv
  | declare => exact hs.opened _
  | _ => exact hs

def NamesSmooth (s : State) : Prop := ∀ name ∈ s.unionNames, Smooth name

theorem unionName_smooth {uid : Json} {blocks : Blocks} (hlead : Smooth input.style.lead) (hs : NamesSmooth s)
    (h : unionName input.style uid blocks s = (.ok name, t)) : Smooth name ∧ NamesSmooth t :=
  unionName_names hs (fun _ _ hb he => he.smooth (Naming.smooth_declare? hlead hb)) h

theorem Trace.namesSmooth {whole : Bool} (hlead : Smooth input.style.lead) (h : Trace input scope s steps whole t)
    (hs : NamesSmooth s) : NamesSmooth t := by
  induction h with
  | quiet hk =>
    rw [NamesSmooth, State.unionNames, hk.unions]
    exact hs
  | stopped _ ih => exact ih hs
  | append _ _ ih ih' => exact ih' (ih hs)
  | refer => exact hs
  | union _ hu => exact (unionName_smooth hlead hs hu).2
  | fault _ _ ih | built _ _ _ ih => exact ih hs

theorem Input.Reaches.namesSmooth (hlead : Smooth input.style.lead) (h : input.Reaches s) : NamesSmooth s := by
  induction h with
  | start hs =>
    obtain ⟨richTextUsed, rfl⟩ := start_eq hs
    exact fun _ hm => by cases hm
  | @named s record _ ih =>
    rcases hr : recordName input record s with ⟨e | ⟨uid, name⟩, t⟩
    · rw [(recordName_fault hr).1]
      exact ih
    · cases recordName_ok hr <;> exact ih
  | @visited s task _ ih =>
    obtain ⟨steps, result, t, hv⟩ := visit_ends input .top task s
    rw [hv.visit_records (Nat.le_refl _)]
    exact hv.trace.namesSmooth hlead ih
  | opened _ _ ih => exact ih
  | moved _ _ _ _ ih => exact ih

/-- The line of the field's member says that it may be empty. -/
def MayBeNull (attrs : Attributes) : Prop :=
  attrs.mandatory = false ∧ (attrs.kind = .isodate ∨ attrs.kind = .file ∨ attrs.kind = .number ∨
    attrs.displayType = .text "radio" ∨ attrs.displayType = .text "dropdown")

/-- The field is the folder of a file, and one only. -/
structure HoldsFolder (attrs : Attributes) : Prop where
  untyped : attrs.literals? = none
  file : attrs.kind = .file
  uid : attrs.uid = .text "parent_uid"
  single : attrs.multiple = false

theorem isNullable_iff {b : Bool} (h : isNullable attrs = .ok b) : b = true ↔ MayBeNull attrs := by
  unfold isNullable at h
  rw [MayBeNull]
  split at h
  next hm =>
    cases h
    simp [hm]
  next hm =>
    split at h
    next hk =>
      cases h
      simp only [Bool.eq_false_iff.2 hm, true_and, true_iff]
      rcases hk with hk | hk | hk <;> simp [hk]
    next hk =>
      simp only [not_or] at hk
      cases hd : asKey attrs.displayType with
      | error e =>
        rw [hd] at h
        cases h
      | ok shown =>
        rw [hd] at h
        cases h
        have hshown : shown = attrs.displayType := by
          unfold asKey at hd
          split at hd <;> cases hd
          rfl
        have hbeq : ∀ a b : Json, (a == b) = true ↔ a = b := fun _ _ => Json.beq_iff_eq
        simp [hshown, hk, hbeq, Bool.eq_false_iff.2 hm]

theorem repeated_eq_folder {multiple : Bool} {count : Json} :
    type.repeated multiple count = .folder ↔ type = .folder ∧ multiple = false := by
  unfold TypeExpr.repeated
  cases multiple with
  | false => simp
  | true =>
    simp only [Bool.not_true, Bool.false_eq_true, if_false]
    split <;> simp

theorem flatType_folder {style : Style} {path : Json} {visit : Visit TypeExpr}
    (hv : flatType? style attrs path = some visit) (hr : visit s = (.ok type, t)) :
    type = .folder ↔ HoldsFolder attrs := by
  unfold flatType? at hv
  cases hl : attrs.literals? with
  | some values =>
    rw [hl] at hv
    obtain rfl := Option.some.inj hv
    obtain ⟨base, hbase, rfl⟩ := bind_pure_eq_ok hr
    cases hbase
    rw [repeated_eq_folder]
    exact iff_of_false (by simp) fun h => by simpa [hl] using h.untyped
  | none =>
    rw [hl] at hv
    have hother : attrs.kind ≠ .file → type ≠ .folder → (type = .folder ↔ HoldsFolder attrs) := fun hk hne =>
      iff_of_false hne fun h => hk h.file
    cases hk : attrs.kind <;> rw [hk] at hv hother
    case group | globalField | blocks => cases hv
    all_goals obtain rfl := Option.some.inj hv
    case file =>
      obtain ⟨base, hbase, rfl⟩ := bind_pure_eq_ok hr
      rw [repeated_eq_folder]
      unfold fileType at hbase
      split at hbase
      next hu =>
        cases hbase
        exact ⟨fun h => ⟨hl, hk, Json.eq_of_beq hu, h.2⟩, fun h => ⟨rfl, h.single⟩⟩
      next hu =>
        cases hbase
        exact iff_of_false (by simp) fun h => hu (h.uid ▸ Json.beq_self _)
    case reference =>
      obtain ⟨targets, _, -, hnames⟩ := bind_eq_ok hr
      obtain ⟨names, _, -, htrack⟩ := bind_eq_ok hnames
      cases htrack
      exact hother (by simp) (by simp)
    case unknown =>
      cases hr
      exact hother (by simp) (by simp)
    case json =>
      obtain ⟨base, hbase, rfl⟩ := bind_pure_eq_ok hr
      obtain ⟨isExtension, _, -, hrest⟩ := bind_eq_ok hbase
      refine hother (by simp) ?_
      rw [ne_eq, repeated_eq_folder]
      split at hrest <;> cases hrest <;> simp
    all_goals
      obtain ⟨base, hbase, rfl⟩ := bind_pure_eq_ok hr
      cases hbase
      exact hother (by simp) (by simp [repeated_eq_folder])

theorem repeated_tame (ha : attrs.Tame) (ht : type.Tame) :
    (type.repeated attrs.multiple attrs.maxInstance).Tame := by
  unfold TypeExpr.repeated
  split
  · exact ht
  · split <;> rw [TypeExpr.Tame]
    · exact ⟨ht, ha.count⟩
    · exact ht

theorem flat_tame {style : Style} (ha : attrs.Tame) (hlead : Smooth style.lead) (h : FlatType style attrs type) :
    type.Tame := by
  cases h with
  | choices hv =>
    rw [TypeExpr.Tame]
    exact ha.choices _ hv
  | references hn =>
    rw [TypeExpr.Tame]
    intro name hm
    obtain ⟨target, htarget⟩ := hn name hm
    exact Naming.smooth_declare? hlead htarget
  | _ => simp [TypeExpr.Tame]

/-- What the member of a field has of it. -/
structure Fits (attrs : Attributes) (member : Member) : Prop where
  uid : member.uid = attrs.uid
  optional : member.isOptional = isOptional attrs
  nullable : member.isNullable = true ↔ MayBeNull attrs
  tame : MemberTame member
  folder : member.type = .folder ↔ HoldsFolder attrs

theorem typedMember_fits (ha : attrs.Tame) (ht : type.Tame) (hf : type = .folder ↔ HoldsFolder attrs)
    (h : typedMember attrs type = .ok (some member)) : Fits attrs member := by
  obtain ⟨nullable, hn, hm⟩ := typedMember_ok h
  obtain rfl := Option.some.inj hm
  refine ⟨rfl, rfl, isNullable_iff hn, ?_, hf⟩
  rw [MemberTame]
  exact ⟨ha.uid, ha.label, ht⟩

theorem repeatedMember_fits {kind : Kind} (hk : attrs.kind = kind) (hkind : kind ≠ .file) (ha : attrs.Tame)
    (ht : type.Tame) (hne : type ≠ .folder) (h : repeatedMember attrs type = .ok (some member)) :
    Fits attrs member := by
  refine typedMember_fits ha (repeated_tame ha ht) (iff_of_false ?_ fun hf => hkind (hk ▸ hf.file)) h
  rw [repeated_eq_folder]
  exact fun h => hne h.1

def TaskTame : Task → Prop
  | .field _ f => f.Tame
  | .fields _ fs => ∀ f ∈ fieldsWalk isReached fs, f.attrs.Tame
  | _ => True

def ResultTame : (task : Task) → task.Result → Prop
  | .field _ f => fun member? => ∀ member, member? = some member → Fits f.attrs member
  | .fields .. => MembersTame
  | .reference .. => fun type? => ∀ type, type? = some type → ∃ name, type = .declared name ∧ Smooth name
  | .block .. | .blocks .. | .declare .. => fun _ => True

theorem Visits.tame {result : Except Fault task.Result} (hlead : Smooth input.style.lead)
    (h : Visits input scope task s steps result t) (hs : NamesSmooth s) (ht : TaskTame task) :
    ∀ r, result = .ok r → ResultTame task r := by
  induction h with
  | fields_nil =>
    rintro _ ⟨⟩
    simp [ResultTame, MembersTame]
  | @fields_cons _ _ field rest _ _ member? _ _ _ _ hv _ ih ih' =>
    intro members hm
    have hsplit : ∀ f ∈ fieldWalk isReached field ++ fieldsWalk isReached rest, f.attrs.Tame := by
      rw [TaskTame, fieldsWalk] at ht
      exact ht
    obtain ⟨hfield, hrest⟩ := List.forall_mem_append.1 hsplit
    obtain ⟨others, rfl, rfl⟩ := ok_of_map hm
    have hothers : MembersTame others := ih' (hv.trace.namesSmooth hlead hs) hrest others rfl
    have hmember : ∀ member ∈ member?.toList, MemberTame member := fun member hmember =>
      (ih hs hfield member? rfl member (Option.mem_toList.1 hmember)).tame
    exact membersTame_iff.2 (List.forall_mem_append.2 ⟨hmember, membersTame_iff.1 hothers⟩)
  | field_unusable =>
    rintro _ ⟨⟩ _ ⟨⟩
  | @field_flat _ _ attrs _ _ _ _ _ _ _ hv hr =>
    intro member? hm member hmember
    subst hmember
    obtain ⟨type, rfl, hm⟩ := ok_of_bind hm
    obtain ⟨base, hflat, htype, -⟩ := flatType_types hv _ _ _ hr
    have ha : attrs.Tame := Field.Tame.own ht
    have hbase := flat_tame ha hlead hflat
    refine typedMember_fits ha ?_ (flatType_folder hv hr) hm
    rcases htype with rfl | rfl
    · exact hbase
    · exact repeated_tame ha hbase
  | field_group ho _ ih =>
    intro member? hm member hmember
    subst hmember
    obtain ⟨members, rfl, hm⟩ := ok_of_bind hm
    have hmembers : MembersTame members := ih hs (Field.Tame.group ht ho.kind_eq) members rfl
    refine repeatedMember_fits ho.kind_eq (by simp) (Field.Tame.own ht) ?_ (by simp) hm
    rwa [TypeExpr.Tame]
  | field_global ho _ _ ih =>
    intro member? hm member hmember
    subst hmember
    obtain ⟨type?, rfl, hm⟩ := ok_of_bind hm
    have hreference := ih hs trivial type? rfl
    have htype : (type?.getD .fallback).Tame ∧ type?.getD .fallback ≠ .folder := by
      cases type? with
      | none => simp [TypeExpr.Tame]
      | some type =>
        obtain ⟨name, rfl, hname⟩ := hreference type rfl
        simpa [TypeExpr.Tame] using hname
    exact repeatedMember_fits ho.kind_eq (by simp) (Field.Tame.own ht) htype.1 htype.2 hm
  | field_no_blocks ho =>
    intro member? hm member hmember
    subst hmember
    exact repeatedMember_fits ho.kind_eq (by simp) (Field.Tame.own ht) (by simp [TypeExpr.Tame]) (by simp) hm
  | field_union ho hv _ hu =>
    intro member? hm member hmember
    subst hmember
    have hname := (unionName_smooth hlead (hv.trace.namesSmooth hlead hs) hu).1
    exact repeatedMember_fits ho.kind_eq (by simp) (Field.Tame.own ht) (by rwa [TypeExpr.Tame]) (by simp) hm
  | reference_known hn | reference_built hn =>
    rintro _ ⟨⟩ _ ⟨⟩
    exact ⟨_, rfl, Naming.smooth_declare? hlead hn⟩
  | reference_unusable | reference_missing =>
    rintro _ ⟨⟩ _ ⟨⟩
  | fields_fault | field_fault | field_target_fault | field_blocks_fault | field_union_fault | reference_fault
    | reference_fields_fault => exact fun _ h => by cases h
  | _ => exact fun _ _ => trivial

/-- In the line of a field's member, the type has matching brackets, and a bar outside of them only for a `null` at
its end. It has that exactly if the member may be empty or the field is the folder of a file. The marks of lists go
around whole types. -/
theorem visitField_bars {path : Json} {field : Field} (hlead : Smooth input.style.lead) (hs : input.Reaches s)
    (hf : field.Tame)
    (hv : visitField input (declareRecord input input.records.length) path field s = (.ok (some member), t)) :
    let style := input.style
    let type := shown member.isNullable (member.type.text style)
    TypeExpr.memberLine member.uid member.isOptional member.isNullable (member.type.text style) =
        field.attrs.uid.display ++ (if isOptional field.attrs then "?" else "") ++ ": " ++ type ++ ";" ∧
      Balanced type.toList ∧
      (∀ front rear, OuterBar type.toList front rear → '|' :: rear = "| null".toList) ∧
      ((∃ front rear, OuterBar type.toList front rear) ↔ MayBeNull field.attrs ∨ HoldsFolder field.attrs) ∧
      (∀ element, member.type = .array element →
        (∃ front rear, OuterBar (element.text style).toList front rear) ∧
            member.type.text style = "(" ++ element.text style ++ ")[]" ∨
          (¬ ∃ front rear, OuterBar (element.text style).toList front rear) ∧
            member.type.text style = element.text style ++ "[]") ∧
      ∀ element count, member.type = .atMost element count → Balanced (element.text style).toList ∧
        member.type.text style = "MaxTuple<" ++ element.text style ++ ", " ++ count.display ++ ">" := by
  intro style type
  obtain ⟨steps, result, u, hvisits⟩ := visit_ends input .top (.field path field) s
  have hresult : (result, u) = (.ok (some member), t) :=
    (hvisits.visit_records (Nat.le_refl _)).symm.trans hv
  cases hresult
  have hfits : Fits field.attrs member := hvisits.tame hlead (hs.namesSmooth hlead) hf _ rfl member rfl
  have htame : member.type.Tame := by
    obtain ⟨uid, label, isOptional, isNullable, type⟩ := member
    have hmember := hfits.tame
    rw [MemberTame] at hmember
    exact hmember.2.2
  obtain ⟨hbalanced, hlast, hbar⟩ := TypeExpr.shown_bars hlead htame member.isNullable
  refine ⟨?_, hbalanced, hlast, ?_, ?_, ?_⟩
  · rw [TypeExpr.memberLine_shown, hfits.uid, hfits.optional]
  · rw [hbar, hfits.nullable, hfits.folder]
  · intro element he
    rw [he, TypeExpr.Tame] at htame
    rw [he]
    exact TypeExpr.array_marked hlead htame
  · intro element count he
    rw [he, TypeExpr.Tame] at htame
    refine ⟨TypeExpr.balanced_of_sealed (TypeExpr.sealed_text hlead element htame.1), ?_⟩
    rw [he, TypeExpr.text, TypeExpr.atMostText]

/-- A repeated group that may be empty, with a folder and a repeated choice of numbers. -/
def partsField : Field :=
  let folder : Field := ⟨{ uid := .text "parent_uid", kind := .file, tag := "file" }, none, []⟩
  let size : Field :=
    ⟨{ uid := .text "size", kind := .number, tag := "number", displayName := .text "Size", multiple := true,
       choices := some [.int 1, .text "one | two"] }, none, []⟩
  ⟨{ uid := .text "parts", kind := .group, tag := "group", displayType := .text "dropdown", multiple := true,
     maxInstance := .int 3 }, some [folder, size], []⟩

theorem visitField_bars_parts :
    let input : Input := ⟨{ lead := "I" }, []⟩
    Smooth input.style.lead ∧ input.Reaches {} ∧ partsField.Tame ∧ ∃ member t,
      visitField input (declareRecord input input.records.length) (.text "") partsField {} =
          (.ok (some member), t) ∧
        ∃ front rear, OuterBar (shown member.isNullable (member.type.text input.style)).toList front rear := by
  intro input
  have hlead : Smooth input.style.lead := by decide
  have hs : input.Reaches {} := .start rfl
  have hf : partsField.Tame := by
    simp only [Field.Tame, partsField, fieldWalk, schemaWalk, fieldsWalk, isReached, decide_true, Bool.or_false,
      if_true, reduceCtorEq, decide_false, Bool.false_eq_true, if_false, List.append_nil, List.nil_append,
      List.cons_append, List.forall_mem_cons, List.not_mem_nil, false_implies, implies_true, and_true]
    exact ⟨⟨⟨_, rfl, by decide⟩, by decide, unbracketed_limit (.inr ⟨3, rfl⟩), by decide⟩,
      ⟨⟨_, rfl, by decide⟩, by decide, unbracketed_limit (.inl rfl), by decide⟩,
      ⟨_, rfl, by decide⟩, by decide, unbracketed_limit (.inl rfl), by decide⟩
  have hvisit : (visitField input (declareRecord input input.records.length) (.text "") partsField
      {}).1.toOption.join.isSome = true := by decide +kernel
  rcases hr : visitField input (declareRecord input input.records.length) (.text "") partsField {} with
    ⟨_ | _ | member, t⟩ <;> rw [hr] at hvisit
  · cases hvisit
  · cases hvisit
  · obtain ⟨-, -, -, hbar, -⟩ := visitField_bars hlead hs hf hr
    have hnull : MayBeNull partsField.attrs := ⟨rfl, .inr (.inr (.inr (.inr rfl)))⟩
    exact ⟨hlead, hs, hf, member, t, rfl, hbar.2 (.inl hnull)⟩

end Generation

end SchemaDecl

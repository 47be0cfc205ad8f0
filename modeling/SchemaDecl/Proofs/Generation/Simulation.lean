import SchemaDecl.Proofs.Generation.BlockUnions
import SchemaDecl.Proofs.Generation.Parts

/-!
# Simulation between styles

Two passes over the same records in styles with one lead go the same way as long as they name unions alike.
What they declare may differ: a `Simulation` relates what they declare as they go, and is closed under all
that a visit does to it.
-/

namespace SchemaDecl

/-- The members differ in their types at most, and these are related. -/
def Member.Alike (types : TypeExpr → TypeExpr → Prop) (m m' : Member) : Prop :=
  m' = { m with type := m'.type } ∧ types m.type m'.type

namespace Generation

variable {ε α β γ δ : Type}

/-- Both give results and these are related, or both end with one fault. -/
inductive Matches (related : α → β → Prop) : Except ε α → Except ε β → Prop
  | ok {a b} (h : related a b) : Matches related (.ok a) (.ok b)
  | fault (e : ε) : Matches related (.error e) (.error e)

section Matches

variable {related : α → β → Prop} {related' : γ → δ → Prop} {r : Except ε α} {r' : Except ε β}

theorem Matches.map {f : α → γ} {g : β → δ} (h : Matches related r r')
    (hf : ∀ a b, related a b → related' (f a) (g b)) : Matches related' (r.map f) (r'.map g) := by
  cases h with
  | ok h => exact .ok (hf _ _ h)
  | fault e => exact .fault e

theorem Matches.bind {f : α → Except ε γ} {g : β → Except ε δ} (h : Matches related r r')
    (hf : ∀ a b, related a b → Matches related' (f a) (g b)) : Matches related' (r.bind f) (r'.bind g) := by
  cases h with
  | ok h => exact hf _ _ h
  | fault e => exact .fault e

theorem Matches.isOk_eq (h : Matches related r r') : r.isOk = r'.isOk := by cases h <;> rfl

theorem Matches.refl {related : α → α → Prop} (hr : ∀ a, related a a) (r : Except ε α) :
    Matches related r r := by
  cases r with
  | error e => exact .fault e
  | ok a => exact .ok (hr a)

end Matches

theorem forall₂_toList {r : α → β → Prop} {a : Option α} {b : Option β} (h : Option.Rel r a b) :
    List.Forall₂ r a.toList b.toList := by
  cases h with
  | some h => exact .cons h .nil
  | none => exact .nil

def BlockAlike (types : TypeExpr → TypeExpr → Prop) (b b' : Json × TypeExpr) : Prop :=
  b.1 = b'.1 ∧ types b.2 b'.2

def Task.Alike (types : TypeExpr → TypeExpr → Prop) : (task : Task) → task.Result → task.Result → Prop
  | .field .. => Option.Rel (Member.Alike types)
  | .fields .. => List.Forall₂ (Member.Alike types)
  | .block .. => Option.Rel (BlockAlike types)
  | .blocks .. => List.Forall₂ (BlockAlike types)
  | .reference .. => Option.Rel types
  | .declare .. => fun _ _ => True

theorem eq_of_alike {members members' : List Member} (h : List.Forall₂ (Member.Alike Eq) members members') :
    members' = members := by
  induction h with
  | nil => rfl
  | @cons member member' _ _ hm _ ih =>
    obtain ⟨hmember, htype⟩ := hm
    rw [ih, hmember, ← htype]
    cases member
    rfl

theorem blocks_eq_of_alike {blocks blocks' : Blocks} (h : List.Forall₂ (BlockAlike Eq) blocks blocks') :
    blocks' = blocks := by
  induction h with
  | nil => rfl
  | cons hb _ ih => rw [ih, Prod.ext hb.1 hb.2]

/-- The same records in another style. -/
def Input.styled (input : Input) (style : Style) : Input := ⟨style, input.records⟩

section Lead

variable {style style' : Style} (h : style'.lead = style.lead)

include h

theorem referenceNames_congr (path : Json) (targets : List Json) :
    referenceNames style' path targets = referenceNames style path targets := by
  induction targets with
  | nil => rfl
  | cons target rest ih => rw [referenceNames, referenceNames, ih, h]

theorem flatType?_congr (attrs : Attributes) (path : Json) :
    flatType? style' attrs path = flatType? style attrs path := by
  have hname : style'.nameOf = style.nameOf := by
    funext builtin
    rw [Style.nameOf, Style.nameOf, h]
  unfold flatType? fileType linkType taxonomyType builtinUsed referenceType
  simp only [hname, referenceNames_congr h]

end Lead

namespace Store

variable (w : Store)

/-- The store with no unions in its scope. -/
def alone : Store := { w with scope := [] }

def inScope (scope : List BlockUnion) : Store := { w with scope }

/-- The store where the name of a global field has been announced. -/
def announced (name : String) : Store := { w with globals := Table.put name none w.globals }

/-- The store where a global field is complete. -/
def completed (i : Interface) : Store :=
  { w with globals := Table.put i.name (some ⟨w.scope, i⟩) w.globals }

end Store

/-- What two passes over the records of the input declare, in the style of the input and in another. The
relations are kept by all that a visit does, as long as unions are named for blocks of interest. -/
structure Simulation (input : Input) (style : Style) where
  stores : Store → Store → Prop
  types : TypeExpr → TypeExpr → Prop
  declarations : Declaration → Declaration → Prop
  /-- The blocks of interest. -/
  met : Blocks → Prop
  lead : style.lead = input.style.lead
  names {v w} : stores v w → Table.names w.globals = Table.names v.globals
  alone {v w} : stores v w → stores v.alone w.alone
  inScope {v w v' w'} : stores v w → stores v' w' → stores (v'.inScope v.scope) (w'.inScope w.scope)
  announced {v w} (name) : stores v w → stores (v.announced name) (w.announced name)
  completed {v w members members'} (name description) :
    stores v w → List.Forall₂ (Member.Alike types) members members' →
      stores (v.completed ⟨name, description, false, members⟩) (w.completed ⟨name, description, false, members'⟩)
  contentType {v w members members'} (name description) :
    stores v w → List.Forall₂ (Member.Alike types) members members' →
      declarations ⟨v.scope, ⟨name, description, input.style.systemFields, members⟩⟩
        ⟨w.scope, ⟨name, description, style.systemFields, members'⟩⟩
  refl (type) : types type type
  object {members members'} :
    List.Forall₂ (Member.Alike types) members members' → types (.object members) (.object members')
  repeated {type type'} (multiple count) :
    types type type' → types (type.repeated multiple count) (type'.repeated multiple count)
  union {field blocks blocks' s w result t} :
    .field field ∈ input.parts → Opens field.attrs .blocks → stores s.store w →
      List.Forall₂ (BlockAlike types) blocks blocks' →
      unionName input.style field.attrs.uid blocks s = (result, t) →
      (result.isOk = true → met blocks) →
      ∃ result' w', unionName style field.attrs.uid blocks' (s.holding w) = (result', t.holding w') ∧
        Matches (fun name name' => types (.declared name) (.declared name')) result result' ∧ stores t.store w'

namespace Simulation

variable {input : Input} {style : Style} (sim : Simulation input style) {scope : Scope} {task : Task}
  {s t : State} {w : Store} {steps : List Step} {attrs : Attributes}

theorem typedMember {type type' : TypeExpr} (attrs : Attributes) (h : sim.types type type') :
    Matches (Option.Rel (Member.Alike sim.types)) (typedMember attrs type) (typedMember attrs type') := by
  unfold Generation.typedMember memberOf
  cases isNullable attrs with
  | error e => exact .fault e
  | ok isNullable => exact .ok (.some ⟨rfl, h⟩)

theorem repeatedMember {type type' : TypeExpr} (attrs : Attributes) (h : sim.types type type') :
    Matches (Option.Rel (Member.Alike sim.types)) (repeatedMember attrs type) (repeatedMember attrs type') :=
  sim.typedMember attrs (sim.repeated _ _ h)

theorem isDeclared (hs : sim.stores s.store w) (name : String) :
    (s.holding w).isDeclared name = s.isDeclared name := by
  rw [Bool.eq_iff_iff, isDeclared_iff, isDeclared_iff]
  exact iff_of_eq (congrArg (name ∈ ·) (sim.names hs))

theorem opened (hs : sim.stores s.store w) (name : String) :
    sim.stores (s.opened name).store (w.announced name).alone := sim.alone (sim.announced name hs)

theorem stores_of_plain {visit : Visit α} (hv : Plain visit) (hs : sim.stores s.store w) :
    sim.stores (visit s).2.store w := by
  have hself : visit s = ((visit s).1, (visit s).2.holding s.store) := hv.framed s s.store
  rw [congrArg Prod.snd hself]
  exact hs

theorem after {visit : Visit Unit} (hv : Plain visit) (hs : sim.stores s.store w) :
    (s.holding w).after visit = (s.after visit).holding w ∧ sim.stores (s.after visit).store w :=
  ⟨congrArg Prod.snd (hv.framed s w), sim.stores_of_plain hv hs⟩

include sim in
theorem flatType?_eq {path : Json} {visit : Visit TypeExpr}
    (h : flatType? input.style attrs path = some visit) : flatType? style attrs path = some visit :=
  (flatType?_congr sim.lead attrs path).trans h

include sim in
theorem declare?_eq {target : Json} {r : Except Fault String}
    (h : Naming.declare? input.style.lead target = r) : Naming.declare? style.lead target = r := by
  rw [sim.lead]
  exact h

/-- A visit in the one style has its like in the other. -/
theorem visits {result : Except Fault task.Result} (h : Visits input scope task s steps result t)
    (hw : task.Within input) (hmet : ∀ m ∈ meetings steps, sim.met m.blocks) (hs : sim.stores s.store w) :
    ∃ steps' result' w', Visits (input.styled style) scope task (s.holding w) steps' result' (t.holding w') ∧
      Matches (task.Alike sim.types) result result' ∧ sim.stores t.store w' := by
  induction h generalizing w with
  | fields_nil => exact ⟨_, _, w, .fields_nil, .ok .nil, hs⟩
  | blocks_nil => exact ⟨_, _, w, .blocks_nil, .ok .nil, hs⟩
  | fields_fault _ ih =>
    obtain ⟨_, _, _, hv, ⟨_⟩, hst⟩ := ih hw.head hmet hs
    exact ⟨_, _, _, .fields_fault hv, .fault _, hst⟩
  | fields_cons _ _ ih ih' =>
    rw [meetings_append, List.forall_mem_append] at hmet
    obtain ⟨_, _, _, hv, ⟨hm⟩, hst⟩ := ih hw.head hmet.1 hs
    obtain ⟨_, _, _, hv', hms, hst'⟩ := ih' hw.tail hmet.2 hst
    exact ⟨_, _, _, .fields_cons hv hv', hms.map fun _ _ h => List.rel_append (forall₂_toList hm) h, hst'⟩
  | blocks_fault _ ih =>
    obtain ⟨_, _, _, hv, ⟨_⟩, hst⟩ := ih hw.head_block hmet hs
    exact ⟨_, _, _, .blocks_fault hv, .fault _, hst⟩
  | blocks_cons _ _ ih ih' =>
    rw [meetings_append, List.forall_mem_append] at hmet
    obtain ⟨_, _, _, hv, ⟨hm⟩, hst⟩ := ih hw.head_block hmet.1 hs
    obtain ⟨_, _, _, hv', hms, hst'⟩ := ih' hw.tail_block hmet.2 hst
    exact ⟨_, _, _, .blocks_cons hv hv', hms.map fun _ _ h => List.rel_append (forall₂_toList hm) h, hst'⟩
  | field_fault hu => exact ⟨_, _, w, .field_fault hu, .fault _, hs⟩
  | @field_unusable _ path attrs _ _ s hu =>
    obtain ⟨hafter, hst⟩ := sim.after (plain_skip .field .unusableUid attrs.uid (joinPath path attrs.uid)) hs
    refine ⟨[], .ok none, w, ?_, .ok .none, hst⟩
    rw [← hafter]
    exact .field_unusable hu
  | @field_flat _ path attrs _ _ s visit result after hu hv hr =>
    have hplain := plain_flatType hv
    have hst := sim.stores_of_plain hplain hs
    have hframed := hplain.framed s w
    rw [hr] at hst hframed
    exact ⟨_, _, w, .field_flat hu (sim.flatType?_eq hv) hframed,
      (Matches.refl sim.refl result).bind fun _ _ h => sim.typedMember attrs h, hst⟩
  | @field_group _ _ attrs _ _ _ _ _ _ ho _ ih =>
    obtain ⟨_, _, _, hv, hms, hst⟩ := ih (hw.group _) hmet hs
    exact ⟨_, _, _, .field_group ho hv, hms.bind fun _ _ h => sim.repeatedMember attrs (sim.object h), hst⟩
  | field_target_fault ho ht => exact ⟨_, _, w, .field_target_fault ho ht, .fault _, hs⟩
  | @field_global _ _ attrs _ _ _ _ _ _ _ ho ht _ ih =>
    obtain ⟨_, _, _, hv, htype, hst⟩ := ih (hw.global _ _ _ _) hmet hs
    refine ⟨_, _, _, .field_global ho ht hv, htype.bind fun _ _ h => sim.repeatedMember attrs ?_, hst⟩
    cases h with
    | none => exact sim.refl _
    | some h => exact h
  | field_blocks_fault ho _ ih =>
    obtain ⟨_, _, _, hv, ⟨_⟩, hst⟩ := ih (hw.inner_blocks _) hmet hs
    exact ⟨_, _, _, .field_blocks_fault ho hv, .fault _, hst⟩
  | @field_no_blocks _ _ attrs _ _ _ _ _ ho _ ih =>
    obtain ⟨_, _, _, hv, ⟨⟨⟩⟩, hst⟩ := ih (hw.inner_blocks _) hmet hs
    exact ⟨_, _, _, .field_no_blocks ho hv, sim.repeatedMember attrs (sim.refl _), hst⟩
  | field_union_fault ho _ hne hu ih =>
    obtain ⟨_, _, _, hv, ⟨hms⟩, hst⟩ := ih (hw.inner_blocks _) hmet hs
    obtain ⟨_, _, hu', ⟨_⟩, hst'⟩ := sim.union hw.mem_field ho hst hms hu (by simp [Except.isOk, Except.toBool])
    exact ⟨_, _, _, .field_union_fault ho hv (fun he => hne (List.forall₂_nil_right_iff.1 (he ▸ hms))) hu', .fault _, hst'⟩
  | @field_union _ _ attrs _ _ _ _ members _ _ _ ho _ hne hu ih =>
    rw [meetings_append, List.forall_mem_append] at hmet
    obtain ⟨_, _, _, hv, ⟨hms⟩, hst⟩ := ih (hw.inner_blocks _) hmet.1 hs
    obtain ⟨_, _, hu', ⟨hname⟩, hst'⟩ := sim.union hw.mem_field ho hst hms hu fun _ =>
      hmet.2 _ (List.mem_singleton_self _)
    exact ⟨_, _, _, .field_union ho hv (fun he => hne (List.forall₂_nil_right_iff.1 (he ▸ hms))) hu',
      sim.repeatedMember attrs hname, hst'⟩
  | block_fault hu => exact ⟨_, _, w, .block_fault hu, .fault _, hs⟩
  | @block_unusable _ path uid _ _ _ s hu =>
    obtain ⟨hafter, hst⟩ := sim.after (plain_skip .block .unusableUid uid (joinPath path uid)) hs
    refine ⟨[], .ok none, w, ?_, .ok .none, hst⟩
    rw [← hafter]
    exact .block_unusable hu
  | block_inline hu ht _ ih =>
    obtain ⟨_, _, _, hv, hms, hst⟩ := ih (hw.inline _) hmet hs
    exact ⟨_, _, _, .block_inline hu ht hv, hms.map fun _ _ h => .some ⟨rfl, sim.object h⟩, hst⟩
  | block_reference hu ht _ ih =>
    obtain ⟨_, _, _, hv, htype, hst⟩ := ih (hw.reference _ _) hmet hs
    refine ⟨_, _, _, .block_reference hu ht hv, htype.map fun _ _ h => ?_, hst⟩
    cases h with
    | none => exact .none
    | some h => exact .some ⟨rfl, h⟩
  | reference_fault hn => exact ⟨_, _, w, .reference_fault (sim.declare?_eq hn), .fault _, hs⟩
  | @reference_unusable _ place uid path target _ s name hn hu =>
    obtain ⟨hafter, hst⟩ := sim.after (plain_refuseReference place uid path target) hs
    refine ⟨[], .ok none, w, ?_, .ok .none, hst⟩
    rw [← hafter]
    exact .reference_unusable (sim.declare?_eq hn) hu
  | reference_known hn hu hd =>
    exact ⟨_, _, w, .reference_known (sim.declare?_eq hn) hu ((sim.isDeclared hs _).trans hd),
      .ok (.some (sim.refl _)), hs⟩
  | @reference_missing _ place uid path target _ s name hn hu hd ho =>
    obtain ⟨hafter, hst⟩ := sim.after (plain_skip place .noSchema uid path) hs
    refine ⟨[], .ok none, w, ?_, .ok .none, hst⟩
    rw [← hafter]
    exact .reference_missing (sim.declare?_eq hn) hu ((sim.isDeclared hs _).trans hd) ho
  | reference_fields_fault hn hu hd ho _ ih =>
    obtain ⟨_, _, _, hv, ⟨_⟩, hst⟩ := ih (hw.origin ho _ _) hmet hs
    exact ⟨_, _, _, .reference_fields_fault (sim.declare?_eq hn) hu ((sim.isDeclared hs _).trans hd) ho hv,
      .fault _, hst⟩
  | @reference_built scope _ _ _ _ _ s name _ _ after hn hu hd ho _ ih =>
    rw [meetings_append, List.forall_mem_append] at hmet
    obtain ⟨steps', _, w', hv, ⟨_⟩, hst⟩ := ih (hw.origin ho _ _) hmet.1 hs
    refine ⟨steps' ++ [.refer name], .ok (some (.declared name)), w', ?_, .ok (.some (sim.refl _)), hst⟩
    change Visits (input.styled style) scope _ _ _ _ ((after.holding w').referred name)
    exact .reference_built (sim.declare?_eq hn) hu ((sim.isDeclared hs _).trans hd) ho hv
  | declare_known hd =>
    exact ⟨_, _, w, .declare_known ((sim.isDeclared hs _).trans hd), .ok trivial, hs⟩
  | declare_fault hd _ ih =>
    obtain ⟨_, _, _, hv, ⟨_⟩, hst⟩ := ih (hw.origin_fields _) hmet (sim.opened hs _)
    exact ⟨_, _, _, .declare_fault ((sim.isDeclared hs _).trans hd) hv, .fault _, sim.inScope hs hst⟩
  | @declare_built _ name _ description _ _ _ _ hd _ ih =>
    obtain ⟨_, _, _, hv, ⟨hms⟩, hst⟩ := ih (hw.origin_fields _) hmet (sim.opened hs _)
    exact ⟨_, _, _, .declare_built ((sim.isDeclared hs _).trans hd) hv, .ok trivial,
      sim.inScope hs (sim.completed name description hst hms)⟩

theorem recordName_framed (record : Record) : Framed (recordName input record) := by
  intro s w
  cases hu : record.uid with
  | text uid =>
    rw [recordName_text hu, recordName_text hu]
    split <;> rfl
  | _ =>
    unfold recordName
    rw [hu]
    rfl

include sim in
theorem recordName_eq {record : Record} {result : Except Fault (String × String)}
    (h : recordName input record s = (result, t)) (w : Store) :
    recordName (input.styled style) record (s.holding w) = (result, t.holding w) := by
  have hlead : recordName (input.styled style) record = recordName input record := by
    unfold recordName Input.styled
    rw [sim.lead]
  rw [hlead, recordName_framed, h]

theorem stores_of_recordName {record : Record} {result : Except Fault (String × String)}
    (h : recordName input record s = (result, t)) (hs : sim.stores s.store w) : sim.stores t.store w := by
  have hself : recordName input record (s.holding s.store) = _ := recordName_framed record s s.store
  rw [show s.holding s.store = s from rfl, h] at hself
  rw [(Prod.mk.inj hself).2]
  exact hs

theorem passes {position : Nat} {records : List Record} {result : Except Fault (List Declaration)}
    (h : Passes input position records s steps result t) (hsub : records ⊆ input.records)
    (hmet : ∀ m ∈ meetings steps, sim.met m.blocks) (hs : sim.stores s.store w) :
    ∃ steps' result' w', Passes (input.styled style) position records (s.holding w) steps' result'
        (t.holding w') ∧
      Matches (List.Forall₂ sim.declarations) result result' ∧ sim.stores t.store w' := by
  induction h generalizing w with
  | nil => exact ⟨_, _, w, .nil, .ok .nil, hs⟩
  | name_fault hn =>
    exact ⟨_, _, w, .name_fault (sim.recordName_eq hn w), .fault _, sim.stores_of_recordName hn hs⟩
  | bare hg hn hb _ ih =>
    obtain ⟨_, _, _, hp, hds, hst⟩ :=
      ih (List.cons_subset.1 hsub).2 hmet (sim.stores_of_recordName hn hs)
    exact ⟨_, _, _, .bare hg (sim.recordName_eq hn w) hb hp, hds, hst⟩
  | global_fault hg hn hb hv =>
    obtain ⟨_, _, _, hv, ⟨_⟩, hst⟩ := sim.visits hv
      (within_declare (List.cons_subset.1 hsub).1 _ _) hmet (sim.stores_of_recordName hn hs)
    exact ⟨_, _, _, .global_fault hg (sim.recordName_eq hn w) hb hv, .fault _, hst⟩
  | global hg hn hb hv _ ih =>
    rw [meetings_append, List.forall_mem_append] at hmet
    obtain ⟨hr, hrest⟩ := List.cons_subset.1 hsub
    obtain ⟨_, _, _, hv, ⟨_⟩, hst⟩ :=
      sim.visits hv (within_declare hr _ _) hmet.1 (sim.stores_of_recordName hn hs)
    obtain ⟨_, _, _, hp, hds, hst'⟩ := ih hrest hmet.2 hst
    exact ⟨_, _, _, .global hg (sim.recordName_eq hn w) hb hv hp, hds, hst'⟩
  | contentType_fault hg hn hv =>
    have hmid := sim.stores_of_recordName hn hs
    obtain ⟨_, _, w', hv, ⟨_⟩, hst⟩ :=
      sim.visits hv (within_fields (List.cons_subset.1 hsub).1 _) hmet (sim.alone hmid)
    exact ⟨_, _, w'.inScope w.scope, .contentType_fault hg (sim.recordName_eq hn w) hv, .fault _,
      sim.inScope hmid hst⟩
  | contentType hg hn hv _ ih =>
    rw [meetings_append, List.forall_mem_append] at hmet
    obtain ⟨hr, hrest⟩ := List.cons_subset.1 hsub
    have hmid := sim.stores_of_recordName hn hs
    obtain ⟨_, _, w', hv, ⟨hms⟩, hst⟩ := sim.visits hv (within_fields hr _) hmet.1 (sim.alone hmid)
    obtain ⟨_, _, _, hp, hds, hst'⟩ := ih hrest hmet.2 (sim.inScope hmid hst)
    exact ⟨_, _, _, .contentType hg (sim.recordName_eq hn w) hv hp,
      hds.map fun _ _ h => .cons (sim.contentType _ _ hst hms) h, hst'⟩

end Simulation

end Generation

end SchemaDecl

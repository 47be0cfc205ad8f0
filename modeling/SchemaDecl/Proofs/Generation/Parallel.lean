import SchemaDecl.Proofs.Generation.Notes
import SchemaDecl.Proofs.Generation.Simulation

/-!
# Parallel passes

Two passes over the same fields that may differ in the lead of their names and in the records that they know.
A `Parallel` relates what they have come to, and is kept by every action that a visit is made of. Then, where
the first pass comes through, the second does so too, and comes to something related. They are asked to agree
on those targets only that are looked up.
-/

namespace SchemaDecl

/-- Names of declarations may differ, names of primitive types may not. -/
def Category.Alike (names : String → String → Prop) : Category → String → String → Prop
  | .javascript => Eq
  | _ => names

theorem Category.alike_eq (category : Category) : category.Alike Eq = Eq := by cases category <;> rfl

namespace Generation

/-- The target has a usable name, so that a global field is looked for. -/
def looksUp (lead : String) (target : Json) : Bool :=
  (Naming.declare? lead target).toOption.any Naming.isUsableName

/-- What is looked up for a reference whose own fields look up some targets. -/
def referenceLookups (lead : String) (inner : List Json) (target : Json) : List Json :=
  if looksUp lead target then target :: inner else []

mutual

/-- The targets that a visit of the field can look up, those of records aside. -/
def fieldLookups (lead : String) : Field → List Json
  | ⟨attrs, schema?, blocks⟩ =>
    if usable attrs.uid then
      match attrs.literals?, attrs.kind with
      | none, .group => schemaLookups lead schema?
      | none, .globalField =>
        (globalTarget attrs).toOption.toList.flatMap (referenceLookups lead (schemaLookups lead schema?))
      | none, .blocks => blocksLookups lead blocks
      | _, _ => []
    else []

def fieldsLookups (lead : String) : List Field → List Json
  | [] => []
  | field :: rest => fieldLookups lead field ++ fieldsLookups lead rest

def schemaLookups (lead : String) : Option (List Field) → List Json
  | none => []
  | some fields => fieldsLookups lead fields

def blockLookups (lead : String) : Block → List Json
  | ⟨uid, _, target, schema?⟩ =>
    if usable uid then
      if target.truthy then referenceLookups lead (schemaLookups lead schema?) target
      else schemaLookups lead schema?
    else []

def blocksLookups (lead : String) : List Block → List Json
  | [] => []
  | block :: rest => blockLookups lead block ++ blocksLookups lead rest

end

/-- The targets that a pass can look up. -/
def Input.lookups (input : Input) : List Json :=
  input.records.flatMap fun r => fieldsLookups input.style.lead r.fields

section Lookups

variable {lead : String} {attrs : Attributes} {schema? : Option (List Field)} {blocks : List Block}
  {uid title target : Json}

theorem fieldLookups_group (ho : Opens attrs .group) :
    fieldLookups lead ⟨attrs, schema?, blocks⟩ = schemaLookups lead schema? := by
  rw [fieldLookups, usable_eq ho.usable, if_pos rfl, ho.untyped, ho.kind_eq]

theorem fieldLookups_global (ho : Opens attrs .globalField) (ht : globalTarget attrs = .ok target) :
    fieldLookups lead ⟨attrs, schema?, blocks⟩ = referenceLookups lead (schemaLookups lead schema?) target := by
  rw [fieldLookups, usable_eq ho.usable, if_pos rfl, ho.untyped, ho.kind_eq, ht]
  exact List.append_nil _

theorem fieldLookups_blocks (ho : Opens attrs .blocks) :
    fieldLookups lead ⟨attrs, schema?, blocks⟩ = blocksLookups lead blocks := by
  rw [fieldLookups, usable_eq ho.usable, if_pos rfl, ho.untyped, ho.kind_eq]

theorem blockLookups_usable (hu : Naming.isUsable uid = .ok true) :
    blockLookups lead ⟨uid, title, target, schema?⟩ =
      if target.truthy then referenceLookups lead (schemaLookups lead schema?) target
      else schemaLookups lead schema? := by
  rw [blockLookups, usable_eq hu, if_pos rfl]

theorem referenceLookups_of_usable {name : String} {inner : List Json}
    (hn : Naming.declare? lead target = .ok name) (hu : Naming.isUsableName name = true) :
    referenceLookups lead inner target = target :: inner := by
  rw [referenceLookups, looksUp, hn]
  exact if_pos hu

end Lookups

theorem visitMembers_eq {input : Input} {budget : Nat} (hb : input.records.length ≤ budget) {fields : List Field} :
    visitMembers input fields = visitFields input (declareRecord input budget) (.text "") fields := by
  funext s
  obtain ⟨steps, result, t, hv⟩ := visit_ends input .top (.fields (.text "") fields) s
  exact (hv.visit_records (Nat.le_refl _)).trans (hv.visit_records hb).symm

/-- What two passes have come to, and what they make of it. The relations are kept by all actions that a visit
is made of, as long as the targets that it looks up are of interest. -/
structure Parallel (input input' : Input) where
  states : State → State → Prop
  names : String → String → Prop
  types : TypeExpr → TypeExpr → Prop
  declarations : Declaration → Declaration → Prop
  /-- The targets of interest. -/
  targets : Json → Prop
  lookups : ∀ target ∈ input.lookups, targets target
  record? {target} : targets target → input'.record? target = input.record? target
  declare? {target name} : Naming.declare? input.style.lead target = .ok name →
    ∃ name', Naming.declare? input'.style.lead target = .ok name' ∧ names name name' ∧
      Naming.isUsableName name' = Naming.isUsableName name
  builtin (b) : names (input.style.nameOf b) (input'.style.nameOf b)
  isDeclared {s s' name name'} : states s s' → names name name' → s'.isDeclared name' = s.isDeclared name
  skip {s s'} (place cause uid path) : states s s' →
    states (s.after (skip place cause uid path)) (s'.after (skip place cause uid path))
  refuse {s s'} (target) : states s s' → states (s.after (refuse target)) (s'.after (refuse target))
  track {s s' used used'} (category : Category) : List.Forall₂ (category.Alike names) used used' →
    states s s' → states (s.after (track category used)) (s'.after (track category used'))
  richText {s s'} : states s s' → states { s with richTextUsed := true } { s' with richTextUsed := true }
  opened {s s' name name'} : states s s' → names name name' → states (s.opened name) (s'.opened name')
  closed {s s' t t' name name' members members'} (description) : states s s' → names name name' →
    states t t' → List.Forall₂ (Member.Alike types) members members' →
      states (t.closed s.scope name ⟨t.scope, ⟨name, description, false, members⟩⟩)
        (t'.closed s'.scope name' ⟨t'.scope, ⟨name', description, false, members'⟩⟩)
  named {r s s' t uid name} : r ∈ input.records → states s s' →
    recordName input r s = (.ok (uid, name), t) →
      ∃ name' t', recordName input' r s' = (.ok (uid, name'), t') ∧ names name name' ∧ states t t'
  entered {s s' name name'} (uid) : states s s' → names name name' →
    states (s.entered name uid) (s'.entered name' uid)
  left {s s' t t'} : states s s' → states t t' → states (t.left s) (t'.left s')
  contentType {s s' name name' members members'} (r) : states s s' → names name name' →
    List.Forall₂ (Member.Alike types) members members' →
      declarations (s.contentType input name r members) (s'.contentType input' name' r members')
  refl (type) : types type type
  declared {name name'} : names name name' → types (.declared name) (.declared name')
  references {used used'} : List.Forall₂ names used used' → types (.references used) (.references used')
  object {members members'} :
    List.Forall₂ (Member.Alike types) members members' → types (.object members) (.object members')
  repeated (multiple count) {type type'} :
    types type type' → types (type.repeated multiple count) (type'.repeated multiple count)
  union {field blocks blocks' s s' name t} : .field field ∈ input.parts → states s s' →
    List.Forall₂ (BlockAlike types) blocks blocks' →
    unionName input.style field.attrs.uid blocks s = (.ok name, t) →
    ∃ name' t', unionName input'.style field.attrs.uid blocks' s' = (.ok name', t') ∧
      types (.declared name) (.declared name') ∧ states t t'

namespace Parallel

variable {input input' : Input} (par : Parallel input input') {α β γ δ : Type}

/-- Where the first visit comes through, the second does so too, with a related result. -/
def Follows (related : α → β → Prop) (x : Visit α) (y : Visit β) : Prop :=
  ∀ s s' a t, par.states s s' → x s = (.ok a, t) →
    ∃ b t', y s' = (.ok b, t') ∧ related a b ∧ par.states t t'

def anyway (_ : α) (_ : β) : Prop := True

variable {par} {related : α → β → Prop} {related' : γ → δ → Prop}

theorem Follows.pure {a : α} {b : β} (h : related a b) : par.Follows related (pure a) (pure b) := by
  intro s s' c t hs hc
  cases hc
  exact ⟨b, s', rfl, h, hs⟩

theorem Follows.check {r : Except Fault α} {r' : Except Fault β}
    (h : ∀ a, r = .ok a → ∃ b, r' = .ok b ∧ related a b) : par.Follows related (check r) (check r') := by
  intro s s' a t hs ha
  rw [check_apply] at ha
  obtain ⟨rfl, rfl⟩ := Prod.mk.inj ha
  obtain ⟨b, rfl, hab⟩ := h a rfl
  exact ⟨b, s', rfl, hab, hs⟩

theorem Follows.same (r : Except Fault α) : par.Follows Eq (Generation.check r) (Generation.check r) :=
  .check fun a h => ⟨a, h, rfl⟩

theorem Follows.modify {f g : State → State} (h : ∀ s s', par.states s s' → par.states (f s) (g s')) :
    par.Follows anyway (modify f) (modify g) := by
  intro s s' a t hs ha
  cases ha
  exact ⟨(), g s', rfl, trivial, h s s' hs⟩

theorem Follows.bind {x : Visit α} {y : Visit β} {f : α → Visit γ} {g : β → Visit δ}
    (hx : par.Follows related x y) (hf : ∀ a b, related a b → par.Follows related' (f a) (g b)) :
    par.Follows related' (x >>= f) (y >>= g) := by
  intro s s' c u hs hc
  rw [bind_apply] at hc
  rcases ha : x s with ⟨e | a, t⟩
  · rw [ha] at hc
    cases hc
  · rw [ha] at hc
    obtain ⟨b, t', hb, hab, ht⟩ := hx s s' a t hs ha
    obtain ⟨d, u', hd, hcd, hu⟩ := hf a b hab t t' c u ht hc
    exact ⟨d, u', by rw [bind_of_ok hb, hd], hcd, hu⟩

theorem Follows.map {x : Visit α} {y : Visit β} {f : α → γ} {g : β → δ} (hx : par.Follows related x y)
    (hf : ∀ a b, related a b → related' (f a) (g b)) : par.Follows related' (f <$> x) (g <$> y) := by
  rw [map_eq_pure_bind, map_eq_pure_bind]
  exact hx.bind fun a b hab => .pure (hf a b hab)

variable (par)

theorem follows_skip (place : SkipPlace) (cause : SkipCause) (uid path : Json) :
    par.Follows anyway (Generation.skip place cause uid path) (Generation.skip place cause uid path) := by
  refine fun s s' _ t hs h => ⟨(), _, rfl, trivial, ?_⟩
  obtain ⟨-, rfl⟩ := Prod.mk.inj h
  exact par.skip place cause uid path hs

theorem follows_track (category : Category) {used used' : List String}
    (h : List.Forall₂ (category.Alike par.names) used used') :
    par.Follows anyway (Generation.track category used) (Generation.track category used') :=
  .modify fun _ _ hs => par.track category h hs

theorem refused {s s' : State} (place : SkipPlace) (uid path target : Json) (hs : par.states s s') :
    par.states (s.after (refuseReference place uid path target))
      (s'.after (refuseReference place uid path target)) := by
  cases place with
  | field => exact par.skip .field _ uid path (par.refuse target hs)
  | block => exact par.skip .block _ uid path hs

theorem follows_trackAs (category : Category) {used used' : List String} {type type' : TypeExpr}
    (h : List.Forall₂ (category.Alike par.names) used used') (ht : par.types type type') :
    par.Follows par.types (do Generation.track category used; return type)
      (do Generation.track category used'; return type') :=
  (par.follows_track category h).bind fun _ _ _ => .pure ht

theorem follows_builtin (b : Builtin) (type : TypeExpr) :
    par.Follows par.types (do builtinUsed input.style b; return type)
      (do builtinUsed input'.style b; return type) :=
  par.follows_trackAs .contentstack (.cons (par.builtin b) .nil) (par.refl type)

theorem follows_primitive (p : Primitive) : par.Follows par.types (primitiveType p) (primitiveType p) :=
  par.follows_trackAs .javascript (.cons rfl .nil) (par.refl _)

theorem follows_file (uid : Json) :
    par.Follows par.types (fileType input.style uid) (fileType input'.style uid) := by
  unfold fileType
  split
  · exact .pure (par.refl _)
  · exact par.follows_builtin .file .file

theorem follows_json (attrs : Attributes) : par.Follows par.types (jsonType attrs) (jsonType attrs) := by
  refine (Follows.same _).bind fun b _ hb => ?_
  subst hb
  split
  · exact .pure (par.refl _)
  · exact (Follows.modify fun _ _ hs => par.richText hs).bind fun _ _ _ => .pure (par.refl _)

theorem follows_referenceNames (path : Json) (targets : List Json) :
    par.Follows (List.Forall₂ par.names) (referenceNames input.style path targets)
      (referenceNames input'.style path targets) := by
  induction targets with
  | nil => exact .pure .nil
  | cons target rest ih =>
    have hname : par.Follows
        (fun name name' => par.names name name' ∧ Naming.isUsableName name' = Naming.isUsableName name)
        (check (Naming.declare? input.style.lead target)) (check (Naming.declare? input'.style.lead target)) :=
      .check fun _ hn => par.declare? hn
    rw [referenceNames, referenceNames]
    refine hname.bind fun name name' hn => ?_
    rw [hn.2]
    split
    · exact ih.bind fun _ _ hrest => .pure (.cons hn.1 hrest)
    · exact (par.follows_skip _ _ _ _).bind fun _ _ _ => ih

theorem follows_reference (attrs : Attributes) (path : Json) :
    par.Follows par.types (referenceType input.style attrs path) (referenceType input'.style attrs path) := by
  refine (Follows.same _).bind fun targets _ ht => ?_
  subst ht
  refine (par.follows_referenceNames path targets).bind fun names names' hn => ?_
  exact par.follows_trackAs .contentTypes hn (par.references hn)

theorem follows_repeated (attrs : Attributes) {visit visit' : Visit TypeExpr}
    (h : par.Follows par.types visit visit') :
    par.Follows par.types (Generation.repeated attrs visit) (Generation.repeated attrs visit') :=
  h.bind fun _ _ ht => .pure (par.repeated _ _ ht)

theorem follows_flatType {attrs : Attributes} {path : Json} {visit : Visit TypeExpr}
    (h : flatType? input.style attrs path = some visit) :
    ∃ visit', flatType? input'.style attrs path = some visit' ∧ par.Follows par.types visit visit' := by
  unfold flatType? at h ⊢
  cases hl : attrs.literals? with
  | some values =>
    rw [hl] at h
    obtain rfl := Option.some.inj h
    exact ⟨_, rfl, par.follows_repeated attrs (.pure (par.refl _))⟩
  | none =>
    rw [hl] at h
    cases hk : attrs.kind <;> rw [hk] at h
    case group | globalField | blocks => cases h
    all_goals obtain rfl := Option.some.inj h
    case file => exact ⟨_, rfl, par.follows_repeated attrs (par.follows_file attrs.uid)⟩
    case link => exact ⟨_, rfl, par.follows_repeated attrs (par.follows_builtin .link .link)⟩
    case taxonomy => exact ⟨_, rfl, par.follows_repeated attrs (par.follows_builtin .taxonomy .taxonomy)⟩
    case json => exact ⟨_, rfl, par.follows_repeated attrs (par.follows_json attrs)⟩
    case reference => exact ⟨_, rfl, par.follows_reference attrs path⟩
    case unknown =>
      exact ⟨_, rfl, (par.follows_skip _ _ _ _).bind fun _ _ _ => .pure (par.refl .fallback)⟩
    all_goals exact ⟨_, rfl, par.follows_repeated attrs (par.follows_primitive _)⟩

theorem follows_typedMember (attrs : Attributes) {type type' : TypeExpr} (h : par.types type type') :
    par.Follows (Option.Rel (Member.Alike par.types)) (check (typedMember attrs type))
      (check (typedMember attrs type')) := by
  refine .check fun member hm => ?_
  obtain ⟨nullable, hn, rfl⟩ := typedMember_ok hm
  rw [typedMember, memberOf, hn]
  exact ⟨_, rfl, .some ⟨rfl, h⟩⟩

theorem follows_repeatedMember (attrs : Attributes) {type type' : TypeExpr} (h : par.types type type') :
    par.Follows (Option.Rel (Member.Alike par.types)) (check (repeatedMember attrs type))
      (check (repeatedMember attrs type')) :=
  par.follows_typedMember attrs (par.repeated _ _ h)

theorem follows_union {field : Field} {blocks blocks' : Blocks} (hf : .field field ∈ input.parts)
    (hb : List.Forall₂ (BlockAlike par.types) blocks blocks') :
    par.Follows (fun name name' => par.types (.declared name) (.declared name'))
      (unionName input.style field.attrs.uid blocks) (unionName input'.style field.attrs.uid blocks') :=
  fun _ _ _ _ hs hu => par.union hf hs hb hu

theorem follows_declareGlobal {name name' : String} {visit visit' : Visit (List Member)} (description : Json)
    (hname : par.names name name') (hv : par.Follows (List.Forall₂ (Member.Alike par.types)) visit visit') :
    par.Follows anyway (declareGlobal name description visit) (declareGlobal name' description visit') := by
  intro s s' a t hs h
  have hdeclared := par.isDeclared hs hname
  cases hd : s.isDeclared name with
  | true =>
    rw [declareGlobal_known hd] at h
    cases h
    exact ⟨(), s', declareGlobal_known (hdeclared.trans hd), trivial, hs⟩
  | false =>
    rcases hr : visit (s.opened name) with ⟨e | members, u⟩
    · rw [declareGlobal_fault hd hr] at h
      cases h
    · rw [declareGlobal_built hd hr] at h
      cases h
      obtain ⟨members', u', hv', hm, hu⟩ := hv _ _ _ _ (par.opened hs hname) hr
      exact ⟨(), _, declareGlobal_built (hdeclared.trans hd) hv', trivial, par.closed description hs hname hu hm⟩

def Declares (declare declare' : Declare) : Prop :=
  ∀ {name name' fields} (description), par.names name name' → fieldsParts fields ⊆ input.parts →
    (∀ target ∈ fieldsLookups input.style.lead fields, par.targets target) →
      par.Follows anyway (declare name fields description) (declare' name' fields description)

variable {par} {declare declare' : Declare}

theorem lookups_of_mem {r : Record} (hr : r ∈ input.records) :
    ∀ target ∈ fieldsLookups input.style.lead r.fields, par.targets target :=
  fun target ht => par.lookups target (List.mem_flatMap.2 ⟨r, hr, ht⟩)

theorem parts_of_mem {r : Record} (hr : r ∈ input.records) : fieldsParts r.fields ⊆ input.parts :=
  fun _ hp => List.mem_flatMap.2 ⟨r, hr, hp⟩

theorem origin?_eq {target : Json} (ht : par.targets target) (inline? : Option (List Field)) :
    input'.origin? target inline? = input.origin? target inline? := by
  unfold Input.origin?
  rw [par.record? ht]

theorem descriptionOf_eq {target : Json} (ht : par.targets target) :
    input'.descriptionOf target = input.descriptionOf target := by
  unfold Input.descriptionOf
  rw [par.record? ht]

theorem follows_origin {name name' : String} {target : Json} {inline? : Option (List Field)} {origin : Origin}
    (hd : par.Declares declare declare') (hname : par.names name name') (description : Json)
    (ho : input.origin? target inline? = some origin)
    (hinline : ∀ fields, inline? = some fields →
      par.Follows (List.Forall₂ (Member.Alike par.types)) (visitFields input declare (.text "") fields)
        (visitFields input' declare' (.text "") fields)) :
    par.Follows anyway (origin.declare input declare name description)
      (origin.declare input' declare' name' description) := by
  rcases origin?_eq_some ho with ⟨fields, rfl, rfl⟩ | ⟨r, -, hr, -, rfl⟩
  · exact par.follows_declareGlobal description hname (hinline fields rfl)
  · have hmem := List.mem_of_find?_eq_some hr
    exact hd description hname (parts_of_mem hmem) (lookups_of_mem hmem)

theorem follows_resolveGlobal {name name' : String} {target : Json} {inline? : Option (List Field)}
    (hd : par.Declares declare declare') (hname : par.names name name') (ht : par.targets target)
    (hinline : ∀ fields, inline? = some fields →
      par.Follows (List.Forall₂ (Member.Alike par.types)) (visitFields input declare (.text "") fields)
        (visitFields input' declare' (.text "") fields)) :
    par.Follows Eq (resolveGlobal input declare name target (visitInline input declare inline?))
      (resolveGlobal input' declare' name' target (visitInline input' declare' inline?)) := by
  intro s s' found t hs h
  have hdeclared := par.isDeclared hs hname
  have hused : List.Forall₂ (Category.Alike par.names .globalFields) [name] [name'] := .cons hname .nil
  cases hknown : s.isDeclared name with
  | true =>
    rw [resolveGlobal_known hknown] at h
    cases h
    exact ⟨true, _, resolveGlobal_known (hdeclared.trans hknown) _, rfl, par.track .globalFields hused hs⟩
  | false =>
    cases ho : input.origin? target inline? with
    | none =>
      rw [resolveGlobal_missing hknown ho] at h
      cases h
      exact ⟨false, s', resolveGlobal_missing (hdeclared.trans hknown) ((origin?_eq ht _).trans ho), rfl, hs⟩
    | some origin =>
      rw [resolveGlobal_eq hknown ho] at h
      rw [resolveGlobal_eq (hdeclared.trans hknown) ((origin?_eq ht _).trans ho), descriptionOf_eq ht]
      have hfollows := follows_origin hd hname (input.descriptionOf target) ho hinline
      exact (hfollows.bind fun _ _ _ => (par.follows_track .globalFields hused).bind fun _ _ _ => .pure rfl)
        s s' found t hs h

/-- The visits of a reference: it is skipped in both passes, or leads to the same fields. -/
theorem follows_globalReference {target : Json} {inline? : Option (List Field)} (place : SkipPlace)
    (uid path : Json) (hd : par.Declares declare declare')
    (hl : ∀ other ∈ referenceLookups input.style.lead (schemaLookups input.style.lead inline?) target,
      par.targets other)
    (hinline : (∀ other ∈ schemaLookups input.style.lead inline?, par.targets other) →
      ∀ fields, inline? = some fields →
        par.Follows (List.Forall₂ (Member.Alike par.types)) (visitFields input declare (.text "") fields)
          (visitFields input' declare' (.text "") fields)) :
    par.Follows (Option.Rel par.types)
      (globalReference input declare place uid path target (visitInline input declare inline?))
      (globalReference input' declare' place uid path target (visitInline input' declare' inline?)) := by
  cases hn : Naming.declare? input.style.lead target with
  | error e =>
    intro s s' a t _ h
    rw [globalReference_fault hn] at h
    cases h
  | ok name =>
    obtain ⟨name', hn', hname, husable⟩ := par.declare? hn
    cases hu : Naming.isUsableName name with
    | false =>
      intro s s' a t hs h
      rw [globalReference_unusable hn hu] at h
      cases h
      exact ⟨none, _, globalReference_unusable hn' (husable.trans hu), .none, par.refused place uid path target hs⟩
    | true =>
      rw [globalReference_eq hn hu, globalReference_eq hn' (husable.trans hu)]
      rw [referenceLookups_of_usable hn hu, List.forall_mem_cons] at hl
      refine (follows_resolveGlobal hd hname hl.1 (hinline hl.2)).bind fun found _ hfound => ?_
      subst hfound
      split
      · exact .pure (.some (par.declared hname))
      · exact (par.follows_skip _ _ _ _).bind fun _ _ _ => .pure .none

mutual

theorem follows_field (hd : par.Declares declare declare') (path : Json) : ∀ (field : Field),
    (Task.field path field).Within input →
    (∀ target ∈ fieldLookups input.style.lead field, par.targets target) →
    par.Follows (Option.Rel (Member.Alike par.types)) (visitField input declare path field)
      (visitField input' declare' path field)
  | ⟨attrs, schema?, blocks⟩, hw, hl => by
    cases hu : Naming.isUsable attrs.uid with
    | error e =>
      intro s s' a t _ h
      rw [visitField_fault hu] at h
      cases h
    | ok usable =>
      cases usable with
      | false =>
        intro s s' a t hs h
        rw [visitField_unusable hu] at h
        cases h
        exact ⟨none, _, visitField_unusable hu s', .none, par.skip _ _ _ _ hs⟩
      | true =>
        rcases flat_or_opens hu input.style (joinPath path attrs.uid) with ⟨visit, hv⟩ | ho | ho | ho
        · obtain ⟨visit', hv', hfollows⟩ := par.follows_flatType hv
          rw [visitField_flat hu hv, visitField_flat hu hv']
          exact hfollows.bind fun _ _ ht => par.follows_typedMember attrs ht
        · rw [visitField_group ho, visitField_group ho]
          rw [fieldLookups_group ho] at hl
          exact (follows_schema hd _ schema? (hw.group _) hl).bind fun _ _ hm =>
            par.follows_repeatedMember attrs (par.object hm)
        · rw [visitField_global ho, visitField_global ho]
          cases ht : globalTarget attrs with
          | error e =>
            intro s s' a t _ h
            cases h
          | ok target =>
            rw [check_ok, pure_bind, pure_bind]
            rw [fieldLookups_global ho ht] at hl
            refine (follows_globalReference .field _ _ hd hl fun hl fields hf => ?_).bind fun type type' ht => ?_
            · have hfields := follows_schema hd (.text "") schema? (hw.group _) hl
              rwa [hf] at hfields
            · cases ht with
              | none => exact par.follows_repeatedMember attrs (par.refl _)
              | some ht => exact par.follows_repeatedMember attrs ht
        · rw [visitField_blocks ho, visitField_blocks ho]
          rw [fieldLookups_blocks ho] at hl
          refine (follows_blocks hd _ blocks (hw.inner_blocks _) hl).bind fun members members' hm => ?_
          have hempty : members'.isEmpty = members.isEmpty := by cases hm <;> rfl
          rw [hempty]
          split
          · exact par.follows_repeatedMember attrs (par.refl _)
          · exact (par.follows_union hw.mem_field hm).bind fun _ _ ht => par.follows_repeatedMember attrs ht

theorem follows_fields (hd : par.Declares declare declare') (path : Json) : ∀ (fields : List Field),
    (Task.fields path fields).Within input →
    (∀ target ∈ fieldsLookups input.style.lead fields, par.targets target) →
    par.Follows (List.Forall₂ (Member.Alike par.types)) (visitFields input declare path fields)
      (visitFields input' declare' path fields)
  | [], _, _ => by
    rw [visitFields, visitFields]
    exact .pure .nil
  | field :: rest, hw, hl => by
    rw [fieldsLookups, List.forall_mem_append] at hl
    rw [visitFields, visitFields]
    refine (follows_field hd path field hw.head hl.1).bind fun member member' hm => ?_
    refine (follows_fields hd path rest hw.tail hl.2).bind fun members members' hms => .pure ?_
    exact List.rel_append (forall₂_toList hm) hms

theorem follows_schema (hd : par.Declares declare declare') (path : Json) : ∀ (schema? : Option (List Field)),
    (Task.fields path (schema?.getD [])).Within input →
    (∀ target ∈ schemaLookups input.style.lead schema?, par.targets target) →
    par.Follows (List.Forall₂ (Member.Alike par.types)) (visitFields input declare path (schema?.getD []))
      (visitFields input' declare' path (schema?.getD []))
  | none, _, _ => by
    rw [Option.getD_none, visitFields, visitFields]
    exact .pure .nil
  | some fields, hw, hl => by
    rw [schemaLookups] at hl
    exact follows_fields hd path fields hw hl

theorem follows_block (hd : par.Declares declare declare') (path : Json) : ∀ (block : Block),
    (Task.block path block).Within input →
    (∀ target ∈ blockLookups input.style.lead block, par.targets target) →
    par.Follows (Option.Rel (BlockAlike par.types)) (visitBlock input declare path block)
      (visitBlock input' declare' path block)
  | ⟨uid, title, target, schema?⟩, hw, hl => by
    cases hu : Naming.isUsable uid with
    | error e =>
      intro s s' a t _ h
      rw [visitBlock_fault hu] at h
      cases h
    | ok usable =>
      cases usable with
      | false =>
        intro s s' a t hs h
        rw [visitBlock_unusable hu] at h
        cases h
        exact ⟨none, _, visitBlock_unusable hu s', .none, par.skip _ _ _ _ hs⟩
      | true =>
        rw [blockLookups_usable hu] at hl
        cases ht : target.truthy with
        | false =>
          rw [ht, if_neg Bool.false_ne_true] at hl
          rw [visitBlock_inline hu ht, visitBlock_inline hu ht]
          exact (follows_schema hd _ schema? (hw.inline _) hl).map fun _ _ hm => .some ⟨rfl, par.object hm⟩
        | true =>
          rw [ht, if_pos rfl] at hl
          rw [visitBlock_reference hu ht, visitBlock_reference hu ht]
          refine (follows_globalReference .block _ _ hd hl fun hl fields hf => ?_).map fun type type' ht => ?_
          · have hfields := follows_schema hd (.text "") schema? (hw.inline _) hl
            rwa [hf] at hfields
          · cases ht with
            | none => exact .none
            | some ht => exact .some ⟨rfl, ht⟩

theorem follows_blocks (hd : par.Declares declare declare') (path : Json) : ∀ (blocks : List Block),
    (Task.blocks path blocks).Within input →
    (∀ target ∈ blocksLookups input.style.lead blocks, par.targets target) →
    par.Follows (List.Forall₂ (BlockAlike par.types)) (visitBlocks input declare path blocks)
      (visitBlocks input' declare' path blocks)
  | [], _, _ => by
    rw [visitBlocks, visitBlocks]
    exact .pure .nil
  | block :: rest, hw, hl => by
    rw [blocksLookups, List.forall_mem_append] at hl
    rw [visitBlocks, visitBlocks]
    refine (follows_block hd path block hw.head_block hl.1).bind fun member member' hm => ?_
    refine (follows_blocks hd path rest hw.tail_block hl.2).bind fun members members' hms => .pure ?_
    exact List.rel_append (forall₂_toList hm) hms

end

theorem declares_record (budget : Nat) :
    par.Declares (declareRecord input budget) (declareRecord input' budget) := by
  induction budget with
  | zero =>
    intro name name' fields description _ _ _ s s' a t _ h
    cases h
  | succ budget ih =>
    intro name name' fields description hname hw hl
    rw [declareRecord_succ, declareRecord_succ]
    exact par.follows_declareGlobal description hname (follows_fields ih _ fields hw hl)

theorem follows_members {r : Record} (hr : r ∈ input.records) :
    par.Follows (List.Forall₂ (Member.Alike par.types)) (visitMembers input r.fields)
      (visitMembers input' r.fields) := by
  -- The passes may have different numbers of records, so both are given the larger budget.
  rw [visitMembers_eq (Nat.le_max_left _ input'.records.length),
    visitMembers_eq (Nat.le_max_right input.records.length _)]
  exact follows_fields (declares_record _) _ r.fields (within_fields hr _) (lookups_of_mem hr)

theorem follows_global {r : Record} (hr : r ∈ input.records) :
    par.Follows anyway (visitGlobal input r) (visitGlobal input' r) := by
  intro s s' a t hs h
  rcases hn : recordName input r s with ⟨e | ⟨uid, name⟩, mid⟩
  · rw [visitGlobal_fault hn] at h
    cases h
  obtain ⟨name', mid', hn', hname, hmid⟩ := par.named hr hs hn
  cases hsome : r.schema?.isSome with
  | false =>
    have hnone : r.schema? = none := by simpa using hsome
    rw [visitGlobal_bare hn hnone] at h
    cases h
    exact ⟨(), mid', visitGlobal_bare hn' hnone, trivial, hmid⟩
  | true =>
    rw [visitGlobal_declare hn hsome] at h
    rw [visitGlobal_declare hn' hsome]
    exact par.follows_declareGlobal r.description hname (follows_members hr) mid mid' a t hmid h

theorem follows_contentType {r : Record} (hr : r ∈ input.records) :
    par.Follows par.declarations (visitContentType input r) (visitContentType input' r) := by
  intro s s' d t hs h
  rcases hn : recordName input r s with ⟨e | ⟨uid, name⟩, mid⟩
  · rw [visitContentType_fault hn] at h
    cases h
  obtain ⟨name', mid', hn', hname, hmid⟩ := par.named hr hs hn
  rcases hv : visitMembers input r.fields (mid.entered name uid) with ⟨e | members, u⟩
  · rw [visitContentType_eq hn hv] at h
    cases h
  rw [visitContentType_eq hn hv] at h
  cases h
  obtain ⟨members', u', hv', hm, hu⟩ := follows_members hr _ _ _ _ (par.entered uid hmid hname) hv
  exact ⟨_, _, visitContentType_eq hn' hv', par.contentType r hu hname hm, par.left hmid hu⟩

theorem follows_records : ∀ (records : List Record), records ⊆ input.records →
    par.Follows (List.Forall₂ par.declarations) (visitRecords input records) (visitRecords input' records)
  | [], _ => by
    rw [visitRecords, visitRecords]
    exact .pure .nil
  | r :: rest, hsub => by
    obtain ⟨hr, hrest⟩ := List.cons_subset.1 hsub
    rw [visitRecords, visitRecords]
    split
    · exact (follows_global hr).bind fun _ _ _ => follows_records rest hrest
    · exact (follows_contentType hr).bind fun _ _ hd => (follows_records rest hrest).bind fun _ _ hds =>
        .pure (.cons hd hds)

end Parallel

end Generation

end SchemaDecl

import SchemaDecl.Proofs.Generation.Quiet

/-!
# Equations of the visitors

The visitors along the rules of `Visits`, one equation for each shape that a task can have.
-/

namespace SchemaDecl.Generation

variable {α : Type}

/-- The visit of a task where `declare` declares the records that are referred to. -/
def Task.visit (input : Input) (declare : Declare) : (task : Task) → Visit task.Result
  | .field path f => visitField input declare path f
  | .fields path fs => visitFields input declare path fs
  | .block path b => visitBlock input declare path b
  | .blocks path bs => visitBlocks input declare path bs
  | .reference place uid path target inline? =>
    globalReference input declare place uid path target (visitInline input declare inline?)
  | .declare name origin description =>
    declareGlobal name description (visitFields input declare (.text "") origin.fields)

theorem check_typedMember (attrs : Attributes) (type : TypeExpr) :
    check (typedMember attrs type) = some <$> check (memberOf attrs type) := check_map _ _

section Members

variable {input : Input} {declare : Declare} {path : Json} {attrs : Attributes}
  {schema? : Option (List Field)} {blocks : List Block} {uid title target : Json}

theorem visitField_unusable (hu : Naming.isUsable attrs.uid = .ok false) (s : State) :
    visitField input declare path ⟨attrs, schema?, blocks⟩ s =
      (.ok none, s.after (skip .field .unusableUid attrs.uid (joinPath path attrs.uid))) := by
  rw [visitField, hu]
  rfl

theorem visitField_flat {visit : Visit TypeExpr} (hu : Naming.isUsable attrs.uid = .ok true)
    (hv : flatType? input.style attrs (joinPath path attrs.uid) = some visit) :
    visitField input declare path ⟨attrs, schema?, blocks⟩ =
      visit >>= fun type => check (typedMember attrs type) := by
  unfold flatType? at hv
  rw [visitField]
  simp only [hu, check_ok, pure_bind, if_true, check_typedMember, map_eq_pure_bind]
  cases hl : attrs.literals? with
  | some values =>
    rw [hl] at hv
    obtain rfl := Option.some.inj hv
    rfl
  | none =>
    rw [hl] at hv
    cases hk : attrs.kind <;> rw [hk] at hv
    case group | globalField | blocks => cases hv
    all_goals
      obtain rfl := Option.some.inj hv
      rfl

theorem visitField_group (h : Opens attrs .group) :
    visitField input declare path ⟨attrs, schema?, blocks⟩ =
      visitFields input declare (joinPath path attrs.uid) (schema?.getD []) >>= fun members =>
        check (repeatedMember attrs (.object members)) := by
  rw [visitField]
  simp only [h.usable, h.untyped, h.kind_eq, check_ok, pure_bind, if_true, repeated, visitSchema_eq,
    repeatedMember, check_typedMember, map_eq_pure_bind, bind_assoc]

theorem visitField_global (h : Opens attrs .globalField) :
    visitField input declare path ⟨attrs, schema?, blocks⟩ =
      check (globalTarget attrs) >>= fun target =>
        globalReference input declare .field attrs.uid (joinPath path attrs.uid) target
            (visitInline input declare schema?) >>= fun type =>
          check (repeatedMember attrs (type.getD .fallback)) := by
  rw [visitField]
  simp only [h.usable, h.untyped, h.kind_eq, check_ok, pure_bind, if_true, repeated,
    repeatedMember, check_typedMember, map_eq_pure_bind, bind_assoc]

theorem visitField_blocks (h : Opens attrs .blocks) :
    visitField input declare path ⟨attrs, schema?, blocks⟩ =
      visitBlocks input declare (joinPath path attrs.uid) blocks >>= fun members =>
        if members.isEmpty then check (repeatedMember attrs .fallback)
        else unionName input.style attrs.uid members >>= fun name =>
          check (repeatedMember attrs (.declared name)) := by
  rw [visitField]
  simp only [h.usable, h.untyped, h.kind_eq, check_ok, pure_bind, if_true, repeated,
    repeatedMember, check_typedMember, map_eq_pure_bind, bind_assoc]
  congr 1
  funext members
  split <;> simp only [pure_bind, bind_assoc]

theorem visitBlock_unusable (hu : Naming.isUsable uid = .ok false) (s : State) :
    visitBlock input declare path ⟨uid, title, target, schema?⟩ s =
      (.ok none, s.after (skip .block .unusableUid uid (joinPath path uid))) := by
  rw [visitBlock, hu]
  rfl

theorem visitBlock_inline (hu : Naming.isUsable uid = .ok true) (ht : target.truthy = false) :
    visitBlock input declare path ⟨uid, title, target, schema?⟩ =
      (fun members => some (uid, .object members)) <$>
        visitFields input declare (joinPath path uid) (schema?.getD []) := by
  rw [visitBlock]
  simp only [hu, check_ok, pure_bind, if_true, ht, visitSchema_eq, map_eq_pure_bind, bind_assoc]
  rfl

theorem visitBlock_reference (hu : Naming.isUsable uid = .ok true) (ht : target.truthy = true) :
    visitBlock input declare path ⟨uid, title, target, schema?⟩ =
      (Option.map fun type => (uid, type)) <$>
        globalReference input declare .block uid (joinPath path uid) target
          (visitInline input declare schema?) := by
  rw [visitBlock]
  simp only [hu, check_ok, pure_bind, if_true, ht, map_eq_pure_bind]

end Members

section Declaring

variable {name : String} {description : Json} {visit : Visit (List Member)} {s t : State}

theorem withScope_of_ok {visit : Visit α} {a : α} (h : visit { s with scope := [] } = (.ok a, t)) :
    withScope visit s = (.ok (t.scope, a), { t with scope := s.scope }) := by
  unfold withScope
  rw [h]
  rfl

theorem withScope_of_error {visit : Visit α} {e : Fault}
    (h : visit { s with scope := [] } = (.error e, t)) :
    withScope visit s = (.error e, { t with scope := s.scope }) := by
  unfold withScope
  rw [h]
  rfl

theorem declareGlobal_known (h : s.isDeclared name = true) :
    declareGlobal name description visit s = (.ok (), s) := by
  unfold declareGlobal
  rw [get_bind_apply, if_pos h]
  rfl

theorem declareGlobal_fault {e : Fault} (h : s.isDeclared name = false)
    (hv : visit (s.opened name) = (.error e, t)) :
    declareGlobal name description visit s = (.error e, { t with scope := s.scope }) := by
  have hs := withScope_of_error (s := { s with globals := Table.put name none s.globals }) hv
  unfold declareGlobal
  rw [get_bind_apply, if_neg (by simp [h])]
  exact bind_of_error hs _

theorem declareGlobal_built {members : List Member} (h : s.isDeclared name = false)
    (hv : visit (s.opened name) = (.ok members, t)) :
    declareGlobal name description visit s =
      (.ok (), t.closed s.scope name ⟨t.scope, ⟨name, description, false, members⟩⟩) := by
  have hs := withScope_of_ok (s := { s with globals := Table.put name none s.globals }) hv
  unfold declareGlobal
  rw [get_bind_apply, if_neg (by simp [h])]
  exact bind_of_ok hs _

end Declaring

/-- The visit that declares a global field from the fields of an origin. -/
def Origin.declare (input : Input) (declare : Declare) (name : String) (description : Json) :
    Origin → Visit Unit
  | .inline _ fields => declareGlobal name description (visitFields input declare (.text "") fields)
  | .record r => declare name r.fields description

section References

variable {input : Input} {declare : Declare} {name : String} {target : Json}
  {inline? : Option (List Field)} {s : State}

/-- An origin is the inline fields, or else the first record with the uid, which has fields then. -/
theorem origin?_eq_some {origin : Origin} (h : input.origin? target inline? = some origin) :
    (∃ fields, inline? = some fields ∧ origin = .inline target fields) ∨
      ∃ r, inline? = none ∧ input.record? target = some r ∧ r.schema? = some r.fields ∧
        origin = .record r := by
  cases inline? with
  | some fields => exact .inl ⟨fields, rfl, (Option.some.inj h).symm⟩
  | none =>
    obtain ⟨r, hr, rfl⟩ := Option.map_eq_some_iff.1 h
    obtain ⟨hr, hs⟩ := Option.filter_eq_some_iff.1 hr
    obtain ⟨fields, hs⟩ := Option.isSome_iff_exists.1 hs
    exact .inr ⟨r, rfl, hr, by rw [Record.fields, hs]; rfl, rfl⟩

theorem origin?_eq_none (h : input.origin? target inline? = none) :
    inline? = none ∧ (input.record? target).bind Record.schema? = none := by
  cases inline? with
  | some fields => cases h
  | none =>
    refine ⟨rfl, ?_⟩
    have hf := Option.map_eq_none_iff.1 h
    cases hr : input.record? target with
    | none => rfl
    | some r => simpa [hr, Option.filter_eq_none_iff] using hf

theorem resolveGlobal_known (h : s.isDeclared name = true) (inline? : Option (Visit (List Member))) :
    resolveGlobal input declare name target inline? s = (.ok true, s.referred name) := by
  unfold resolveGlobal
  rw [get_bind_apply, if_pos h]
  rfl

theorem resolveGlobal_missing (h : s.isDeclared name = false)
    (ho : input.origin? target inline? = none) :
    resolveGlobal input declare name target (visitInline input declare inline?) s = (.ok false, s) := by
  obtain ⟨rfl, hr⟩ := origin?_eq_none ho
  unfold resolveGlobal
  rw [get_bind_apply, if_neg (by simp [h]), visitInline]
  simp only [hr]
  rfl

theorem resolveGlobal_eq {origin : Origin} (h : s.isDeclared name = false)
    (ho : input.origin? target inline? = some origin) :
    resolveGlobal input declare name target (visitInline input declare inline?) s =
      (origin.declare input declare name (input.descriptionOf target) >>= fun _ =>
        track .globalFields [name] >>= fun _ => pure true) s := by
  unfold resolveGlobal
  rw [get_bind_apply, if_neg (by simp [h])]
  rcases origin?_eq_some ho with ⟨fields, rfl, rfl⟩ | ⟨r, rfl, hr, hs, rfl⟩
  · rw [visitInline]
    simp only [pure_bind, if_true]
    rfl
  · rw [visitInline, hr]
    simp only [Option.bind_some, hs, pure_bind, if_true, Origin.declare]

variable {place : SkipPlace} {uid path : Json} {members? : Option (Visit (List Member))}

theorem globalReference_fault {e : Fault} (hn : Naming.declare? input.style.lead target = .error e) :
    globalReference input declare place uid path target members? s = (.error e, s) := by
  unfold globalReference
  rw [hn]
  rfl

theorem globalReference_unusable (hn : Naming.declare? input.style.lead target = .ok name)
    (hu : Naming.isUsableName name = false) :
    globalReference input declare place uid path target members? s =
      (.ok none, s.after (refuseReference place uid path target)) := by
  unfold globalReference
  rw [hn, check_ok, pure_bind, if_pos (by simp [hu])]
  cases place <;> rfl

theorem globalReference_eq (hn : Naming.declare? input.style.lead target = .ok name)
    (hu : Naming.isUsableName name = true) :
    globalReference input declare place uid path target members? =
      resolveGlobal input declare name target members? >>= fun found =>
        if found then pure (some (.declared name))
        else skip place .noSchema uid path >>= fun _ => pure none := by
  unfold globalReference
  rw [hn, check_ok, pure_bind, if_neg (by simp [hu])]

end References

section Unions

variable {style : Style} {uid : Json} {blocks : Blocks} {name : String} {s t : State}

/-- What a union is known by: the uids of its blocks, each with the text of its type. -/
def signatureOf (style : Style) (blocks : Blocks) : Signature :=
  blocks.map fun (uid, type) => (uid, type.text style)

def State.joined (s : State) (style : Style) (blocks : Blocks) (base : String) : State :=
  let (name, counter) := Naming.unique base s.unionNames s.counter
  { s with
    counter
    unions := s.unions ++ [(signatureOf style blocks, name)]
    scope := s.scope ++ [⟨name, blocks⟩] }

/-- The uids of a signature, each of which has to serve as a key. -/
def Signature.uids (sig : Signature) : List Json := sig.map Prod.fst

theorem unionName_apply (style : Style) (uid : Json) (blocks : Blocks) (s : State) :
    unionName style uid blocks s =
      match (signatureOf style blocks).uids.mapM asKey with
      | .error e => (Except.error e, s)
      | .ok _ => match s.findUnion? (signatureOf style blocks) with
        | some name => (Except.ok name, s)
        | none => match Naming.declare? style.lead uid with
          | .error e => (Except.error e, s)
          | .ok base =>
            (Except.ok (Naming.unique base s.unionNames s.counter).1, s.joined style blocks base) := by
  have hm : (signatureOf style blocks).mapM (fun entry => asKey entry.1) =
      (signatureOf style blocks).uids.mapM asKey := by rw [Signature.uids, List.mapM_map]; rfl
  unfold unionName
  rw [← signatureOf, bind_apply, check_apply, hm]
  cases (signatureOf style blocks).uids.mapM asKey with
  | error e => rfl
  | ok keys =>
    simp only [get_bind_apply]
    cases s.findUnion? (signatureOf style blocks) with
    | some name => rfl
    | none => cases Naming.declare? style.lead uid <;> rfl

theorem mapM_asKey_ok {values keys : List Json} (h : values.mapM asKey = .ok keys) :
    ∀ value ∈ values, value.isKey = true := by
  induction values generalizing keys with
  | nil => simp
  | cons value rest ih =>
    rw [List.mapM_cons] at h
    cases hk : asKey value with
    | error e => rw [hk] at h; cases h
    | ok key =>
      rw [hk] at h
      cases hr : rest.mapM asKey with
      | error e => rw [hr] at h; cases h
      | ok keys =>
        refine List.forall_mem_cons.2 ⟨?_, ih hr⟩
        unfold asKey at hk
        split at hk
        · assumption
        · cases hk

theorem unionName_ok (h : unionName style uid blocks s = (.ok name, t)) :
    (∀ uid ∈ (signatureOf style blocks).uids, uid.isKey = true) ∧
      (s.findUnion? (signatureOf style blocks) = some name ∧ t = s ∨
        s.findUnion? (signatureOf style blocks) = none ∧ ∃ base,
          Naming.declare? style.lead uid = .ok base ∧
          name = (Naming.unique base s.unionNames s.counter).1 ∧ t = s.joined style blocks base) := by
  rw [unionName_apply] at h
  cases hk : (signatureOf style blocks).uids.mapM asKey with
  | error e => rw [hk] at h; cases h
  | ok keys =>
    rw [hk] at h
    refine ⟨mapM_asKey_ok hk, ?_⟩
    cases hf : s.findUnion? (signatureOf style blocks) with
    | some found =>
      rw [hf] at h
      cases h
      exact .inl ⟨rfl, rfl⟩
    | none =>
      rw [hf] at h
      cases hd : Naming.declare? style.lead uid with
      | error e => rw [hd] at h; cases h
      | ok base =>
        rw [hd] at h
        cases h
        exact .inr ⟨rfl, base, rfl, rfl, rfl⟩

theorem unionName_fault {e : Fault} (h : unionName style uid blocks s = (.error e, t)) :
    t = s ∧ e ≠ .budgetSpent := by
  rw [unionName_apply] at h
  have hm := mapM_asKey_fault (signatureOf style blocks).uids
  cases hk : (signatureOf style blocks).uids.mapM asKey with
  | error e =>
    rw [hk] at h hm
    cases h
    exact ⟨rfl, fun he => hm (congrArg _ he)⟩
  | ok keys =>
    rw [hk] at h
    cases hf : s.findUnion? (signatureOf style blocks) with
    | some found => rw [hf] at h; cases h
    | none =>
      rw [hf] at h
      cases hd : Naming.declare? style.lead uid with
      | error e =>
        rw [hd] at h
        cases h
        exact ⟨rfl, fun he => declare?_fault style.lead uid (hd.trans (congrArg _ he))⟩
      | ok base => rw [hd] at h; cases h

/-- Whatever it comes to, nothing but a union is added. -/
theorem unionName_joins {result : Except Fault String} (h : unionName style uid blocks s = (result, t)) :
    t = s ∨ ∃ base, t = s.joined style blocks base := by
  cases result with
  | error e => exact .inl (unionName_fault h).1
  | ok name =>
    rcases (unionName_ok h).2 with ⟨-, rfl⟩ | ⟨-, base, -, -, rfl⟩
    · exact .inl rfl
    · exact .inr ⟨base, rfl⟩

theorem unionName_globals {result : Except Fault String}
    (h : unionName style uid blocks s = (result, t)) : t.globals = s.globals := by
  obtain rfl | ⟨base, rfl⟩ := unionName_joins h <;> rfl

end Unions

end SchemaDecl.Generation

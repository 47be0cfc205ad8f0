import SchemaDecl.Proofs.Generation.Visits

/-!
# Quiet actions

What the actions of a visit do to a state. An action that only reports, or takes note of a type that is no
global field, is plain. It leaves all declarations as they are and takes no heed of them, and its fault is
one of the document.
-/

namespace SchemaDecl.Generation

variable {α β : Type}

theorem bind_apply (x : Visit α) (f : α → Visit β) (s : State) :
    (x >>= f) s = match x s with
      | (.ok a, t) => f a t
      | (.error e, t) => (.error e, t) := by
  simp only [bind, ExceptT.bind, ExceptT.mk, StateT.bind]
  rcases x s with ⟨_ | a, t⟩ <;> rfl

theorem bind_of_ok {x : Visit α} {s t : State} {a : α} (h : x s = (.ok a, t)) (f : α → Visit β) :
    (x >>= f) s = f a t := by rw [bind_apply, h]

theorem bind_of_error {x : Visit α} {s t : State} {e : Fault} (h : x s = (.error e, t))
    (f : α → Visit β) : (x >>= f) s = (.error e, t) := by rw [bind_apply, h]

theorem ok_of_bind {r : Except Fault α} {f : α → Except Fault β} {b : β} (h : r.bind f = .ok b) :
    ∃ a, r = .ok a ∧ f a = .ok b := by
  cases r with
  | error e => cases h
  | ok a => exact ⟨a, rfl, h⟩

theorem ok_of_map {r : Except Fault α} {f : α → β} {b : β} (h : r.map f = .ok b) : ∃ a, r = .ok a ∧ f a = b := by
  cases r with
  | error e => cases h
  | ok a => exact ⟨a, rfl, Except.ok.inj h⟩

theorem get_bind_apply (f : State → Visit β) (s : State) : ((get : Visit State) >>= f) s = f s s := rfl

theorem map_apply (f : α → β) (x : Visit α) (s : State) :
    (f <$> x) s = ((x s).1.map f, (x s).2) := by
  simp only [Functor.map, ExceptT.map, ExceptT.mk, StateT.bind, bind]
  rcases x s with ⟨_ | a, t⟩ <;> rfl

theorem check_ok (a : α) : check (.ok a) = pure a := rfl

theorem check_apply (r : Except Fault α) (s : State) : check r s = (r, s) := by
  cases r <;> rfl

theorem check_map (r : Except Fault α) (f : α → β) : check (r.map f) = f <$> check r := by
  cases r <;> rfl

theorem bind_check_apply (x : Visit α) (f : α → Except Fault β) (s : State) :
    (x >>= fun a => check (f a)) s = ((x s).1.bind f, (x s).2) := by
  rw [bind_apply]
  rcases x s with ⟨_ | a, t⟩
  · rfl
  · exact check_apply (f a) t

/-- Between two states no declaration, union or reference to a global field is added. -/
structure Keeps (s t : State) : Prop where
  globals : t.globals = s.globals
  unions : t.unions = s.unions
  scope : t.scope = s.scope
  unusable : t.unusable = s.unusable
  referred : t.dependencies.globalFields = s.dependencies.globalFields

theorem Keeps.refl (s : State) : Keeps s s := ⟨rfl, rfl, rfl, rfl, rfl⟩

theorem Keeps.trans {s t u : State} (h : Keeps s t) (h' : Keeps t u) : Keeps s u :=
  ⟨h'.globals.trans h.globals, h'.unions.trans h.unions, h'.scope.trans h.scope,
    h'.unusable.trans h.unusable, h'.referred.trans h.referred⟩

/-- The action keeps all declarations, and a fault of it is one of the document. -/
structure Quiet (visit : Visit α) : Prop where
  keeps : ∀ s, Keeps s (visit s).2
  fault : ∀ s, (visit s).1 ≠ .error .budgetSpent

theorem Quiet.pure (a : α) : Quiet (pure a) :=
  ⟨fun s => Keeps.refl s, fun _ h => by cases h⟩

theorem Quiet.check {r : Except Fault α} (h : r ≠ .error .budgetSpent) : Quiet (check r) := by
  refine ⟨fun s => ?_, fun s => ?_⟩
  · rw [check_apply]
    exact Keeps.refl s
  · rw [check_apply]
    exact h

theorem Quiet.bind {x : Visit α} {f : α → Visit β} (hx : Quiet x) (hf : ∀ a, Quiet (f a)) :
    Quiet (x >>= f) := by
  refine ⟨fun s => ?_, fun s => ?_⟩
  · have hk := hx.keeps s
    rw [bind_apply]
    rcases hs : x s with ⟨_ | a, t⟩ <;> rw [hs] at hk
    · exact hk
    · exact hk.trans ((hf a).keeps t)
  · have he := hx.fault s
    rw [bind_apply]
    rcases hs : x s with ⟨_ | a, t⟩ <;> rw [hs] at he
    · exact fun h => he (congrArg Except.error (Except.error.inj h))
    · exact (hf a).fault t

theorem Quiet.modify {f : State → State} (h : ∀ s, Keeps s (f s)) : Quiet (modify f) :=
  ⟨h, fun _ he => by cases he⟩

/-- What a pass declares as it goes, apart from its account of skips, uses and names. -/
structure Store where
  globals : Table (Option Declaration)
  unions : List (Signature × String)
  scope : List BlockUnion
  counter : Nat

def State.store (s : State) : Store := ⟨s.globals, s.unions, s.scope, s.counter⟩

def State.holding (s : State) (w : Store) : State :=
  { s with globals := w.globals, unions := w.unions, scope := w.scope, counter := w.counter }

/-- The visit does the same whatever the store is, and leaves it as it is. -/
def Framed (visit : Visit α) : Prop := ∀ s w, visit (s.holding w) = ((visit s).1, (visit s).2.holding w)

theorem Framed.bind {x : Visit α} {f : α → Visit β} (hx : Framed x) (hf : ∀ a, Framed (f a)) :
    Framed (x >>= f) := by
  intro s w
  rw [bind_apply, bind_apply, hx s w]
  rcases x s with ⟨_ | a, t⟩
  · rfl
  · exact hf a t w

/-- The visit is made up of actions that keep all declarations and take no heed of them. -/
inductive Plain : {α : Type} → Visit α → Prop
  | pure {α : Type} (a : α) : Plain (pure a)
  | check {α : Type} {r : Except Fault α} (h : r ≠ .error .budgetSpent) : Plain (check r)
  | modify {f : State → State} (keeps : ∀ s, Keeps s (f s))
      (frame : ∀ s w, f (s.holding w) = (f s).holding w) : Plain (modify f)
  | bind {α β : Type} {x : Visit α} {f : α → Visit β} (hx : Plain x) (hf : ∀ a, Plain (f a)) :
      Plain (x >>= f)

theorem Plain.quiet {visit : Visit α} (h : Plain visit) : Quiet visit := by
  induction h with
  | pure a => exact .pure a
  | check h => exact .check h
  | modify keeps => exact .modify keeps
  | bind _ _ ihx ihf => exact ihx.bind ihf

theorem Plain.framed {visit : Visit α} (h : Plain visit) : Framed visit := by
  induction h with
  | pure => exact fun s w => rfl
  | check =>
    intro s w
    rw [check_apply, check_apply]
  | modify _ frame => exact fun s w => congrArg (Prod.mk _) (frame s w)
  | bind _ _ ihx ihf => exact ihx.bind ihf

theorem plain_skip (place : SkipPlace) (cause : SkipCause) (uid path : Json) :
    Plain (skip place cause uid path) := by
  refine .modify (fun s => ?_) fun s w => ?_
  · cases place <;> exact ⟨rfl, rfl, rfl, rfl, rfl⟩
  · cases place <;> rfl

theorem plain_track {category : Category} (names : List String) (h : category ≠ .globalFields) :
    Plain (track category names) := by
  refine .modify (fun s => ⟨rfl, rfl, rfl, rfl, ?_⟩) fun s w => rfl
  cases category <;> first | rfl | exact absurd rfl h

theorem plain_refuse (target : Json) : Plain (refuse target) := by
  refine .modify (fun s => ?_) fun s w => ?_
  · split
    · split
      · exact Keeps.refl s
      · exact ⟨rfl, rfl, rfl, rfl, rfl⟩
    · exact Keeps.refl s
  · rw [show (s.holding w).owner = s.owner from rfl]
    split
    · split <;> rfl
    · rfl

theorem plain_refuseReference (place : SkipPlace) (uid path target : Json) :
    Plain (refuseReference place uid path target) := by
  cases place with
  | field => exact (plain_refuse target).bind fun _ => plain_skip .field _ uid path
  | block => exact (Plain.pure ()).bind fun _ => plain_skip .block _ uid path

theorem quiet_skip (place : SkipPlace) (cause : SkipCause) (uid path : Json) :
    Quiet (skip place cause uid path) := (plain_skip place cause uid path).quiet

theorem quiet_refuseReference (place : SkipPlace) (uid path target : Json) :
    Quiet (refuseReference place uid path target) := (plain_refuseReference place uid path target).quiet

theorem asKey_fault (value : Json) : asKey value ≠ .error .budgetSpent := by
  unfold asKey
  split <;> simp

theorem declare?_fault (lead : String) (uid : Json) : Naming.declare? lead uid ≠ .error .budgetSpent := by
  cases uid <;> simp [Naming.declare?]

theorem isUsable_fault (uid : Json) : Naming.isUsable uid ≠ .error .budgetSpent := by
  unfold Naming.isUsable
  split
  · simp
  · split <;> simp

theorem targets_fault (attrs : Attributes) : attrs.targets ≠ .error .budgetSpent := by
  unfold Attributes.targets
  split
  · simp
  · split <;> simp

theorem map_fault {r : Except Fault α} (f : α → β) (h : r ≠ .error .budgetSpent) :
    r.map f ≠ .error .budgetSpent := by
  cases r with
  | ok a => simp [Except.map]
  | error e => simpa [Except.map] using h

theorem bind_fault {r : Except Fault α} {f : α → Except Fault β} (h : r ≠ .error .budgetSpent)
    (hf : ∀ a, f a ≠ .error .budgetSpent) : r.bind f ≠ .error .budgetSpent := by
  cases r with
  | ok a => exact hf a
  | error e => simpa [Except.bind] using h

theorem isExtension_fault (attrs : Attributes) : attrs.isExtension ≠ .error .budgetSpent := by
  unfold Attributes.isExtension
  split
  · apply map_fault
    unfold Attributes.metadata?
    split <;> simp
  · simp

theorem memberOf_fault (attrs : Attributes) (type : TypeExpr) :
    memberOf attrs type ≠ .error .budgetSpent := by
  apply map_fault
  unfold isNullable
  split
  · simp
  · split
    · simp
    · exact map_fault _ (asKey_fault _)

/-- The member of a field, but for its type, is that of the attributes. -/
theorem typedMember_ok {attrs : Attributes} {type : TypeExpr} {member : Option Member}
    (h : typedMember attrs type = .ok member) : ∃ nullable, isNullable attrs = .ok nullable ∧
      member = some ⟨attrs.uid, attrs.displayName, isOptional attrs, nullable, type⟩ := by
  obtain ⟨_, hm, rfl⟩ := ok_of_map h
  obtain ⟨nullable, hn, rfl⟩ := ok_of_map hm
  exact ⟨nullable, hn, rfl⟩

theorem typedMember_fault (attrs : Attributes) (type : TypeExpr) :
    typedMember attrs type ≠ .error .budgetSpent := map_fault _ (memberOf_fault attrs type)

theorem mapM_asKey_fault (values : List Json) : values.mapM asKey ≠ .error .budgetSpent := by
  induction values with
  | nil => simp [pure, Except.pure]
  | cons value rest ih =>
    rw [List.mapM_cons]
    refine bind_fault (asKey_fault value) fun key => bind_fault ih fun keys => ?_
    simp [pure, Except.pure]

theorem plain_repeated {attrs : Attributes} {visit : Visit TypeExpr} (h : Plain visit) :
    Plain (repeated attrs visit) := h.bind fun _ => .pure _

theorem plain_referenceNames (style : Style) (path : Json) (targets : List Json) :
    Plain (referenceNames style path targets) := by
  induction targets with
  | nil => exact .pure _
  | cons target rest ih =>
    refine (Plain.check (declare?_fault style.lead target)).bind fun name => ?_
    split
    · exact ih.bind fun _ => .pure _
    · exact (plain_skip _ _ _ _).bind fun _ => ih

theorem plain_trackAs {category : Category} (names : List String) (type : TypeExpr)
    (h : category ≠ .globalFields) : Plain (do track category names; return type) :=
  (plain_track names h).bind fun _ => .pure _

theorem plain_fileType (style : Style) (uid : Json) : Plain (fileType style uid) := by
  unfold fileType
  split
  · exact .pure _
  · exact plain_trackAs _ _ (by simp)

theorem plain_jsonType (attrs : Attributes) : Plain (jsonType attrs) := by
  refine (Plain.check (isExtension_fault attrs)).bind fun isExtension => ?_
  split
  · exact .pure _
  · refine Plain.bind (.modify (fun s => ?_) fun s w => rfl) fun _ => .pure _
    exact ⟨rfl, rfl, rfl, rfl, rfl⟩

theorem plain_referenceType (style : Style) (attrs : Attributes) (path : Json) :
    Plain (referenceType style attrs path) := by
  refine (Plain.check (targets_fault attrs)).bind fun targets => ?_
  exact (plain_referenceNames style path targets).bind fun names => plain_trackAs _ _ (by simp)

theorem plain_flatType {style : Style} {attrs : Attributes} {path : Json} {visit : Visit TypeExpr}
    (h : flatType? style attrs path = some visit) : Plain visit := by
  unfold flatType? at h
  cases hl : attrs.literals? with
  | some values =>
    rw [hl] at h
    obtain rfl := Option.some.inj h
    exact plain_repeated (.pure _)
  | none =>
    rw [hl] at h
    cases hk : attrs.kind <;> rw [hk] at h
    case group | globalField | blocks => cases h
    all_goals obtain rfl := Option.some.inj h
    case file => exact plain_repeated (plain_fileType _ _)
    case json => exact plain_repeated (plain_jsonType _)
    case reference => exact plain_referenceType _ _ _
    case unknown => exact (plain_skip _ _ _ _).bind fun _ => .pure _
    all_goals exact plain_repeated (plain_trackAs _ _ (by simp))

theorem quiet_flatType {style : Style} {attrs : Attributes} {path : Json} {visit : Visit TypeExpr}
    (h : flatType? style attrs path = some visit) : Quiet visit := (plain_flatType h).quiet

end SchemaDecl.Generation

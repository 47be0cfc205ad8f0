import SchemaDecl.Proofs.Generation.Quiet

/-!
# Actions of a visit

The visits for fields that hold no other fields, and for references that are refused, are composed of a few
actions. A property of visits that those have, and that composition keeps, holds of all of them. The types
that such fields get are told apart here once.
-/

namespace SchemaDecl.Generation

theorem refuse_apply (target : Json) (s : State) :
    (refuse target s).2 = s ∨ ∃ uid owner, target = .text uid ∧ s.owner = some owner ∧ owner ≠ "" ∧
      (refuse target s).2 = s.addRefusal uid owner := by
  change s.after (refuse target) = s ∨ ∃ uid owner, target = .text uid ∧ s.owner = some owner ∧ owner ≠ "" ∧
    s.after (refuse target) = s.addRefusal uid owner
  rw [refuse, after_modify]
  split
  next uid owner hs =>
    split
    next => exact .inl rfl
    next hne => exact .inr ⟨uid, owner, rfl, hs, hne, rfl⟩
  next => exact .inl rfl

def noteRichText : Visit Unit := modify fun s => { s with richTextUsed := true }

/-- The property holds of the single actions that a field without others takes, and of what is composed of visits
that have it. -/
structure ComposableFlat (P : {α : Type} → Visit α → Prop) : Prop where
  pure {α : Type} (a : α) : P (pure a : Visit α)
  check {α : Type} (r : Except Fault α) : P (check r)
  bind {α β : Type} {x : Visit α} {f : α → Visit β} : P x → (∀ a, P (f a)) → P (x >>= f)
  skip (place : SkipPlace) (cause : SkipCause) (uid path : Json) : P (skip place cause uid path)
  track (category : Category) (names : List String) : P (track category names)
  noteRichText : P noteRichText

/-- The property also holds of a refusal. -/
structure Composable (P : {α : Type} → Visit α → Prop) : Prop extends ComposableFlat P where
  refuse (target : Json) : P (refuse target)

namespace ComposableFlat

variable {P : {α : Type} → Visit α → Prop} (h : ComposableFlat P)

include h

theorem returning {α β : Type} {x : Visit α} (hx : P x) (b : β) : P (do let _ ← x; return b) :=
  h.bind hx fun _ => h.pure b

theorem repeated {attrs : Attributes} {visit : Visit TypeExpr} (hv : P visit) :
    P (repeated attrs visit) := h.bind hv fun _ => h.pure _

theorem referenceNames (style : Style) (path : Json) (targets : List Json) :
    P (referenceNames style path targets) := by
  induction targets with
  | nil => exact h.pure _
  | cons target rest ih =>
    refine h.bind (h.check _) fun name => ?_
    split
    · exact h.bind ih fun _ => h.pure _
    · exact h.bind (h.skip _ _ _ _) fun _ => ih

theorem fileType (style : Style) (uid : Json) : P (fileType style uid) := by
  unfold Generation.fileType
  split
  · exact h.pure _
  · exact h.returning (h.track _ _) _

theorem jsonType (attrs : Attributes) : P (jsonType attrs) := by
  refine h.bind (h.check _) fun isExtension => ?_
  split
  · exact h.pure _
  · exact h.returning h.noteRichText _

theorem referenceType (style : Style) (attrs : Attributes) (path : Json) :
    P (referenceType style attrs path) := by
  refine h.bind (h.check _) fun targets => ?_
  exact h.bind (h.referenceNames style path targets) fun names => h.returning (h.track _ _) _

theorem flatType {style : Style} {attrs : Attributes} {path : Json} {visit : Visit TypeExpr}
    (hv : flatType? style attrs path = some visit) : P visit := by
  unfold flatType? at hv
  cases hl : attrs.literals? with
  | some values =>
    rw [hl] at hv
    obtain rfl := Option.some.inj hv
    exact h.repeated (h.pure _)
  | none =>
    rw [hl] at hv
    cases hk : attrs.kind <;> rw [hk] at hv
    case group | globalField | blocks => cases hv
    all_goals obtain rfl := Option.some.inj hv
    case file => exact h.repeated (h.fileType _ _)
    case json => exact h.repeated (h.jsonType _)
    case reference => exact h.referenceType _ _ _
    case unknown => exact h.returning (h.skip _ _ _ _) _
    all_goals exact h.repeated (h.returning (h.track _ _) _)

end ComposableFlat

theorem Composable.refuseReference {P : {α : Type} → Visit α → Prop} (h : Composable P) (place : SkipPlace)
    (uid path target : Json) : P (refuseReference place uid path target) := by
  cases place with
  | field => exact h.bind (h.refuse target) fun _ => h.skip .field _ uid path
  | block => exact h.bind (h.pure ()) fun _ => h.skip .block _ uid path

/-- The field is a json field that is written out as rich text. -/
structure ShowsRichText (attrs : Attributes) : Prop where
  untyped : attrs.literals? = none
  json : attrs.kind = .json
  bare : attrs.isExtension = .ok false

/-- The types for single values of a field that holds no other fields. -/
inductive FlatType (style : Style) (attrs : Attributes) : TypeExpr → Prop
  | choices {values} :
      attrs.literals? = some values → FlatType style attrs (.choices (attrs.kind = .number) values)
  | primitive (p : Primitive) : FlatType style attrs (.primitive p)
  | link : FlatType style attrs .link
  | file : FlatType style attrs .file
  | folder : FlatType style attrs .folder
  | taxonomy : FlatType style attrs .taxonomy
  | references {names} :
      (∀ name ∈ names, ∃ target, Naming.declare? style.lead target = .ok name) →
      FlatType style attrs (.references names)
  | extension : FlatType style attrs .extension
  | richText : ShowsRichText attrs → FlatType style attrs .richText
  | fallback : FlatType style attrs .fallback

variable {α β : Type} {style : Style} {attrs : Attributes} {type : TypeExpr} {s t u : State}

theorem bind_eq_ok {x : Visit α} {f : α → Visit β} {b : β} (h : (x >>= f) s = (.ok b, u)) :
    ∃ a t, x s = (.ok a, t) ∧ f a t = (.ok b, u) := by
  rw [bind_apply] at h
  rcases hx : x s with ⟨e | a, t⟩ <;> rw [hx] at h
  · cases h
  · exact ⟨a, t, rfl, h⟩

theorem bind_pure_eq_ok {x : Visit α} {f : α → β} {b : β}
    (h : (x >>= fun a => pure (f a)) s = (.ok b, u)) : ∃ a, x s = (.ok a, u) ∧ f a = b := by
  obtain ⟨a, t, hx, hf⟩ := bind_eq_ok h
  cases hf
  exact ⟨a, hx, rfl⟩

theorem check_eq_ok {r : Except Fault α} {a : α} (h : check r s = (.ok a, t)) : r = .ok a ∧ t = s := by
  rw [check_apply] at h
  exact ⟨(Prod.ext_iff.1 h).1, (Prod.ext_iff.1 h).2.symm⟩

/-- The visit gives a type of the field. It is rich text exactly for a field that shows it, and then that is
noted. -/
def Types (style : Style) (attrs : Attributes) (visit : Visit TypeExpr) : Prop :=
  ∀ s type t, visit s = (.ok type, t) → FlatType style attrs type ∧ (type = .richText ↔ ShowsRichText attrs) ∧
    (t.richTextUsed = true ↔ s.richTextUsed = true ∨ ShowsRichText attrs)

theorem types_pure (h : FlatType style attrs type) (hne : type ≠ .richText) (hs : ¬ ShowsRichText attrs) :
    Types style attrs (pure type) := by
  rintro s _ _ ⟨⟩
  exact ⟨h, iff_of_false hne hs, (or_iff_left hs).symm⟩

theorem types_track (h : FlatType style attrs type) (hne : type ≠ .richText) (hs : ¬ ShowsRichText attrs)
    (category : Category) (names : List String) :
    Types style attrs (do track category names; return type) := by
  rintro s _ _ ⟨⟩
  exact ⟨h, iff_of_false hne hs, (or_iff_left hs).symm⟩

theorem types_fileType (hs : ¬ ShowsRichText attrs) : Types style attrs (fileType style attrs.uid) := by
  unfold fileType
  split
  · exact types_pure .folder (by simp) hs
  · exact types_track .file (by simp) hs _ _

theorem types_jsonType (hl : attrs.literals? = none) (hk : attrs.kind = .json) :
    Types style attrs (jsonType attrs) := by
  intro s type t h
  unfold jsonType at h
  cases he : attrs.isExtension with
  | error e =>
    rw [he] at h
    cases h
  | ok isExtension =>
    rw [he, check_ok, pure_bind] at h
    cases isExtension with
    | true =>
      have hs : ¬ ShowsRichText attrs := fun hs => by simpa [he] using hs.bare
      cases h
      exact ⟨.extension, iff_of_false (by simp) hs, (or_iff_left hs).symm⟩
    | false =>
      have hs : ShowsRichText attrs := ⟨hl, hk, he⟩
      cases h
      exact ⟨.richText hs, iff_of_true rfl hs, iff_of_true rfl (.inr hs)⟩

theorem referenceNames_ok {path : Json} {targets : List Json} {names : List String}
    (h : referenceNames style path targets s = (.ok names, t)) :
    (∀ name ∈ names, ∃ target, Naming.declare? style.lead target = .ok name) ∧
      t.richTextUsed = s.richTextUsed := by
  induction targets generalizing s t names with
  | nil =>
    cases h
    exact ⟨by simp, rfl⟩
  | cons target rest ih =>
    obtain ⟨name, mid, hcheck, hrest⟩ := bind_eq_ok h
    obtain ⟨hn, rfl⟩ := check_eq_ok hcheck
    split at hrest
    · obtain ⟨others, hothers, rfl⟩ := bind_pure_eq_ok hrest
      obtain ⟨hnames, hrich⟩ := ih hothers
      exact ⟨List.forall_mem_cons.2 ⟨⟨target, hn⟩, hnames⟩, hrich⟩
    · obtain ⟨_, _, hskip, hothers⟩ := bind_eq_ok hrest
      cases hskip
      obtain ⟨hnames, hrich⟩ := ih hothers
      exact ⟨hnames, hrich⟩

theorem types_referenceType (path : Json) (hs : ¬ ShowsRichText attrs) :
    Types style attrs (referenceType style attrs path) := by
  intro s type t h
  obtain ⟨targets, mid, hcheck, hrest⟩ := bind_eq_ok h
  obtain ⟨-, rfl⟩ := check_eq_ok hcheck
  obtain ⟨names, _, hnames, htrack⟩ := bind_eq_ok hrest
  cases htrack
  obtain ⟨hnames, hrich⟩ := referenceNames_ok hnames
  refine ⟨.references hnames, iff_of_false (by simp) hs, ?_⟩
  rw [← hrich]
  exact (or_iff_left hs).symm

/-- The visit gives a type of the field, or a list of what has such a type. -/
def TypesField (style : Style) (attrs : Attributes) (visit : Visit TypeExpr) : Prop :=
  ∀ s type t, visit s = (.ok type, t) → ∃ base, FlatType style attrs base ∧
    (type = base ∨ type = base.repeated attrs.multiple attrs.maxInstance) ∧
    (base = .richText ↔ ShowsRichText attrs) ∧
    (t.richTextUsed = true ↔ s.richTextUsed = true ∨ ShowsRichText attrs)

theorem Types.single {visit : Visit TypeExpr} (h : Types style attrs visit) : TypesField style attrs visit := by
  intro s type t hr
  obtain ⟨hflat, hshows, hrich⟩ := h s type t hr
  exact ⟨type, hflat, .inl rfl, hshows, hrich⟩

theorem Types.repeated {visit : Visit TypeExpr} (h : Types style attrs visit) :
    TypesField style attrs (repeated attrs visit) := by
  intro s type t hr
  obtain ⟨base, hbase, rfl⟩ := bind_pure_eq_ok hr
  obtain ⟨hflat, hshows, hrich⟩ := h s base t hbase
  exact ⟨base, hflat, .inr rfl, hshows, hrich⟩

/-- What a visit to a field that holds no others gives, and whether it comes across rich text. -/
theorem flatType_types {path : Json} {visit : Visit TypeExpr}
    (hv : flatType? style attrs path = some visit) : TypesField style attrs visit := by
  unfold flatType? at hv
  cases hl : attrs.literals? with
  | some values =>
    rw [hl] at hv
    obtain rfl := Option.some.inj hv
    have hs : ¬ ShowsRichText attrs := fun hs => by simpa [hl] using hs.untyped
    exact (types_pure (.choices hl) (by simp) hs).repeated
  | none =>
    rw [hl] at hv
    have hs : attrs.kind ≠ .json → ¬ ShowsRichText attrs := fun hk hs => hk hs.json
    cases hk : attrs.kind <;> rw [hk] at hv hs
    case group | globalField | blocks => cases hv
    all_goals obtain rfl := Option.some.inj hv
    case text | isodate | boolean => exact (types_track (.primitive _) (by simp) (hs (by simp)) _ _).repeated
    case number => exact (types_track (.primitive _) (by simp) (hs (by simp)) _ _).repeated
    case file => exact (types_fileType (hs (by simp))).repeated
    case link => exact (types_track .link (by simp) (hs (by simp)) _ _).repeated
    case taxonomy => exact (types_track .taxonomy (by simp) (hs (by simp)) _ _).repeated
    case json => exact (types_jsonType hl hk).repeated
    case reference => exact (types_referenceType path (hs (by simp))).single
    case unknown =>
      intro s type t hr
      cases hr
      exact ⟨.fallback, .fallback, .inl rfl, iff_of_false (by simp) (hs (by simp)),
        (or_iff_left (hs (by simp))).symm⟩

end SchemaDecl.Generation

import SchemaDecl.Proofs.Generation.Legible
import SchemaDecl.Proofs.Generation.Styles

/-!
# Passes without comments

Comments are part of the texts by which unions are known, so with comments there may be more unions. As
long as there are not, a pass without comments declares what the one with comments does, and its code is
the other without the comments.
-/

namespace SchemaDecl

/-- The settings with comments turned off. -/
def Settings.undocumented (settings : Settings) : Settings := { settings with documentation := .bool false }

namespace Generation

variable {input : Input} {style : Style} {s t u : State} {steps : List Step} {known : List (Blocks × String)}

/-- In both styles the same blocks of interest make one union. -/
def Agrees (style style' : Style) (met : Blocks → Prop) : Prop :=
  ∀ blocks blocks', met blocks → met blocks' →
    (signatureOf style' blocks).same (signatureOf style' blocks') =
      (signatureOf style blocks).same (signatureOf style blocks')

/-- The unions of a state, for blocks and their names. -/
def unionEntries (style : Style) (known : List (Blocks × String)) : List (Signature × String) :=
  known.map fun (blocks, name) => (signatureOf style blocks, name)

/-- The stores differ in how the same unions are known. -/
def SameUnions (style style' : Style) (met : Blocks → Prop) (v w : Store) : Prop :=
  ∃ known, (∀ entry ∈ known, met entry.1) ∧ v.unions = unionEntries style known ∧
    w = { v with unions := unionEntries style' known }

theorem unionNames_unionEntries (h : s.unions = unionEntries style known) : s.unionNames = known.map Prod.snd := by
  rw [State.unionNames, h, unionEntries, List.map_map]
  rfl

theorem findUnion?_unionEntries {style' : Style} {met : Blocks → Prop} {blocks : Blocks}
    (hagrees : Agrees style style' met) (hknown : ∀ entry ∈ known, met entry.1) (hb : met blocks)
    (hs : s.unions = unionEntries style known) (ht : t.unions = unionEntries style' known) :
    t.findUnion? (signatureOf style' blocks) = s.findUnion? (signatureOf style blocks) := by
  rw [State.findUnion?, State.findUnion?, hs, ht, unionEntries, unionEntries, List.find?_map, List.find?_map,
    Option.map_map, Option.map_map]
  refine congrArg (Option.map Prod.snd) (List.find?_congr fun entry he => ?_)
  exact hagrees entry.1 blocks (hknown entry he) hb

/-- The store where the same unions are known by their texts in another style. -/
def Store.respelled (v : Store) (style : Style) (known : List (Blocks × String)) : Store :=
  { v with unions := unionEntries style known }

theorem unionNames_respelled {style' : Style} (h : s.unions = unionEntries style' known) :
    (s.holding (s.store.respelled style known)).unionNames = s.unionNames :=
  (@unionNames_unionEntries style _ known rfl).trans (unionNames_unionEntries h).symm

theorem joined_respelled {style' : Style} {blocks : Blocks} {base : String}
    (h : s.unions = unionEntries style' known) :
    (s.holding (s.store.respelled style known)).joined style blocks base =
      (s.joined style' blocks base).holding ((s.joined style' blocks base).store.respelled style
        (known ++ [(blocks, (Naming.unique base s.unionNames s.counter).1)])) := by
  rw [State.joined, unionNames_respelled h, Store.respelled, Store.respelled, unionEntries, unionEntries,
    List.map_append]
  rfl

theorem unionName_agrees {met : Blocks → Prop} {uid : String} {blocks : Blocks} {result : Except Fault String}
    (hlead : style.lead = input.style.lead) (hagrees : Agrees input.style style met)
    (hknown : ∀ entry ∈ known, met entry.1) (hunions : s.unions = unionEntries input.style known)
    (h : unionName input.style (.text uid) blocks s = (result, t)) (hmet : result.isOk = true → met blocks) :
    ∃ known', (∀ entry ∈ known', met entry.1) ∧ t.unions = unionEntries input.style known' ∧
      unionName style (.text uid) blocks (s.holding (s.store.respelled style known)) =
        (result, t.holding (t.store.respelled style known')) := by
  have hkeys : (signatureOf style blocks).uids = (signatureOf input.style blocks).uids :=
    uids_eq_of_alike (List.forall₂_same.2 fun _ _ => ⟨rfl, (rfl : Eq _ _)⟩)
  rw [unionName_apply] at h ⊢
  rw [hkeys]
  cases hk : (signatureOf input.style blocks).uids.mapM asKey with
  | error e =>
    rw [hk] at h
    cases h
    exact ⟨known, hknown, hunions, rfl⟩
  | ok keys =>
    rw [hk] at h
    have hfind : result.isOk = true →
        (s.holding (s.store.respelled style known)).findUnion? (signatureOf style blocks) =
          s.findUnion? (signatureOf input.style blocks) := fun hok =>
      findUnion?_unionEntries hagrees hknown (hmet hok) hunions rfl
    cases hf : s.findUnion? (signatureOf input.style blocks) with
    | some name =>
      rw [hf] at h
      cases h
      rw [hfind rfl, hf]
      exact ⟨known, hknown, hunions, rfl⟩
    | none =>
      rw [hf] at h
      cases h
      rw [hfind rfl, hf, hlead]
      let name := (Naming.unique (Naming.declare input.style.lead uid) s.unionNames s.counter).1
      refine ⟨known ++ [(blocks, name)], ?_, ?_, ?_⟩
      · exact List.forall_mem_append.2 ⟨hknown, List.forall_mem_singleton.2 (hmet rfl)⟩
      · rw [State.joined, hunions, unionEntries, unionEntries, List.map_append]
        rfl
      · rw [← joined_respelled hunions]
        change (Except.ok (Naming.unique _ (s.holding (s.store.respelled style known)).unionNames s.counter).1, _) = _
        rw [unionNames_respelled hunions]

/-- Passes that name unions alike declare the same. -/
def sameDeclarations {met : Blocks → Prop} (hlead : style.lead = input.style.lead)
    (hsystem : style.systemFields = input.style.systemFields) (hblocks : input.NamesBlocks)
    (hagrees : Agrees input.style style met) : Simulation input style where
  stores := SameUnions input.style style met
  types := Eq
  declarations := Eq
  met := met
  lead := hlead
  names := by
    rintro v _ ⟨_, _, _, rfl⟩
    rfl
  alone := by
    rintro v _ ⟨known, hknown, hunions, rfl⟩
    exact ⟨known, hknown, hunions, rfl⟩
  inScope := by
    rintro v _ v' _ ⟨_, _, _, rfl⟩ ⟨known, hknown, hunions, rfl⟩
    exact ⟨known, hknown, hunions, rfl⟩
  announced := by
    rintro v _ name ⟨known, hknown, hunions, rfl⟩
    exact ⟨known, hknown, hunions, rfl⟩
  completed := by
    rintro v _ members members' name description ⟨known, hknown, hunions, rfl⟩ hms
    rw [eq_of_alike hms]
    exact ⟨known, hknown, hunions, rfl⟩
  contentType := by
    rintro v _ members members' name description ⟨known, hknown, hunions, rfl⟩ hms
    rw [eq_of_alike hms, hsystem]
  refl _ := rfl
  object hms := by rw [eq_of_alike hms]
  repeated _ _ h := by rw [h]
  union {field blocks blocks' s w result t} hf ho hs hb hu hmet := by
    obtain ⟨uid, huid⟩ := hblocks field hf ho
    obtain ⟨known, hknown, hunions, rfl⟩ := hs
    rw [huid] at hu ⊢
    rw [blocks_eq_of_alike hb]
    obtain ⟨known', hknown', hunions', hname⟩ := unionName_agrees hlead hagrees hknown hunions hu hmet
    exact ⟨result, _, hname, .refl (by intro _; rfl) result, known', hknown', hunions', rfl⟩

def Output.unions (o : Output) : List BlockUnion := (o.globals ++ o.contentTypes).flatMap Declaration.unions

/-- Unions of the output that are the same without comments are one. -/
def Output.Separate (style : Style) (o : Output) : Prop :=
  ∀ u ∈ o.unions, ∀ u' ∈ o.unions,
    (signatureOf style.undocumented u.blocks).same (signatureOf style.undocumented u'.blocks) = true → u.name = u'.name

instance (style : Style) (o : Output) : Decidable (o.Separate style) :=
  inferInstanceAs (Decidable (∀ u ∈ o.unions, ∀ u' ∈ o.unions, _))

theorem textual_of_legible {blocks : Blocks} (style : Style) (h : ∀ block ∈ blocks, BlockLegible block) :
    (signatureOf style blocks).Textual := by
  intro entry he
  obtain ⟨block, hb, rfl⟩ := List.mem_map.1 he
  obtain ⟨uid, huid, -⟩ := (h block hb).1
  exact ⟨uid, huid⟩

theorem signatureOf_undocumented_congr {blocks blocks' : Blocks} (hlead : OneLine style.lead)
    (hb : ∀ block ∈ blocks, BlockLegible block) (hb' : ∀ block ∈ blocks', BlockLegible block)
    (h : signatureOf style blocks = signatureOf style blocks') :
    signatureOf style.undocumented blocks = signatureOf style.undocumented blocks' := by
  induction blocks generalizing blocks' with
  | nil =>
    obtain rfl := List.map_eq_nil_iff.1 h.symm
    rfl
  | cons block rest ih =>
    cases blocks' with
    | nil => cases h
    | cons block' rest' =>
      obtain ⟨hblock, hrest⟩ := List.forall_mem_cons.1 hb
      obtain ⟨hblock', hrest'⟩ := List.forall_mem_cons.1 hb'
      obtain ⟨hhead, htail⟩ := List.cons.inj h
      obtain ⟨huid, htext⟩ := Prod.mk.inj hhead
      have hplain := TypeExpr.text_undocumented_congr hlead hblock.2 hblock'.2 htext
      exact congrArg₂ List.cons (Prod.ext huid hplain) (ih hrest hrest' htail)

/-- In a run whose unions differ in more than comments, fields of blocks that make one union without
comments make one with comments. -/
theorem agrees_undocumented {o : Output} {result : Except Fault (List Declaration)} (hl : input.Legible)
    (hs : start input = .ok s) (hr : runFrom input s = (.ok o, t))
    (hp : Passes input 0 input.records s steps result u) (hsep : o.Separate input.style) :
    Agrees input.style input.style.undocumented fun blocks => ∃ m ∈ meetings steps, m.blocks = blocks := by
  obtain ⟨hunites, -, -, -, hperm⟩ := run_leaves hs hr hp
  have hmet := (hp.legible hl (List.Subset.refl _) (legible_start hs)).met
  obtain ⟨richTextUsed, rfl⟩ := start_eq hs
  have hsound : UnionsSound u := hunites.sound ⟨by simp, by simp [State.unionNames]⟩
  have hfirst : ∀ m ∈ meetings steps, ∃ first ∈ firsts input.style steps, first.name = m.name ∧
      signatureOf input.style.undocumented first.blocks = signatureOf input.style.undocumented m.blocks := by
    intro m hm
    obtain ⟨first, hf, hname, hsame⟩ := exists_first hunites rfl hm
    have hblocks := hmet first (mem_of_mem_firstsFrom hf)
    refine ⟨first, hf, hname, signatureOf_undocumented_congr hl.lead hblocks (hmet m hm) ?_⟩
    exact (Signature.same_iff_eq_of_textual (textual_of_legible _ hblocks) (textual_of_legible _ (hmet m hm))).1 hsame
  have hunion : ∀ m ∈ firsts input.style steps, m.union ∈ o.unions := fun m hm =>
    hperm.mem_iff.2 (List.mem_map_of_mem hm)
  rintro _ _ ⟨m, hm, rfl⟩ ⟨m', hm', rfl⟩
  have htextual : ∀ style : Style, ∀ m ∈ meetings steps, (signatureOf style m.blocks).Textual := fun style m hm =>
    textual_of_legible style (hmet m hm)
  rw [Bool.eq_iff_iff]
  constructor
  · intro hplain
    obtain ⟨first, hf, hname, hsig⟩ := hfirst m hm
    obtain ⟨first', hf', hname', hsig'⟩ := hfirst m' hm'
    have hone := hsep _ (hunion first hf) _ (hunion first' hf') (by rwa [Meeting.union, Meeting.union, hsig, hsig'])
    refine (name_eq_iff_same hsound (hunites.keyed m hm) (hunites.keyed m' hm') (hunites.found m hm)
      (hunites.found m' hm')).1 ?_
    rw [← hname, ← hname']
    exact hone
  · intro hsame
    rw [Signature.same_iff_eq_of_textual (htextual _ m hm) (htextual _ m' hm')] at hsame ⊢
    exact signatureOf_undocumented_congr hl.lead (hmet m hm) (hmet m' hm') hsame

theorem namesBlocks_of_legible (hl : input.Legible) : input.NamesBlocks := by
  intro field hf _
  obtain ⟨uid, huid, -⟩ := (hl.parts _ hf).attrs.uid
  exact ⟨uid, huid⟩

theorem runFrom_undocumented_ok {o : Output} (hl : input.Legible) (hs : start input = .ok s)
    (hr : runFrom input s = (.ok o, t)) (hsep : o.Separate input.style) :
    (runFrom (input.styled input.style.undocumented) s).1 = .ok o := by
  obtain ⟨steps, u, hp, hunusable, rfl, ho⟩ := runFrom_ok hr
  have hagrees := agrees_undocumented hl hs hr hp hsep
  have hstores : SameUnions input.style input.style.undocumented
      (fun blocks => ∃ m ∈ meetings steps, m.blocks = blocks) s.store s.store := by
    obtain ⟨richTextUsed, rfl⟩ := start_eq hs
    exact ⟨[], by simp, rfl, rfl⟩
  let sim : Simulation input input.style.undocumented :=
    sameDeclarations rfl rfl (namesBlocks_of_legible hl) hagrees
  obtain ⟨_, _, _, hp', ⟨hds⟩, known, -, -, rfl⟩ :=
    sim.passes hp (List.Subset.refl _) (fun m hm => ⟨m, hm, rfl⟩) hstores
  obtain rfl := List.forall₂_eq_eq_eq ▸ hds
  have hvisit : visitRecords (input.styled input.style.undocumented) input.records s = _ := hp'.visit_eq
  rw [runFrom_eq hvisit, if_pos (by simp [State.holding, hunusable]), ho]
  rfl

/-- A run over a legible document and the one without comments both fail in the same way or both give an
output. If the unions of the first differ in more than comments, the outputs are the same, and the code of
the second is that of the first without its comments. -/
theorem runFrom_undocumented (hl : input.Legible) (hs : start input = .ok s) :
    Matches (fun o o' => o.Separate input.style → o' = o ∧
        Text.withoutComments (o.code input.style) = o'.code input.style.undocumented)
      (runFrom input s).1 (runFrom (input.styled input.style.undocumented) s).1 := by
  have hlead : input.style.undocumented.lead = input.style.lead := rfl
  obtain ⟨_, -, -, hends⟩ := runFrom_styles hlead (namesBlocks_of_legible hl) s
  have hok : ∀ o, (runFrom input s).1 = .ok o → o.Separate input.style →
      (runFrom (input.styled input.style.undocumented) s).1 = .ok o ∧
        Text.withoutComments (o.code input.style) = o.code input.style.undocumented := by
    intro o ho hsep
    have hr : runFrom input s = (.ok o, (runFrom input s).2) := Prod.ext ho rfl
    exact ⟨runFrom_undocumented_ok hl hs hr hsep, withoutComments_code hl hs hr⟩
  generalize (runFrom input s).1 = r at hends hok ⊢
  generalize (runFrom (input.styled input.style.undocumented) s).1 = r' at hends hok ⊢
  cases hends with
  | fault e => exact .fault e
  | @ok o o' =>
    refine .ok fun hsep => ?_
    obtain ⟨hsame, hcode⟩ := hok o rfl hsep
    obtain rfl := Except.ok.inj hsame
    exact ⟨rfl, hcode⟩

theorem Matches.mono {ε α β : Type} {related related' : α → β → Prop} {r : Except ε α} {r' : Except ε β}
    (h : Matches related r r') (hr : ∀ a b, related a b → related' a b) : Matches related' r r' := by
  cases h with
  | ok h => exact .ok (hr _ _ h)
  | fault e => exact .fault e

theorem run_undocumented {records : List Record} (hl : (Input.mk style records).Legible) :
    Matches (fun r r' => (∀ s o, start ⟨style, records⟩ = .ok s → (runFrom ⟨style, records⟩ s).1 = .ok o →
          o.Separate style) → Text.withoutComments r.code = r'.code)
      (run style records).result (run style.undocumented records).result := by
  have hstart : start ⟨style.undocumented, records⟩ = start ⟨style, records⟩ := rfl
  cases hs : start ⟨style, records⟩ with
  | error e =>
    unfold run
    simp only [hstart, hs]
    exact .fault _
  | ok s =>
    have hends : Matches _ (runFrom ⟨style, records⟩ s).1 (runFrom ⟨style.undocumented, records⟩ s).1 :=
      runFrom_undocumented hl hs
    rw [run_eq hs, run_eq (hstart.trans hs)]
    dsimp only
    generalize hr : (runFrom ⟨style, records⟩ s).1 = r at hends ⊢
    generalize (runFrom ⟨style.undocumented, records⟩ s).1 = r' at hends ⊢
    cases hends with
    | fault e => exact .fault e
    | ok h =>
      refine .ok fun hsep => ?_
      exact (h (hsep s _ rfl hr)).2

/-- What a pass over a schema export declares, if it gives code. -/
def outputOf (settings : Settings) (payload : Json) : Option Output :=
  (readPayload payload).toOption.bind fun records =>
    (start ⟨settings.style, records⟩).toOption.bind fun s => (runFrom ⟨settings.style, records⟩ s).1.toOption

theorem outputOf_eq_some {settings : Settings} {payload : Json} {o : Output} (h : outputOf settings payload = some o) :
    ∃ records s t, readPayload payload = .ok records ∧ start ⟨settings.style, records⟩ = .ok s ∧
      runFrom ⟨settings.style, records⟩ s = (.ok o, t) := by
  have hok : ∀ {ε α : Type} {r : Except ε α} {a : α}, r.toOption = some a → r = .ok a := by
    intro ε α r a hr
    cases r with
    | error e => cases hr
    | ok b => exact congrArg _ (Option.some.inj hr)
  obtain ⟨records, hp, h⟩ := Option.bind_eq_some_iff.1 h
  obtain ⟨s, hs, hr⟩ := Option.bind_eq_some_iff.1 h
  exact ⟨records, s, _, hok hp, hok hs, Prod.ext (hok hr) rfl⟩

theorem generate_code {settings : Settings} {payload : Json} {o : Output} (h : outputOf settings payload = some o) :
    ∃ r, (generate settings payload).result = .ok r ∧ r.code = o.code settings.style := by
  obtain ⟨records, s, t, hp, hs, hr⟩ := outputOf_eq_some h
  unfold generate
  simp only [hp]
  rw [run_eq hs, hr]
  exact ⟨_, rfl, rfl⟩

/-- Two passes over one legible document that differ in whether comments are asked for end alike: both give
code, or they fail in the same way. If the unions that the pass with comments declares differ in more than
comments, the other code is its code without the lines that hold a comment. -/
theorem generate_undocumented {settings : Settings} {payload : Json}
    (hl : ∀ records, readPayload payload = .ok records → (Input.mk settings.style records).Legible) :
    Matches (fun r r' => (∀ o, outputOf settings payload = some o → o.Separate settings.style) →
        Text.withoutComments r.code = r'.code)
      (generate settings payload).result (generate settings.undocumented payload).result := by
  unfold generate
  cases hp : readPayload payload with
  | error e => exact .fault _
  | ok records =>
    refine (run_undocumented (hl records hp)).mono fun r r' hcode hsep => hcode fun s o hs hr => hsep o ?_
    rw [outputOf, hp, Except.toOption, Option.bind_some, hs, Except.toOption, Option.bind_some, hr]
    rfl

def groupDocument (uid label : String) (fields : List Json) : Json :=
  .object [("uid", .text uid), ("data_type", .text "group"), ("display_name", .text label),
    ("multiple", .bool true), ("schema", .list fields)]

def labelledPage : Json :=
  pageDocument [groupDocument "sizes" "Sizes" [textDocument "size" "Size (EU)"],
    blocksDocument (.text "sections") "Title"]

theorem generate_undocumented_labelledPage :
    (generate {} labelledPage).result.isOk = true ∧
      Matches (fun r r' => Text.withoutComments r.code = r'.code) (generate {} labelledPage).result
        (generate (Settings.undocumented {}) labelledPage).result := by
  have hlegible : ∀ records, (readPayload labelledPage).toOption = some records →
      (Input.mk (Settings.style {}) records).Legible := by decide +kernel
  have hseparate : ∀ o, outputOf {} labelledPage = some o → o.Separate (Settings.style {}) := by decide +kernel
  refine ⟨by decide +kernel, ?_⟩
  have hends := generate_undocumented fun records hr => hlegible records (by rw [hr]; rfl)
  exact hends.mono fun r r' hcode => hcode hseparate

/-- Two fields of blocks that differ in a comment. -/
def twinBlocks : Json := pageDocument [blocksDocument (.text "left") "A", blocksDocument (.text "right") "B"]

/-- With comments the two fields have a union each, and without them they share one. -/
theorem twinBlocks_not_undocumented :
    (∀ records, (readPayload twinBlocks).toOption = some records → (Input.mk (Settings.style {}) records).Legible) ∧
      ¬ Matches (fun r r' => Text.withoutComments r.code = r'.code) (generate {} twinBlocks).result
        (generate (Settings.undocumented {}) twinBlocks).result := by
  have hlegible : ∀ records, (readPayload twinBlocks).toOption = some records →
      (Input.mk (Settings.style {}) records).Legible := by decide +kernel
  refine ⟨hlegible, fun hends => ?_⟩
  have hne : (outputOf {} twinBlocks).map (·.code (Settings.style {}).undocumented) ≠
      (outputOf (Settings.undocumented {}) twinBlocks).map (·.code (Settings.style {}).undocumented) := by
    decide +kernel
  have hsome : (outputOf {} twinBlocks).isSome = true := by decide +kernel
  have hsome' : (outputOf (Settings.undocumented {}) twinBlocks).isSome = true := by decide +kernel
  obtain ⟨o, ho⟩ := Option.isSome_iff_exists.1 hsome
  obtain ⟨o', ho'⟩ := Option.isSome_iff_exists.1 hsome'
  obtain ⟨r, hr, hcode⟩ := generate_code ho
  obtain ⟨r', hr', hcode'⟩ := generate_code ho'
  rw [hr, hr'] at hends
  cases hends with
  | ok h =>
    obtain ⟨records, s, t, hp, hs, hrun⟩ := outputOf_eq_some ho
    have hplain := withoutComments_code (hlegible records (by rw [hp]; rfl)) hs hrun
    rw [hcode, hcode'] at h
    rw [ho, ho'] at hne
    exact hne (congrArg some (hplain.symm.trans h))

end Generation

end SchemaDecl

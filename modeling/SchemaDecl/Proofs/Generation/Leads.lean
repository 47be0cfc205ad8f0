import SchemaDecl.Proofs.Generation.Faultless
import SchemaDecl.Proofs.Generation.Parallel
import SchemaDecl.Settings.Check

/-!
# Leads of names

All names of declarations begin with the lead. If there is one and it does not begin with a digit, every name
is usable, whatever the lead is. So two runs over one document with such leads make the same choices, and come
to names that differ in the lead alone. A lead that begins with a digit makes every name unusable.
-/

namespace SchemaDecl

/-- The two names are one but for their leads. -/
def Exchanged (p q : String) (a b : String) : Prop := ∃ base, a = p ++ base ∧ b = q ++ base

variable {p q a b : String} {as bs : List String}

theorem biUnique_exchanged (p q : String) : Relator.BiUnique (Exchanged p q) := by
  constructor
  · rintro _ _ _ ⟨base, rfl, rfl⟩ ⟨base', rfl, h⟩
    rw [(String.append_right_inj q).1 h]
  · rintro _ _ _ ⟨base, rfl, rfl⟩ ⟨base', h, rfl⟩
    rw [(String.append_right_inj p).1 h]

theorem forall₂_exchanged (h : List.Forall₂ (Exchanged p q) as bs) :
    ∃ bases : List String, as = bases.map (p ++ ·) ∧ bs = bases.map (q ++ ·) := by
  induction h with
  | nil => exact ⟨[], rfl, rfl⟩
  | cons h _ ih =>
    obtain ⟨base, rfl, rfl⟩ := h
    obtain ⟨bases, rfl, rfl⟩ := ih
    exact ⟨base :: bases, rfl, rfl⟩

theorem exchanged_map (p q : String) (bases : List String) :
    List.Forall₂ (Exchanged p q) (bases.map (p ++ ·)) (bases.map (q ++ ·)) := by
  induction bases with
  | nil => exact .nil
  | cons base rest ih => exact .cons ⟨base, rfl, rfl⟩ ih

theorem append_lt_append (p a b : String) : p ++ a < p ++ b ↔ a < b := by
  rw [String.lt_iff, String.lt_iff, String.toList_append, String.toList_append]
  induction p.toList with
  | nil => rfl
  | cons c cs ih => rw [List.cons_append, List.cons_append, List.cons_lt_cons_self, ih]

theorem sorted_map_append (p : String) (names : List String) :
    Text.sorted (names.map (p ++ ·)) = (Text.sorted names).map (p ++ ·) := by
  refine (List.map_mergeSort fun a _ b _ => ?_).symm
  simp only [append_lt_append]

theorem forall₂_sorted (h : List.Forall₂ (Exchanged p q) as bs) :
    List.Forall₂ (Exchanged p q) (Text.sorted as) (Text.sorted bs) := by
  obtain ⟨bases, rfl, rfl⟩ := forall₂_exchanged h
  rw [sorted_map_append, sorted_map_append]
  exact exchanged_map p q (Text.sorted bases)

section BiUnique

variable {related : String → String → Prop} (hu : Relator.BiUnique related)

include hu

theorem forall₂_withName (h : List.Forall₂ related as bs) (hab : related a b) :
    List.Forall₂ related (Dependencies.withName as a) (Dependencies.withName bs b) := by
  have hmem : a ∈ as ↔ b ∈ bs := List.rel_mem hu hab h
  unfold Dependencies.withName
  by_cases ha : a ∈ as
  · rw [if_pos ha, if_pos (hmem.1 ha)]
    exact h
  · rw [if_neg ha, if_neg (mt hmem.2 ha)]
    exact List.rel_append h (.cons hab .nil)

theorem forall₂_foldl_withName {more more' : List String} (hm : List.Forall₂ related more more')
    (h : List.Forall₂ related as bs) :
    List.Forall₂ related (more.foldl Dependencies.withName as) (more'.foldl Dependencies.withName bs) := by
  induction hm generalizing as bs with
  | nil => exact h
  | cons hab _ ih => exact ih (forall₂_withName hu h hab)

end BiUnique

theorem Table.names_put {α : Type} (name : String) (value : α) (table : Table α) :
    Table.names (Table.put name value table) = Dependencies.withName (Table.names table) name := by
  unfold Dependencies.withName
  split
  next hm => exact Table.names_put_of_mem hm value
  next hm =>
    rw [Table.put_of_not_mem hm, Table.names, List.map_append]
    rfl

theorem Dependencies.get_track (d : Dependencies) (category other : Category) (names : List String) :
    (d.track category names).get other =
      if category = other then names.foldl Dependencies.withName (d.get other) else d.get other := by
  cases category <;> cases other <;> rfl

theorem biUnique_alike (category : Category) (p q : String) : Relator.BiUnique (category.Alike (Exchanged p q)) := by
  cases category with
  | javascript => exact ⟨fun _ _ _ h h' => h.trans h'.symm, fun _ _ _ h h' => h.symm.trans h'⟩
  | _ => exact biUnique_exchanged p q

/-- There is a lead, and it does not begin with a digit. -/
def SafeLead (lead : String) : Prop := lead ≠ "" ∧ Naming.startsWithDigit lead = false

theorem SafeLead.isUsableName {lead : String} (h : SafeLead lead) (uid : String) :
    Naming.isUsableName (Naming.declare lead uid) = true := by
  rw [Naming.isUsableName, Naming.startsWithDigit_declare, if_neg h.1, h.2]
  rfl

namespace Generation

/-- The names in the two states differ in their leads; what was skipped and reported is the same. -/
structure State.Exchanged (p q : String) (s s' : State) : Prop where
  globals : List.Forall₂ (SchemaDecl.Exchanged p q) (Table.names s.globals) (Table.names s'.globals)
  contentTypes : List.Forall₂ (SchemaDecl.Exchanged p q) s.contentTypes s'.contentTypes
  used : ∀ category : Category, List.Forall₂ (category.Alike (SchemaDecl.Exchanged p q))
    (s.dependencies.get category) (s'.dependencies.get category)
  skippedFields : s'.skippedFields = s.skippedFields
  skippedBlocks : s'.skippedBlocks = s.skippedBlocks
  warnings : s'.warnings = s.warnings
  events : s'.events = s.events

structure Metadata.Exchanged (p q : String) (m m' : Metadata) : Prop where
  names : List.Forall₂ (SchemaDecl.Exchanged p q) m.names m'.names
  definitions : List.Forall₂ (SchemaDecl.Exchanged p q) (Table.names m.definitions) (Table.names m'.definitions)
  javascript : m'.javascript = m.javascript
  contentstack : List.Forall₂ (SchemaDecl.Exchanged p q) m.contentstack m'.contentstack
  globalFields : List.Forall₂ (SchemaDecl.Exchanged p q) m.globalFields m'.globalFields
  contentTypes : List.Forall₂ (SchemaDecl.Exchanged p q) m.contentTypes m'.contentTypes
  skippedFields : m'.skippedFields = m.skippedFields
  skippedBlocks : m'.skippedBlocks = m.skippedBlocks

namespace State.Exchanged

variable {s s' : State} {name name' : String}

theorem after_skip (h : s.Exchanged p q s') (place : SkipPlace) (cause : SkipCause) (uid path : Json) :
    (s.after (skip place cause uid path)).Exchanged p q (s'.after (skip place cause uid path)) := by
  unfold skip
  rw [after_modify, after_modify]
  cases place <;> exact ⟨h.globals, h.contentTypes, h.used, by simp [h.skippedFields], by simp [h.skippedBlocks],
    by simp [h.warnings], by simp [h.events]⟩

theorem after_refuse (h : s.Exchanged p q s') (target : Json) :
    (s.after (refuse target)).Exchanged p q (s'.after (refuse target)) := by
  have hrefuse : ∀ s : State, ∃ refusedBy, s.after (refuse target) = { s with refusedBy } := by
    intro s
    unfold refuse
    rw [after_modify]
    split
    · split
      · exact ⟨s.refusedBy, rfl⟩
      · exact ⟨_, rfl⟩
    · exact ⟨s.refusedBy, rfl⟩
  obtain ⟨refusedBy, hs⟩ := hrefuse s
  obtain ⟨refusedBy', hs'⟩ := hrefuse s'
  rw [hs, hs']
  exact ⟨h.globals, h.contentTypes, h.used, h.skippedFields, h.skippedBlocks, h.warnings, h.events⟩

theorem after_track (h : s.Exchanged p q s') (category : Category) {used used' : List String}
    (hused : List.Forall₂ (category.Alike (SchemaDecl.Exchanged p q)) used used') :
    (s.after (track category used)).Exchanged p q (s'.after (track category used')) := by
  refine ⟨h.globals, h.contentTypes, fun other => ?_, h.skippedFields, h.skippedBlocks, h.warnings, h.events⟩
  change List.Forall₂ _ ((s.dependencies.track category used).get other)
    ((s'.dependencies.track category used').get other)
  rw [Dependencies.get_track, Dependencies.get_track]
  by_cases hc : category = other
  · subst hc
    rw [if_pos rfl, if_pos rfl]
    exact forall₂_foldl_withName (biUnique_alike category p q) hused (h.used category)
  · rw [if_neg hc, if_neg hc]
    exact h.used other

theorem put (h : s.Exchanged p q s') (hname : SchemaDecl.Exchanged p q name name') (d d' : Option Declaration)
    (scope scope' : List BlockUnion) :
    State.Exchanged p q { s with globals := Table.put name d s.globals, scope }
      { s' with globals := Table.put name' d' s'.globals, scope := scope' } := by
  refine ⟨?_, h.contentTypes, h.used, h.skippedFields, h.skippedBlocks, h.warnings, h.events⟩
  rw [Table.names_put, Table.names_put]
  exact forall₂_withName (biUnique_exchanged p q) h.globals hname

theorem isDeclared (h : s.Exchanged p q s') (hname : SchemaDecl.Exchanged p q name name') :
    s'.isDeclared name' = s.isDeclared name := by
  rw [Bool.eq_iff_iff, isDeclared_iff, isDeclared_iff]
  exact (List.rel_mem (biUnique_exchanged p q) hname h.globals).symm

theorem holding (h : s.Exchanged p q s') {w w' : Store} (hw : w.globals = s.globals)
    (hw' : w'.globals = s'.globals) : (s.holding w).Exchanged p q (s'.holding w') := by
  refine ⟨?_, h.contentTypes, h.used, h.skippedFields, h.skippedBlocks, h.warnings, h.events⟩
  change List.Forall₂ _ (Table.names w.globals) (Table.names w'.globals)
  rw [hw, hw']
  exact h.globals

end State.Exchanged

variable {style style' : Style} {records : List Record} {s : State}

theorem declare?_exchanged (h : SafeLead p) (h' : SafeLead q) {target : Json} {name : String}
    (hn : Naming.declare? p target = .ok name) :
    ∃ name', Naming.declare? q target = .ok name' ∧ Exchanged p q name name' ∧
      Naming.isUsableName name' = Naming.isUsableName name := by
  obtain ⟨uid, rfl, rfl⟩ := Naming.declare?_ok hn
  refine ⟨Naming.declare q uid, rfl, ⟨Naming.pascalCase uid, rfl, rfl⟩, ?_⟩
  rw [h.isUsableName, h'.isUsableName]

theorem recordName_safe {input : Input} {r : Record} {uid : String} (h : SafeLead input.style.lead)
    (hu : r.uid = .text uid) (s : State) :
    recordName input r s = (.ok (uid, Naming.declare input.style.lead uid), s) := by
  rw [recordName_text hu, if_pos (h.isUsableName uid)]

/-- Two passes over one well-typed document in styles with safe leads. -/
def exchange (hw : (Input.mk style records).WellTyped) (h : SafeLead style.lead) (h' : SafeLead style'.lead) :
    Parallel ⟨style, records⟩ ⟨style', records⟩ where
  states := State.Exchanged style.lead style'.lead
  names := Exchanged style.lead style'.lead
  types _ _ := True
  declarations _ _ := True
  targets _ := True
  lookups _ _ := trivial
  record? _ := rfl
  declare? hn := declare?_exchanged h h' hn
  builtin b := ⟨b.baseName, rfl, rfl⟩
  isDeclared hs hn := hs.isDeclared hn
  skip place cause uid path hs := hs.after_skip place cause uid path
  refuse target hs := hs.after_refuse target
  track category hused hs := hs.after_track category hused
  richText hs :=
    ⟨hs.globals, hs.contentTypes, hs.used, hs.skippedFields, hs.skippedBlocks, hs.warnings, hs.events⟩
  opened hs hn := hs.put hn none none [] []
  closed _ _ hn ht _ := ht.put hn _ _ _ _
  named {r _ s' _ _ _} hr hs hn := by
    obtain ⟨uid, hu⟩ := hw.uids r hr
    rw [recordName_safe h hu] at hn
    cases hn
    exact ⟨_, s', recordName_safe h' hu s', ⟨_, rfl, rfl⟩, hs⟩
  entered _ hs hn :=
    ⟨hs.globals, List.rel_append hs.contentTypes (.cons hn .nil), hs.used, hs.skippedFields, hs.skippedBlocks,
      hs.warnings, hs.events⟩
  left _ ht :=
    ⟨ht.globals, ht.contentTypes, ht.used, ht.skippedFields, ht.skippedBlocks, ht.warnings, ht.events⟩
  contentType _ _ _ _ := trivial
  refl _ := trivial
  declared _ := trivial
  references _ := trivial
  object _ := trivial
  repeated _ _ _ _ _ := trivial
  union {field blocks blocks' s s' name t} hf hs hb hn := by
    obtain ⟨uid, huid⟩ := Attributes.WellTyped.uid (hw.parts _ hf)
    rw [huid] at hn ⊢
    have hkeys : (signatureOf style blocks).uids = (signatureOf style' blocks').uids := uids_eq_of_alike hb
    cases hk : (signatureOf style blocks).uids.mapM asKey with
    | error e =>
      rw [unionName_keys hk] at hn
      cases hn
    | ok keys =>
      obtain ⟨_, w, hname, hg⟩ := unionName_text uid hk s
      obtain ⟨name', w', hname', hg'⟩ := unionName_text uid (hkeys ▸ hk) s'
      rw [hname] at hn
      cases hn
      exact ⟨name', _, hname', trivial, hs.holding hg hg'⟩

theorem State.Exchanged.summarize {s s' : State} (h : s.Exchanged p q s') :
    s.summarize.Exchanged p q s'.summarize := by
  refine ⟨h.globals, h.contentTypes, h.used, h.skippedFields, h.skippedBlocks, h.warnings, ?_⟩
  rw [State.summarize, State.summarize, h.events, h.skippedFields, h.skippedBlocks]

theorem State.Exchanged.metadata {s s' : State} (h : s.Exchanged p q s')
    (hs : Table.names (s.metadata style).definitions = Table.names s.globals)
    (hs' : Table.names (s'.metadata style').definitions = Table.names s'.globals) :
    (s.metadata style).Exchanged p q (s'.metadata style') where
  names := h.contentTypes
  definitions := by
    rw [hs, hs']
    exact h.globals
  javascript := by
    have hused : List.Forall₂ Eq s.dependencies.javascript s'.dependencies.javascript := h.used .javascript
    rw [List.forall₂_eq_eq_eq] at hused
    exact congrArg Text.sorted hused.symm
  contentstack := forall₂_sorted (h.used .contentstack)
  globalFields := forall₂_sorted (h.used .globalFields)
  contentTypes := forall₂_sorted (h.used .contentTypes)
  skippedFields := h.skippedFields
  skippedBlocks := h.skippedBlocks

theorem runFrom_safe (hw : (Input.mk style records).WellTyped) (h : SafeLead style.lead) (s : State)
    (hs : s.unusable = []) :
    ∃ ds t, visitRecords ⟨style, records⟩ records s = (.ok ds, t) ∧
      runFrom ⟨style, records⟩ s = (.ok (t.summarize.output style ds), t.summarize) := by
  obtain ⟨steps, ds, t, hp⟩ := hw.passes s
  have hunusable : t.unusable = [] := by
    rw [hp.unusable_eq rfl, hs, List.nil_append, List.filterMap_eq_nil_iff]
    intro r hr
    obtain ⟨uid, hu⟩ := hw.uids r hr
    rw [unusable?, hu]
    exact if_pos (h.isUsableName uid)
  refine ⟨ds, t, hp.visit_eq, ?_⟩
  rw [runFrom_eq hp.visit_eq, hunusable]
  rfl

theorem run_exchanged (hw : ∀ r ∈ records, r.WellTyped) (h : SafeLead style.lead) (h' : SafeLead style'.lead) :
    ∃ r r', (run style records).result = .ok r ∧ (run style' records).result = .ok r' ∧
      (run style' records).events = (run style records).events ∧ r'.warnings = r.warnings ∧
      r.metadata.Exchanged style.lead style'.lead r'.metadata := by
  have hw₁ := Input.WellTyped.of_records style hw
  have hw₂ := Input.WellTyped.of_records style' hw
  have hs₁ := hw₁.start_eq
  have hs₂ := hw₂.start_eq
  obtain ⟨ds, t, hv, hr⟩ := runFrom_safe hw₁ h { richTextUsed := records.any allowsRichText } rfl
  obtain ⟨ds', t', hv', hr'⟩ := runFrom_safe hw₂ h' { richTextUsed := records.any allowsRichText } rfl
  have hempty : State.Exchanged style.lead style'.lead { richTextUsed := records.any allowsRichText }
      { richTextUsed := records.any allowsRichText } :=
    ⟨.nil, .nil, fun category => by cases category <;> exact .nil, rfl, rfl, rfl, rfl⟩
  obtain ⟨_, _, hv₂, -, ht⟩ :=
    (exchange hw₁ h h').follows_records records (List.Subset.refl _) _ _ _ _ hempty hv
  obtain ⟨-, rfl⟩ := Prod.mk.inj (hv'.symm.trans hv₂)
  have hmetadata := ht.summarize.metadata (names_definitions hs₁ hr) (names_definitions hs₂ hr')
  rw [run_eq hs₁, run_eq hs₂, hr, hr']
  exact ⟨_, _, rfl, rfl, ht.summarize.events, ht.warnings, hmetadata⟩

/-- The run has failed because of names that begin with a digit. -/
def Outcome.Unusable (o : Outcome) : Prop := ∃ vs, o.result = .error (.unusableNames vs)

theorem run_unusable (hw : ∀ r ∈ records, r.WellTyped) (hne : records ≠ [])
    (h : Naming.startsWithDigit style.lead = true) : (run style records).Unusable := by
  have hlead : style.lead ≠ "" := by
    rintro he
    rw [he] at h
    cases h
  obtain ⟨hok, hfails⟩ := run_wellTyped (Input.WellTyped.of_records style hw)
  obtain ⟨r, hr⟩ := List.exists_mem_of_ne_nil records hne
  obtain ⟨uid, hu⟩ := (hw r hr).uid
  cases he : (run style records).result with
  | ok result =>
    have hnone := hok.1 (by rw [he]; rfl) r hr
    refine absurd ⟨uid, hu, ?_⟩ hnone
    rw [Naming.startsWithDigit_declare, if_neg hlead]
    exact h
  | error failure =>
    obtain ⟨vs, rfl, -⟩ := hfails failure he
    exact ⟨vs, he⟩

variable {settings settings' : Settings} {payload : Json}

theorem lead_of_text {lead : String} (h : settings.namePrefix = .text lead) (hne : lead ≠ "") :
    settings.lead = lead := by
  rw [Settings.lead, h, if_pos (by simpa [Json.truthy] using hne)]
  rfl

theorem mem_check {lead language : String} (h : settings.namePrefix = .text lead) (hne : lead ≠ "")
    (hl : Text.lower language = "typescript") :
    .startsWithDigit lead ∈ settings.check language ↔ Naming.startsWithDigit lead = true := by
  unfold Settings.check
  rw [h]
  dsimp only
  rw [if_pos (by simp [hl, hne])]
  split
  next hd => simp [hd]
  next hd => split <;> simp [hd]

theorem generate_exchanged (hp : isPayload payload = true) (h : SafeLead settings.lead)
    (h' : SafeLead settings'.lead) :
    ∃ r r', (generate settings payload).result = .ok r ∧ (generate settings' payload).result = .ok r' ∧
      (generate settings' payload).events = (generate settings payload).events ∧ r'.warnings = r.warnings ∧
      r.metadata.Exchanged settings.lead settings'.lead r'.metadata := by
  obtain ⟨records, hr, hw⟩ := readPayload_wellTyped hp
  rw [generate_eq hr, generate_eq hr]
  exact run_exchanged hw h h'

theorem generate_unusable (hp : isPayload payload = true) (hne : readPayload payload ≠ .ok [])
    (h : Naming.startsWithDigit settings.lead = true) : (generate settings payload).Unusable := by
  obtain ⟨records, hr, hw⟩ := readPayload_wellTyped hp
  rw [generate_eq hr]
  exact run_unusable hw (fun he => hne (he ▸ hr)) h

def barePage : Json := .list [.object [("uid", .text "page")]]

/-- With leads that do not begin with a digit, two runs over a well-typed export both give code. The reporter
receives the same events, the warnings and skips are the same, and all names that are known of the runs differ
in the lead alone, in the same order. With a lead that begins with a digit every run over a well-typed export
with a record fails, for its unusable names. So the check of a prefix warns of a digit exactly if every such
run fails. -/
theorem generate_leads :
    (∀ payload, isPayload payload = true → ∀ settings settings' : Settings, SafeLead settings.lead →
      SafeLead settings'.lead → ∃ r r', (generate settings payload).result = .ok r ∧
        (generate settings' payload).result = .ok r' ∧
        (generate settings' payload).events = (generate settings payload).events ∧ r'.warnings = r.warnings ∧
        r.metadata.Exchanged settings.lead settings'.lead r'.metadata) ∧
    (∀ payload, isPayload payload = true → readPayload payload ≠ .ok [] → ∀ settings : Settings,
      Naming.startsWithDigit settings.lead = true → (generate settings payload).Unusable) ∧
    ∀ (settings : Settings) (lead language : String), settings.namePrefix = .text lead → lead ≠ "" →
      Text.lower language = "typescript" →
      (.startsWithDigit lead ∈ settings.check language ↔
        ∀ payload, isPayload payload = true → readPayload payload ≠ .ok [] →
          (generate settings payload).Unusable) := by
  refine ⟨fun _ hp _ _ h h' => generate_exchanged hp h h', fun _ hp hne _ h => generate_unusable hp hne h, ?_⟩
  intro settings lead language hprefix hne hl
  have hlead : settings.lead = lead := lead_of_text hprefix hne
  rw [mem_check hprefix hne hl, ← hlead]
  constructor
  · intro h payload hp hrecords
    exact generate_unusable hp hrecords h
  · intro h
    by_contra hd
    -- With a lead that is safe, a page without a schema comes through.
    have hsafe : SafeLead settings.lead := ⟨hlead ▸ hne, by simpa using hd⟩
    have hpage : isPayload barePage = true := by decide +kernel
    obtain ⟨r, -, hr, -⟩ := generate_exchanged hpage hsafe hsafe
    obtain ⟨vs, hvs⟩ := h barePage hpage (by simp [barePage, readPayload, readRecord, readSchema])
    rw [hr] at hvs
    cases hvs

def led (lead : String) : Settings := { namePrefix := .text lead }

theorem generate_leads_numberedDocument :
    ∃ r r', (generate (led "I") numberedDocument).result = .ok r ∧
      (generate (led "My") numberedDocument).result = .ok r' ∧
      Table.names r.metadata.definitions = ["I2Fa", "ISeo"] ∧
      Table.names r'.metadata.definitions = ["My2Fa", "MySeo"] ∧
      (generate (led "3") numberedDocument).Unusable ∧
      .startsWithDigit "3" ∈ (led "3").check "TypeScript" := by
  have hpayload : isPayload numberedDocument = true := by decide +kernel
  have hrecords : readPayload numberedDocument ≠ .ok [] := by
    have hlength : (readPayload numberedDocument).map List.length = .ok 3 := by decide +kernel
    intro he
    rw [he] at hlength
    cases hlength
  have hnames : (generate (led "I") numberedDocument).result.toOption.map
      (fun r => Table.names r.metadata.definitions) = some ["I2Fa", "ISeo"] := by decide +kernel
  obtain ⟨hsafe, hdigit, hcheck⟩ := generate_leads
  have hlead : SafeLead (led "I").lead := ⟨by decide, by decide +kernel⟩
  have hlead' : SafeLead (led "My").lead := ⟨by decide, by decide +kernel⟩
  obtain ⟨r, r', hr, hr', -, -, hm⟩ := hsafe numberedDocument hpayload (led "I") (led "My") hlead hlead'
  rw [hr] at hnames
  have hdefinitions : Table.names r.metadata.definitions = ["I2Fa", "ISeo"] := Option.some.inj hnames
  refine ⟨r, r', hr, hr', hdefinitions, ?_, ?_, ?_⟩
  · have hexchanged := hm.definitions
    rw [hdefinitions] at hexchanged
    have hnames' := exchanged_map "I" "My" ["2Fa", "Seo"]
    exact List.right_unique_forall₂' (biUnique_exchanged "I" "My").2 hexchanged hnames'
  · exact hdigit numberedDocument hpayload hrecords (led "3") (by decide +kernel)
  · refine (hcheck (led "3") "3" "TypeScript" rfl (by decide) (by decide +kernel)).2 ?_
    intro payload hp hne
    exact hdigit payload hp hne (led "3") (by decide +kernel)

end Generation

end SchemaDecl

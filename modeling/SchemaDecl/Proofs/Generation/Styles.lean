import SchemaDecl.Generation.Result
import SchemaDecl.Proofs.Generation.Simulation

/-!
# Passes in two styles

With one lead the style of a pass decides how declarations are written, and so which unions are one. It has
no influence on what is visited, skipped, taken note of or refused.
-/

namespace SchemaDecl

theorem Table.names_put_congr {α β : Type} {table : Table α} {table' : Table β} (name : String) (a : α)
    (b : β) (h : Table.names table = Table.names table') :
    Table.names (Table.put name a table) = Table.names (Table.put name b table') := by
  by_cases hm : name ∈ Table.names table
  · rw [Table.names_put_of_mem hm, Table.names_put_of_mem (h ▸ hm), h]
  · have hadd : ∀ {γ : Type} {t : Table γ} (c : γ), name ∉ Table.names t →
        Table.names (Table.put name c t) = Table.names t ++ [name] := by
      intro γ t c hc
      rw [Table.put_of_not_mem hc, Table.names, List.map_append]
      rfl
    rw [hadd a hm, hadd b (h ▸ hm), h]

namespace Generation

variable {input : Input} {style : Style} {s t : State}

/-- Every field that is visited as one of blocks has a text for a uid. -/
def Input.NamesBlocks (input : Input) : Prop :=
  ∀ field, .field field ∈ input.parts → Opens field.attrs .blocks → ∃ uid, field.attrs.uid = .text uid

theorem uids_eq_of_alike {types : TypeExpr → TypeExpr → Prop} {style style' : Style} {blocks blocks' : Blocks}
    (h : List.Forall₂ (BlockAlike types) blocks blocks') :
    (signatureOf style blocks).uids = (signatureOf style' blocks').uids := by
  induction h with
  | nil => rfl
  | cons hb _ ih => exact congrArg₂ List.cons hb.1 ih

theorem unionName_text (uid : String) {blocks : Blocks} {keys : List Json}
    (hk : (signatureOf style blocks).uids.mapM asKey = .ok keys) (s : State) :
    ∃ name w, unionName style (.text uid) blocks s = (.ok name, s.holding w) ∧
      w.globals = s.store.globals := by
  rw [unionName_apply, hk]
  cases hf : s.findUnion? (signatureOf style blocks) with
  | some name => exact ⟨name, s.store, rfl, rfl⟩
  | none => exact ⟨_, (s.joined style blocks (Naming.declare style.lead uid)).store, rfl, rfl⟩

theorem unionName_keys {uid : Json} {blocks : Blocks} {e : Fault}
    (hk : (signatureOf style blocks).uids.mapM asKey = .error e) (s : State) :
    unionName style uid blocks s = (.error e, s) := by rw [unionName_apply, hk]

/-- With one lead, two passes announce global fields of the same names, whatever becomes of these. -/
def sameNames (hlead : style.lead = input.style.lead) (hblocks : input.NamesBlocks) :
    Simulation input style where
  stores v w := Table.names w.globals = Table.names v.globals
  types _ _ := True
  declarations _ _ := True
  met _ := True
  lead := hlead
  names h := h
  alone h := h
  inScope _ h := h
  announced name h := Table.names_put_congr name none none h
  completed _ _ h _ := Table.names_put_congr _ _ _ h
  contentType _ _ _ _ := trivial
  refl _ := trivial
  object _ := trivial
  repeated _ _ _ := trivial
  union {field blocks blocks' s w result t} hf ho hs hb hu _ := by
    obtain ⟨uid, huid⟩ := hblocks field hf ho
    rw [huid] at hu ⊢
    have hkeys : (signatureOf input.style blocks).uids = (signatureOf style blocks').uids := uids_eq_of_alike hb
    cases hk : (signatureOf input.style blocks).uids.mapM asKey with
    | error e =>
      rw [unionName_keys hk] at hu
      cases hu
      exact ⟨_, w, unionName_keys (hkeys ▸ hk) _, .fault e, hs⟩
    | ok keys =>
      obtain ⟨name, v, hname, hv⟩ := unionName_text uid hk s
      obtain ⟨name', w', hname', hw'⟩ := unionName_text uid (hkeys ▸ hk) (s.holding w)
      rw [hname] at hu
      cases hu
      refine ⟨_, w', hname', .ok trivial, ?_⟩
      change Table.names w'.globals = Table.names v.globals
      rw [hv, hw']
      exact hs

def Metadata.Alike (m m' : Metadata) : Prop :=
  m' = { m with definitions := m'.definitions } ∧ Table.names m'.definitions = Table.names m.definitions

def Result.Alike (r r' : Result) : Prop := r'.warnings = r.warnings ∧ r.metadata.Alike r'.metadata

/-- The reporter received the same events, and there are like results or the same failure. -/
def Outcome.Alike (o o' : Outcome) : Prop :=
  o'.events = o.events ∧ Matches Result.Alike o.result o'.result

theorem names_definitions {o : Output} (hs : start input = .ok s) (hr : runFrom input s = (.ok o, t)) :
    Table.names (t.metadata input.style).definitions = Table.names t.globals := by
  obtain ⟨_, _, hp, -⟩ := runFrom_ok hr
  obtain ⟨hentries, -⟩ := run_built hs hr hp
  rw [State.metadata, declared_of_entries hentries, names_of_entries hentries, Table.names, List.map_map,
    List.map_map]
  rfl

/-- The runs in both styles end in states that differ in what they declare at most, and have the same end. -/
theorem runFrom_styles (hlead : style.lead = input.style.lead) (hblocks : input.NamesBlocks) (s : State) :
    ∃ w, (runFrom (input.styled style) s).2 = (runFrom input s).2.holding w ∧
      Table.names w.globals = Table.names (runFrom input s).2.globals ∧
      Matches (fun _ _ => True) (runFrom input s).1 (runFrom (input.styled style) s).1 := by
  obtain ⟨steps, result, t, hp⟩ := passes_end input input.records 0 s
  obtain ⟨_, result', w, hp', hends, hw⟩ :=
    (sameNames hlead hblocks).passes (w := s.store) hp (List.Subset.refl _) (fun _ _ => trivial) rfl
  have hvisit : visitRecords (input.styled style) input.records s = (result', t.holding w) := hp'.visit_eq
  cases hends with
  | fault e =>
    rw [runFrom_fault hp.visit_eq, runFrom_fault hvisit]
    exact ⟨w, rfl, hw, .fault _⟩
  | ok =>
    rw [runFrom_eq hp.visit_eq, runFrom_eq hvisit, show (t.holding w).unusable = t.unusable from rfl]
    split
    · exact ⟨w, rfl, hw, .ok trivial⟩
    · exact ⟨w, rfl, hw, .fault _⟩

theorem run_eq {records : List Record} (hs : start ⟨style, records⟩ = .ok s) :
    run style records =
      ⟨(runFrom ⟨style, records⟩ s).1.map fun o =>
        ⟨o.code style, (runFrom ⟨style, records⟩ s).2.warnings, (runFrom ⟨style, records⟩ s).2.metadata style⟩,
        (runFrom ⟨style, records⟩ s).2.events⟩ := by
  unfold run
  simp only [hs]

theorem run_styles {style' : Style} {records : List Record} (hlead : style'.lead = style.lead)
    (hblocks : (Input.mk style records).NamesBlocks) : (run style records).Alike (run style' records) := by
  have hstart : start ⟨style', records⟩ = start ⟨style, records⟩ := rfl
  cases hs : start ⟨style, records⟩ with
  | error e =>
    unfold run
    simp only [hstart, hs]
    exact ⟨rfl, .fault _⟩
  | ok s =>
    obtain ⟨w, hstate, hnames, hends⟩ := @runFrom_styles ⟨style, records⟩ style' hlead hblocks s
    rw [run_eq hs, run_eq (hstart.trans hs)]
    rw [Input.styled] at hstate hends
    rcases hr : runFrom ⟨style, records⟩ s with ⟨r, t⟩
    rcases hr' : runFrom ⟨style', records⟩ s with ⟨r', t'⟩
    rw [hr] at hstate hnames hends
    rw [hr'] at hstate hends
    subst hstate
    refine ⟨rfl, ?_⟩
    cases hends with
    | fault f => exact .fault f
    | ok =>
      refine .ok ⟨rfl, rfl, ?_⟩
      rw [names_definitions hs hr, names_definitions (hstart.trans hs) hr']
      exact hnames

/-- Two passes over one document in settings with the same prefix end alike, if all fields of blocks have
texts for uids. The reporter receives the same events, they fail in the same way, and if they do not, then
all that is known of them is the same, apart from the code and the texts of global fields. -/
theorem generate_styles {settings settings' : Settings} {payload : Json}
    (hlead : settings'.lead = settings.lead)
    (hblocks : ∀ records, readPayload payload = .ok records →
      (Input.mk settings.style records).NamesBlocks) :
    (generate settings payload).Alike (generate settings' payload) := by
  unfold generate
  cases hp : readPayload payload with
  | error e => exact ⟨rfl, .fault _⟩
  | ok records => exact run_styles hlead (hblocks records hp)

def textDocument (uid label : String) : Json :=
  .object [("uid", .text uid), ("data_type", .text "text"), ("display_name", .text label)]

def blocksDocument (uid : Json) (label : String) : Json :=
  .object [("uid", uid), ("data_type", .text "blocks"),
    ("blocks", .list [.object [("uid", .text "hero"), ("schema", .list [textDocument "title" label])]])]

def pageDocument (fields : List Json) : Json := .list [.object [("uid", .text "page"), ("schema", .list fields)]]

theorem generate_styles_page :
    (generate {} (pageDocument [blocksDocument (.text "sections") "A"])).Alike
      (generate { documentation := .bool false, systemFields := .bool true }
        (pageDocument [blocksDocument (.text "sections") "A"])) := by
  refine generate_styles rfl fun records hr field hf _ => ?_
  have huids : ((readPayload (pageDocument [blocksDocument (.text "sections") "A"])).toOption.getD []).flatMap
      (fun r => (fieldsParts r.fields).filterMap fun
        | .field f => some f.attrs.uid
        | .block _ => none) = [.text "sections", .text "title"] := by decide +kernel
  rw [hr] at huids
  have hmem : field.attrs.uid ∈ [Json.text "sections", .text "title"] := by
    obtain ⟨r, hr, hf⟩ := List.mem_flatMap.1 hf
    rw [← huids]
    exact List.mem_flatMap.2 ⟨r, hr, List.mem_filterMap.2 ⟨_, hf, rfl⟩⟩
  rcases List.mem_cons.1 hmem with huid | hmem
  · exact ⟨_, huid⟩
  · exact ⟨_, List.mem_singleton.1 hmem⟩

/-- Two fields of blocks, one with no uid, that differ in a comment. -/
def unnamedBlocks : Json := pageDocument [blocksDocument (.text "sections") "A", blocksDocument .null "B"]

/-- Without comments the unions of the two fields are one, and it needs no second name. With comments there
is none to be had. -/
theorem unnamedBlocks_not_alike :
    ¬ (generate {} unnamedBlocks).Alike (generate { documentation := .bool false } unnamedBlocks) := by
  have hdocumented : (generate {} unnamedBlocks).result.isOk = false := by decide +kernel
  have hplain : (generate { documentation := .bool false } unnamedBlocks).result.isOk = true := by
    decide +kernel
  rintro ⟨-, hends⟩
  rw [hends.isOk_eq, hplain] at hdocumented
  cases hdocumented

end Generation

end SchemaDecl

import SchemaDecl.Proofs.Declaration.Nesting
import SchemaDecl.Proofs.Generation.Faultless
import SchemaDecl.Proofs.Generation.Standards
import SchemaDecl.Proofs.Generation.Undocumented

/-!
# Declarations apart

The code of a pass consists of declarations with empty lines between them. If what the document adds to the
code as it stands is clean, then there are no other empty lines, so that the declarations can be told apart
by them, and the brackets match in each of the declarations.
-/

namespace SchemaDecl

open Text (Neat chunks)

/-- The uid, the comment and the limit of a field bring no brackets and no line breaks, and the texts among
its choices no brackets. -/
structure Attributes.Clean (a : Attributes) : Prop where
  uid : ∃ s, a.uid = .text s ∧ Bare s
  label : Bare a.displayName.display
  count : Bare a.maxInstance.display
  choices : ∀ values ∈ a.literals?, ∀ value ∈ values, value.unbracketed = true

instance (value : Json) : Decidable (∃ s, value = .text s ∧ Bare s) :=
  match value with
  | .text s => decidable_of_iff (Bare s) (by simp)
  | .null | .bool _ | .int _ | .float _ | .list _ | .object _ => isFalse (by simp)

instance (a : Attributes) : Decidable a.Clean :=
  decidable_of_iff ((∃ s, a.uid = .text s ∧ Bare s) ∧ Bare a.displayName.display ∧ Bare a.maxInstance.display ∧
      ∀ values ∈ a.literals?, ∀ value ∈ values, value.unbracketed = true)
    ⟨fun ⟨hu, hl, hc, hv⟩ => ⟨hu, hl, hc, hv⟩, fun ⟨hu, hl, hc, hv⟩ => ⟨hu, hl, hc, hv⟩⟩

def Declaration.texts (style : Style) (d : Declaration) : List String :=
  d.unions.map (BlockUnion.text style) ++ [d.main.text style]

namespace Generation

def Part.Clean : Part → Prop
  | .field f => f.attrs.Clean
  | .block b => ∃ s, b.uid = .text s ∧ Bare s

instance : DecidablePred Part.Clean
  | .field f => inferInstanceAs (Decidable f.attrs.Clean)
  | .block b => inferInstanceAs (Decidable (∃ s, b.uid = .text s ∧ Bare s))

structure Input.Clean (input : Input) : Prop where
  lead : Bare input.style.lead
  parts : ∀ part ∈ input.parts, part.Clean
  descriptions : ∀ r ∈ input.records, Bare r.description.display

instance (input : Input) : Decidable input.Clean :=
  decidable_of_iff (Bare input.style.lead ∧ (∀ part ∈ input.parts, part.Clean) ∧
      ∀ r ∈ input.records, Bare r.description.display)
    ⟨fun ⟨hl, hp, hd⟩ => ⟨hl, hp, hd⟩, fun ⟨hl, hp, hd⟩ => ⟨hl, hp, hd⟩⟩

variable {input : Input} {s t : State}

open TypeExpr (MembersClean membersClean_iff)

theorem repeated_clean {attrs : Attributes} {type : TypeExpr} (ha : attrs.Clean) (ht : type.Clean) :
    (type.repeated attrs.multiple attrs.maxInstance).Clean := by
  unfold TypeExpr.repeated
  split
  · exact ht
  · split <;> rw [TypeExpr.Clean]
    · exact ⟨ht, ha.count⟩
    · exact ht

theorem flat_clean {attrs : Attributes} {type : TypeExpr} (ha : attrs.Clean) (hlead : Bare input.style.lead)
    (h : FlatType input.style attrs type) : type.Clean := by
  cases h with
  | choices hv =>
    rw [TypeExpr.Clean]
    exact ha.choices _ hv
  | references hn =>
    rw [TypeExpr.Clean]
    intro name hm
    obtain ⟨target, htarget⟩ := hn name hm
    exact Naming.bare_declare? hlead htarget
  | _ => simp [TypeExpr.Clean]

theorem membersClean_of {members : List Member} (h : ∀ m ∈ members,
    ((∃ s, m.uid = .text s ∧ Bare s) ∧ Bare m.label.display) ∧ m.type.Clean) : MembersClean members := by
  rw [membersClean_iff]
  rintro ⟨uid, label, isOptional, isNullable, type⟩ hm
  obtain ⟨⟨huid, hlabel⟩, htype⟩ := h _ hm
  rw [TypeExpr.MemberClean]
  exact ⟨huid, hlabel, htype⟩

def cleanness (h : input.Clean) : Standard input where
  type _ := TypeExpr.Clean
  labels uid label := (∃ s, uid = .text s ∧ Bare s) ∧ Bare label.display
  uid uid := ∃ s, uid = .text s ∧ Bare s
  name := Bare
  description value := Bare value.display
  noted := id
  fallback := by simp [TypeExpr.Clean]
  declared hn := by rwa [TypeExpr.Clean]
  object hms := by
    rw [TypeExpr.Clean]
    exact membersClean_of hms
  repeated hf ht := repeated_clean (h.parts _ hf) ht
  flat hf ht _ := flat_clean (h.parts _ hf) h.lead ht
  member hf := ⟨Attributes.Clean.uid (h.parts _ hf), Attributes.Clean.label (h.parts _ hf)⟩
  block hb := h.parts _ hb
  named hn := Naming.bare_declare? h.lead hn
  placeholder hn := Naming.bare_placeholder hn
  extended hn he := he.bare hn
  described hr := h.descriptions _ hr
  undescribed := by decide

theorem Standard.DeclarationMet.neat {h : input.Clean} {b : Bool} {d : Declaration}
    (hd : (cleanness h).DeclarationMet b d) : ∀ s ∈ d.texts input.style, Neat s.toList := by
  refine List.forall_mem_append.2 ⟨List.forall_mem_map.2 fun u hu => ?_, List.forall_mem_singleton.2 ?_⟩
  · have hunion := hd.unions u hu
    exact BlockUnion.neat h.lead hunion.name hunion.nonempty hunion.blocks
  · exact Interface.neat h.lead hd.name hd.description (membersClean_of hd.members)

def Output.texts (style : Style) (o : Output) : List String :=
  o.prelude ++ (o.globals ++ o.contentTypes).flatMap (Declaration.texts style)

theorem joinParts_flatMap {α : Type} {texts : α → List String} (hne : ∀ item, texts item ≠ []) (items : List α) :
    joinParts (items.flatMap texts) = joinParts (items.map fun item => joinParts (texts item)) := by
  induction items with
  | nil => rfl
  | cons item rest ih =>
    cases rest with
    | nil => simp [joinParts]
    | cons next rest =>
      have hrest : (next :: rest).flatMap texts ≠ [] := by simp [hne]
      unfold joinParts at ih ⊢
      rw [List.flatMap_cons, String.intercalate_append_of_ne_nil (hne item) hrest, ih, List.map_cons, List.map_cons,
        List.map_cons, String.intercalate_cons_cons]

theorem Output.code_eq {style : Style} {o : Output} (hne : o.prelude ≠ []) :
    o.code style = joinParts (o.texts style) := by
  have hne' : ∀ d : Declaration, d.texts style ≠ [] := fun d => by simp [Declaration.texts]
  have hdeclarations := joinParts_flatMap hne' (o.globals ++ o.contentTypes)
  have hparts : o.parts style = o.prelude ++ (o.globals ++ o.contentTypes).map (Declaration.text style) := by
    rw [Output.parts, List.map_append, List.append_assoc]
  rw [Output.code, hparts, Output.texts]
  cases hd : o.globals ++ o.contentTypes with
  | nil => rfl
  | cons d ds =>
    rw [hd] at hdeclarations
    unfold joinParts at hdeclarations ⊢
    rw [String.intercalate_append_of_ne_nil hne (by simp),
      String.intercalate_append_of_ne_nil hne (by simp [Declaration.texts]), hdeclarations]
    rfl

theorem length_texts (style : Style) (o : Output) :
    (o.texts style).length = o.prelude.length + o.unions.length + o.globals.length + o.contentTypes.length := by
  have hdeclarations : ∀ ds : List Declaration, (ds.flatMap (Declaration.texts style)).length =
      (ds.flatMap Declaration.unions).length + ds.length := by
    intro ds
    induction ds with
    | nil => rfl
    | cons d ds ih =>
      rw [List.flatMap_cons, List.flatMap_cons, List.length_append, List.length_append, ih, List.length_cons,
        Declaration.texts, List.length_append, List.length_map, List.length_singleton]
      omega
  rw [Output.texts, List.length_append, hdeclarations, List.length_append, Output.unions]
  omega

theorem length_unions {o : Output} (hs : start input = .ok s) (hr : runFrom input s = (.ok o, t)) :
    o.unions.length = t.unions.length := by
  obtain ⟨steps, u, hp, -, rfl, -⟩ := runFrom_ok hr
  obtain ⟨hunites, -, -, -, hperm⟩ := run_leaves hs hr hp
  obtain ⟨richTextUsed, rfl⟩ := start_eq hs
  have hunions : u.summarize.unions = (firsts input.style steps).map (Meeting.entry input.style) := hunites.unions
  rw [Output.unions, hperm.length_eq, hunions, List.length_map, List.length_map]

theorem output_neat {o : Output} (h : input.Clean) (hs : start input = .ok s) (hr : runFrom input s = (.ok o, t)) :
    ∀ text ∈ o.texts input.style, Neat text.toList := by
  obtain ⟨steps, u, hp, -, rfl, ho⟩ := runFrom_ok hr
  obtain ⟨hds, -⟩ := output_met (cleanness h) hs hp
  refine List.forall_mem_append.2 ⟨?_, fun text hm => ?_⟩
  · rw [ho]
    exact Prelude.neat_select h.lead _
  · obtain ⟨d, hd, hm⟩ := List.mem_flatMap.1 hm
    rw [ho] at hd
    exact (hds d hd).neat text hm

/-- The code of a pass over a clean document is cut by its empty lines into exactly its declarations: the
builtin ones, the unions, the global fields that were built and the content types. In each of them the
brackets match, and none of its lines is blank. -/
theorem generate_chunks {settings : Settings} {payload : Json} {r : Result}
    (hp : ∀ records, readPayload payload = .ok records → (Input.mk settings.style records).Clean)
    (hr : (generate settings payload).result = .ok r) :
    ∃ records s o t, readPayload payload = .ok records ∧ start ⟨settings.style, records⟩ = .ok s ∧
      runFrom ⟨settings.style, records⟩ s = (.ok o, t) ∧
      chunks r.code.toList = (o.texts settings.style).map String.toList ∧
      (chunks r.code.toList).length =
        o.prelude.length + t.unions.length + o.globals.length + (records.filter fun r => !r.isGlobal).length ∧
      ∀ chunk ∈ chunks r.code.toList, Text.Balanced chunk ∧ Text.NoBlankLine chunk := by
  have hf : ∀ fault, (generate settings payload).result ≠ .error (.fault fault) := by
    rw [hr]
    rintro fault ⟨⟩
  obtain ⟨records, s, t, result, hread, hs, hrun, -, hgenerate⟩ := generate_runs hf
  rw [hgenerate] at hr
  cases result with
  | error failure => cases hr
  | ok o =>
    cases hr
    have hneat := output_neat (hp records hread) hs hrun
    obtain ⟨-, -, -, -, -, htypes, -⟩ := run_declares_records hs hrun
    have hprelude : o.prelude ≠ [] := by
      obtain ⟨_, _, -, -, -, ho⟩ := runFrom_ok hrun
      rw [ho]
      simp [State.output, Prelude.select]
    have hchunks : chunks (o.code settings.style).toList = (o.texts settings.style).map String.toList := by
      rw [Output.code_eq hprelude]
      exact Text.chunks_join (by simp [Output.texts, hprelude]) hneat
    refine ⟨records, s, o, t, hread, hs, hrun, hchunks, ?_, ?_⟩
    · rw [hchunks, List.length_map, length_texts, length_unions hs hrun, htypes.length_eq]
    · rw [hchunks]
      exact List.forall_mem_map.2 fun text hm => ⟨(hneat text hm).balanced, (hneat text hm).noBlankLine⟩

/-- A page with a repeated group, a field of blocks that it holds, a field with choices, and a reference to a
global field with fields of its own. -/
def nestedPage : Json :=
  let sizes : Json := .object [("uid", .text "size"), ("data_type", .text "number"), ("display_name", .text "Size"),
    ("enum", .object [("choices", .list [.object [("value", .text "1")], .object [("value", .text "two or more")]])])]
  let seo : Json := .object [("uid", .text "seo"), ("data_type", .text "global_field"),
    ("reference_to", .text "seo"), ("schema", .list [textDocument "title" "Title"])]
  pageDocument [groupDocument "parts" "Parts" [sizes, blocksDocument (.text "sections") "Title"], seo]

theorem generate_chunks_nestedPage :
    let settings : Settings := { namePrefix := .text "I", editableTags := .bool true, systemFields := .bool true }
    (∀ records, readPayload nestedPage = .ok records → (Input.mk settings.style records).Clean) ∧
      ∃ r, (generate settings nestedPage).result = .ok r ∧ (chunks r.code.toList).length = 11 ∧
        ∀ chunk ∈ chunks r.code.toList, Text.Balanced chunk ∧ Text.NoBlankLine chunk := by
  intro settings
  have hclean : ∀ records, (readPayload nestedPage).toOption = some records →
      (Input.mk settings.style records).Clean := by decide +kernel
  have hclean' : ∀ records, readPayload nestedPage = .ok records → (Input.mk settings.style records).Clean :=
    fun records hr => hclean records (by rw [hr]; rfl)
  have hok : (generate settings nestedPage).result.isOk = true := by decide +kernel
  have hsizes : (outputOf settings nestedPage).map (fun o =>
      o.prelude.length + o.unions.length + o.globals.length + o.contentTypes.length) = some 11 := by decide +kernel
  rcases hr : (generate settings nestedPage).result with failure | r
  · rw [hr] at hok
    cases hok
  · obtain ⟨records, s, o, t, hread, hs, hrun, htexts, -, hchunks⟩ := generate_chunks hclean' hr
    have ho : outputOf settings nestedPage = some o := by
      rw [outputOf, hread, Except.toOption, Option.bind_some, hs, Except.toOption, Option.bind_some, hrun]
      rfl
    rw [ho, Option.map_some, Option.some.injEq, ← length_texts settings.style] at hsizes
    exact ⟨hclean', r, rfl, by rw [htexts, List.length_map, hsizes], hchunks⟩

end Generation

end SchemaDecl

import Mathlib.Data.List.Forall2
import Mathlib.Data.List.Perm.Basic
import SchemaDecl.Proofs.Declaration.Builtins
import SchemaDecl.Proofs.Generation.BlockUnions

/-!
# Declarations of records

Every content type has a declaration from its own fields. A global field has one under its name, from its
own fields or from those of a reference to it that came first. The names of a kind are distinct among
each other, those of content types aside; names of different kinds may meet.
-/

namespace SchemaDecl.Generation

variable {input : Input} {scope : Scope} {s t u : State} {steps : List Step} {path : Json}

def usable (uid : Json) : Bool := (Naming.isUsable uid).toOption = some true

theorem typedMember_uid {attrs : Attributes} {type : TypeExpr} {member : Option Member}
    (h : typedMember attrs type = .ok member) : member.map Member.uid = some attrs.uid := by
  obtain ⟨_, -, rfl⟩ := typedMember_ok h
  rfl

theorem bind_typedMember_uid {α : Type} {attrs : Attributes} {r : Except Fault α} {f : α → TypeExpr}
    {member : Option Member} (h : r.bind (fun a => typedMember attrs (f a)) = .ok member) :
    member.map Member.uid = some attrs.uid := by
  obtain ⟨a, -, hm⟩ := ok_of_bind h
  exact typedMember_uid hm

theorem Visits.member_uid {field : Field} {result : Except Fault (Option Member)} {member : Option Member}
    (h : Visits input scope (.field path field) s steps result t) (hr : result = .ok member) :
    member.map Member.uid = if usable field.attrs.uid then some field.attrs.uid else none := by
  have htrue : ∀ {uid : Json}, Naming.isUsable uid = .ok true → usable uid = true := by
    intro uid hu
    rw [usable, hu]
    rfl
  cases h with
  | field_fault | field_target_fault | field_blocks_fault | field_union_fault => cases hr
  | field_unusable hu =>
    cases hr
    rw [usable, hu]
    rfl
  | field_flat hu =>
    rw [if_pos (htrue hu)]
    exact bind_typedMember_uid (f := id) hr
  | field_group ho | field_global ho =>
    rw [if_pos (htrue ho.usable)]
    exact bind_typedMember_uid hr
  | field_no_blocks ho | field_union ho =>
    rw [if_pos (htrue ho.usable)]
    exact typedMember_uid hr

theorem Visits.member_uids {fields : List Field} {result : Except Fault (List Member)}
    {members : List Member} (h : Visits input scope (.fields path fields) s steps result t)
    (hr : result = .ok members) :
    members.map Member.uid = (fields.map fun f => f.attrs.uid).filter usable := by
  induction fields generalizing s steps result t members with
  | nil =>
    cases h
    cases hr
    rfl
  | cons field rest ih =>
    cases h with
    | fields_fault => cases hr
    | @fields_cons _ _ _ _ _ _ member _ _ _ _ hf hfs =>
      obtain ⟨members', rfl, rfl⟩ := ok_of_map hr
      have huid := hf.member_uid rfl
      rw [List.map_append, ih hfs rfl, List.map_cons, List.filter_cons]
      cases hu : usable field.attrs.uid <;> rw [hu] at huid <;> cases member <;> simp_all

theorem unionName_unusable {style : Style} {uid : Json} {blocks : Blocks} {name : String}
    (h : unionName style uid blocks s = (.ok name, t)) : t.unusable = s.unusable := by
  obtain rfl | ⟨base, rfl⟩ := unionName_joins h <;> rfl

theorem Trace.unusable {whole : Bool} (h : Trace input scope s steps whole t) : t.unusable = s.unusable := by
  induction h with
  | quiet hk => exact hk.unusable
  | stopped _ ih => exact ih
  | append _ _ ih ih' => exact ih'.trans ih
  | refer => rfl
  | union _ hu => exact unionName_unusable hu
  | fault _ _ ih | built _ _ _ ih => exact ih

theorem recordName_keeps {record : Record} {uid name : String}
    (h : recordName input record s = (.ok (uid, name), t)) : s.unusable <+: t.unusable := by
  cases recordName_ok h with
  | usable => exact List.prefix_rfl
  | unusable => exact List.prefix_append _ _

theorem recordName_usable {record : Record} {uid name : String}
    (h : recordName input record s = (.ok (uid, name), t)) (ht : t.unusable = []) :
    record.uid = .text uid ∧ name = Naming.declare input.style.lead uid ∧
      Naming.isUsableName name = true := by
  cases recordName_ok h with
  | usable hu hname => exact ⟨hu, rfl, hname⟩
  | unusable => simp at ht

variable {position : Nat} {records : List Record} {result : Except Fault (List Declaration)}
  {ds : List Declaration}

theorem Passes.keeps_unusable (h : Passes input position records s steps result t) :
    s.unusable <+: t.unusable := by
  induction h with
  | nil => exact List.prefix_rfl
  | name_fault hn => exact (recordName_fault hn).1 ▸ List.prefix_rfl
  | bare _ hn _ _ ih => exact (recordName_keeps hn).trans ih
  | global_fault _ hn _ hv =>
    rw [hv.trace.unusable]
    exact recordName_keeps hn
  | global _ hn _ hv _ ih =>
    rw [hv.trace.unusable] at ih
    exact (recordName_keeps hn).trans ih
  | contentType_fault _ hn hv =>
    have hmid := recordName_keeps hn
    rw [State.left, hv.trace.unusable]
    exact hmid
  | contentType _ hn hv _ ih =>
    have hmid := recordName_keeps hn
    rw [State.left, hv.trace.unusable] at ih
    exact hmid.trans ih

theorem Passes.unusable_eq_nil (h : Passes input position records s steps result t)
    (ht : t.unusable = []) : s.unusable = [] := List.prefix_nil.1 (ht ▸ h.keeps_unusable)

/-- The declaration goes by the name of the content type and is built from its fields. -/
structure DeclaresContentType (input : Input) (record : Record) (d : Declaration) : Prop where
  name : Naming.declare? input.style.lead record.uid = .ok d.main.name
  description : d.main.description = record.description
  extendsSystem : d.main.extendsSystem = input.style.systemFields
  built : ∃ scope, BuiltFrom input scope record.fields d

/-- Without unusable names, each content type of a pass has its declaration, in order. -/
theorem Passes.contentTypes (h : Passes input position records s steps result t) (hr : result = .ok ds)
    (ht : t.unusable = []) :
    List.Forall₂ (DeclaresContentType input) (records.filter fun r => !r.isGlobal) ds := by
  induction h generalizing ds with
  | nil =>
    cases hr
    exact .nil
  | name_fault | global_fault | contentType_fault => cases hr
  | bare hg _ _ _ ih | global hg _ _ _ _ ih =>
    rw [List.filter_cons_of_neg (by simp [hg])]
    exact ih hr ht
  | @contentType position _ _ _ _ _ mid steps _ mid' _ _ _ hg hn hv hp ih =>
    obtain ⟨rest, rfl, rfl⟩ := ok_of_map hr
    have hmid : mid.unusable = [] := hv.trace.unusable.symm.trans (hp.unusable_eq_nil ht)
    obtain ⟨huid, rfl, -⟩ := recordName_usable hn hmid
    rw [List.filter_cons_of_pos (by simp [hg])]
    refine .cons ⟨?_, rfl, rfl, .contentType position, ?_⟩ (ih rfl ht)
    · rw [huid]
      rfl
    · exact ⟨_, steps, mid', rfl, hv, rfl⟩

/-- Without unusable names, every record goes by the name for its uid, and every global field with fields
is declared in the end. -/
theorem Passes.declared (h : Passes input position records s steps result t) (hr : result = .ok ds)
    (ht : t.unusable = []) : ∀ r ∈ records, ∃ uid, r.uid = .text uid ∧
      Naming.isUsableName (Naming.declare input.style.lead uid) = true ∧
      (r.isGlobal = true → r.schema?.isSome = true →
        t.isDeclared (Naming.declare input.style.lead uid) = true) := by
  induction h generalizing ds with
  | nil => simp
  | name_fault | global_fault | contentType_fault => cases hr
  | bare _ hn hs hp ih =>
    refine List.forall_mem_cons.2 ⟨?_, ih hr ht⟩
    obtain ⟨huid, rfl, hname⟩ := recordName_usable hn (hp.unusable_eq_nil ht)
    exact ⟨_, huid, hname, fun _ hsome => by rw [hs] at hsome; cases hsome⟩
  | global _ hn _ hv hp ih =>
    refine List.forall_mem_cons.2 ⟨?_, ih hr ht⟩
    have hmid := hv.trace.unusable.symm.trans (hp.unusable_eq_nil ht)
    obtain ⟨huid, rfl, hname⟩ := recordName_usable hn hmid
    exact ⟨_, huid, hname, fun _ _ => hp.adds.isDeclared_iff.2 (.inl (hv.declared rfl))⟩
  | @contentType _ _ _ _ _ _ mid _ _ _ _ _ _ hg hn hv hp ih =>
    obtain ⟨rest, rfl, -⟩ := ok_of_map hr
    refine List.forall_mem_cons.2 ⟨?_, ih rfl ht⟩
    have hmid : mid.unusable = [] := hv.trace.unusable.symm.trans (hp.unusable_eq_nil ht)
    obtain ⟨huid, rfl, hname⟩ := recordName_usable hn hmid
    exact ⟨_, huid, hname, fun hglobal => by rw [hg] at hglobal; cases hglobal⟩

/-- A global field for a record is built from it, or from a reference to its name that has fields of its
own. -/
def Input.Supplies (input : Input) (record : Record) (name : String) (origin : Origin) : Prop :=
  origin = .record record ∨ ∃ target fields, origin = .inline target fields ∧
    Naming.declare? input.style.lead target = .ok name ∧ ⟨target, some fields⟩ ∈ input.references

theorem Passes.supplies {name : String} {origin : Origin} {record : Record}
    (h : Passes input position input.records s steps result t) (hr : result = .ok ds)
    (ht : t.unusable = []) (hb : .build name origin ∈ steps)
    (honly : ∀ r ∈ input.records, Naming.declare? input.style.lead r.uid = .ok name → r = record) :
    input.Supplies record name origin := by
  rcases h.offers (List.Subset.refl _) name origin hb with ⟨r, hm, uid, rfl, huid, hname⟩ | hs
  · obtain ⟨uid', huid', husable, -⟩ := h.declared hr ht r hm
    obtain rfl := Json.text.inj (huid.symm.trans huid')
    rcases hname with rfl | ⟨hunusable, -⟩
    · left
      rw [honly r hm (by rw [huid]; rfl)]
    · rw [husable] at hunusable
      cases hunusable
  · obtain ⟨inline?, href, horigin⟩ := hs.mem
    rcases origin?_eq_some horigin with ⟨fields, rfl, ho⟩ | ⟨r, -, hrecord, -, rfl⟩
    · exact .inr ⟨origin.target, fields, ho, hs.named, href⟩
    · left
      rw [honly r (List.mem_of_find?_eq_some hrecord) hs.named]

namespace Output

def unionNames (o : Output) : List String :=
  ((o.globals ++ o.contentTypes).flatMap Declaration.unions).map BlockUnion.name

def names (style : Style) (richTextUsed : Bool) (o : Output) : List String :=
  Prelude.names style richTextUsed ++ (o.globals ++ o.contentTypes).flatMap Declaration.names

/-- The names of builtin declarations, of global fields, of content types and of unions. -/
def kinds (style : Style) (richTextUsed : Bool) (o : Output) : List (List String) :=
  [Prelude.names style richTextUsed, o.globals.map fun d => d.main.name,
    o.contentTypes.map fun d => d.main.name, o.unionNames]

theorem names_perm (style : Style) (richTextUsed : Bool) (o : Output) :
    (o.names style richTextUsed).Perm (o.kinds style richTextUsed).flatten := by
  have hdeclared : ((o.globals ++ o.contentTypes).flatMap Declaration.names).Perm
      (o.unionNames ++ (o.globals ++ o.contentTypes).map fun d => d.main.name) := by
    have hsplit := List.flatMap_append_perm (o.globals ++ o.contentTypes)
      (fun d => d.unions.map BlockUnion.name) fun d => [d.main.name]
    rw [← List.map_flatMap, ← List.map_eq_flatMap] at hsplit
    exact hsplit.symm
  have hkinds : (o.kinds style richTextUsed).flatten = Prelude.names style richTextUsed ++
      (((o.globals ++ o.contentTypes).map fun d => d.main.name) ++ o.unionNames) := by
    simp [kinds]
  rw [names, hkinds]
  exact (List.Perm.refl _).append (hdeclared.trans List.perm_append_comm)

theorem names_introduced {style : Style} {richTextUsed : Bool} {o : Output}
    (h : o.prelude = Prelude.select style richTextUsed) :
    ∀ name ∈ o.names style richTextUsed, ∃ part ∈ o.parts style, Introduces part name := by
  intro name hn
  rcases List.mem_append.1 hn with hn | hn
  · obtain ⟨part, hp, hi⟩ := Prelude.names_introduced style richTextUsed name hn
    refine ⟨part, ?_, hi⟩
    rw [parts, h, List.append_assoc]
    exact List.mem_append_left _ hp
  · obtain ⟨d, hd, hn⟩ := List.mem_flatMap.1 hn
    exact ⟨d.text style, text_mem_parts hd style, d.introduces style name hn⟩

end Output

theorem declare?_contentTypes (h : List.Forall₂ (DeclaresContentType input) records ds) :
    records.map (fun r => Naming.declare? input.style.lead r.uid) = ds.map fun d => .ok d.main.name := by
  induction h with
  | nil => rfl
  | cons hd _ ih => rw [List.map_cons, List.map_cons, ih, hd.name]

theorem contentTypes_nodup_iff (h : List.Forall₂ (DeclaresContentType input) records ds) :
    (ds.map fun d => d.main.name).Nodup ↔
      (records.map fun r => Naming.declare? input.style.lead r.uid).Nodup := by
  have hmap : (ds.map fun d => (.ok d.main.name : Except Fault String)) =
      (ds.map fun d => d.main.name).map .ok := by
    rw [List.map_map]
    rfl
  rw [declare?_contentTypes h, hmap]
  exact (List.nodup_map_iff fun _ _ => Except.ok.inj).symm

theorem unionNames_nodup {o : Output} (hs : start input = .ok s) (hr : runFrom input s = (.ok o, t))
    (hp : Passes input 0 input.records s steps result u) : o.unionNames.Nodup := by
  obtain ⟨hunites, -, -, -, hperm⟩ := run_leaves hs hr hp
  obtain ⟨richTextUsed, rfl⟩ := start_eq hs
  have hnames := hperm.map BlockUnion.name
  rw [List.map_map] at hnames
  exact hnames.nodup_iff.2 (firsts_names_nodup hunites rfl)

/-- In a run that gives an output, the names of builtin declarations are distinct, and so are those of global
fields and those of unions. All names are distinct exactly if the uids of the content types have distinct
names and no name is of two kinds. Every content type has a declaration from its own fields. Every global
field with fields has one under its name, and if it is the only record with that name, then the
declaration is from its own fields, or from those of a reference to the name that has fields itself. -/
theorem run_declares_records {o : Output} (hs : start input = .ok s) (hr : runFrom input s = (.ok o, t)) :
    (∀ name ∈ o.names input.style t.richTextUsed, ∃ part ∈ o.parts input.style, Introduces part name) ∧
      (Prelude.names input.style t.richTextUsed).Nodup ∧
      (o.globals.map fun d => d.main.name).Nodup ∧
      o.unionNames.Nodup ∧
      ((o.names input.style t.richTextUsed).Nodup ↔
        ((input.records.filter fun r => !r.isGlobal).map fun r =>
          Naming.declare? input.style.lead r.uid).Nodup ∧
        (o.kinds input.style t.richTextUsed).Pairwise List.Disjoint) ∧
      List.Forall₂ (DeclaresContentType input) (input.records.filter fun r => !r.isGlobal) o.contentTypes ∧
      (∃ steps u, Passes input 0 input.records s steps (.ok o.contentTypes) u) ∧
      ∀ steps result u, Passes input 0 input.records s steps result u →
        ∀ r ∈ input.records, r.isGlobal = true → r.schema?.isSome = true →
          ∃ d ∈ o.globals, ∃ origin, Naming.declare? input.style.lead r.uid = .ok d.main.name ∧
            .build d.main.name origin ∈ steps ∧
            BuiltFrom input (.globalField d.main.name) origin.fields d ∧
            ((∀ r' ∈ input.records, Naming.declare? input.style.lead r'.uid = .ok d.main.name → r' = r) →
              input.Supplies r d.main.name origin) := by
  obtain ⟨steps₀, u₀, hp₀, hunusable, ht, ho⟩ := runFrom_ok hr
  obtain ⟨-, hglobals, -⟩ := run_leaves hs hr hp₀
  have hunions := unionNames_nodup hs hr hp₀
  have hbuiltins := Prelude.names_nodup input.style t.richTextUsed
  have htypes := hp₀.contentTypes rfl hunusable
  have hprelude : o.prelude = Prelude.select input.style t.richTextUsed := by
    rw [ho]
    rfl
  refine ⟨Output.names_introduced hprelude, hbuiltins, hglobals, hunions, ?_, htypes,
    ⟨steps₀, u₀, hp₀⟩, fun steps result u hp r hm hglobal hsome => ?_⟩
  · rw [(o.names_perm _ _).nodup_iff, List.nodup_flatten, ← contentTypes_nodup_iff htypes]
    simp [Output.kinds, hbuiltins, hglobals, hunions]
  · obtain ⟨rfl, rfl⟩ := hp.unique hp₀
    obtain ⟨hentries, hbuilt⟩ := run_built hs hr hp
    obtain ⟨uid, huid, -, hdeclared⟩ := hp.declared rfl hunusable r hm
    have hnames : Table.names u.globals = o.globals.map fun d => d.main.name := by
      rw [← names_of_entries hentries, ht]
      rfl
    have hin := isDeclared_iff.1 (hdeclared hglobal hsome)
    rw [hnames] at hin
    obtain ⟨d, hd, hname⟩ := List.mem_map.1 hin
    obtain ⟨origin, hb, hfrom⟩ := hbuilt d hd
    refine ⟨d, hd, origin, ?_, hb, hfrom, hp.supplies rfl hunusable hb⟩
    rw [huid, hname]
    rfl

def titled (uid : String) : Field := ⟨{ uid := .text uid, kind := .text, tag := "text" }, none, []⟩

def seoRecord : Record := ⟨.text "seo", .null, .null, some [titled "keywords"], true⟩

/-- A content type and a global field that it refers to. -/
def referringPage : Input :=
  let seo : Field := ⟨{ uid := .text "seo", kind := .globalField, tag := "global_field" }, none, []⟩
  ⟨{}, [⟨.text "page", .null, .null, some [seo], false⟩, seoRecord]⟩

theorem run_declares_referringPage :
    start referringPage = .ok {} ∧
      ∃ o t, runFrom referringPage {} = (.ok o, t) ∧
        List.Forall₂ (DeclaresContentType referringPage)
          (referringPage.records.filter fun r => !r.isGlobal) o.contentTypes ∧
        ∃ d ∈ o.globals, d.main.name = "Seo" ∧
          BuiltFrom referringPage (.globalField "Seo") seoRecord.fields d := by
  have hstart : start referringPage = .ok {} := by rfl
  have hok : (runFrom referringPage {}).1.isOk = true := by decide +kernel
  have hreferences : referringPage.references = [⟨.text "seo", none⟩] := by rfl
  rcases hr : runFrom referringPage {} with ⟨e | o, t⟩
  · rw [hr] at hok
    cases hok
  · obtain ⟨-, -, -, -, -, htypes, ⟨steps, u, hp⟩, hall⟩ := run_declares_records hstart hr
    obtain ⟨d, hd, origin, hname, -, hbuilt, honly⟩ :=
      hall steps _ u hp seoRecord (by simp [referringPage]) rfl rfl
    have hseo : d.main.name = "Seo" := (Except.ok.inj hname).symm.trans (by decide +kernel)
    have hsupplies := honly fun r hr hrname => by
      rcases List.mem_cons.1 hr with rfl | hr
      · rw [hseo] at hrname
        exact absurd (Except.ok.inj hrname) (by decide +kernel)
      · exact List.mem_singleton.1 hr
    rcases hsupplies with rfl | ⟨target, fields, -, -, href⟩
    · exact ⟨hstart, o, t, rfl, htypes, d, hd, hseo, hseo ▸ hbuilt⟩
    · rw [hreferences] at href
      simp at href

/-- Two content types whose uids convert to the same name, and a global field that is declared from the
fields of a reference to it. -/
def sharedNames : Input :=
  let seo : Field := ⟨{ uid := .text "seo", kind := .globalField, tag := "global_field" },
    some [titled "title"], []⟩
  ⟨{}, [⟨.text "page", .null, .null, some [seo], false⟩, seoRecord,
    ⟨.text "a_b", .null, .null, some [], false⟩, ⟨.text "aB", .null, .null, some [], false⟩]⟩

/-- With distinct uids, names may still meet, and a global field may be declared from other fields than its
own. -/
theorem sharedNames_not_distinct :
    (sharedNames.records.map Record.uid).Nodup ∧ start sharedNames = .ok {} ∧
      ∃ o t, runFrom sharedNames {} = (.ok o, t) ∧
        ¬ (o.names sharedNames.style t.richTextUsed).Nodup ∧
        seoRecord ∈ sharedNames.records ∧ seoRecord.isGlobal = true ∧ seoRecord.schema?.isSome = true ∧
        ∀ d ∈ o.globals ++ o.contentTypes, ∀ scope, ¬ BuiltFrom sharedNames scope seoRecord.fields d := by
  have hstart : start sharedNames = .ok {} := by rfl
  have hok : (runFrom sharedNames {}).1.toOption.map (fun o => (o.contentTypes.map fun d => d.main.name,
      (o.globals ++ o.contentTypes).map fun d => d.main.members.map Member.uid)) =
      some (["Page", "AB", "AB"], [[.text "title"], [.text "seo"], [], []]) := by
    decide +kernel
  rcases hr : runFrom sharedNames {} with ⟨e | o, t⟩
  · rw [hr] at hok
    cases hok
  · rw [hr] at hok
    obtain ⟨hnames, hmembers⟩ := Prod.mk.inj (Option.some.inj hok)
    refine ⟨by simp [sharedNames, seoRecord], hstart, o, t, rfl, fun hnodup => ?_, by simp [sharedNames],
      rfl, rfl, ?_⟩
    · have hkinds := (List.nodup_flatten.1 ((o.names_perm _ _).nodup_iff.1 hnodup)).1
      have htypes : (o.contentTypes.map fun d => d.main.name).Nodup := hkinds _ (by simp [Output.kinds])
      rw [hnames] at htypes
      simp at htypes
    · rintro d hd scope ⟨s, steps, t, -, hv, -⟩
      have hfields : (seoRecord.fields.map fun f => f.attrs.uid).filter usable = [.text "keywords"] := by
        decide +kernel
      have hin : d.main.members.map Member.uid ∈
          (o.globals ++ o.contentTypes).map fun d => d.main.members.map Member.uid := List.mem_map_of_mem hd
      rw [hmembers, hv.member_uids rfl, hfields] at hin
      simp at hin

end SchemaDecl.Generation

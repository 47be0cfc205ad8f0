import SchemaDecl.Proofs.Generation.Reached

/-!
# Accounts of visits

In an orderly document no visit is stopped, and its notes are, in some order, those of its task and those of
the records that it builds. So what is noted does not depend on what is declared by then, save that a record
is only built once.
-/

namespace SchemaDecl.Generation

variable {input : Input} {scope : Scope} {task : Task} {s t u : State} {steps steps' : List Step}
  {result : Except Fault task.Result} {name : String} {told told' : List Note} {path : Json}

theorem Visits.block_uid {block : Block} {result : Except Fault (Option (Json × TypeExpr))}
    {member : Json × TypeExpr} (h : Visits input scope (.block path block) s steps result t)
    (hr : result = .ok (some member)) : member.1 = block.uid := by
  cases h with
  | block_fault | block_unusable => cases hr
  | block_inline =>
    obtain ⟨members, -, hm⟩ := ok_of_map hr
    rw [← Option.some.inj hm]
  | block_reference =>
    obtain ⟨type?, -, hm⟩ := ok_of_map hr
    obtain ⟨type, -, rfl⟩ := Option.map_eq_some_iff.1 hm
    rfl

theorem Visits.blocks_uids {blocks : List Block} {result : Except Fault Blocks} {members : Blocks}
    (h : Visits input scope (.blocks path blocks) s steps result t) (hr : result = .ok members) :
    ∀ member ∈ members, ∃ block ∈ blocks, member.1 = block.uid := by
  induction blocks generalizing s steps result t members with
  | nil =>
    cases h
    cases hr
    simp
  | cons block rest ih =>
    cases h with
    | blocks_fault => cases hr
    | blocks_cons hb hbs =>
      obtain ⟨members', rfl, rfl⟩ := ok_of_map hr
      refine List.forall_mem_append.2 ⟨fun kept hk => ?_, fun kept hk => ?_⟩
      · obtain rfl := Option.mem_toList.1 hk
        exact ⟨block, List.mem_cons_self, hb.block_uid rfl⟩
      · obtain ⟨other, hm, huid⟩ := ih hbs rfl kept hk
        exact ⟨other, List.mem_cons_of_mem _ hm, huid⟩

theorem Task.Within.mem_blocks {blocks : List Block} {block : Block} (hw : (Task.blocks path blocks).Within input)
    (hm : block ∈ blocks) : .block block ∈ input.parts := by
  induction blocks with
  | nil => cases hm
  | cons first rest ih =>
    rcases List.mem_cons.1 hm with rfl | hm
    · exact hw.head_block.mem_block
    · exact ih hw.tail_block hm

theorem mapM_asKey_texts {values : List Json} (h : ∀ value ∈ values, ∃ s, value = .text s) :
    values.mapM asKey = .ok values := by
  induction values with
  | nil => rfl
  | cons value rest ih =>
    obtain ⟨⟨s, rfl⟩, hrest⟩ := List.forall_mem_cons.1 h
    rw [List.mapM_cons, ih hrest]
    rfl

def TextUids (members : Blocks) : Prop := ∀ member ∈ members, ∃ uid, member.1 = .text uid

theorem TextUids.keys {members : Blocks} (h : TextUids members) (style : Style) :
    (signatureOf style members).uids.mapM asKey = .ok (signatureOf style members).uids := by
  refine mapM_asKey_texts fun value hv => ?_
  obtain ⟨entry, he, rfl⟩ := List.mem_map.1 hv
  obtain ⟨member, hmember, rfl⟩ := List.mem_map.1 he
  exact h member hmember

theorem TextUids.unionName {members : Blocks} (h : TextUids members) {uid : Json} (hu : ∃ s, uid = .text s)
    (style : Style) (s : State) :
    ∃ name t, Generation.unionName style uid members s = (.ok name, t) ∧ Notes s [] t := by
  obtain ⟨uid, rfl⟩ := hu
  rw [unionName_apply, h.keys]
  have hrefl := Notes.refl s
  cases s.findUnion? (signatureOf style members) with
  | some name => exact ⟨name, s, rfl, hrefl⟩
  | none => exact ⟨_, _, rfl, hrefl.fields, hrefl.blocks, hrefl.warnings, hrefl.used, hrefl.richText⟩

/-- What is noted in the records that are built. -/
def builtNotes (input : Input) (steps : List Step) : List Note :=
  (built steps).flatMap fun (_, origin) => fieldsNotes input.style input.resolves (.text "") origin.fields

/-- Between two states are taken, in some order, the notes that are told and those of the records built. -/
def Accounts (input : Input) (told : List Note) (s : State) (steps : List Step) (t : State) : Prop :=
  ∃ notes, Notes s notes t ∧ notes.Perm (told ++ builtNotes input steps)

theorem Accounts.of_notes (h : Notes s told t) (hb : built steps = []) : Accounts input told s steps t :=
  ⟨told, h, by rw [builtNotes, hb]; simp⟩

theorem Accounts.append (h : Accounts input told s steps t) (h' : Accounts input told' t steps' u) :
    Accounts input (told ++ told') s (steps ++ steps') u := by
  obtain ⟨notes, hn, hp⟩ := h
  obtain ⟨notes', hn', hp'⟩ := h'
  refine ⟨notes ++ notes', hn.append hn', (hp.append hp').trans ?_⟩
  have hbuilt : builtNotes input (steps ++ steps') = builtNotes input steps ++ builtNotes input steps' := by
    rw [builtNotes, built_append, List.flatMap_append]
    rfl
  have hswap : (builtNotes input steps ++ told').Perm (told' ++ builtNotes input steps) :=
    List.perm_append_comm
  rw [hbuilt]
  simpa only [List.append_assoc] using
    (hswap.append_right (builtNotes input steps')).append_left told

theorem Accounts.silent (h : Accounts input told s steps t) (hn : Notes t [] u) (hb : built steps' = []) :
    Accounts input told s (steps ++ steps') u := by
  have happend := h.append (.of_notes hn hb)
  rwa [List.append_nil] at happend

theorem Takes.accounts {visit : Visit Unit} (h : Takes visit () told) (s : State) :
    Accounts input told s [] (s.after visit) := .of_notes (h s).2 rfl

theorem isOk_bind {α β : Type} {r : Except Fault α} {f : α → Except Fault β} (h : r.isOk = true)
    (hf : ∀ a, (f a).isOk = true) : (r.bind f).isOk = true := by
  cases r with
  | error e => cases h
  | ok a => exact hf a

theorem isOk_typedMember {attrs : Attributes} (hw : attrs.WellTyped) (type : TypeExpr) :
    (typedMember attrs type).isOk = true := by
  obtain ⟨member, hm⟩ := hw.typedMember type
  rw [hm]
  rfl

/-- Every name that is declared is that of a record with a schema. -/
def Input.Sound (input : Input) (s : State) : Prop :=
  ∀ name, s.isDeclared name = true → ∃ r ∈ input.records, r.schema?.isSome = true ∧
    goesBy input.style.lead r = name

theorem Visits.sound (h : Visits input scope task s steps result t) (ho : input.Orderly)
    (hw : task.Within input) (hb : task.Bare input) (hs : input.Sound s) : input.Sound t := by
  intro name hn
  rcases h.trace.adds.isDeclared_iff.1 hn with hn | hn
  · exact hs name hn
  · rw [builds_eq_map_built] at hn
    obtain ⟨⟨_, origin⟩, hm, rfl⟩ := List.mem_map.1 hn
    obtain ⟨r, hr, -, hsome, hname, -⟩ :=
      h.built_record (P := fun _ => True) ho hw hb (fun _ _ _ _ => trivial) (fun _ _ => trivial) _ origin hm
    exact ⟨r, hr, hsome, hname⟩

theorem Input.Sound.opened {origin : Origin} {description : Json} (hs : input.Sound s)
    (hb : (Task.declare name origin description).Bare input) : input.Sound (s.opened name) := by
  intro other hn
  rw [isDeclared_opened, Bool.or_eq_true, decide_eq_true_eq] at hn
  rcases hn with rfl | hn
  · obtain ⟨r, hr, -, hsome, hname, -⟩ := hb
    exact ⟨r, hr, hsome, hname⟩
  · exact hs other hn

theorem Input.Sound.resolves {target : Json} (hs : input.Sound s) (ho : input.Orderly)
    (ht : target ∈ input.named) (hn : Naming.declare? input.style.lead target = .ok name)
    (hd : s.isDeclared name = true) : input.resolves target = true := by
  obtain ⟨a, rfl, rfl⟩ := Naming.declare?_ok hn
  obtain ⟨r, hr, hsome, hname⟩ := hs _ hd
  exact (ho.resolves_iff _).2 ⟨r, hr, ho.uid_eq_of_goesBy hr ht hname, hsome⟩

theorem notes_referred (s : State) (name : String) : Notes s [.use .globalFields name] (s.referred name) :=
  (takes_track .globalFields [name] s).2

theorem Part.WellTyped.isUsable {part : Part} (h : part.WellTyped) : ∃ b, Naming.isUsable part.uid = .ok b := by
  cases part with
  | field f =>
    obtain ⟨uid, hu⟩ := Attributes.WellTyped.uid h
    exact ⟨_, by rw [Part.uid, hu, Naming.isUsable_text]⟩
  | block b =>
    obtain ⟨uid, hu⟩ := Block.WellTyped.uid h
    exact ⟨_, by rw [Part.uid, hu, Naming.isUsable_text]⟩

theorem unionName_isOk {blocks : List Block} {members : Blocks} {mid : State} {uid : Json}
    {result : Except Fault String} (huid : ∃ s, uid = .text s) (hblocks : ∀ block ∈ blocks, block.WellTyped)
    (hv : Visits input scope (.blocks path blocks) s steps (.ok members) mid)
    (hu : unionName input.style uid members mid = (result, t)) : result.isOk = true ∧ Notes mid [] t := by
  have hmembers : TextUids members := by
    intro member hm
    obtain ⟨block, hb, huid⟩ := hv.blocks_uids rfl member hm
    obtain ⟨s, hs⟩ := (hblocks block hb).uid
    exact ⟨s, huid.trans hs⟩
  obtain ⟨name, u, hname, hnotes⟩ := hmembers.unionName huid input.style mid
  obtain ⟨rfl, rfl⟩ := Prod.mk.inj (hname.symm.trans hu)
  exact ⟨rfl, hnotes⟩

theorem Task.Within.wellTyped_blocks {attrs : Attributes} {schema? : Option (List Field)} {blocks : List Block}
    (hw : (Task.field path ⟨attrs, schema?, blocks⟩).Within input)
    (hi : ∀ part ∈ input.parts, part.WellTyped) : ∀ block ∈ blocks, block.WellTyped :=
  fun _ hb => hi _ ((hw.inner_blocks path).mem_blocks hb)

theorem Visits.accounts (h : Visits input scope task s steps result t) (ho : input.Orderly)
    (hw : task.Within input) (hb : task.Bare input) (hs : input.Sound s) :
    result.isOk = true ∧ Accounts input (task.notes input.style input.resolves) s steps t := by
  induction h with
  | fields_nil =>
    rw [Task.notes, fieldsNotes]
    exact ⟨rfl, .of_notes (Notes.refl _) rfl⟩
  | blocks_nil =>
    rw [Task.notes, blocksNotes]
    exact ⟨rfl, .of_notes (Notes.refl _) rfl⟩
  | fields_fault _ ih => cases (ih hw.head trivial hs).1
  | blocks_fault _ ih => cases (ih hw.head_block trivial hs).1
  | fields_cons hv _ ih ih' =>
    obtain ⟨-, hacc⟩ := ih hw.head trivial hs
    obtain ⟨hok, hacc'⟩ := ih' hw.tail trivial (hv.sound ho hw.head trivial hs)
    rw [isOk_map, Task.notes, fieldsNotes_cons]
    exact ⟨hok, hacc.append hacc'⟩
  | blocks_cons hv _ ih ih' =>
    obtain ⟨-, hacc⟩ := ih hw.head_block trivial hs
    obtain ⟨hok, hacc'⟩ := ih' hw.tail_block trivial (hv.sound ho hw.head_block trivial hs)
    rw [isOk_map, Task.notes, blocksNotes_cons]
    exact ⟨hok, hacc.append hacc'⟩
  | field_fault hu =>
    obtain ⟨b, hb⟩ := (ho.wellTyped _ hw.mem_field).isUsable
    cases hu.symm.trans hb
  | block_fault hu =>
    obtain ⟨b, hb⟩ := (ho.wellTyped _ hw.mem_block).isUsable
    cases hu.symm.trans hb
  | field_unusable hu =>
    rw [Task.notes, fieldNotes_unusable hu]
    exact ⟨rfl, (takes_skip _ _ _ _).accounts _⟩
  | block_unusable hu =>
    rw [Task.notes, blockNotes_unusable _ hu]
    exact ⟨rfl, (takes_skip _ _ _ _).accounts _⟩
  | @field_flat _ _ attrs _ _ s _ _ _ hu hv hr =>
    have htyped : attrs.WellTyped := ho.wellTyped _ hw.mem_field
    obtain ⟨type, ht⟩ := takes_flatType hv htyped
    obtain ⟨hok, hn⟩ := ht s
    rw [hr] at hok hn
    subst hok
    rw [Task.notes, fieldNotes_flat hu hv]
    exact ⟨isOk_typedMember htyped type, .of_notes hn rfl⟩
  | @field_group _ _ attrs _ _ _ _ _ _ hopens _ ih =>
    have htyped : attrs.WellTyped := ho.wellTyped _ hw.mem_field
    obtain ⟨hok, hacc⟩ := ih (hw.group _) trivial hs
    rw [Task.notes, fieldNotes_group hopens]
    exact ⟨isOk_bind hok fun _ => isOk_typedMember htyped _, hacc⟩
  | field_target_fault hopens ht =>
    obtain ⟨target, htarget⟩ := (ho.wellTyped _ hw.mem_field).globalTarget
    cases ht.symm.trans htarget
  | @field_global _ _ attrs _ _ _ _ _ _ _ hopens ht _ ih =>
    have htyped : attrs.WellTyped := ho.wellTyped _ hw.mem_field
    obtain ⟨hok, hacc⟩ := ih (hw.global _ _ _ _) (Task.bare_global ho hw hopens.kind_eq ht _) hs
    rw [Task.notes, fieldNotes_global hopens ht]
    exact ⟨isOk_bind hok fun _ => isOk_typedMember htyped _, hacc⟩
  | field_blocks_fault _ _ ih => cases (ih (hw.inner_blocks _) trivial hs).1
  | field_no_blocks hopens _ ih =>
    obtain ⟨-, hacc⟩ := ih (hw.inner_blocks _) trivial hs
    rw [Task.notes, fieldNotes_blocks hopens]
    exact ⟨isOk_typedMember (ho.wellTyped _ hw.mem_field) _, hacc⟩
  | field_union_fault _ hv _ hu =>
    have hblocks := hw.wellTyped_blocks ho.wellTyped
    cases (unionName_isOk (ho.wellTyped _ hw.mem_field).uid hblocks hv hu).1
  | field_union hopens hv _ hu ih =>
    obtain ⟨-, hacc⟩ := ih (hw.inner_blocks _) trivial hs
    have hblocks := hw.wellTyped_blocks ho.wellTyped
    obtain ⟨-, hn⟩ := unionName_isOk (ho.wellTyped _ hw.mem_field).uid hblocks hv hu
    rw [Task.notes, fieldNotes_blocks hopens]
    exact ⟨isOk_typedMember (ho.wellTyped _ hw.mem_field) _, hacc.silent hn rfl⟩
  | @block_inline _ _ _ title _ _ _ _ _ _ hu ht _ ih =>
    obtain ⟨hok, hacc⟩ := ih (hw.inline _) trivial hs
    rw [isOk_map, Task.notes, blockNotes_inline title hu ht]
    exact ⟨hok, hacc⟩
  | @block_reference _ _ _ title _ _ _ _ _ _ hu ht _ ih =>
    obtain ⟨hok, hacc⟩ := ih (hw.reference _ _) (Task.bare_block ho hw ht _) hs
    rw [isOk_map, Task.notes, blockNotes_reference title hu ht]
    exact ⟨hok, hacc⟩
  | reference_fault hn =>
    obtain ⟨a, rfl⟩ := ho.named_text hb.2
    cases hn
  | reference_unusable hn hu =>
    rw [Task.notes, referenceNotes_unusable hn hu]
    exact ⟨rfl, (takes_refuseReference _ _ _ _).accounts _⟩
  | @reference_known _ _ _ _ target _ s name hn hu hd =>
    rw [Task.notes, referenceNotes_resolved hn hu (hs.resolves ho hb.2 hn hd)]
    exact ⟨rfl, .of_notes (notes_referred s name) rfl⟩
  | reference_missing hn hu hd horigin =>
    obtain ⟨rfl, -⟩ := hb
    have hresolves : input.resolves _ = false := congrArg Option.isSome horigin
    rw [Task.notes, referenceNotes_missing hn hu hresolves]
    exact ⟨rfl, (takes_skip _ _ _ _).accounts _⟩
  | reference_fields_fault hn hu _ horigin _ ih =>
    obtain ⟨hbare, -⟩ := hb.leads hn hu horigin
    cases (ih (hw.origin horigin _ _) hbare hs).1
  | @reference_built _ _ _ _ _ _ _ name _ _ after hn hu _ horigin _ ih =>
    obtain ⟨hbare, hresolves, -⟩ := hb.leads hn hu horigin
    obtain ⟨-, hacc⟩ := ih (hw.origin horigin _ _) hbare hs
    rw [Task.notes, referenceNotes_resolved hn hu hresolves]
    exact ⟨rfl, hacc.append (.of_notes (notes_referred after name) rfl)⟩
  | declare_known hd => exact ⟨rfl, .of_notes (Notes.refl _) rfl⟩
  | declare_fault _ _ ih => cases (ih (hw.origin_fields _) trivial (hs.opened hb)).1
  | declare_built _ _ ih =>
    obtain ⟨-, notes, hn, hp⟩ := ih (hw.origin_fields _) trivial (hs.opened hb)
    exact ⟨rfl, notes, ⟨hn.fields, hn.blocks, hn.warnings, hn.used, hn.richText⟩, hp⟩

end SchemaDecl.Generation

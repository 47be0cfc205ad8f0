import SchemaDecl.Proofs.Generation.Actions
import SchemaDecl.Proofs.Generation.BlockUnions
import SchemaDecl.Proofs.Generation.Parts
import SchemaDecl.Proofs.Naming.Heads

/-!
# Standards for declarations

A standard asks something of the types, members, blocks and names that a pass makes. If whatever is made for
a single field or block of the document comes up to it, so does everything that the pass declares, and every
union that it finds declared already. What is asked of a type may depend on whether rich text was noted.
-/

namespace SchemaDecl.Generation

structure Standard (input : Input) where
  type : Bool → TypeExpr → Prop
  /-- Asked of the uid and the label of a member. -/
  labels : Json → Json → Prop
  /-- Asked of the uid of a block. -/
  uid : Json → Prop
  name : String → Prop
  description : Json → Prop
  noted {T} : type false T → type true T
  fallback {b} : type b .fallback
  declared {b N} : name N → type b (.declared N)
  object {b members} : (∀ m ∈ members, labels m.uid m.label ∧ type b m.type) → type b (.object members)
  repeated {field : Field} {b T} : .field field ∈ input.parts → type b T →
    type b (T.repeated field.attrs.multiple field.attrs.maxInstance)
  flat {field : Field} {b T} : .field field ∈ input.parts → FlatType input.style field.attrs T →
    (T = .richText → b = true) → type b T
  member {field : Field} : .field field ∈ input.parts → labels field.attrs.uid field.attrs.displayName
  block {block : Block} : .block block ∈ input.parts → uid block.uid
  named {target N} : Naming.declare? input.style.lead target = .ok N → name N
  placeholder {N} : name N → name (Naming.placeholder N)
  extended {base N} : name base → Naming.Extends base N → name N
  described {r} : r ∈ input.records → description r.description
  undescribed : description .null

variable {input : Input}

namespace Standard

variable (std : Standard input) {b b' : Bool} {type : TypeExpr}

def BlockMet (b : Bool) (block : Json × TypeExpr) : Prop := std.uid block.1 ∧ std.type b block.2

def MembersMet (b : Bool) (members : List Member) : Prop :=
  ∀ m ∈ members, std.labels m.uid m.label ∧ std.type b m.type

structure UnionMet (b : Bool) (u : BlockUnion) : Prop where
  name : std.name u.name
  nonempty : u.blocks ≠ []
  blocks : ∀ block ∈ u.blocks, std.BlockMet b block

structure DeclarationMet (b : Bool) (d : Declaration) : Prop where
  unions : ∀ u ∈ d.unions, std.UnionMet b u
  name : std.name d.main.name
  description : std.description d.main.description
  extended : d.main.extendsSystem = true → input.style.systemFields = true
  members : std.MembersMet b d.main.members

/-- All that a state declares comes up to the standard. -/
structure StateMet (s : State) : Prop where
  globals : ∀ n d, (n, some d) ∈ s.globals → std.DeclarationMet s.richTextUsed d
  scope : ∀ u ∈ s.scope, std.UnionMet s.richTextUsed u
  names : ∀ name ∈ s.unionNames, std.name name

/-- What a task gives comes up to the standard. -/
def ResultMet (b : Bool) : (task : Task) → task.Result → Prop
  | .field .. => fun member => std.MembersMet b member.toList
  | .fields .. => fun members => std.MembersMet b members
  | .block .. => fun block => ∀ entry ∈ block.toList, std.BlockMet b entry
  | .blocks .. => fun blocks => ∀ entry ∈ blocks, std.BlockMet b entry
  | .reference .. => fun type => ∀ t ∈ type, std.type b t
  | .declare .. => fun _ => True

/-- What is asked of the name and the description that a task begins with. -/
def TaskMet : Task → Prop
  | .declare name _ description => std.name name ∧ std.description description
  | _ => True

def StepsMet (b : Bool) (steps : List Step) : Prop :=
  ∀ m ∈ meetings steps, ∀ entry ∈ m.blocks, std.BlockMet b entry

variable {std}

theorem type_of_le (h : std.type b type) (hb : b = true → b' = true) : std.type b' type := by
  cases b with
  | true =>
    rw [hb rfl]
    exact h
  | false =>
    cases b' with
    | true => exact std.noted h
    | false => exact h

theorem BlockMet.of_le {block : Json × TypeExpr} (h : std.BlockMet b block) (hb : b = true → b' = true) :
    std.BlockMet b' block := ⟨h.1, type_of_le h.2 hb⟩

theorem MembersMet.of_le {members : List Member} (h : std.MembersMet b members) (hb : b = true → b' = true) :
    std.MembersMet b' members := fun m hm => ⟨(h m hm).1, type_of_le (h m hm).2 hb⟩

theorem UnionMet.of_le {u : BlockUnion} (h : std.UnionMet b u) (hb : b = true → b' = true) : std.UnionMet b' u :=
  ⟨h.name, h.nonempty, fun block hm => (h.blocks block hm).of_le hb⟩

theorem DeclarationMet.of_le {d : Declaration} (h : std.DeclarationMet b d) (hb : b = true → b' = true) :
    std.DeclarationMet b' d :=
  ⟨fun u hu => (h.unions u hu).of_le hb, h.name, h.description, h.extended, h.members.of_le hb⟩

theorem ResultMet.of_le {task : Task} {r : task.Result} (h : std.ResultMet b task r) (hb : b = true → b' = true) :
    std.ResultMet b' task r := by
  cases task with
  | field | fields => exact MembersMet.of_le h hb
  | block | blocks => exact fun entry he => (h entry he).of_le hb
  | reference => exact fun type ht => type_of_le (h type ht) hb
  | declare => trivial

theorem StepsMet.of_le {steps : List Step} (h : std.StepsMet b steps) (hb : b = true → b' = true) :
    std.StepsMet b' steps := fun m hm entry he => (h m hm entry he).of_le hb

theorem StepsMet.nil : std.StepsMet b [] := fun _ h => by cases h

theorem StepsMet.append {steps steps' : List Step} (h : std.StepsMet b steps) (h' : std.StepsMet b steps') :
    std.StepsMet b (steps ++ steps') := by
  rw [StepsMet, meetings_append]
  exact List.forall_mem_append.2 ⟨h, h'⟩

end Standard

variable {std : Standard input} {scope : Scope} {task : Task} {s t u : State} {steps : List Step}
  {attrs : Attributes} {type : TypeExpr} {member : Option Member}

/-- What is noted of rich text stays noted. -/
def RichTextStays (s t : State) : Prop := s.richTextUsed = true → t.richTextUsed = true

theorem composable_richTextStays :
    Composable fun {_ : Type} visit => ∀ s, RichTextStays s (visit s).2 where
  pure _ _ hs := hs
  check r s hs := by
    rw [check_apply]
    exact hs
  bind {_ _ x f} hx hf s hs := by
    have ht := hx s hs
    rw [bind_apply]
    rcases hr : x s with ⟨_ | a, t⟩ <;> rw [hr] at ht
    · exact ht
    · exact hf a t ht
  skip place _ _ _ s hs := by cases place <;> exact hs
  track _ _ _ hs := hs
  refuse target s hs := by obtain h | ⟨_, _, -, -, -, h⟩ := refuse_apply target s <;> rw [h] <;> exact hs
  noteRichText _ _ := rfl

theorem Standard.StateMet.of_keeps (hs : std.StateMet s) (hk : Keeps s t) (hrich : RichTextStays s t) :
    std.StateMet t where
  globals n d hm := (hs.globals n d (hk.globals ▸ hm)).of_le hrich
  scope u hu := (hs.scope u (hk.scope ▸ hu)).of_le hrich
  names := by
    rw [State.unionNames, hk.unions]
    exact hs.names

/-- What holds of the names of unions, and of every name that is made for a new one, holds of the name that a
union gets, and of all names after that. -/
theorem unionName_names {P : String → Prop} {style : Style} {uid : Json} {blocks : Blocks} {name : String}
    (hs : ∀ name ∈ s.unionNames, P name)
    (hnew : ∀ base name, Naming.declare? style.lead uid = .ok base → Naming.Extends base name → P name)
    (h : unionName style uid blocks s = (.ok name, t)) : P name ∧ ∀ name ∈ t.unionNames, P name := by
  rcases (unionName_ok h).2 with ⟨hfind, rfl⟩ | ⟨-, base, hbase, rfl, rfl⟩
  · obtain ⟨entry, hm, -, rfl⟩ := findUnion?_eq_some hfind
    exact ⟨hs _ (List.mem_map_of_mem hm), hs⟩
  · have hname := hnew base _ hbase (Naming.unique_extends base s.unionNames s.counter)
    refine ⟨hname, ?_⟩
    rw [State.unionNames, State.joined, List.map_append]
    exact List.forall_mem_append.2 ⟨hs, List.forall_mem_singleton.2 hname⟩

theorem Standard.StateMet.union {uid : Json} {blocks : Blocks} {result : Except Fault String}
    (hs : std.StateMet s) (hne : blocks ≠ []) (hb : ∀ entry ∈ blocks, std.BlockMet s.richTextUsed entry)
    (h : unionName input.style uid blocks s = (result, t)) :
    RichTextStays s t ∧ std.StateMet t ∧ ∀ name, result = .ok name → std.name name := by
  cases result with
  | error e =>
    rw [(unionName_fault h).1]
    exact ⟨id, hs, by simp⟩
  | ok name =>
    obtain ⟨hname, hnames⟩ := unionName_names hs.names (fun _ _ hb he => std.extended (std.named hb) he) h
    have hresult : ∀ other, Except.ok (ε := Fault) name = .ok other → std.name other := by
      rintro _ ⟨⟩
      exact hname
    rcases (unionName_ok h).2 with ⟨-, rfl⟩ | ⟨-, base, -, rfl, rfl⟩
    · exact ⟨id, hs, hresult⟩
    · refine ⟨id, ⟨hs.globals, ?_, hnames⟩, hresult⟩
      exact List.forall_mem_append.2 ⟨hs.scope, List.forall_mem_singleton.2 ⟨hname, hne, hb⟩⟩

theorem Standard.StateMet.opened (hs : std.StateMet s) (name : String) : std.StateMet (s.opened name) where
  globals n d hm := by
    rcases Table.mem_put hm with ⟨-, heq⟩ | hm
    · cases heq
    · exact hs.globals n d hm
  scope := by simp [State.opened]
  names := hs.names

theorem Standard.StateMet.closed {before : List BlockUnion} {name : String} {d : Declaration}
    (ht : std.StateMet t) (hscope : ∀ u ∈ before, std.UnionMet t.richTextUsed u)
    (hd : std.DeclarationMet t.richTextUsed d) : std.StateMet (t.closed before name d) where
  globals n d' hm := by
    rcases Table.mem_put hm with ⟨-, heq⟩ | hm
    · cases heq
      exact hd
    · exact ht.globals n d' hm
  scope := hscope
  names := ht.names

theorem Standard.description_met (std : Standard input) (target : Json) :
    std.description (input.descriptionOf target) := by
  unfold Input.descriptionOf
  cases hr : input.record? target with
  | none => exact std.undescribed
  | some r => exact std.described (List.mem_of_find?_eq_some hr)

theorem typedMember_met {field : Field} {b : Bool} (hf : .field field ∈ input.parts) (ht : std.type b type)
    (h : typedMember field.attrs type = .ok member) : std.MembersMet b member.toList := by
  obtain ⟨_, -, rfl⟩ := typedMember_ok h
  exact List.forall_mem_singleton.2 ⟨std.member hf, ht⟩

theorem repeatedMember_met {field : Field} {b : Bool} (hf : .field field ∈ input.parts) (ht : std.type b type)
    (h : repeatedMember field.attrs type = .ok member) : std.MembersMet b member.toList :=
  typedMember_met hf (std.repeated hf ht) h

/-- What a visit leaves and gives comes up to the standard. -/
structure Standard.VisitMet (std : Standard input) (task : Task) (s : State) (steps : List Step)
    (result : Except Fault task.Result) (t : State) : Prop where
  stays : RichTextStays s t
  state : std.StateMet t
  steps : std.StepsMet t.richTextUsed steps
  result : ∀ r, result = .ok r → std.ResultMet t.richTextUsed task r

theorem Standard.VisitMet.fault {std : Standard input} {e : Fault} (hstays : RichTextStays s t) (hs : std.StateMet t)
    (hm : std.StepsMet t.richTextUsed steps) : std.VisitMet task s steps (.error e) t :=
  ⟨hstays, hs, hm, fun _ h => by cases h⟩

theorem Standard.VisitMet.of_action {std : Standard input} {visit : Visit Unit} {r : task.Result}
    (hs : std.StateMet s) (hk : Keeps s (s.after visit)) (hrich : RichTextStays s (s.after visit))
    (hr : std.ResultMet (s.after visit).richTextUsed task r) :
    std.VisitMet task s [] (.ok r) (s.after visit) := by
  refine ⟨hrich, hs.of_keeps hk hrich, .nil, ?_⟩
  rintro _ ⟨⟩
  exact hr

theorem Standard.VisitMet.bind {std : Standard input} {task' : Task} {result : Except Fault task.Result}
    {f : task.Result → Except Fault task'.Result} (h : std.VisitMet task s steps result t)
    (hf : ∀ r r', std.ResultMet t.richTextUsed task r → f r = .ok r' → std.ResultMet t.richTextUsed task' r') :
    std.VisitMet task' s steps (result.bind f) t := by
  refine ⟨h.stays, h.state, h.steps, fun r' hr => ?_⟩
  obtain ⟨r, rfl, hr⟩ := ok_of_bind hr
  exact hf r r' (h.result r rfl) hr

theorem Standard.VisitMet.map {std : Standard input} {task' : Task} {result : Except Fault task.Result}
    {f : task.Result → task'.Result} (h : std.VisitMet task s steps result t)
    (hf : ∀ r, std.ResultMet t.richTextUsed task r → std.ResultMet t.richTextUsed task' (f r)) :
    std.VisitMet task' s steps (result.map f) t := by
  refine ⟨h.stays, h.state, h.steps, fun r' hr => ?_⟩
  obtain ⟨r, rfl, rfl⟩ := ok_of_map hr
  exact hf r (h.result r rfl)

theorem Standard.VisitMet.andThen {std : Standard input} {task' task'' : Task} {steps' : List Step}
    {first : task.Result} {result : Except Fault task'.Result} {f : task'.Result → task''.Result}
    (h : std.VisitMet task s steps (.ok first) t) (h' : std.VisitMet task' t steps' result u)
    (hf : std.ResultMet u.richTextUsed task first →
      ∀ r, std.ResultMet u.richTextUsed task' r → std.ResultMet u.richTextUsed task'' (f r)) :
    std.VisitMet task'' s (steps ++ steps') (result.map f) u :=
  have hrest := h'.map (hf ((h.result first rfl).of_le h'.stays))
  ⟨hrest.stays ∘ h.stays, hrest.state, (h.steps.of_le h'.stays).append hrest.steps, hrest.result⟩

theorem Visits.met_standard (std : Standard input) {result : Except Fault task.Result}
    (h : Visits input scope task s steps result t) (hw : task.Within input) (hd : std.TaskMet task)
    (hs : std.StateMet s) : std.VisitMet task s steps result t := by
  induction h with
  | fields_nil =>
    refine ⟨id, hs, .nil, ?_⟩
    rintro _ ⟨⟩
    exact fun _ h => by cases h
  | fields_fault _ ih =>
    have hfield := ih hw.head trivial hs
    exact .fault hfield.stays hfield.state hfield.steps
  | fields_cons _ _ ih ih' =>
    have hfield := ih hw.head trivial hs
    have hrest := ih' hw.tail trivial hfield.state
    exact (hfield.andThen hrest) fun hmember _ hmembers => List.forall_mem_append.2 ⟨hmember, hmembers⟩
  | field_fault => exact .fault id hs .nil
  | field_unusable =>
    exact .of_action hs ((quiet_skip _ _ _ _).keeps _) (composable_richTextStays.skip _ _ _ _ _)
      fun _ h => by cases h
  | @field_flat _ _ attrs _ _ s _ _ after _ hv hr =>
    have hk := (quiet_flatType hv).keeps s
    have hrich := composable_richTextStays.flatType hv s
    rw [hr] at hk hrich
    refine ⟨hrich, hs.of_keeps hk hrich, .nil, fun member hm => ?_⟩
    obtain ⟨type, rfl, hm⟩ := ok_of_bind hm
    obtain ⟨base, hflat, htype, hshows, hnoted⟩ := flatType_types hv _ _ _ hr
    have hbase : std.type after.richTextUsed base :=
      std.flat hw.mem_field hflat fun h => hnoted.2 (.inr (hshows.1 h))
    refine typedMember_met hw.mem_field ?_ hm
    rcases htype with rfl | rfl
    · exact hbase
    · exact std.repeated hw.mem_field hbase
  | field_group _ _ ih =>
    exact (ih (hw.group _) trivial hs).bind fun _ _ hmembers =>
      repeatedMember_met hw.mem_field (std.object hmembers)
  | field_target_fault => exact .fault id hs .nil
  | field_global _ _ _ ih =>
    refine (ih (hw.global _ _ _ _) trivial hs).bind fun type _ htype => repeatedMember_met hw.mem_field ?_
    cases type with
    | none => exact std.fallback
    | some type => exact htype type rfl
  | field_blocks_fault _ _ ih =>
    have hblocks := ih (hw.inner_blocks _) trivial hs
    exact .fault hblocks.stays hblocks.state hblocks.steps
  | field_no_blocks _ _ ih =>
    have hblocks := ih (hw.inner_blocks _) trivial hs
    exact ⟨hblocks.stays, hblocks.state, hblocks.steps, fun member hm =>
      repeatedMember_met hw.mem_field std.fallback hm⟩
  | field_union_fault _ _ hne hu ih =>
    have hblocks := ih (hw.inner_blocks _) trivial hs
    obtain ⟨hstays, hstate, -⟩ := hblocks.state.union hne (hblocks.result _ rfl) hu
    exact .fault (hstays ∘ hblocks.stays) hstate (hblocks.steps.of_le hstays)
  | @field_union _ _ _ _ _ _ _ members _ _ _ _ _ hne hu ih =>
    have hblocks := ih (hw.inner_blocks _) trivial hs
    have hkept : ∀ entry ∈ members, std.BlockMet _ entry := hblocks.result _ rfl
    obtain ⟨hstays, hstate, hname⟩ := hblocks.state.union hne hkept hu
    refine ⟨hstays ∘ hblocks.stays, hstate, (hblocks.steps.of_le hstays).append ?_, fun member hm =>
      repeatedMember_met hw.mem_field (std.declared (hname _ rfl)) hm⟩
    exact List.forall_mem_singleton.2 fun entry he => (hkept entry he).of_le hstays
  | blocks_nil =>
    refine ⟨id, hs, .nil, ?_⟩
    rintro _ ⟨⟩
    exact fun _ h => by cases h
  | blocks_fault _ ih =>
    have hblock := ih hw.head_block trivial hs
    exact .fault hblock.stays hblock.state hblock.steps
  | blocks_cons _ _ ih ih' =>
    have hblock := ih hw.head_block trivial hs
    have hrest := ih' hw.tail_block trivial hblock.state
    exact (hblock.andThen hrest) fun hmember _ hmembers => List.forall_mem_append.2 ⟨hmember, hmembers⟩
  | block_fault => exact .fault id hs .nil
  | block_unusable =>
    exact .of_action hs ((quiet_skip _ _ _ _).keeps _) (composable_richTextStays.skip _ _ _ _ _)
      fun _ h => by cases h
  | block_inline _ _ _ ih =>
    exact (ih (hw.inline _) trivial hs).map fun _ hmembers =>
      List.forall_mem_singleton.2 ⟨std.block hw.mem_block, std.object hmembers⟩
  | block_reference _ _ _ ih =>
    refine (ih (hw.reference _ _) trivial hs).map fun type htype => ?_
    cases type with
    | none => exact fun _ h => by cases h
    | some type => exact List.forall_mem_singleton.2 ⟨std.block hw.mem_block, htype type rfl⟩
  | reference_fault => exact .fault id hs .nil
  | reference_unusable =>
    exact .of_action hs ((quiet_refuseReference _ _ _ _).keeps _)
      (composable_richTextStays.refuseReference _ _ _ _ _) fun _ h => by cases h
  | reference_known hn =>
    refine ⟨id, ⟨hs.globals, hs.scope, hs.names⟩, .nil, ?_⟩
    rintro _ ⟨⟩ _ ⟨⟩
    exact std.declared (std.named hn)
  | reference_missing =>
    exact .of_action hs ((quiet_skip _ _ _ _).keeps _) (composable_richTextStays.skip _ _ _ _ _)
      fun _ h => by cases h
  | reference_fields_fault hn _ _ ho _ ih =>
    have hdeclare := ih (hw.origin ho _ _) ⟨std.named hn, std.description_met _⟩ hs
    exact .fault hdeclare.stays hdeclare.state hdeclare.steps
  | reference_built hn _ _ ho _ ih =>
    have hdeclare := ih (hw.origin ho _ _) ⟨std.named hn, std.description_met _⟩ hs
    refine ⟨hdeclare.stays, ⟨hdeclare.state.globals, hdeclare.state.scope, hdeclare.state.names⟩,
      hdeclare.steps.append .nil, ?_⟩
    rintro _ ⟨⟩ _ ⟨⟩
    exact std.declared (std.named hn)
  | declare_known => exact ⟨id, hs, .nil, fun _ _ => trivial⟩
  | declare_fault _ _ ih =>
    have hfields := ih (hw.origin_fields _) trivial (hs.opened _)
    refine .fault hfields.stays ⟨hfields.state.globals, ?_, hfields.state.names⟩ hfields.steps
    exact fun u hu => (hs.scope u hu).of_le hfields.stays
  | declare_built _ _ ih =>
    have hfields := ih (hw.origin_fields _) trivial (hs.opened _)
    refine ⟨hfields.stays, hfields.state.closed (fun u hu => (hs.scope u hu).of_le hfields.stays) ?_,
      hfields.steps, fun _ _ => trivial⟩
    exact ⟨hfields.state.scope, hd.1, hd.2, by simp, hfields.result _ rfl⟩

theorem recordName_met {record : Record} {uid name : String} (hs : std.StateMet s)
    (h : recordName input record s = (.ok (uid, name), t)) :
    t.richTextUsed = s.richTextUsed ∧ std.StateMet t ∧ std.name name := by
  cases recordName_ok h with
  | usable hu =>
    have hn : Naming.declare? input.style.lead record.uid = .ok (Naming.declare input.style.lead uid) := by
      rw [hu]
      rfl
    exact ⟨rfl, hs, std.named hn⟩
  | unusable hu =>
    have hn : Naming.declare? input.style.lead record.uid = .ok (Naming.declare input.style.lead uid) := by
      rw [hu]
      rfl
    exact ⟨rfl, ⟨hs.globals, hs.scope, hs.names⟩, std.placeholder (std.named hn)⟩

theorem Standard.StateMet.entered (hs : std.StateMet s) (name uid : String) : std.StateMet (s.entered name uid) :=
  ⟨hs.globals, by simp [State.entered], hs.names⟩

theorem Standard.StateMet.left {before : State} (hs : std.StateMet s) (hb : std.StateMet before)
    (hstays : RichTextStays before s) : std.StateMet (s.left before) :=
  ⟨hs.globals, fun u hu => (hb.scope u hu).of_le hstays, hs.names⟩

/-- What a pass over records leaves and gives comes up to the standard. -/
structure Standard.PassMet (std : Standard input) (s : State) (steps : List Step)
    (result : Except Fault (List Declaration)) (t : State) : Prop where
  stays : RichTextStays s t
  state : std.StateMet t
  steps : std.StepsMet t.richTextUsed steps
  declarations : ∀ ds, result = .ok ds → ∀ d ∈ ds, std.DeclarationMet t.richTextUsed d

theorem Passes.met_standard (std : Standard input) {position : Nat} {records : List Record}
    {result : Except Fault (List Declaration)} (h : Passes input position records s steps result t)
    (hsub : records ⊆ input.records) (hs : std.StateMet s) : std.PassMet s steps result t := by
  induction h with
  | nil =>
    refine ⟨id, hs, .nil, ?_⟩
    rintro _ ⟨⟩
    exact fun _ h => by cases h
  | name_fault hn =>
    rw [(recordName_fault hn).1]
    exact ⟨id, hs, .nil, fun _ h => by cases h⟩
  | bare _ hn _ _ ih =>
    obtain ⟨hrich, hmid, -⟩ := recordName_met hs hn
    have hrest := ih (List.cons_subset.1 hsub).2 hmid
    exact ⟨fun h => hrest.stays (hrich.trans h), hrest.state, hrest.steps, hrest.declarations⟩
  | global_fault _ hn _ hv =>
    have hr := (List.cons_subset.1 hsub).1
    obtain ⟨hrich, hmid, hname⟩ := recordName_met hs hn
    have hdeclare := hv.met_standard std (within_declare hr _ _) ⟨hname, std.described hr⟩ hmid
    exact ⟨fun h => hdeclare.stays (hrich.trans h), hdeclare.state, hdeclare.steps, fun _ h => by cases h⟩
  | global _ hn _ hv _ ih =>
    obtain ⟨hr, hrest⟩ := List.cons_subset.1 hsub
    obtain ⟨hrich, hmid, hname⟩ := recordName_met hs hn
    have hdeclare := hv.met_standard std (within_declare hr _ _) ⟨hname, std.described hr⟩ hmid
    have hends := ih hrest hdeclare.state
    exact ⟨fun h => hends.stays (hdeclare.stays (hrich.trans h)), hends.state,
      (hdeclare.steps.of_le hends.stays).append hends.steps, hends.declarations⟩
  | contentType_fault _ hn hv =>
    obtain ⟨hrich, hmid, -⟩ := recordName_met hs hn
    have hfields := hv.met_standard std (within_fields (List.cons_subset.1 hsub).1 _) trivial (hmid.entered _ _)
    exact ⟨fun h => hfields.stays (hrich.trans h), hfields.state.left hmid hfields.stays, hfields.steps,
      fun _ h => by cases h⟩
  | contentType _ hn hv _ ih =>
    obtain ⟨hr, hrest⟩ := List.cons_subset.1 hsub
    obtain ⟨hrich, hmid, hname⟩ := recordName_met hs hn
    have hfields := hv.met_standard std (within_fields hr _) trivial (hmid.entered _ _)
    have hends := ih hrest (hfields.state.left hmid hfields.stays)
    refine ⟨fun h => hends.stays (hfields.stays (hrich.trans h)), hends.state,
      (hfields.steps.of_le hends.stays).append hends.steps, fun ds hm => ?_⟩
    obtain ⟨rest, rfl, rfl⟩ := ok_of_map hm
    have hmain : std.DeclarationMet _ (State.contentType _ input _ _ _) :=
      ⟨hfields.state.scope, hname, std.described hr, id, hfields.result _ rfl⟩
    exact List.forall_mem_cons.2 ⟨hmain.of_le hends.stays, hends.declarations _ rfl⟩

theorem start_met (std : Standard input) (hs : start input = .ok s) : std.StateMet s := by
  obtain ⟨richTextUsed, rfl⟩ := start_eq hs
  exact ⟨by simp, by simp, by simp [State.unionNames]⟩

/-- Everything that a run puts out, and all blocks that it names unions for, come up to the standard. -/
theorem output_met (std : Standard input) {ds : List Declaration} (hs : start input = .ok s)
    (hp : Passes input 0 input.records s steps (.ok ds) t) :
    (∀ d ∈ (t.output input.style ds).globals ++ ds, std.DeclarationMet t.richTextUsed d) ∧
      std.StepsMet t.richTextUsed steps := by
  have hpass := hp.met_standard std (List.Subset.refl _) (start_met std hs)
  refine ⟨List.forall_mem_append.2 ⟨fun d hd => ?_, hpass.declarations ds rfl⟩, hpass.steps⟩
  obtain ⟨entry, he, rfl⟩ := List.mem_map.1 hd
  obtain ⟨⟨name, d?⟩, hm, hsome⟩ := List.mem_filterMap.1 he
  obtain ⟨d, rfl, rfl⟩ := Option.map_eq_some_iff.1 hsome
  exact hpass.state.globals name d hm

end SchemaDecl.Generation

import SchemaDecl.Schema.Census

/-!
# Looking for rich text

The look for a field that allows rich text goes through a list of fields in document order, into the fields of
groups and of blocks, and gives the first finding that is not negative. The fields that stand inline in a global
field are not looked at, so a field there that allows rich text is missed.
-/

namespace SchemaDecl

mutual

/-- The field and those inside of it in document order; the schema of a field is gone into if its kind is one
of `opens`, and the schemas of its blocks if it is a field of blocks. -/
def fieldWalk (opens : Kind → Bool) : Field → List Field
  | ⟨attrs, schema?, blocks⟩ =>
    ⟨attrs, schema?, blocks⟩ :: ((if opens attrs.kind then schemaWalk opens schema? else []) ++
      if attrs.kind = .blocks then blocksWalk opens blocks else [])

def fieldsWalk (opens : Kind → Bool) : List Field → List Field
  | [] => []
  | field :: rest => fieldWalk opens field ++ fieldsWalk opens rest

def schemaWalk (opens : Kind → Bool) : Option (List Field) → List Field
  | none => []
  | some fields => fieldsWalk opens fields

def blockWalk (opens : Kind → Bool) : Block → List Field
  | ⟨_, _, _, schema?⟩ => schemaWalk opens schema?

def blocksWalk (opens : Kind → Bool) : List Block → List Field
  | [] => []
  | block :: rest => blockWalk opens block ++ blocksWalk opens rest

end

/-- The fields inside of groups and of blocks are seen. -/
def isSeen (kind : Kind) : Bool := kind = .group

/-- The fields inside of groups, of global fields and of blocks can be reached. -/
def isReached (kind : Kind) : Bool := kind = .group || kind = .globalField

variable {opens : Kind → Bool}

/-- The other field can be reached in the global field. -/
def Field.Hides (field other : Field) : Prop :=
  field.attrs.kind = .globalField ∧ other ∈ schemaWalk isReached field.schema?

/-- One of the fields hides the other. -/
def Hidden (fields : List Field) (other : Field) : Prop := ∃ field ∈ fields, field.Hides other

variable {field other : Field} {fields fields' : List Field}

theorem hidden_cons : Hidden (field :: fields) other ↔ field.Hides other ∨ Hidden fields other := by
  simp [Hidden]

theorem hidden_append : Hidden (fields ++ fields') other ↔ Hidden fields other ∨ Hidden fields' other := by
  simp only [Hidden, List.mem_append, or_and_right, exists_or]

theorem hidden_nil : ¬ Hidden [] other := by
  simp [Hidden]

def SeenOrHidden (seen : List Field) (other : Field) : Prop := other ∈ seen ∨ Hidden seen other

theorem seenOrHidden_append :
    SeenOrHidden (fields ++ fields') other ↔ SeenOrHidden fields other ∨ SeenOrHidden fields' other := by
  rw [SeenOrHidden, List.mem_append, hidden_append, SeenOrHidden, SeenOrHidden, or_or_or_comm]

theorem seenOrHidden_cons : SeenOrHidden (field :: fields) other ↔
    other = field ∨ field.Hides other ∨ SeenOrHidden fields other := by
  rw [SeenOrHidden, List.mem_cons, hidden_cons, SeenOrHidden, or_assoc, or_left_comm (b := field.Hides other)]

theorem seenOrHidden_nil : ¬ SeenOrHidden [] other := not_or.2 ⟨List.not_mem_nil, hidden_nil⟩

mutual

theorem mem_fieldWalk_iff (other : Field) : ∀ field : Field,
    other ∈ fieldWalk isReached field ↔ SeenOrHidden (fieldWalk isSeen field) other
  | ⟨attrs, schema?, blocks⟩ => by
    rw [fieldWalk, fieldWalk, List.mem_cons, List.mem_append, seenOrHidden_cons, seenOrHidden_append, Field.Hides]
    cases hk : attrs.kind
    case group => simp [isReached, isSeen, mem_schemaWalk_iff other schema?, seenOrHidden_nil]
    case globalField => simp [isReached, isSeen, seenOrHidden_nil]
    case blocks => simp [isReached, isSeen, mem_blocksWalk_iff other blocks, seenOrHidden_nil]
    all_goals simp [isReached, isSeen, seenOrHidden_nil]

theorem mem_fieldsWalk_iff (other : Field) : ∀ fields : List Field,
    other ∈ fieldsWalk isReached fields ↔ SeenOrHidden (fieldsWalk isSeen fields) other
  | [] => by
    rw [fieldsWalk, fieldsWalk]
    exact iff_of_false List.not_mem_nil seenOrHidden_nil
  | field :: rest => by
    rw [fieldsWalk, fieldsWalk, List.mem_append, seenOrHidden_append, mem_fieldWalk_iff other field,
      mem_fieldsWalk_iff other rest]

theorem mem_schemaWalk_iff (other : Field) : ∀ schema? : Option (List Field),
    other ∈ schemaWalk isReached schema? ↔ SeenOrHidden (schemaWalk isSeen schema?) other
  | none => by
    rw [schemaWalk, schemaWalk]
    exact iff_of_false List.not_mem_nil seenOrHidden_nil
  | some fields => by rw [schemaWalk, schemaWalk, mem_fieldsWalk_iff other fields]

theorem mem_blockWalk_iff (other : Field) : ∀ block : Block,
    other ∈ blockWalk isReached block ↔ SeenOrHidden (blockWalk isSeen block) other
  | ⟨_, _, _, schema?⟩ => by rw [blockWalk, blockWalk, mem_schemaWalk_iff other schema?]

theorem mem_blocksWalk_iff (other : Field) : ∀ blocks : List Block,
    other ∈ blocksWalk isReached blocks ↔ SeenOrHidden (blocksWalk isSeen blocks) other
  | [] => by
    rw [blocksWalk, blocksWalk]
    exact iff_of_false List.not_mem_nil seenOrHidden_nil
  | block :: rest => by
    rw [blocksWalk, blocksWalk, List.mem_append, seenOrHidden_append, mem_blockWalk_iff other block,
      mem_blocksWalk_iff other rest]

end

mutual

theorem length_fieldWalk_le : ∀ field : Field, (fieldWalk opens field).length ≤ countField field
  | ⟨attrs, schema?, blocks⟩ => by
    have hschema := length_schemaWalk_le schema?
    have hblocks := length_blocksWalk_le blocks
    have hopened : (if opens attrs.kind then schemaWalk opens schema? else []).length ≤ countSchema schema? := by
      split
      · exact hschema
      · exact Nat.zero_le _
    have hmembers : (if attrs.kind = .blocks then blocksWalk opens blocks else []).length ≤ countBlocks blocks := by
      split
      · exact hblocks
      · exact Nat.zero_le _
    rw [fieldWalk, countField, List.length_cons, List.length_append]
    omega

theorem length_fieldsWalk_le : ∀ fields : List Field, (fieldsWalk opens fields).length ≤ countFields fields
  | [] => by simp [fieldsWalk]
  | field :: rest => by
    rw [fieldsWalk, countFields, List.length_append]
    exact Nat.add_le_add (length_fieldWalk_le field) (length_fieldsWalk_le rest)

theorem length_schemaWalk_le : ∀ schema? : Option (List Field),
    (schemaWalk opens schema?).length ≤ countSchema schema?
  | none => by simp [schemaWalk]
  | some fields => by
    rw [schemaWalk, countSchema]
    exact length_fieldsWalk_le fields

theorem length_blockWalk_le : ∀ block : Block, (blockWalk opens block).length ≤ countBlock block
  | ⟨_, _, _, schema?⟩ => by
    rw [blockWalk, countBlock]
    exact length_schemaWalk_le schema?

theorem length_blocksWalk_le : ∀ blocks : List Block, (blocksWalk opens blocks).length ≤ countBlocks blocks
  | [] => by simp [blocksWalk]
  | block :: rest => by
    rw [blocksWalk, countBlocks, List.length_append]
    exact Nat.add_le_add (length_blockWalk_le block) (length_blocksWalk_le rest)

end

/-- What the field itself tells of rich text; only a json field tells of it. -/
def Field.richText (field : Field) : Except Fault Bool :=
  if field.attrs.kind = .json then field.attrs.allowsRichText else .ok false

/-- The first finding that is not negative, if there is one. -/
def firstFinding (findings : List (Except Fault Bool)) : Except Fault Bool := findings.foldr orFind (.ok false)

variable {finding : Except Fault Bool} {findings : List (Except Fault Bool)}

theorem orFind_assoc (a b c : Except Fault Bool) : orFind (orFind a b) c = orFind a (orFind b c) := by
  rcases a with _ | (_ | _) <;> rfl

theorem orFind_false (found : Except Fault Bool) : orFind found (.ok false) = found := by
  rcases found with _ | (_ | _) <;> rfl

theorem orFind_of_ne {found : Except Fault Bool} (h : found ≠ .ok false) (second : Except Fault Bool) :
    orFind found second = found := by
  rcases found with _ | (_ | _)
  · rfl
  · exact absurd rfl h
  · rfl

theorem firstFinding_append (findings findings' : List (Except Fault Bool)) :
    firstFinding (findings ++ findings') = orFind (firstFinding findings) (firstFinding findings') := by
  induction findings with
  | nil => rfl
  | cons found rest ih =>
    unfold firstFinding at ih ⊢
    rw [List.cons_append, List.foldr_cons, List.foldr_cons, ih, orFind_assoc]

theorem firstFinding_eq_false_iff : firstFinding findings = .ok false ↔ ∀ found ∈ findings, found = .ok false := by
  induction findings with
  | nil => simp [firstFinding]
  | cons found rest ih =>
    rw [firstFinding, List.foldr_cons, ← firstFinding, List.forall_mem_cons, ← ih]
    by_cases hf : found = .ok false
    · subst hf
      exact (and_iff_right rfl).symm
    · rw [orFind_of_ne hf]
      exact iff_of_false hf fun h => hf h.1

theorem firstFinding_eq_iff (hne : finding ≠ .ok false) :
    firstFinding findings = finding ↔
      ∃ before after, findings = before ++ finding :: after ∧ ∀ found ∈ before, found = .ok false := by
  induction findings with
  | nil =>
    refine iff_of_false hne.symm ?_
    rintro ⟨before, after, h, -⟩
    cases before <;> cases h
  | cons found rest ih =>
    rw [firstFinding, List.foldr_cons, ← firstFinding]
    by_cases hf : found = .ok false
    · subst hf
      refine ih.trans ⟨?_, ?_⟩
      · rintro ⟨before, after, rfl, hbefore⟩
        exact ⟨.ok false :: before, after, rfl, List.forall_mem_cons.2 ⟨rfl, hbefore⟩⟩
      · rintro ⟨before, after, h, hbefore⟩
        cases before with
        | nil => exact absurd (List.cons.inj h).1.symm hne
        | cons first before =>
          exact ⟨before, after, (List.cons.inj h).2, (List.forall_mem_cons.1 hbefore).2⟩
    · rw [orFind_of_ne hf]
      constructor
      · rintro rfl
        exact ⟨[], rest, rfl, by simp⟩
      · rintro ⟨before, after, h, hbefore⟩
        cases before with
        | nil => exact (List.cons.inj h).1
        | cons first before =>
          have hfirst := (List.forall_mem_cons.1 hbefore).1
          exact absurd ((List.cons.inj h).1.trans hfirst) hf

mutual

theorem fieldRichText_eq : ∀ field : Field,
    fieldRichText field = firstFinding ((fieldWalk isSeen field).map Field.richText)
  | ⟨attrs, schema?, blocks⟩ => by
    rw [fieldRichText, fieldWalk, List.map_cons, firstFinding, List.foldr_cons, ← firstFinding, List.map_append,
      firstFinding_append, Field.richText]
    cases hk : attrs.kind
    case json => exact (orFind_false _).symm
    case group =>
      rw [schemaRichText_eq schema?]
      exact (orFind_false _).symm
    case blocks => exact blocksRichText_eq blocks
    all_goals rfl

theorem fieldsRichText_eq : ∀ fields : List Field,
    fieldsRichText fields = firstFinding ((fieldsWalk isSeen fields).map Field.richText)
  | [] => by rw [fieldsRichText, fieldsWalk]; rfl
  | field :: rest => by
    rw [fieldsRichText, fieldsWalk, List.map_append, firstFinding_append, fieldRichText_eq field,
      fieldsRichText_eq rest]

theorem schemaRichText_eq : ∀ schema? : Option (List Field),
    schemaRichText schema? = firstFinding ((schemaWalk isSeen schema?).map Field.richText)
  | none => by rw [schemaRichText, schemaWalk]; rfl
  | some fields => by rw [schemaRichText, schemaWalk, fieldsRichText_eq fields]

theorem blockRichText_eq : ∀ block : Block,
    blockRichText block = firstFinding ((blockWalk isSeen block).map Field.richText)
  | ⟨_, _, _, schema?⟩ => by rw [blockRichText, blockWalk, schemaRichText_eq schema?]

theorem blocksRichText_eq : ∀ blocks : List Block,
    blocksRichText blocks = firstFinding ((blocksWalk isSeen blocks).map Field.richText)
  | [] => by rw [blocksRichText, blocksWalk]; rfl
  | block :: rest => by
    rw [blocksRichText, blocksWalk, List.map_append, firstFinding_append, blockRichText_eq block,
      blocksRichText_eq rest]

end

theorem fieldsRichText_eq_iff {fields : List Field} (hne : finding ≠ .ok false) :
    fieldsRichText fields = finding ↔ ∃ (before : List Field) (field : Field) (after : List Field),
      fieldsWalk isSeen fields = before ++ field :: after ∧ field.richText = finding ∧
        ∀ other ∈ before, other.richText = .ok false := by
  rw [fieldsRichText_eq, firstFinding_eq_iff hne]
  constructor
  · rintro ⟨before, after, h, hbefore⟩
    obtain ⟨front, rear, hwalk, rfl, hrear⟩ := List.map_eq_append_iff.1 h
    obtain ⟨field, rest, rfl, hfield, -⟩ := List.map_eq_cons_iff.1 hrear
    exact ⟨front, field, rest, hwalk, hfield, List.forall_mem_map.1 hbefore⟩
  · rintro ⟨before, field, after, hwalk, rfl, hbefore⟩
    exact ⟨before.map Field.richText, after.map Field.richText, by simp [hwalk], List.forall_mem_map.2 hbefore⟩

/-- The look for rich text finds it exactly if a field that is seen allows it, and no field before that one has
metadata that cannot be looked into; it is negative exactly if all that is seen is. A field that can be reached
and allows rich text is missed exactly if such fields are only found inline in global fields. -/
theorem fieldsRichText_finds (fields : List Field) :
    (fieldsRichText fields = .ok true ↔ ∃ (before : List Field) (field : Field) (after : List Field),
      fieldsWalk isSeen fields = before ++ field :: after ∧ field.richText = .ok true ∧
        ∀ other ∈ before, other.richText = .ok false) ∧
    (∀ e, fieldsRichText fields = .error e ↔ ∃ (before : List Field) (field : Field) (after : List Field),
      fieldsWalk isSeen fields = before ++ field :: after ∧ field.richText = .error e ∧
        ∀ other ∈ before, other.richText = .ok false) ∧
    (fieldsRichText fields = .ok false ↔ ∀ field ∈ fieldsWalk isSeen fields, field.richText = .ok false) ∧
    ((∃ field ∈ fieldsWalk isReached fields, field.richText = .ok true) ↔
      (∃ field ∈ fieldsWalk isSeen fields, field.richText = .ok true) ∨
        ∃ holder ∈ fieldsWalk isSeen fields, holder.attrs.kind = .globalField ∧
          ∃ field ∈ schemaWalk isReached holder.schema?, field.richText = .ok true) ∧
    (fieldsWalk isReached fields).length ≤ countFields fields := by
  refine ⟨fieldsRichText_eq_iff (by simp), fun e => fieldsRichText_eq_iff (by simp), ?_, ?_,
    length_fieldsWalk_le fields⟩
  · rw [fieldsRichText_eq, firstFinding_eq_false_iff, List.forall_mem_map]
  · constructor
    · rintro ⟨field, hm, hrich⟩
      rcases (mem_fieldsWalk_iff field fields).1 hm with hseen | ⟨holder, hholder, hkind, hinside⟩
      · exact .inl ⟨field, hseen, hrich⟩
      · exact .inr ⟨holder, hholder, hkind, field, hinside, hrich⟩
    · rintro (⟨field, hseen, hrich⟩ | ⟨holder, hholder, hkind, field, hinside, hrich⟩)
      · exact ⟨field, (mem_fieldsWalk_iff field fields).2 (.inl hseen), hrich⟩
      · exact ⟨field, (mem_fieldsWalk_iff field fields).2 (.inr ⟨holder, hholder, hkind, hinside⟩), hrich⟩

/-- A global field whose only field, which stands inline, allows rich text. -/
def hiddenRichText : List Field :=
  let body : Field :=
    ⟨{ uid := .text "body", kind := .json, tag := "json",
       metadata := .object [("allow_json_rte", .bool true)] }, none, []⟩
  [⟨{ uid := .text "seo", kind := .globalField, tag := "global_field" }, some [body], []⟩]

theorem hiddenRichText_missed :
    fieldsRichText hiddenRichText = .ok false ∧
      ∃ field ∈ fieldsWalk isReached hiddenRichText, field.richText = .ok true := by
  refine ⟨by simp [hiddenRichText, fieldsRichText, fieldRichText, orFind], ?_⟩
  simp [hiddenRichText, fieldsWalk, fieldWalk, schemaWalk, isReached, Field.richText, Attributes.allowsRichText,
    Attributes.metadata?, Entries.getD, Table.get?, Except.map, Json.truthy]

end SchemaDecl

import SchemaDecl.Proofs.Generation.WellTyped
import SchemaDecl.Schema.Reader

/-!
# Well-typed exports

A schema export is well typed if every entry that a reader makes something of is absent or holds a value of
the type that it should have. Whether an export is can be computed. Then it can be read, and the records
that are read are well typed.
-/

namespace SchemaDecl

open Generation (Part fieldParts fieldsParts schemaParts blockParts blocksParts)

namespace Json

def isText : Json → Bool
  | text _ => true
  | _ => false

def isTexts : Json → Bool
  | list items => items.all isText
  | _ => false

def isObject : Json → Bool
  | object _ => true
  | _ => false

def isObjects : Json → Bool
  | list items => items.all isObject
  | _ => false

theorem isText_iff {value : Json} : value.isText = true ↔ ∃ s, value = .text s := by
  cases value <;> simp [isText]

theorem isTexts_iff {value : Json} :
    value.isTexts = true ↔ ∃ texts : List String, value = .list (texts.map text) := by
  constructor
  · intro h
    cases value with
    | list items =>
      rw [isTexts, List.all_eq_true] at h
      have hdisplay : items.map (text ∘ display) = items.map id := by
        refine List.map_congr_left fun item hm => ?_
        obtain ⟨s, rfl⟩ := isText_iff.1 (h item hm)
        rfl
      refine ⟨items.map display, congrArg list ?_⟩
      rw [List.map_map, hdisplay, List.map_id]
    | _ => cases h
  · rintro ⟨texts, rfl⟩
    simp [isTexts, isText]

theorem isObject_iff {value : Json} : value.isObject = true ↔ ∃ entries, value = .object entries := by
  cases value <;> simp [isObject]

end Json

def missingOr (is : Json → Bool) (value : Json) : Bool := value == .null || is value

theorem missingOr_iff {is : Json → Bool} {value : Json} :
    missingOr is value = true ↔ value = .null ∨ is value = true := by
  rw [missingOr, Bool.or_eq_true]
  exact or_congr_left Json.beq_iff_eq

/-- The list of choices of a field, if there is one, is a list of objects. -/
def isChoices : Json → Bool
  | .object entries => missingOr Json.isObjects (Entries.getD "choices" entries)
  | _ => false

/-- What a field says of itself has the types that it should have. -/
def areAttributes (entries : Entries) : Bool :=
  (Table.get? "uid" entries).all Json.isText &&
  (Table.get? "data_type" entries).all Json.isText &&
  missingOr (fun target => target.isText || target.isTexts) (Entries.getD "reference_to" entries) &&
  missingOr isChoices (Entries.getD "enum" entries) &&
  missingOr Json.isObject (Entries.getD "field_metadata" entries) &&
  missingOr Json.isObject (Entries.getD "config" entries) &&
  missingOr Json.isText (Entries.getD "display_type" entries)

mutual

def isField : Json → Bool
  | .object entries => areAttributes entries && isSchemaEntry entries && isBlocksEntry entries
  | _ => false

def areFields : List Json → Bool
  | [] => true
  | item :: rest => isField item && areFields rest

/-- The entry `schema`, if there is one, is a list of fields. -/
def isSchemaEntry : List (String × Json) → Bool
  | [] => true
  | (key, value) :: rest => if key = "schema" then isSchema value else isSchemaEntry rest

def isSchema : Json → Bool
  | .list items => areFields items
  | .null => true
  | _ => false

def isBlock : Json → Bool
  | .object entries => (Table.get? "uid" entries).all Json.isText &&
      missingOr Json.isText (Entries.getD "reference_to" entries) && isSchemaEntry entries
  | _ => false

def areBlocks : List Json → Bool
  | [] => true
  | item :: rest => isBlock item && areBlocks rest

/-- The entry `blocks`, if there is one, is a list of blocks. -/
def isBlocksEntry : List (String × Json) → Bool
  | [] => true
  | (key, value) :: rest => if key = "blocks" then isBlocks value else isBlocksEntry rest

def isBlocks : Json → Bool
  | .list items => areBlocks items
  | .null => true
  | _ => false

end

def isRecord : Json → Bool
  | .object entries => (Table.get? "uid" entries).all Json.isText && isSchemaEntry entries
  | _ => false

def areRecords : Json → Bool
  | .list items => items.all isRecord
  | _ => false

/-- The export has one of the forms that can be read, and is well typed throughout. -/
def isPayload (payload : Json) : Bool :=
  match payload with
  | .list items => items.all isRecord
  | .object entries =>
    if Table.has "content_types" entries || Table.has "global_fields" entries then
      missingOr areRecords (Entries.getD "global_fields" entries) &&
        missingOr areRecords (Entries.getD "content_types" entries)
    else isRecord ((Table.get? "content_type" entries).getD payload)
  | _ => false

theorem getD_text {value? : Option Json} (h : value?.all Json.isText = true) :
    ∃ s, value?.getD (.text "") = .text s := by
  cases value? with
  | none => exact ⟨"", rfl⟩
  | some value => exact Json.isText_iff.1 h

theorem mapM_total {α β : Type} {read : α → Except Fault β} {good : β → Prop} {items : List α}
    (h : ∀ item ∈ items, ∃ b, read item = .ok b ∧ good b) :
    ∃ bs, items.mapM read = .ok bs ∧ ∀ b ∈ bs, good b := by
  induction items with
  | nil => exact ⟨[], rfl, by simp⟩
  | cons item rest ih =>
    obtain ⟨hitem, hrest⟩ := List.forall_mem_cons.1 h
    obtain ⟨b, hb, hgood⟩ := hitem
    obtain ⟨bs, hbs, hgoods⟩ := ih hrest
    refine ⟨b :: bs, by rw [List.mapM_cons, hb, hbs]; rfl, ?_⟩
    exact List.forall_mem_cons.2 ⟨hgood, hgoods⟩

theorem choiceValues_ok {items : List Json} (h : items.all Json.isObject = true) :
    ∃ values, items.mapM choiceValue = .ok values := by
  have hread : ∀ item ∈ items, ∃ value, choiceValue item = .ok value ∧ True := by
    intro item hm
    obtain ⟨entries, rfl⟩ := Json.isObject_iff.1 (List.all_eq_true.1 h item hm)
    exact ⟨Entries.getD "value" entries, rfl, trivial⟩
  obtain ⟨values, hvalues, -⟩ := mapM_total hread
  exact ⟨values, hvalues⟩

theorem readChoices_ok {value : Json} (h : missingOr isChoices value = true) :
    ∃ choices, readChoices value = .ok choices := by
  rcases missingOr_iff.1 h with rfl | h
  · exact ⟨none, rfl⟩
  cases value with
  | object entries =>
    rw [readChoices]
    split
    next => exact ⟨none, rfl⟩
    next ht =>
      rcases missingOr_iff.1 h with hn | hn
      · simp [hn, Json.truthy] at ht
      · generalize Entries.getD "choices" entries = choices at hn
        cases choices with
        | list items =>
          obtain ⟨values, hvalues⟩ := choiceValues_ok hn
          exact ⟨some values, congrArg (Except.map some) hvalues⟩
        | _ => cases hn
  | _ => cases h

theorem orElse_object {value : Json} (h : missingOr Json.isObject value = true) :
    ∃ entries, value.orElse (.object []) = .object entries := by
  unfold Json.orElse
  split
  next ht =>
    rcases missingOr_iff.1 h with rfl | h
    · cases ht
    · exact Json.isObject_iff.1 h
  next => exact ⟨[], rfl⟩

theorem readAttributes_wellTyped {entries : Entries} (h : areAttributes entries = true)
    (choices : Option (List Json)) : (readAttributes entries choices).WellTyped := by
  unfold areAttributes at h
  simp only [Bool.and_eq_true] at h
  obtain ⟨⟨⟨⟨⟨⟨huid, -⟩, htarget⟩, -⟩, hmetadata⟩, -⟩, hdisplay⟩ := h
  refine ⟨getD_text huid, ?_, orElse_object hmetadata, ?_⟩
  · refine (missingOr_iff.1 htarget).imp_right fun h => ?_
    rw [Bool.or_eq_true, Json.isText_iff, Json.isTexts_iff] at h
    exact h
  · exact (missingOr_iff.1 hdisplay).imp_right Json.isText_iff.1

mutual

theorem readField_wellTyped : ∀ value, isField value = true →
    ∃ field, readField value = .ok field ∧ ∀ part ∈ fieldParts field, part.WellTyped
  | .object entries, h => by
    rw [isField, Bool.and_eq_true, Bool.and_eq_true] at h
    obtain ⟨⟨hattrs, hschema⟩, hblocks⟩ := h
    obtain ⟨choices, hchoices⟩ : ∃ choices, readChoices (Entries.getD "enum" entries) = .ok choices := by
      unfold areAttributes at hattrs
      simp only [Bool.and_eq_true] at hattrs
      exact readChoices_ok hattrs.1.1.1.2
    obtain ⟨schema?, hs, hschema⟩ := readSchema_wellTyped entries hschema
    obtain ⟨blocks, hb, hblocks⟩ := readBlocksEntry_wellTyped entries hblocks
    refine ⟨⟨readAttributes entries choices, schema?, blocks⟩, by rw [readField, hchoices, hs, hb]; rfl, ?_⟩
    rw [fieldParts, List.forall_mem_cons, List.forall_mem_append]
    exact ⟨readAttributes_wellTyped hattrs choices, hschema, hblocks⟩
  | .null, h | .bool _, h | .int _, h | .float _, h | .text _, h | .list _, h => by simp [isField] at h

theorem readFields_wellTyped : ∀ items, areFields items = true →
    ∃ fields, readFields items = .ok fields ∧ ∀ part ∈ fieldsParts fields, part.WellTyped
  | [], _ => ⟨[], by rw [readFields], by simp [fieldsParts]⟩
  | item :: rest, h => by
    rw [areFields, Bool.and_eq_true] at h
    obtain ⟨field, hf, hfield⟩ := readField_wellTyped item h.1
    obtain ⟨fields, hr, hrest⟩ := readFields_wellTyped rest h.2
    refine ⟨field :: fields, by rw [readFields, hf, hr]; rfl, ?_⟩
    rw [fieldsParts, List.forall_mem_append]
    exact ⟨hfield, hrest⟩

theorem readSchema_wellTyped : ∀ entries, isSchemaEntry entries = true →
    ∃ schema?, readSchema entries = .ok schema? ∧ ∀ part ∈ schemaParts schema?, part.WellTyped
  | [], _ => ⟨none, by rw [readSchema], by simp [schemaParts]⟩
  | (key, value) :: rest, h => by
    rw [isSchemaEntry] at h
    rw [readSchema]
    split at h
    next hk =>
      rw [if_pos hk]
      exact readSchemaValue_wellTyped value h
    next hk =>
      rw [if_neg hk]
      exact readSchema_wellTyped rest h

theorem readSchemaValue_wellTyped : ∀ value, isSchema value = true →
    ∃ schema?, readSchemaValue value = .ok schema? ∧ ∀ part ∈ schemaParts schema?, part.WellTyped
  | .list items, h => by
    rw [isSchema] at h
    obtain ⟨fields, hf, hfields⟩ := readFields_wellTyped items h
    exact ⟨some fields, by rw [readSchemaValue, hf]; rfl, by rwa [schemaParts]⟩
  | .null, _ => ⟨none, by simp [readSchemaValue], by simp [schemaParts]⟩
  | .bool _, h | .int _, h | .float _, h | .text _, h | .object _, h => by simp [isSchema] at h

theorem readBlock_wellTyped : ∀ value, isBlock value = true →
    ∃ block, readBlock value = .ok block ∧ ∀ part ∈ blockParts block, part.WellTyped
  | .object entries, h => by
    rw [isBlock, Bool.and_eq_true, Bool.and_eq_true] at h
    obtain ⟨⟨huid, htarget⟩, hschema⟩ := h
    obtain ⟨schema?, hs, hschema⟩ := readSchema_wellTyped entries hschema
    refine ⟨_, by rw [readBlock, hs]; rfl, ?_⟩
    rw [blockParts, List.forall_mem_cons]
    exact ⟨⟨getD_text huid, (missingOr_iff.1 htarget).imp_right Json.isText_iff.1⟩, hschema⟩
  | .null, h | .bool _, h | .int _, h | .float _, h | .text _, h | .list _, h => by simp [isBlock] at h

theorem readBlocks_wellTyped : ∀ items, areBlocks items = true →
    ∃ blocks, readBlocks items = .ok blocks ∧ ∀ part ∈ blocksParts blocks, part.WellTyped
  | [], _ => ⟨[], by rw [readBlocks], by simp [blocksParts]⟩
  | item :: rest, h => by
    rw [areBlocks, Bool.and_eq_true] at h
    obtain ⟨block, hb, hblock⟩ := readBlock_wellTyped item h.1
    obtain ⟨blocks, hr, hrest⟩ := readBlocks_wellTyped rest h.2
    refine ⟨block :: blocks, by rw [readBlocks, hb, hr]; rfl, ?_⟩
    rw [blocksParts, List.forall_mem_append]
    exact ⟨hblock, hrest⟩

theorem readBlocksEntry_wellTyped : ∀ entries, isBlocksEntry entries = true →
    ∃ blocks, readBlocksEntry entries = .ok blocks ∧ ∀ part ∈ blocksParts blocks, part.WellTyped
  | [], _ => ⟨[], by rw [readBlocksEntry], by simp [blocksParts]⟩
  | (key, value) :: rest, h => by
    rw [isBlocksEntry] at h
    rw [readBlocksEntry]
    split at h
    next hk =>
      rw [if_pos hk]
      exact readBlocksValue_wellTyped value h
    next hk =>
      rw [if_neg hk]
      exact readBlocksEntry_wellTyped rest h

theorem readBlocksValue_wellTyped : ∀ value, isBlocks value = true →
    ∃ blocks, readBlocksValue value = .ok blocks ∧ ∀ part ∈ blocksParts blocks, part.WellTyped
  | .list items, h => by
    rw [isBlocks] at h
    rw [readBlocksValue]
    exact readBlocks_wellTyped items h
  | .null, _ => ⟨[], by simp [readBlocksValue, Json.truthy], by simp [blocksParts]⟩
  | .bool _, h | .int _, h | .float _, h | .text _, h | .object _, h => by simp [isBlocks] at h

end

structure Record.WellTyped (r : Record) : Prop where
  uid : ∃ s, r.uid = .text s
  parts : ∀ part ∈ fieldsParts r.fields, part.WellTyped

theorem readRecord_wellTyped {raw : Json} (h : isRecord raw = true) :
    ∃ r, readRecord raw = .ok r ∧ r.WellTyped := by
  cases raw with
  | object entries =>
    rw [isRecord, Bool.and_eq_true] at h
    obtain ⟨schema?, hs, hschema⟩ := readSchema_wellTyped entries h.2
    refine ⟨_, by rw [readRecord, hs]; rfl, getD_text h.1, ?_⟩
    rw [Record.fields, Generation.fieldsParts_getD]
    exact hschema
  | _ => cases h

theorem isSchemaEntry_put {key : String} (hk : key ≠ "schema") (value : Json) (entries : Entries) :
    isSchemaEntry (Table.put key value entries) = isSchemaEntry entries := by
  induction entries with
  | nil => simp [Table.put, isSchemaEntry, hk]
  | cons entry rest ih =>
    obtain ⟨other, old⟩ := entry
    rw [Table.put]
    split
    next ho => rw [isSchemaEntry, isSchemaEntry, ho, if_neg hk, if_neg hk]
    next => rw [isSchemaEntry, isSchemaEntry, ih]

theorem readGlobal_wellTyped {raw : Json} (h : isRecord raw = true) :
    ∃ r, readGlobal raw = .ok r ∧ r.WellTyped := by
  cases raw with
  | object entries =>
    have hput : isRecord (.object (Table.put "schema_type" globalTag entries)) = true := by
      rw [isRecord, isSchemaEntry_put (by decide), Table.get?_put, if_neg (by decide)]
      exact h
    exact readRecord_wellTyped hput
  | _ => cases h

theorem readAll_wellTyped {read : Json → Except Fault Record} {items : List Json}
    (hread : ∀ raw, isRecord raw = true → ∃ r, read raw = .ok r ∧ r.WellTyped)
    (h : items.all isRecord = true) :
    ∃ records, items.mapM read = .ok records ∧ ∀ r ∈ records, r.WellTyped :=
  mapM_total fun item hm => hread item (List.all_eq_true.1 h item hm)

theorem readMany_wellTyped {read : Json → Except Fault Record} {value : Json}
    (hread : ∀ raw, isRecord raw = true → ∃ r, read raw = .ok r ∧ r.WellTyped)
    (h : missingOr areRecords value = true) :
    ∃ records, readMany read value = .ok records ∧ ∀ r ∈ records, r.WellTyped := by
  rcases missingOr_iff.1 h with rfl | h
  · exact ⟨[], rfl, by simp⟩
  cases value with
  | list items =>
    unfold readMany
    split
    · exact ⟨[], rfl, by simp⟩
    · exact readAll_wellTyped hread h
  | _ => cases h

theorem readPayload_wellTyped {payload : Json} (h : isPayload payload = true) :
    ∃ records, readPayload payload = .ok records ∧ ∀ r ∈ records, r.WellTyped := by
  cases payload with
  | list items => exact readAll_wellTyped (fun _ => readRecord_wellTyped) h
  | object entries =>
    rw [isPayload] at h
    rw [readPayload]
    split at h
    next hk =>
      rw [Bool.and_eq_true] at h
      obtain ⟨globals, hg, hglobals⟩ := readMany_wellTyped (fun _ => readGlobal_wellTyped) h.1
      obtain ⟨contentTypes, hc, hcontentTypes⟩ := readMany_wellTyped (fun _ => readRecord_wellTyped) h.2
      refine ⟨globals ++ contentTypes, ?_, List.forall_mem_append.2 ⟨hglobals, hcontentTypes⟩⟩
      rw [if_pos hk, hg, hc]
      rfl
    next hk =>
      obtain ⟨r, hr, hw⟩ := readRecord_wellTyped h
      refine ⟨[r], ?_, List.forall_mem_singleton.2 hw⟩
      rw [if_neg hk]
      exact congrArg (Except.map fun r => [r]) hr
  | _ => cases h

end SchemaDecl

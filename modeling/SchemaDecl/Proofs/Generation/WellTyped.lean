import Mathlib.Data.List.Nodup
import SchemaDecl.Proofs.Generation.Parts
import SchemaDecl.Proofs.Naming.Heads

/-!
# Well-typed documents

In a well-typed document uids and targets are texts, and nothing that a visit asks of it is refused. In an
orderly one, besides, each of them has a name of its own and global fields are declared from records only.
Then a name belongs to one record, which is the only one to build it from.
-/

namespace SchemaDecl

structure Attributes.WellTyped (a : Attributes) : Prop where
  uid : ∃ s, a.uid = .text s
  target : a.target = .null ∨ (∃ s, a.target = .text s) ∨
    ∃ texts : List String, a.target = .list (texts.map Json.text)
  metadata : ∃ entries, a.metadata = .object entries
  displayType : a.displayType = .null ∨ ∃ s, a.displayType = .text s

structure Block.WellTyped (b : Block) : Prop where
  uid : ∃ s, b.uid = .text s
  target : b.target = .null ∨ ∃ s, b.target = .text s

theorem Block.WellTyped.text_of_truthy {block : Block} (h : block.WellTyped)
    (ht : block.target.truthy = true) : ∃ s, block.target = .text s := by
  refine h.target.resolve_left fun hnull => ?_
  rw [hnull] at ht
  cases ht

namespace Attributes.WellTyped

variable {a : Attributes}

theorem targets (h : a.WellTyped) : ∃ texts : List String, a.targets = .ok (texts.map Json.text) := by
  unfold Attributes.targets
  rcases h.target with ht | ⟨s, ht⟩ | ⟨texts, ht⟩
  · exact ⟨[], by rw [ht]; rfl⟩
  · by_cases hs : s = ""
    · exact ⟨[], by rw [ht, hs]; rfl⟩
    · exact ⟨[s], by rw [ht]; simp [Json.truthy, hs]⟩
  · refine ⟨texts.filter fun s => s != "", ?_⟩
    rw [ht]
    cases texts with
    | nil => rfl
    | cons first rest =>
      rw [if_neg (by simp [Json.truthy])]
      simp only [List.filter_map]
      rfl

theorem globalTarget (h : a.WellTyped) : ∃ s, Generation.globalTarget a = .ok (.text s) := by
  obtain ⟨texts, ht⟩ := h.targets
  obtain ⟨uid, hu⟩ := h.uid
  rw [Generation.globalTarget, ht, hu]
  cases texts with
  | nil => exact ⟨uid, rfl⟩
  | cons first rest => exact ⟨first, rfl⟩

theorem metadata? (h : a.WellTyped) (key : String) : ∃ value, a.metadata? key = .ok value := by
  obtain ⟨entries, hm⟩ := h.metadata
  exact ⟨Entries.getD key entries, by rw [Attributes.metadata?, hm]⟩

theorem isExtension (h : a.WellTyped) : ∃ b, a.isExtension = .ok b := by
  obtain ⟨value, hv⟩ := h.metadata? "extension"
  unfold Attributes.isExtension
  split
  · exact ⟨value.truthy, by rw [hv]; rfl⟩
  · exact ⟨_, rfl⟩

theorem allowsRichText (h : a.WellTyped) : ∃ b, a.allowsRichText = .ok b := by
  obtain ⟨value, hv⟩ := h.metadata? "allow_json_rte"
  exact ⟨value.truthy, by rw [Attributes.allowsRichText, hv]; rfl⟩

theorem isNullable (h : a.WellTyped) : ∃ b, Generation.isNullable a = .ok b := by
  unfold Generation.isNullable
  split
  · exact ⟨_, rfl⟩
  · split
    · exact ⟨_, rfl⟩
    · rcases h.displayType with hd | ⟨s, hd⟩ <;> exact ⟨_, by rw [hd]; rfl⟩

theorem typedMember (h : a.WellTyped) (type : TypeExpr) :
    ∃ member, Generation.typedMember a type = .ok (some member) := by
  obtain ⟨b, hb⟩ := h.isNullable
  rw [Generation.typedMember, Generation.memberOf, hb]
  exact ⟨_, rfl⟩

end Attributes.WellTyped

namespace Generation

namespace Part

def uid : Part → Json
  | .field f => f.attrs.uid
  | .block b => b.uid

def WellTyped : Part → Prop
  | .field f => f.attrs.WellTyped
  | .block b => b.WellTyped

/-- What a field or block refers to as a global field. -/
def target? : Part → Option Json
  | .field f => if f.attrs.kind = .globalField then (globalTarget f.attrs).toOption else none
  | .block b => if b.target.truthy then some b.target else none

def schema? : Part → Option (List Field)
  | .field f => f.schema?
  | .block b => b.schema?

end Part

def Input.named (input : Input) : List Json :=
  input.records.map Record.uid ++ input.parts.filterMap Part.target?

structure Input.Orderly (input : Input) : Prop where
  wellTyped : ∀ part ∈ input.parts, part.WellTyped
  uids : ∀ r ∈ input.records, ∃ uid, r.uid = .text uid
  distinct : (input.records.map Record.uid).Nodup
  injective : ∀ a b, .text a ∈ input.named → .text b ∈ input.named →
    Naming.pascalCase a = Naming.pascalCase b → a = b
  /-- What refers to a global field has no fields of its own. -/
  bare : ∀ part ∈ input.parts, part.target?.isSome = true → part.schema? = none

/-- The name that a record goes by: that for its uid, or a stand-in where it cannot be used. -/
def goesBy (lead : String) (r : Record) : String :=
  match r.uid with
  | .text uid =>
    if Naming.isUsableName (Naming.declare lead uid) then Naming.declare lead uid
    else Naming.placeholder (Naming.declare lead uid)
  | _ => ""

/-- There is a record with a schema for a reference to the target. -/
def Input.resolves (input : Input) (target : Json) : Bool := (input.origin? target none).isSome

variable {input : Input} {r r' : Record} {s t : State} {lead uid a b name : String}

theorem goesBy_text (h : r.uid = .text uid) : goesBy lead r =
    if Naming.isUsableName (Naming.declare lead uid) then Naming.declare lead uid
    else Naming.placeholder (Naming.declare lead uid) := by rw [goesBy, h]

theorem recordName_goesBy (h : recordName input r s = (.ok (uid, name), t)) :
    name = goesBy input.style.lead r := by
  cases recordName_ok h with
  | usable huid hu => rw [goesBy_text huid, if_pos hu]
  | unusable huid hu => rw [goesBy_text huid, hu, if_neg Bool.false_ne_true]

/-- No name begins as a stand-in does: with a lead that makes names unusable all of them begin with a digit,
and without one they begin with a letter or a digit. -/
theorem placeholder_ne_declare (hu : Naming.isUsableName (Naming.declare lead a) = false) :
    Naming.placeholder (Naming.declare lead a) ≠ Naming.declare lead b := by
  intro he
  have hhead : (Naming.declare lead b).toList.head? = some '_' := by
    rw [← he, Naming.placeholder, String.toList_append]
    rfl
  by_cases hl : lead = ""
  · rw [hl, Naming.declare, String.empty_append, Naming.head?_pascalCase, Option.map_eq_some_iff] at hhead
    obtain ⟨c, hc, hupper⟩ := hhead
    exact Naming.toUpper_ne_underscore (List.find?_some hc) hupper
  · have hdigit : Naming.startsWithDigit lead = true := by
      rw [Naming.isUsableName, Naming.startsWithDigit_declare, if_neg hl] at hu
      simpa using hu
    rw [← Naming.startsWithDigit_append_of_ne hl (Naming.pascalCase b), Naming.startsWithDigit,
      ← Naming.declare, hhead] at hdigit
    exact absurd hdigit (by decide)

theorem mem_named (hr : r ∈ input.records) (hu : r.uid = .text uid) : .text uid ∈ input.named :=
  List.mem_append_left _ (List.mem_map.2 ⟨r, hr, hu⟩)

namespace Input.Orderly

variable (ho : input.Orderly)

include ho

theorem eq_of_uid (hr : r ∈ input.records) (hr' : r' ∈ input.records) (h : r.uid = r'.uid) : r = r' :=
  List.inj_on_of_nodup_map ho.distinct hr hr' h

theorem record?_eq (hr : r ∈ input.records) : input.record? r.uid = some r := by
  cases hf : input.record? r.uid with
  | none =>
    have hnone := List.find?_eq_none.1 hf r hr
    exact absurd (Json.beq_self r.uid) hnone
  | some r' => rw [ho.eq_of_uid (List.mem_of_find?_eq_some hf) hr (record?_uid hf)]

theorem declare_injective (ha : .text a ∈ input.named) (hb : .text b ∈ input.named)
    (h : Naming.declare lead a = Naming.declare lead b) : a = b :=
  ho.injective a b ha hb ((String.append_right_inj lead).1 h)

/-- A usable name that a record goes by is the name of its uid only. -/
theorem uid_eq_of_goesBy (hr : r ∈ input.records) (ha : .text a ∈ input.named)
    (h : goesBy lead r = Naming.declare lead a) : r.uid = .text a := by
  obtain ⟨uid, hu⟩ := ho.uids r hr
  rw [goesBy_text hu] at h
  split at h
  next => rw [hu, ho.declare_injective (mem_named hr hu) ha h]
  next hn => exact absurd h (placeholder_ne_declare (by simpa using hn))

theorem goesBy_injective (hr : r ∈ input.records) (hr' : r' ∈ input.records)
    (h : goesBy lead r = goesBy lead r') : r = r' := by
  obtain ⟨uid, hu⟩ := ho.uids r hr
  obtain ⟨uid', hu'⟩ := ho.uids r' hr'
  refine ho.eq_of_uid hr hr' ?_
  rw [goesBy_text hu'] at h
  split at h
  next =>
    rw [ho.uid_eq_of_goesBy hr (mem_named hr' hu') h, hu']
  next hn' =>
    rw [goesBy_text hu] at h
    split at h
    next => exact absurd h.symm (placeholder_ne_declare (by simpa using hn'))
    next =>
      have hname := (String.append_right_inj "_").1 h
      rw [hu, hu', ho.declare_injective (mem_named hr hu) (mem_named hr' hu') hname]

theorem resolves_iff (target : Json) :
    input.resolves target = true ↔ ∃ r ∈ input.records, r.uid = target ∧ r.schema?.isSome = true := by
  constructor
  · intro h
    obtain ⟨origin, horigin⟩ := Option.isSome_iff_exists.1 h
    rcases origin?_eq_some horigin with ⟨fields, hf, -⟩ | ⟨r, -, hr, hs, -⟩
    · cases hf
    · exact ⟨r, List.mem_of_find?_eq_some hr, record?_uid hr, by rw [hs]; rfl⟩
  · rintro ⟨r, hr, rfl, hs⟩
    rw [Input.resolves, Input.origin?, ho.record?_eq hr, Option.filter_some, if_pos hs]
    rfl

end Input.Orderly

end Generation

end SchemaDecl

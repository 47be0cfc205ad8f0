import SchemaDecl.Proofs.Generation.Actions
import SchemaDecl.Proofs.Generation.Faultless
import SchemaDecl.Proofs.Generation.Styles

/-!
# Reports of skips

A skip is recorded in several places at once: in the list for fields or the one for blocks, among the
warnings, and with the reporter. Whatever is visited, and also where the visit stops, the four stay in step,
and the summary that ends a pass tells what they came to.
-/

namespace SchemaDecl.Generation

/-- The third list is made up of the first two, each of them in its order. -/
inductive Interleaves {α : Type} : List α → List α → List α → Prop
  | nil : Interleaves [] [] []
  | left {a as bs cs} : Interleaves as bs cs → Interleaves (a :: as) bs (a :: cs)
  | right {b as bs cs} : Interleaves as bs cs → Interleaves as (b :: bs) (b :: cs)

namespace Interleaves

variable {α : Type} {as bs cs : List α}

theorem length (h : Interleaves as bs cs) : cs.length = as.length + bs.length := by
  induction h with
  | nil => rfl
  | left _ ih | right _ ih => simp only [List.length_cons, ih]; omega

theorem append_left (h : Interleaves as bs cs) (a : α) : Interleaves (as ++ [a]) bs (cs ++ [a]) := by
  induction h with
  | nil => exact .left .nil
  | left _ ih => exact ih.left
  | right _ ih => exact ih.right

theorem append_right (h : Interleaves as bs cs) (b : α) : Interleaves as (bs ++ [b]) (cs ++ [b]) := by
  induction h with
  | nil => exact .right .nil
  | left _ ih => exact ih.left
  | right _ ih => exact ih.right

end Interleaves

def warnEvents (warned : List (String × SkippedItem)) : List Event :=
  warned.map fun (message, item) => .warn message item

/-- What a state tells of its skips is what the reporter was warned of, item by item. -/
structure State.Tells (s : State) (warned : List (String × SkippedItem)) : Prop where
  events : s.events = warnEvents warned
  warnings : s.warnings = warned.map Prod.fst
  items : Interleaves s.skippedFields s.skippedBlocks (warned.map Prod.snd)

/-- The reporter was warned of every skip and of nothing else. -/
def State.InStep (s : State) : Prop := ∃ warned, s.Tells warned

variable {α β : Type} {input : Input} {scope : Scope} {task : Task} {s t u : State} {steps : List Step}
  {place : SkipPlace}

/-- The states tell the same of their skips. -/
structure SameSkips (s t : State) : Prop where
  fields : t.skippedFields = s.skippedFields
  blocks : t.skippedBlocks = s.skippedBlocks
  warnings : t.warnings = s.warnings
  events : t.events = s.events

theorem SameSkips.refl (s : State) : SameSkips s s := ⟨rfl, rfl, rfl, rfl⟩

theorem State.InStep.same (hs : s.InStep) (h : SameSkips s t) : t.InStep := by
  obtain ⟨warned, hw⟩ := hs
  exact ⟨warned, h.events.trans hw.events, h.warnings.trans hw.warnings, by rw [h.fields, h.blocks]; exact hw.items⟩

/-- The visit keeps what is told of skips in step. -/
def KeepsStep (visit : Visit α) : Prop := ∀ s, s.InStep → (visit s).2.InStep

theorem keepsStep_skip (place : SkipPlace) (cause : SkipCause) (uid path : Json) :
    KeepsStep (skip place cause uid path) := by
  rintro s ⟨warned, hw⟩
  have hevents : (skip place cause uid path s).2.events =
      s.events ++ [.warn (cause.message place uid path) ⟨uid, path, cause.reason⟩] := by cases place <;> rfl
  have hwarnings : (skip place cause uid path s).2.warnings = s.warnings ++ [cause.message place uid path] := by
    cases place <;> rfl
  refine ⟨warned ++ [(cause.message place uid path, ⟨uid, path, cause.reason⟩)], ?_, ?_, ?_⟩
  · rw [hevents, hw.events, warnEvents, warnEvents, List.map_append]
    rfl
  · rw [hwarnings, hw.warnings, List.map_append]
    rfl
  · rw [List.map_append]
    cases place with
    | field => exact hw.items.append_left _
    | block => exact hw.items.append_right _

theorem keepsStep_modify {f : State → State} (h : ∀ s, SameSkips s (f s)) :
    KeepsStep (modify f) := fun s hs => hs.same (h s)

theorem composable_keepsStep : Composable KeepsStep where
  pure _ _ hs := hs
  check r s hs := by
    rw [check_apply]
    exact hs
  bind {_ _ x f} hx hf s hs := by
    have ht := hx s hs
    rw [bind_apply]
    rcases hr : x s with ⟨_ | a, t⟩ <;> rw [hr] at ht
    · exact ht
    · exact hf a t ht
  skip := keepsStep_skip
  track _ _ := keepsStep_modify fun _ => ⟨rfl, rfl, rfl, rfl⟩
  refuse target s hs := by
    obtain h | ⟨_, _, -, -, -, h⟩ := refuse_apply target s <;> rw [h]
    · exact hs
    · exact hs.same ⟨rfl, rfl, rfl, rfl⟩
  noteRichText := keepsStep_modify fun _ => ⟨rfl, rfl, rfl, rfl⟩

theorem sameSkips_unionName {style : Style} {uid : Json} {blocks : Blocks} {result : Except Fault String}
    (h : unionName style uid blocks s = (result, t)) : SameSkips s t := by
  obtain rfl | ⟨base, rfl⟩ := unionName_joins h
  · exact .refl t
  · exact ⟨rfl, rfl, rfl, rfl⟩

theorem Visits.inStep {result : Except Fault task.Result} (h : Visits input scope task s steps result t)
    (hs : s.InStep) : t.InStep := by
  induction h with
  | fields_nil | blocks_nil | field_fault | block_fault => exact hs
  | field_target_fault | reference_fault | declare_known => exact hs
  | fields_fault _ ih | blocks_fault _ ih => exact ih hs
  | fields_cons _ _ ih ih' | blocks_cons _ _ ih ih' => exact ih' (ih hs)
  | field_unusable => exact keepsStep_skip _ _ _ _ _ hs
  | block_unusable => exact keepsStep_skip _ _ _ _ _ hs
  | reference_missing => exact keepsStep_skip _ _ _ _ _ hs
  | reference_unusable => exact composable_keepsStep.refuseReference _ _ _ _ _ hs
  | @field_flat _ _ _ _ _ s _ _ _ _ hv hr =>
    have ht := composable_keepsStep.flatType hv s hs
    rwa [hr] at ht
  | field_group _ _ ih | field_global _ _ _ ih => exact ih hs
  | field_blocks_fault _ _ ih | field_no_blocks _ _ ih => exact ih hs
  | field_union_fault _ _ _ hu ih | field_union _ _ _ hu ih => exact (ih hs).same (sameSkips_unionName hu)
  | block_inline _ _ _ ih | block_reference _ _ _ ih => exact ih hs
  | reference_known => exact hs.same ⟨rfl, rfl, rfl, rfl⟩
  | reference_fields_fault _ _ _ _ _ ih => exact ih hs
  | reference_built _ _ _ _ _ ih => exact (ih hs).same ⟨rfl, rfl, rfl, rfl⟩
  -- The fields of a global field are visited where it is first used, in a scope of their own.
  | declare_fault _ _ ih | declare_built _ _ ih =>
    exact (ih (hs.same ⟨rfl, rfl, rfl, rfl⟩)).same ⟨rfl, rfl, rfl, rfl⟩

variable {record : Record} {records : List Record} {position : Nat} {style : Style}

theorem sameSkips_recordName {result : Except Fault (String × String)}
    (h : recordName input record s = (result, t)) : SameSkips s t := by
  cases result with
  | error e =>
    rw [(recordName_fault h).1]
    exact .refl s
  | ok named =>
    obtain ⟨uid, name⟩ := named
    cases recordName_ok h with
    | usable => exact .refl s
    | unusable => exact ⟨rfl, rfl, rfl, rfl⟩

theorem Passes.inStep {result : Except Fault (List Declaration)}
    (h : Passes input position records s steps result t) (hs : s.InStep) : t.InStep := by
  induction h with
  | nil => exact hs
  | name_fault hn => exact hs.same (sameSkips_recordName hn)
  | bare _ hn _ _ ih => exact ih (hs.same (sameSkips_recordName hn))
  | global_fault _ hn _ hv => exact hv.inStep (hs.same (sameSkips_recordName hn))
  | global _ hn _ hv _ ih => exact ih (hv.inStep (hs.same (sameSkips_recordName hn)))
  | contentType_fault _ hn hv =>
    have hmid := hs.same (sameSkips_recordName hn)
    exact (hv.inStep (hmid.same ⟨rfl, rfl, rfl, rfl⟩)).same ⟨rfl, rfl, rfl, rfl⟩
  | contentType _ hn hv _ ih =>
    have hmid := hs.same (sameSkips_recordName hn)
    exact ih ((hv.inStep (hmid.same ⟨rfl, rfl, rfl, rfl⟩)).same ⟨rfl, rfl, rfl, rfl⟩)

theorem inStep_start (hs : start input = .ok s) : s.InStep := by
  obtain ⟨richTextUsed, rfl⟩ := start_eq hs
  exact ⟨[], rfl, rfl, .nil⟩

theorem runFrom_tells {result : Except Failure Output} (hs : start input = .ok s)
    (hr : runFrom input s = (result, t)) (hf : ∀ fault, result ≠ .error (.fault fault)) :
    ∃ (u : State) (warned : _), u.Tells warned ∧ t = u.summarize := by
  obtain ⟨steps, ends, u, hp⟩ := passes_end input input.records 0 s
  obtain ⟨warned, hw⟩ := hp.inStep (inStep_start hs)
  cases ends with
  | error e =>
    rw [runFrom_fault hp.visit_eq] at hr
    cases hr
    exact absurd rfl (hf e)
  | ok ds =>
    rw [runFrom_eq hp.visit_eq] at hr
    refine ⟨u, warned, hw, ?_⟩
    split at hr <;> exact (Prod.ext_iff.1 hr).2.symm

/-- A run that no fault stops, be it that it gives code or finds names unusable, warns the reporter of every
skip as it happens and then tells it once of all of them. In the order of the warnings the items are those
of the two lists of skips, and the messages are the warnings of the pass; a result repeats both. -/
theorem generate_reports (settings : Settings) (payload : Json)
    (hf : ∀ fault, (generate settings payload).result ≠ .error (.fault fault)) :
    ∃ (records : List Record) (s t : State) (result : Except Failure Output) (warned : _),
      readPayload payload = .ok records ∧ start ⟨settings.style, records⟩ = .ok s ∧
      runFrom ⟨settings.style, records⟩ s = (result, t) ∧
      (generate settings payload).events =
        warnEvents warned ++ [.summary t.skippedFields t.skippedBlocks] ∧
      Interleaves t.skippedFields t.skippedBlocks (warned.map Prod.snd) ∧
      warned.map Prod.fst = t.warnings ∧
      ∀ r, (generate settings payload).result = .ok r →
        r.warnings = t.warnings ∧ r.metadata.skippedFields = t.skippedFields ∧
        r.metadata.skippedBlocks = t.skippedBlocks ∧
        r.warnings.length = r.metadata.skippedFields.length + r.metadata.skippedBlocks.length := by
  obtain ⟨records, s, t, result, hread, hs, hr, hfault, hgenerate⟩ := generate_runs hf
  obtain ⟨u, warned, hw, rfl⟩ := runFrom_tells hs hr hfault
  rw [hgenerate]
  refine ⟨records, s, u.summarize, result, warned, hread, hs, hr, ?_, hw.items, hw.warnings.symm, fun r h => ?_⟩
  · exact congrArg (· ++ [.summary u.skippedFields u.skippedBlocks]) hw.events
  · cases result with
    | error failure => cases h
    | ok o =>
      cases h
      refine ⟨rfl, rfl, rfl, ?_⟩
      have hlength := hw.items.length
      rw [List.length_map] at hlength
      exact (congrArg List.length hw.warnings).trans ((List.length_map _).trans hlength)

/-- A content type whose uid begins with a digit. A field of it is skipped, and of its blocks one for its
uid, one for a field inside of it, and one for a global field that is nowhere. -/
def mixedSkips : Json :=
  .list [.object [("uid", .text "404_page"), ("schema", .list
    [.object [("uid", .text "body"), ("data_type", .text "blocks"), ("blocks", .list
      [.object [("uid", .text "2col"), ("schema", .list [])],
        .object [("uid", .text "hero"), ("schema", .list
          [.object [("uid", .text "x"), ("data_type", .text "mystery")]])],
        .object [("uid", .text "seo"), ("reference_to", .text "seo")]])],
      .object [("uid", .text "1st"), ("data_type", .text "text")]])]]

/-- Without a prefix the name of the content type is unusable, with one there is code. -/
theorem generate_reports_mixedSkips :
    (generate {} mixedSkips).result.isOk = false ∧
      (generate { namePrefix := .text "I" } mixedSkips).result.isOk = true ∧
      ∀ settings ∈ [({} : Settings), { namePrefix := .text "I" }], ∃ warned fields blocks,
        (generate settings mixedSkips).events = warnEvents warned ++ [.summary fields blocks] ∧
        Interleaves fields blocks (warned.map Prod.snd) ∧ warned.length = 4 := by
  refine ⟨by decide +kernel, by decide +kernel, fun settings hs => ?_⟩
  have hfault : (match (generate settings mixedSkips).result with
      | .error (.fault _) => false
      | _ => true) = true := by
    revert settings
    decide +kernel
  have hlength : (generate settings mixedSkips).events.length = 5 := by
    revert settings
    decide +kernel
  obtain ⟨_, _, t, _, warned, -, -, -, hevents, hitems, -⟩ := generate_reports settings mixedSkips (by
    intro fault hf
    rw [hf] at hfault
    cases hfault)
  refine ⟨warned, t.skippedFields, t.skippedBlocks, hevents, hitems, ?_⟩
  rw [hevents, warnEvents, List.length_append, List.length_map] at hlength
  exact Nat.succ_inj.1 hlength

end SchemaDecl.Generation

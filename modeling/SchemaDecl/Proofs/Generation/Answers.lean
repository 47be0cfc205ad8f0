import SchemaDecl.Generation.Request
import SchemaDecl.Proofs.Generation.Faultless

/-!
# Answers and requests

Code can be requested with options by name, or a generator with the same settings can be asked for an answer,
which also checks the records, counts them, and reports a failure as such. Over a well-typed export neither
the check nor the count stands in the way: the answer gives the code that the request gives, or reports the
failure that the request ends with.
-/

namespace SchemaDecl

theorem checkField_ok {field : Field} (hw : field.attrs.WellTyped) (uid : Json) (known : List Json) :
    ∃ warnings, checkField uid known field = .ok warnings := by
  obtain ⟨attrs, schema?, blocks⟩ := field
  cases schema? with
  | some fields => exact ⟨[], rfl⟩
  | none =>
    obtain ⟨texts, htargets⟩ := Attributes.WellTyped.targets hw
    have hkeys : (texts.map Json.text).mapM asKey = .ok (texts.map Json.text) :=
      Generation.mapM_asKey_texts (List.forall_mem_map.2 fun s _ => ⟨s, rfl⟩)
    refine ⟨if attrs.kind = .globalField then
      if (texts.map Json.text).any (isAmong · known) then [] else [.unknownTarget uid attrs.uid attrs.target]
      else [], ?_⟩
    rw [checkField]
    dsimp only at htargets
    rw [htargets]
    split
    · change ((texts.map Json.text).mapM asKey).bind _ = _
      rw [hkeys]
      change (if (texts.map Json.text).any (isAmong · known) then _ else _) = _
      split <;> rfl
    · rfl

theorem checkRecord_ok {r : Record} (hw : r.WellTyped) (known seen : List Json) :
    ∃ warnings, checkRecord known seen r = .ok warnings := by
  have hfields : ∀ field ∈ r.fields, ∃ warnings, checkField r.uid known field = .ok warnings ∧ True := by
    intro field hf
    have hattrs := hw.parts (.field field) (Generation.mem_fieldsParts hf)
    obtain ⟨warnings, hwarnings⟩ := checkField_ok hattrs r.uid known
    exact ⟨warnings, hwarnings, trivial⟩
  obtain ⟨warnings, hwarnings, -⟩ := mapM_total hfields
  exact ⟨_, by rw [checkRecord, hwarnings]; rfl⟩

theorem checkFrom_ok {records : List Record} (hw : ∀ r ∈ records, r.WellTyped) (known seen : List Json) :
    ∃ warnings, checkFrom known seen records = .ok warnings := by
  induction records generalizing seen with
  | nil => exact ⟨[], rfl⟩
  | cons r rest ih =>
    obtain ⟨hr, hrest⟩ := List.forall_mem_cons.1 hw
    obtain ⟨warnings, hwarnings⟩ := checkRecord_ok hr known seen
    obtain ⟨others, hothers⟩ := ih hrest (seen ++ [r.uid])
    exact ⟨warnings ++ others, by rw [checkFrom, hwarnings, hothers]; rfl⟩

theorem checkRecords_ok {records : List Record} (hw : ∀ r ∈ records, r.WellTyped) :
    ∃ warnings, checkRecords records = .ok warnings := by
  obtain ⟨warnings, hwarnings⟩ := checkFrom_ok hw (records.map Record.uid) []
  exact ⟨warnings, by rw [checkRecords, Generation.mapM_asKey_uids fun r hr => (hw r hr).uid]; exact hwarnings⟩

namespace Generation

variable {entries : Entries} {settings : Settings} {payload : Json} {records : List Record}

/-- All entries are settings: none stands for the export, for complete settings or for a reporter. -/
def AllSettings (entries : Entries) : Prop :=
  ∀ name ∈ [Options.payloadName, "config", "reporter"], Table.has name entries = false

instance (entries : Entries) : Decidable (AllSettings entries) := inferInstanceAs (Decidable (∀ name ∈ _, _))

theorem erase_of_not_has {name : String} (h : Table.has name entries = false) : Table.erase name entries = entries := by
  have hnames : name ∉ Table.names entries := fun hm => by
    rw [(Table.has_iff_mem_names name entries).2 hm] at h
    cases h
  refine List.filter_eq_self.2 fun entry he => ?_
  have hne : entry.1 ≠ name := fun heq => hnames (heq ▸ List.mem_map_of_mem he)
  simpa using hne

theorem getD_of_not_has {name : String} (h : Table.has name entries = false) : Entries.getD name entries = .null := by
  rw [Table.has, Option.isSome_eq_false_iff, Option.isNone_iff_eq_none] at h
  rw [Entries.getD, h]
  rfl

theorem ofEntries_allSettings (h : AllSettings entries) : Options.ofEntries entries = ⟨.null, .null, entries⟩ := by
  have hconfig := h "config" (by simp)
  have hreporter := h "reporter" (by simp)
  rw [Options.ofEntries, getD_of_not_has hconfig, getD_of_not_has hreporter, erase_of_not_has hconfig,
    erase_of_not_has hreporter]

theorem codeFor_eq (h : AllSettings entries) (hs : Settings.merge none (some entries) = .ok settings) (payload : Json) :
    codeFor entries payload = (generateCode settings payload).mapError .failure := by
  have hpayload := h Options.payloadName (by simp)
  have hsettings : (Options.mk .null .null entries).settings = .ok settings := by
    rw [Options.settings, if_pos rfl, hs]
    rfl
  unfold codeFor generateCode generate
  rw [hpayload, ofEntries_allSettings h, if_neg Bool.false_ne_true]
  change ((Options.mk .null .null entries).settings).bind _ = _
  rw [hsettings]
  cases readPayload payload with
  | error fault => rfl
  | ok records =>
    change Options.codeOf ⟨.null, .null, entries⟩ settings records = (run settings.style records).tidied.mapError .failure
    rw [Options.codeOf, runGiven_record]
    rfl

theorem answer_eq {warnings : List Warning} (hr : readPayload payload = .ok records)
    (hc : checkRecords records = .ok warnings) :
    answer settings payload = .ofResult ((generate settings payload).result.map fun r =>
      ⟨{ r with code := Text.tidy r.code, warnings := warnings.map Warning.message ++ r.warnings },
        records.length, fieldCount records⟩) := by
  rw [answer, generateChecked, generate_eq hr, hr]
  dsimp only
  rw [runChecked, hc, runGiven_record]

/-- A request with settings for code from a well-typed export, and the answer of a generator with the same
settings, agree. The request gives code, or fails with the records that have unusable names. It gives code
exactly if the answer reports success, with that code; it fails exactly if the answer reports failure, with
these records and the message about them, and with no code, no warnings and no metadata. The warnings of an
answer that reports success are those of the check of the records and then those of the pass. -/
theorem answer_agrees (hp : isPayload payload = true) (hn : AllSettings entries)
    (hs : Settings.merge none (some entries) = .ok settings) :
    ((∃ code, codeFor entries payload = .ok code) ∨
        ∃ vs, codeFor entries payload = .error (.failure (.unusableNames vs))) ∧
      (∀ code, codeFor entries payload = .ok code ↔
        (answer settings payload).success = true ∧ (answer settings payload).code = code) ∧
      (∀ vs, codeFor entries payload = .error (.failure (.unusableNames vs)) ↔
        answer settings payload =
          { success := false
            code := ""
            warnings := []
            metadata? := none
            message? := some (Violation.message vs)
            failure? := some (.unusableNames vs) }) ∧
      ((answer settings payload).success = true →
        ∃ records warnings r, readPayload payload = .ok records ∧ checkRecords records = .ok warnings ∧
          (generate settings payload).result = .ok r ∧
          (answer settings payload).warnings = warnings.map Warning.message ++ r.warnings) := by
  obtain ⟨records, hr, hw⟩ := readPayload_wellTyped hp
  obtain ⟨warnings, hc⟩ := checkRecords_ok hw
  rw [codeFor_eq hn hs, answer_eq hr hc, generateCode, Outcome.tidied]
  cases hresult : (generate settings payload).result with
  | ok r =>
    refine ⟨.inl ⟨_, rfl⟩, fun code => ?_, fun vs => ?_, fun _ => ⟨records, warnings, r, hr, hc, rfl, rfl⟩⟩
    · change Except.ok (Text.tidy r.code) = .ok code ↔ true = true ∧ Text.tidy r.code = code
      rw [Except.ok.injEq, eq_self_iff_true, true_and]
    · exact iff_of_false (by rintro ⟨⟩) (by rintro ⟨⟩)
  | error failure =>
    rw [generate_eq hr] at hresult
    obtain ⟨vs, rfl, -⟩ := (run_wellTyped (Input.WellTyped.of_records settings.style hw)).2 failure hresult
    refine ⟨.inr ⟨vs, rfl⟩, fun code => ?_, fun vs' => ?_, by rintro ⟨⟩⟩
    · exact iff_of_false (by rintro ⟨⟩) (by rintro ⟨⟨⟩, -⟩)
    · constructor
      · rintro ⟨⟩
        rfl
      · intro h
        have hfailure : some (Failure.unusableNames vs) = some (.unusableNames vs') := congrArg Answer.failure? h
        cases hfailure
        rfl

def prefixOptions : Entries := [("naming", .object [("prefix", .text "I")]), ("systemFields", .bool true)]

/-- Without a prefix the request fails, and with one it gives code. -/
theorem answer_agrees_numberedDocument :
    isPayload numberedDocument = true ∧
      (∃ settings vs, Settings.merge none (some []) = .ok settings ∧
        codeFor [] numberedDocument = .error (.failure (.unusableNames vs)) ∧
        (answer settings numberedDocument).success = false ∧
        (answer settings numberedDocument).message? = some (Violation.message vs)) ∧
      ∃ settings, Settings.merge none (some prefixOptions) = .ok settings ∧
        (answer settings numberedDocument).success = true ∧
        codeFor prefixOptions numberedDocument = .ok (answer settings numberedDocument).code := by
  have hp : isPayload numberedDocument = true := by decide +kernel
  have hmerge : Settings.merge none (some []) = .ok {} := by rfl
  have hmerge' : Settings.merge none (some prefixOptions) =
      .ok { namePrefix := .text "I", systemFields := .bool true } := by rfl
  refine ⟨hp, ?_, _, hmerge', ?_⟩
  · obtain ⟨hends, hcode, hfails, -⟩ := answer_agrees hp (by decide) hmerge
    have hno : (answer {} numberedDocument).success = false := by decide +kernel
    rcases hends with ⟨code, hc⟩ | ⟨vs, hvs⟩
    · rw [((hcode code).1 hc).1] at hno
      cases hno
    · have hanswer := (hfails vs).1 hvs
      exact ⟨{}, vs, hmerge, hvs, hno, by rw [hanswer]⟩
  · obtain ⟨-, hcode, -, -⟩ := answer_agrees hp (by decide) hmerge'
    have hyes : (answer { namePrefix := .text "I", systemFields := .bool true } numberedDocument).success = true := by
      decide +kernel
    exact ⟨hyes, (hcode _).2 ⟨hyes, rfl⟩⟩

end Generation

end SchemaDecl

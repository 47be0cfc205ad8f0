import SchemaDecl.Proofs.CommandLine.Sessions
import SchemaDecl.Proofs.Source.FileTree

/-!
# When the code is written

A run writes one file, as its last step but for what it says of it. So a run that succeeds leaves in this file the
code that a request with its settings gives for its document, and a run that ends otherwise leaves all files as
they were.
-/

namespace SchemaDecl.CommandLine

variable {before files : FileTree} {a : Arguments} {s : Surroundings} {settings : Settings} {records : List Record}
  {words : List String} {console : Console}

theorem checkLanguage_proceeds (console : Console) (a : Arguments) :
    Proceeds before before (checkLanguage console a) (unchanged before) := by
  unfold checkLanguage
  dsimp only
  split
  · refine .bind (.say _ _) ?_
    rintro _ _ rfl
    exact .failWith _ _
  · exact .pure rfl

theorem readSettings_proceeds (console : Console) (a : Arguments) :
    Proceeds before before (readSettings console a) fun settings files => files = before ∧
      Settings.load before (a.config?.bind FilePath.given?) (some a.overrides) = .ok settings := by
  refine .bind .world ?_
  rintro w _ ⟨rfl, rfl⟩
  cases hload : Settings.load w.files (a.config?.bind FilePath.given?) (some a.overrides) with
  | error fault =>
    dsimp only
    split
    · exact .failWith _ _
    · exact .ends (by simp) rfl
  | ok settings =>
    refine .bind (.forIn fun notice _ => .say _ _) ?_
    rintro _ _ hfiles
    exact .pure ⟨hfiles, rfl⟩

theorem recordsOf_proceeds (console : Console) (data : Json) :
    Proceeds before before (recordsOf console data) fun records files =>
      files = before ∧ readPayload data = .ok records := by
  unfold recordsOf
  split
  · exact .failWith _ _
  · next hread => exact .pure ⟨rfl, hread⟩
  · exact .failWith _ _
  · exact .failWith _ _
  · exact .ends (by simp) rfl

theorem readInput_proceeds (a : Arguments) (s : Surroundings) :
    Proceeds before before (readInput a s) fun records files => files = before ∧
      ∃ document, (loadDocument a s before).result = .ok document ∧ readPayload document.data = .ok records := by
  refine .bind .world ?_
  rintro w _ ⟨rfl, rfl⟩
  cases hload : (loadDocument a s w.files).result with
  | error fault =>
    dsimp only
    split
    · exact .failWith _ _
    · exact .ends (by simp) rfl
  | ok document => exact (recordsOf_proceeds s.console document.data).mono fun _ _ h => ⟨h.1, document, rfl, h.2⟩

theorem generate_proceeds (console : Console) (settings : Settings) (records : List Record) :
    Proceeds before before (generate console settings records) fun checked files =>
      files = before ∧ (Generation.runChecked settings.style records).1 = .ok checked := by
  unfold generate
  dsimp only
  refine .bind (.tell _) ?_
  rintro _ _ rfl
  split
  · exact .failWith _ _
  · next hchecked => exact .pure ⟨rfl, hchecked⟩
  · exact .failWith _ _
  · refine .bind (.tell _) ?_
    rintro _ _ rfl
    exact .failWith _ _

theorem writeCode_proceeds (console : Console) (path : FilePath) (code : String) :
    Proceeds before before (writeCode console path code) fun _ files =>
      before.write path code.toUTF8 = .ok files := by
  refine .bind .world ?_
  rintro w _ ⟨rfl, rfl⟩
  cases hwrite : w.files.write path code.toUTF8 with
  | error fault =>
    cases fault with
    | hasNul => exact .ends (by simp) rfl
    | _ => exact .failWith _ _
  | ok files =>
    have hstored : Proceeds w.files w.files (modify fun w => { w with files }) (unchanged files) :=
      .change fun _ _ => rfl
    refine .bind hstored ?_
    rintro _ _ rfl
    exact (Proceeds.say _ _).mono fun _ _ h => congrArg Except.ok h.symm

theorem truthy_text {name : String} (hname : settings.outputFile = .text name) (hne : name ≠ "") :
    settings.outputFile.truthy = true := by
  rw [hname]
  simpa [Json.truthy] using hne

theorem deliver_text {name : String} (hname : settings.outputFile = .text name) (hne : name ≠ "") (code : String) :
    deliver console settings code = writeCode console (FilePath.ofString name) code := by
  rw [deliver, if_pos (truthy_text hname hne), hname]

/-- The code is in the file that the settings name, and if they name none the files are as they were. -/
def Written (before : FileTree) (settings : Settings) (code : String) (files : FileTree) : Prop :=
  (settings.outputFile.truthy = false → files = before) ∧
    ∀ name, settings.outputFile = .text name → name ≠ "" →
      before.write (FilePath.ofString name) code.toUTF8 = .ok files

theorem deliver_proceeds (console : Console) (settings : Settings) (code : String) :
    Proceeds before before (deliver console settings code) fun _ files => Written before settings code files := by
  unfold deliver
  split
  next htruthy =>
    split
    next name hname =>
      refine (writeCode_proceeds console _ code).mono fun _ _ hwrite => ⟨fun hnone => ?_, fun other hother _ => ?_⟩
      · rw [hnone] at htruthy
        cases htruthy
      · rw [hname] at hother
        cases hother
        exact hwrite
    next => exact .ends (by simp) rfl
  next hempty =>
    have hshown : Proceeds before before
        (modify fun w => { w with output := w.output ++ console.code code }) (unchanged before) :=
      .change fun _ h => h
    refine hshown.mono fun _ _ hfiles => ⟨fun _ => hfiles, fun name hname hne => ?_⟩
    exact absurd (truthy_text hname hne) hempty

/-- The tidied code of records that were checked is the code of a request for their document. -/
theorem generateCode_of_runChecked {data : Json} {checked : Generation.CheckedResult}
    (hread : readPayload data = .ok records)
    (hchecked : (Generation.runChecked settings.style records).1 = .ok checked) :
    Generation.generateCode settings data = .ok checked.result.code := by
  rw [Generation.runChecked] at hchecked
  split at hchecked
  next => cases hchecked
  next warnings hwarnings =>
    rw [Generation.runGiven_record] at hchecked
    rw [Generation.generateCode, Generation.generate, hread, Generation.Outcome.tidied]
    dsimp only at hchecked ⊢
    cases hresult : (Generation.run settings.style records).result with
    | error failure =>
      rw [hresult] at hchecked
      cases hchecked
    | ok result =>
      rw [hresult] at hchecked
      exact congrArg (Except.map fun checked => checked.result.code) hchecked

/-- What a run with arguments comes to: the code for the document with the settings, in the file that they name. -/
def Delivered (before : FileTree) (a : Arguments) (s : Surroundings) (files : FileTree) : Prop :=
  ∃ settings document code, Settings.load before (a.config?.bind FilePath.given?) (some a.overrides) = .ok settings ∧
    (loadDocument a s before).result = .ok document ∧ Generation.generateCode settings document.data = .ok code ∧
    Written before settings code files

/-- What a run does before it writes: it finds the settings, and generates with them. -/
def stages (a : Arguments) (s : Surroundings) : Session (Settings × Generation.CheckedResult) := do
  checkLanguage s.console a
  let settings ← readSettings s.console a
  let records ← readInput a s
  let checked ← generate s.console settings records
  return (settings, checked)

theorem stages_proceeds (a : Arguments) (s : Surroundings) :
    Proceeds before before (stages a s) fun (settings, checked) files => files = before ∧
      Settings.load before (a.config?.bind FilePath.given?) (some a.overrides) = .ok settings ∧
      ∃ document, (loadDocument a s before).result = .ok document ∧
        Generation.generateCode settings document.data = .ok checked.result.code := by
  unfold stages
  refine .bind (checkLanguage_proceeds s.console a) ?_
  rintro _ _ rfl
  refine .bind (readSettings_proceeds s.console a) ?_
  rintro settings files ⟨rfl, hload⟩
  refine .bind (readInput_proceeds a s) ?_
  rintro records _ ⟨rfl, document, hdocument, hread⟩
  refine .bind (generate_proceeds s.console settings records) ?_
  rintro checked _ ⟨rfl, hchecked⟩
  exact .pure ⟨rfl, hload, document, hdocument, generateCode_of_runChecked hread hchecked⟩

/-- What a run does with the code: it writes it, and shows what is known of it if asked to. -/
def finish (console : Console) (a : Arguments) (settings : Settings) (checked : Generation.CheckedResult) :
    Session Unit := do
  deliver console settings checked.result.code
  if a.verbose then
    tell (← showTable console "📊 Generation Metadata" ["Property", "Value"] (metadataRows checked))

theorem generateFor_eq (a : Arguments) (s : Surroundings) :
    generateFor a s = stages a s >>= fun (settings, checked) => finish s.console a settings checked := by
  simp only [generateFor, stages, finish, bind_assoc, pure_bind]

theorem generateFor_proceeds (a : Arguments) (s : Surroundings) :
    Proceeds before before (generateFor a s) fun _ files => Delivered before a s files := by
  rw [generateFor_eq]
  refine .bind (stages_proceeds a s) ?_
  rintro ⟨settings, checked⟩ _ ⟨rfl, hload, document, hdocument, hcode⟩
  unfold finish
  refine .bind (deliver_proceeds s.console settings checked.result.code) ?_
  intro _ files hwrite
  have hdelivered : Delivered _ a s files := ⟨settings, document, _, hload, hdocument, hcode, hwrite⟩
  split
  next =>
    -- the file is written, so that only the console may still end the run
    refine .bind (.showTable _ _ _ _) ?_
    rintro lines _ rfl
    exact (Proceeds.tell lines).mono fun _ _ h => h ▸ hdelivered
  next => exact .pure hdelivered

theorem listLanguages_proceeds (console : Console) :
    Proceeds before before (listLanguages console) (unchanged before) := by
  refine .bind (.showTable _ _ _ _) ?_
  rintro lines _ rfl
  exact .change fun _ h => h

theorem session_proceeds (words : List String) (s : Surroundings) :
    Proceeds before before (session words s) fun _ files =>
      ((∀ a, Arguments.read words = .ok a → a.listLanguages = true) → files = before) ∧
        ∀ a, Arguments.read words = .ok a → a.listLanguages = false → Delivered before a s files := by
  unfold session
  cases hread : Arguments.read words with
  | error stop =>
    have hnone : ∀ a, (Except.error stop : Except Stop Arguments) ≠ .ok a := by rintro _ ⟨⟩
    cases stop with
    | usage => exact .ends (by simp) rfl
    | help => exact .pure ⟨fun _ => rfl, fun a h => absurd h (hnone a)⟩
    | version =>
      have hshown : Proceeds before before (modify fun w => { w with output := w.output ++ [versionLine] })
          (unchanged before) := .change fun _ h => h
      exact hshown.mono fun _ _ hfiles => ⟨fun _ => hfiles, fun a h => absurd h (hnone a)⟩
  | ok a =>
    dsimp only
    split
    next hlist =>
      refine (listLanguages_proceeds s.console).mono fun _ _ hfiles => ⟨fun _ => hfiles, fun other h hother => ?_⟩
      cases h
      rw [hother] at hlist
      cases hlist
    next hcode =>
      split
      next =>
        refine (generateFor_proceeds a s).mono fun _ _ h => ⟨fun hlist => ?_, fun other hother _ => ?_⟩
        · exact absurd (hlist a rfl) hcode
        · cases hother
          exact h
      next => exact .ends (by simp) rfl

/-- A run whose texts can all be shown, and that does not end as a success, leaves the files as they were; so does one
that is not asked for code but for help, the version or the languages. One that ends as a success and is asked for code
found settings and a document. If the settings name a file it leaves in this file, and writes nowhere else, the code that
a request with these settings gives for the document; if they name none it leaves the files as they were. -/
theorem run_delivers (words : List String) (s : Surroundings)
    (hprint : ∀ fault, (run words s).1 ≠ .escape (.console fault)) :
    ((run words s).1 ≠ .exit 0 → (run words s).2.files = s.files) ∧
      ((∀ a, Arguments.read words = .ok a → a.listLanguages = true) → (run words s).2.files = s.files) ∧
      ((run words s).1 = .exit 0 → ∀ a, Arguments.read words = .ok a → a.listLanguages = false →
        ∃ settings document code,
          Settings.load s.files (a.config?.bind FilePath.given?) (some a.overrides) = .ok settings ∧
          (loadDocument a s s.files).result = .ok document ∧
          Generation.generateCode settings document.data = .ok code ∧
          (settings.outputFile.truthy = false → (run words s).2.files = s.files) ∧
          ∀ name, settings.outputFile = .text name → name ≠ "" →
            s.files.write (FilePath.ofString name) code.toUTF8 = .ok (run words s).2.files ∧
            (run words s).2.files.Holds (FilePath.ofString name) code.toUTF8) := by
  have hsession := (session_proceeds words s).run { files := s.files } rfl
  rw [run] at hprint ⊢
  rcases hresult : (session words s).run { files := s.files } with ⟨ending | _, w⟩
  · rw [hresult] at hsession hprint
    rcases hsession with ⟨fault, hfault⟩ | ⟨hne, hfiles⟩
    · exact absurd hfault (hprint fault)
    · exact ⟨fun _ => hfiles, fun _ => hfiles, fun heq => absurd heq hne⟩
  · rw [hresult] at hsession
    refine ⟨fun hne => absurd rfl hne, hsession.1, fun _ a hread hlist => ?_⟩
    obtain ⟨settings, document, code, hload, hdocument, hcode, hnone, hwrite⟩ := hsession.2 a hread hlist
    refine ⟨settings, document, code, hload, hdocument, hcode, hnone, fun name hname hne => ?_⟩
    exact ⟨hwrite name hname hne, FileTree.holds_write (hwrite name hname hne)⟩

def streamWords : List String := ["--stdin", "-o", "types.d.ts"]

def streamArguments : Arguments := { stdin := true, output? := some "types.d.ts" }

def plainConsole : Console where
  message text := .ok [text]
  table headers rows := .ok ((headers :: rows).map " ".intercalate)
  code text := [text]
  escape := id

/-- An empty folder, and a content type on standard input. -/
def stream : Surroundings where
  console := plainConsole
  files := {}
  input := "[\x7b\"uid\": \"page\", \"schema\": []\x7d]"

deriving instance DecidableEq for Arguments

theorem read_streamWords : Arguments.read streamWords = .ok streamArguments := by
  have hread : (Arguments.read streamWords).toOption = some streamArguments := by decide +kernel
  cases h : Arguments.read streamWords with
  | error stop => rw [h] at hread; cases hread
  | ok a =>
    rw [h] at hread
    exact congrArg Except.ok (Option.some.inj hread)

theorem run_stages : ∃ settings checked w, (stages streamArguments stream).run { files := stream.files } =
    (.ok (settings, checked), w) ∧ settings.outputFile = .text "types.d.ts" ∧ w.files = stream.files := by
  have houtput : ((stages streamArguments stream).run { files := stream.files }).1.toOption.map
      (fun (settings, _) => settings.outputFile) = some (.text "types.d.ts") := by decide +kernel
  rcases h : (stages streamArguments stream).run { files := stream.files } with ⟨ending | ⟨settings, checked⟩, w⟩
  · rw [h] at houtput
    cases houtput
  · have hfiles := ((stages_proceeds streamArguments stream).result rfl h).1
    rw [h] at houtput
    exact ⟨settings, checked, w, rfl, Option.some.inj houtput, hfiles⟩

theorem writeCode_ok {path : FilePath} {code : String} {w : World} (hwrite : w.files.write path code.toUTF8 = .ok files) :
    ∃ w', (writeCode plainConsole path code).run w = (.ok (), w') := by
  have hget : (get : Session World).run w = (.ok w, w) := rfl
  rw [writeCode, run_bind, hget]
  dsimp only
  rw [hwrite]
  exact ⟨_, rfl⟩

theorem run_stream : (run streamWords stream).1 = .exit 0 := by
  obtain ⟨settings, checked, w, hstages, houtput, hfiles⟩ := run_stages
  have hpath : FilePath.ofString "types.d.ts" = ⟨false, ["types.d.ts"]⟩ := by decide +kernel
  have hplace : w.files.resolve (FilePath.ofString "types.d.ts") = .ok ["types.d.ts"] := by
    rw [hfiles, hpath, FileTree.resolve, String.contains_char_eq]
    rfl
  have hfree : w.files.isFolder ["types.d.ts"] = false := by
    rw [hfiles]
    decide +kernel
  have hwritable : w.files.mayWrite ["types.d.ts"] = true := by
    rw [hfiles]
    rfl
  obtain ⟨w', hw'⟩ := writeCode_ok (FileTree.write_of_resolve hplace hfree hwritable checked.result.code.toUTF8)
  have hfinish : (finish plainConsole streamArguments settings checked).run w = (.ok (), w') := by
    rw [finish, run_bind, deliver_text houtput (by decide), hw']
    rfl
  have hgenerate : (generateFor streamArguments stream).run { files := stream.files } = (.ok (), w') := by
    rw [generateFor_eq, run_bind, hstages]
    exact hfinish
  have hsession : session streamWords stream = generateFor streamArguments stream := by
    rw [session, read_streamWords]
    exact (if_neg Bool.false_ne_true).trans (if_pos (by decide))
  rw [run, hsession, hgenerate]

theorem run_delivers_stream : (run streamWords stream).1 = .exit 0 ∧
    Arguments.read streamWords = .ok streamArguments ∧
      ∃ settings document code, settings.outputFile = .text "types.d.ts" ∧
        (loadDocument streamArguments stream stream.files).result = .ok document ∧
        Generation.generateCode settings document.data = .ok code ∧
        (run streamWords stream).2.files.Holds (FilePath.ofString "types.d.ts") code.toUTF8 := by
  have hend := run_stream
  have hprint : ∀ fault, (run streamWords stream).1 ≠ .escape (.console fault) := by
    intro fault
    rw [hend]
    rintro ⟨⟩
  obtain ⟨settings, document, code, hload, hdocument, hcode, -, hfile⟩ :=
    (run_delivers streamWords stream hprint).2.2 hend streamArguments read_streamWords rfl
  have houtput : settings.outputFile = .text "types.d.ts" := by
    have hloaded : (Settings.load stream.files (streamArguments.config?.bind FilePath.given?)
        (some streamArguments.overrides)).toOption.map Settings.outputFile = some (.text "types.d.ts") := by
      decide +kernel
    rw [hload] at hloaded
    exact Option.some.inj hloaded
  exact ⟨hend, read_streamWords, settings, document, code, houtput, hdocument, hcode,
    (hfile _ houtput (by decide)).2⟩

end SchemaDecl.CommandLine

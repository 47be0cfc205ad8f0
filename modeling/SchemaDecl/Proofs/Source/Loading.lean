import SchemaDecl.CommandLine.Run
import SchemaDecl.Proofs.Source.Documents

/-!
# What is told of a file that cannot be read

A schema export and a settings file are read in the same way. Each reading ends with the document in the file or with
a fault, and a fault is one that a user is told unless the path strays: it cannot be found out whether there is something
at the path, or the path leads to bytes that are no text, or to a whole number with too many digits.
-/

namespace SchemaDecl

variable {tree : FileTree} {path : FilePath}

namespace Loading

def Fault.ofDocument (path : FilePath) : FileTree.DocumentFault → Fault
  | .unreachable fault => .unreachable path fault
  | .missing => .missing path
  | .unreadable fault => .unreadable path fault
  | .notText fault => .notText fault
  | .refused error => .ofReading (.malformedFile path) error

theorem isToldOfLoading_ofDocument (fault : FileTree.DocumentFault) :
    CommandLine.isToldOfLoading (.ofDocument path fault) = fault.isOrdinary := by
  cases fault with
  | refused error =>
    rw [Fault.ofDocument, Fault.ofReading, FileTree.DocumentFault.isOrdinary]
    cases error.fault.isLimit <;> rfl
  | _ => rfl

theorem fromFile_result (tree : FileTree) (path : FilePath) : (fromFile tree path).result =
    ((tree.document path).mapError (Fault.ofDocument path)).map fun data => ⟨path.text, data⟩ := by
  cases hhas : tree.has path with
  | error fault =>
    rw [fromFile, FileTree.document, hhas]
    rfl
  | ok found =>
    cases found with
    | false =>
      rw [fromFile, FileTree.document, hhas]
      rfl
    | true =>
      rw [fromFile, hhas, FileTree.document_of_has hhas]
      change readFile tree path = (fun data => (⟨path.text, data⟩ : Document)) <$> _
      simp only [readFile, map_bind, bind_pure_comp]
      rfl

theorem fromFile_eq_ok_iff {document : Document} : (fromFile tree path).result = .ok document ↔
    document.source = path.text ∧ tree.HoldsDocument path document.data := by
  rw [fromFile_result, ← FileTree.document_eq_ok_iff]
  obtain ⟨source, data⟩ := document
  cases tree.document path with
  | error fault => simp [Except.mapError, Except.map]
  | ok found => simp [Except.mapError, Except.map, eq_comm]

theorem fromFile_strays_iff :
    (∃ fault, (fromFile tree path).result = .error fault ∧ CommandLine.isToldOfLoading fault = false) ↔
      tree.Strays path := by
  rw [fromFile_result, ← FileTree.document_strays_iff]
  cases tree.document path with
  | error fault => simp [Except.mapError, Except.map, isToldOfLoading_ofDocument]
  | ok found => simp [Except.mapError, Except.map]

end Loading

namespace Settings

def FileFault.ofDocument : FileTree.DocumentFault → FileFault
  | .unreachable fault => .unreachable fault
  | .missing => .missing
  | .unreadable fault => .unreadable fault
  | .notText fault => .notText fault
  | .refused error => .malformed error

theorem isToldOfSettings_ofDocument (fault : FileTree.DocumentFault) :
    CommandLine.isToldOfSettings (.file path (.ofDocument fault)) = fault.isOrdinary := by
  cases fault <;> rfl

def entriesOf : Json → Except FileFault Entries
  | .object entries => .ok entries
  | _ => .error .notObject

theorem readFile_of_isJson (h : path.isJson = true) :
    readFile tree path = (tree.document path).mapError FileFault.ofDocument >>= entriesOf := by
  cases hhas : tree.has path with
  | error fault =>
    rw [readFile, FileTree.document, hhas]
    rfl
  | ok found =>
    cases found with
    | false =>
      rw [readFile, FileTree.document, hhas]
      rfl
    | true =>
      rw [readFile, hhas, h, FileTree.document_of_has hhas]
      simp only [bind_assoc]
      rfl

/-- Where the name is not that of a JSON file, no file is opened. -/
theorem readFile_of_not_isJson (tree : FileTree) (h : path.isJson = false) :
    (∃ fault, tree.Unanswered path fault ∧ readFile tree path = .error (.unreachable fault)) ∨
      (∀ fault, ¬ tree.Unanswered path fault) ∧
        (readFile tree path = .error .missing ∨ readFile tree path = .error .otherFormat) := by
  rw [readFile, h]
  cases hhas : tree.has path with
  | error fault => exact .inl ⟨fault, FileTree.has_eq_error_iff.1 hhas, rfl⟩
  | ok found =>
    refine .inr ⟨FileTree.not_unanswered_of_has hhas, ?_⟩
    cases found with
    | false => exact .inl rfl
    | true => exact .inr rfl

theorem readFile_eq_ok_iff {entries : Entries} : readFile tree path = .ok entries ↔
    path.isJson = true ∧ tree.HoldsDocument path (.object entries) := by
  cases hjson : path.isJson with
  | false =>
    refine ⟨fun h => ?_, by rintro ⟨⟨⟩, -⟩⟩
    rcases readFile_of_not_isJson tree hjson with ⟨_, -, hread⟩ | ⟨-, hread | hread⟩ <;>
      rw [hread] at h <;> cases h
  | true =>
    rw [readFile_of_isJson hjson, ← FileTree.document_eq_ok_iff]
    cases tree.document path with
    | error fault => simp [Except.mapError, bind, Except.bind]
    | ok data => cases data <;> simp [Except.mapError, bind, Except.bind, entriesOf]

theorem readFile_strays_iff :
    (∃ fault, readFile tree path = .error fault ∧ CommandLine.isToldOfSettings (.file path fault) = false) ↔
      (∃ fault, tree.Unanswered path fault) ∨ path.isJson = true ∧ tree.Strays path := by
  cases hjson : path.isJson with
  | false =>
    rcases readFile_of_not_isJson tree hjson with ⟨fault, hfault, hread⟩ | ⟨hanswered, hread | hread⟩ <;> rw [hread]
    · exact iff_of_true ⟨_, rfl, rfl⟩ (.inl ⟨fault, hfault⟩)
    · simp [hanswered, CommandLine.isToldOfSettings]
    · simp [hanswered, CommandLine.isToldOfSettings]
  | true =>
    -- a path without an answer strays, so that nothing is added by saying so
    have hstrays : (∃ fault, tree.Unanswered path fault) ∨ true = true ∧ tree.Strays path ↔ tree.Strays path :=
      ⟨fun h => h.elim (fun ⟨_, hfault⟩ => .unanswered hfault) fun h => h.2, fun h => .inr ⟨rfl, h⟩⟩
    rw [hstrays, readFile_of_isJson hjson, ← FileTree.document_strays_iff]
    cases tree.document path with
    | error fault => simp [Except.mapError, bind, Except.bind, isToldOfSettings_ofDocument]
    | ok data => cases data <;> simp [Except.mapError, bind, Except.bind, entriesOf, CommandLine.isToldOfSettings]

end Settings

/-- Loading a file gives the document in it, and reading a settings file, whose name is that of a JSON file, gives the
object in it. Otherwise there is a fault, and the fault is one that a user is told unless the path strays: it cannot be
found out whether there is something at it, because it or a name on its way is too long or a folder on its way may not be
searched; or, for settings only if it is the name of a JSON file, it leads to bytes that are no text or to a text that is
refused where a whole number of too many digits begins. -/
theorem reading_strays (tree : FileTree) (path : FilePath) (timeout : Json) (reply : Reply) :
    (∀ document, (Loading.fromEither tree (some path) none timeout reply).result = .ok document ↔
        document.source = path.text ∧ tree.HoldsDocument path document.data) ∧
      ((∃ fault, (Loading.fromEither tree (some path) none timeout reply).result = .error fault ∧
          CommandLine.isToldOfLoading fault = false) ↔ tree.Strays path) ∧
      (∀ entries, Settings.readFile tree path = .ok entries ↔
        path.isJson = true ∧ tree.HoldsDocument path (.object entries)) ∧
      ((∃ fault, Settings.readFile tree path = .error fault ∧
          CommandLine.isToldOfSettings (.file path fault) = false) ↔
        (∃ fault, tree.Unanswered path fault) ∨ path.isJson = true ∧ tree.Strays path) :=
  ⟨fun _ => Loading.fromFile_eq_ok_iff, Loading.fromFile_strays_iff, fun _ => Settings.readFile_eq_ok_iff,
    Settings.readFile_strays_iff⟩

/-- Loading the file and reading it as settings both end with a fault that the user is not told. -/
def IsUntold (tree : FileTree) (path : FilePath) : Prop :=
  (∃ fault, (Loading.fromEither tree (some path) none (.int Loading.patience) .refused).result = .error fault ∧
      CommandLine.isToldOfLoading fault = false) ∧
    ∃ fault, Settings.readFile tree path = .error fault ∧ CommandLine.isToldOfSettings (.file path fault) = false

theorem FileTree.Strays.isUntold (h : tree.Strays path) (hjson : path.isJson = true) : IsUntold tree path :=
  ⟨Loading.fromFile_strays_iff.2 h, Settings.readFile_strays_iff.2 (.inr ⟨hjson, h⟩)⟩

def strayPath : FilePath := ⟨false, ["a.json"]⟩

/-- A folder with one file, whose name is that of a JSON file. -/
def strayFile (bytes : ByteArray) : FileTree := { nodes := [(["a.json"], .file bytes)] }

theorem read_strayFile (bytes : ByteArray) : (strayFile bytes).read strayPath = .ok bytes := by
  have hplace : (strayFile bytes).resolve strayPath = .ok ["a.json"] := by
    rw [FileTree.resolve, String.contains_char_eq]
    rfl
  rw [FileTree.read, hplace]
  rfl

def shutPath : FilePath := ⟨false, ["shut", "a.json"]⟩

/-- The same file in a folder that may not be searched. -/
def shutFile (bytes : ByteArray) : FileTree where
  nodes := [(["shut", "a.json"], .file bytes)]
  forbidden := [(["shut"], .search)]

theorem shutFile_strays (bytes : ByteArray) : (shutFile bytes).Strays shutPath := by
  have hplace : (shutFile bytes).resolve shutPath = .error .denied := by
    rw [FileTree.resolve, String.contains_char_eq]
    rfl
  exact .unanswered (FileTree.unanswered_of_resolve hplace rfl)

/-- The user is told neither of a file of one byte with which no text begins, nor of one with a digit too many, nor of
one in a folder that may not be searched. -/
theorem strayFile_untold :
    IsUntold (strayFile ⟨#[0xff]⟩) strayPath ∧
      IsUntold (strayFile (String.ofList (List.replicate (Json.mostDigits + 1) '1')).toUTF8) strayPath ∧
      IsUntold (shutFile "1".toUTF8) shutPath := by
  have hjson : strayPath.isJson = true := by decide +kernel
  have hbyte : (strayFile ⟨#[0xff]⟩).Strays strayPath := .notText (read_strayFile _) (by decide)
  have hdigits : ∀ c ∈ List.replicate (Json.mostDigits + 1) '1', c.isDigit = true := fun c hc => by
    rw [List.eq_of_mem_replicate hc]
    rfl
  have hnumber : (strayFile (String.ofList (List.replicate (Json.mostDigits + 1) '1')).toUTF8).Strays strayPath :=
    FileTree.strays_of_digits (read_strayFile _) hdigits (by simp [List.replicate_succ])
      (by rw [List.length_replicate]; exact Nat.lt_succ_self _)
  exact ⟨hbyte.isUntold hjson, hnumber.isUntold hjson, (shutFile_strays _).isUntold (by decide +kernel)⟩

end SchemaDecl

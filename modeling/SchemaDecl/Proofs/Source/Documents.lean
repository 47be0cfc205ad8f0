import SchemaDecl.Proofs.Json.Indented
import SchemaDecl.Proofs.Json.Limits
import SchemaDecl.Proofs.Source.FileTree

/-!
# Documents in files

From a path to a document it is four steps: something is at the path, it is a file that may be read, its bytes are those
of a text, and the text is JSON. Three of the faults on the way are of a kind of their own: a path at which it cannot be
found out whether there is something, bytes that are no text, and a whole number with too many digits.
-/

namespace SchemaDecl

namespace Utf8

variable {bytes : ByteArray} {text : String}

theorem decode_eq_ok_iff : decode bytes = .ok text ↔ bytes = text.toUTF8 := by
  constructor
  · intro h
    rw [decode, String.fromUTF8?] at h
    split at h
    next s hs =>
      split at hs
      next =>
        cases hs
        cases h
        rfl
      next => cases hs
    next => cases h
  · rintro rfl
    exact decode_toUTF8 text

theorem decode_eq_error_iff : (∃ fault, decode bytes = .error fault) ↔ ¬ bytes.IsValidUTF8 := by
  rw [decode, String.fromUTF8?]
  by_cases h : bytes.IsValidUTF8
  · rw [dif_pos h]
    simp [h]
  · rw [dif_neg h]
    simp [h]

/-- The text with its line endings made uniform. -/
def uniform (text : String) : String := String.ofList (Text.unifyNewlines text.toList)

theorem decodeLines_eq_ok_iff :
    decodeLines bytes = .ok text ↔ ∃ raw : String, bytes = raw.toUTF8 ∧ text = uniform raw := by
  rw [decodeLines]
  cases h : decode bytes with
  | error fault =>
    refine ⟨by rintro ⟨⟩, ?_⟩
    rintro ⟨raw, rfl, -⟩
    rw [decode_toUTF8] at h
    cases h
  | ok raw =>
    obtain rfl := decode_eq_ok_iff.1 h
    constructor
    · rintro ⟨⟩
      exact ⟨raw, rfl, rfl⟩
    · rintro ⟨raw', hraw, rfl⟩
      rw [hraw, decode_toUTF8] at h
      cases h
      rfl

theorem decodeLines_eq_error_iff : (∃ fault, decodeLines bytes = .error fault) ↔ ¬ bytes.IsValidUTF8 := by
  rw [← decode_eq_error_iff, decodeLines]
  cases decode bytes <;> simp [Except.map]

end Utf8

namespace FileTree

variable {tree : FileTree} {path : FilePath} {bytes : ByteArray}

theorem has_of_read (h : tree.read path = .ok bytes) : tree.has path = .ok true := by
  obtain ⟨place, hplace, hnode, -⟩ := read_eq_ok_iff.1 h
  rw [has, hplace]
  simp [isFile, hnode]

theorem not_unanswered_of_has {found : Bool} (h : tree.has path = .ok found) (fault : PathFault) :
    ¬ tree.Unanswered path fault := fun hfault => by
  rw [has_eq_error_iff.2 hfault] at h
  cases h

inductive DocumentFault
  | unreachable (fault : PathFault)
  | missing
  | unreadable (fault : PathFault)
  | notText (fault : Utf8.Fault)
  | refused (error : Json.ReadError)

def document (tree : FileTree) (path : FilePath) : Except DocumentFault Json := do
  if !(← (tree.has path).mapError .unreachable) then throw .missing
  let bytes ← (tree.read path).mapError .unreadable
  let text ← (Utf8.decodeLines bytes).mapError .notText
  (Json.read text).mapError .refused

/-- Faults of a kind that a user is told. -/
def DocumentFault.isOrdinary : DocumentFault → Bool
  | unreachable _ | notText _ => false
  | refused error => !error.fault.isLimit
  | missing | unreadable _ => true

/-- Where there is something, its document is read in three stages, each of which has faults of its own. -/
theorem document_of_has {ε : Type} (h : tree.has path = .ok true) (told : DocumentFault → ε) :
    (tree.document path).mapError told =
      (tree.read path).mapError (told ∘ .unreadable) >>= fun bytes =>
        (Utf8.decodeLines bytes).mapError (told ∘ .notText) >>= fun text =>
          (Json.read text).mapError (told ∘ .refused) := by
  rw [document, h]
  cases tree.read path with
  | error fault => rfl
  | ok bytes =>
    change ((Utf8.decodeLines bytes).mapError DocumentFault.notText >>= _).mapError told =
      (Utf8.decodeLines bytes).mapError (told ∘ .notText) >>= _
    cases Utf8.decodeLines bytes with
    | error fault => rfl
    | ok text =>
      change ((Json.read text).mapError _).mapError _ = (Json.read text).mapError _
      cases Json.read text <;> rfl

/-- The bytes at the path are those of a text, which with uniform line endings is this one. -/
def HoldsText (tree : FileTree) (path : FilePath) (text : String) : Prop :=
  ∃ raw : String, tree.read path = .ok raw.toUTF8 ∧ text = Utf8.uniform raw

def HoldsDocument (tree : FileTree) (path : FilePath) (data : Json) : Prop :=
  ∃ text, tree.HoldsText path text ∧ Json.read text = .ok data

/-- The ways in which a path leads to a fault of another kind. -/
inductive Strays (tree : FileTree) (path : FilePath) : Prop
  | unanswered {fault : PathFault} : tree.Unanswered path fault → Strays tree path
  | notText {bytes : ByteArray} : tree.read path = .ok bytes → ¬ bytes.IsValidUTF8 → Strays tree path
  | longNumber {text : String} : tree.HoldsText path text → Json.StopsAtNumber text → Strays tree path

/-- What a path leads to, stage by stage. -/
theorem document_cases (tree : FileTree) (path : FilePath) :
    (∃ fault, tree.Unanswered path fault ∧ tree.document path = .error (.unreachable fault)) ∨
    ((∀ fault, ¬ tree.Unanswered path fault) ∧ (∀ bytes, tree.read path ≠ .ok bytes) ∧
      ∃ fault, tree.document path = .error fault ∧ fault.isOrdinary = true) ∨
    (∃ bytes fault, tree.read path = .ok bytes ∧ ¬ bytes.IsValidUTF8 ∧ tree.document path = .error (.notText fault)) ∨
    ∃ text, tree.HoldsText path text ∧ tree.document path = (Json.read text).mapError .refused := by
  rw [document]
  cases hhas : tree.has path with
  | error fault => exact .inl ⟨fault, has_eq_error_iff.1 hhas, rfl⟩
  | ok found =>
    have hanswered := not_unanswered_of_has hhas
    cases hread : tree.read path with
    | error fault =>
      refine .inr (.inl ⟨hanswered, by rintro _ ⟨⟩, ?_⟩)
      cases found with
      | false => exact ⟨_, rfl, rfl⟩
      | true => exact ⟨_, rfl, rfl⟩
    | ok bytes =>
      rw [has_of_read hread] at hhas
      cases hhas
      refine .inr (.inr ?_)
      cases htext : Utf8.decodeLines bytes with
      | error fault =>
        refine .inl ⟨bytes, fault, rfl, Utf8.decodeLines_eq_error_iff.1 ⟨fault, htext⟩, ?_⟩
        change (Utf8.decodeLines bytes).mapError DocumentFault.notText >>= _ = _
        rw [htext]
        rfl
      | ok text =>
        obtain ⟨raw, rfl, rfl⟩ := Utf8.decodeLines_eq_ok_iff.1 htext
        refine .inr ⟨_, ⟨raw, hread, rfl⟩, ?_⟩
        change (Utf8.decodeLines raw.toUTF8).mapError DocumentFault.notText >>= _ = _
        rw [htext]
        rfl

theorem HoldsText.unique {text text' : String} (h : tree.HoldsText path text) (h' : tree.HoldsText path text') :
    text = text' := by
  obtain ⟨raw, hread, rfl⟩ := h
  obtain ⟨raw', hread', rfl⟩ := h'
  rw [hread] at hread'
  have hraw := Utf8.decode_toUTF8 raw
  rw [Except.ok.inj hread', Utf8.decode_toUTF8] at hraw
  rw [Except.ok.inj hraw]

theorem HoldsText.valid {text : String} (h : tree.HoldsText path text) (hread : tree.read path = .ok bytes) :
    bytes.IsValidUTF8 := by
  obtain ⟨raw, hraw, -⟩ := h
  rw [hraw] at hread
  cases hread
  exact raw.isValidUTF8

theorem not_unanswered_of_read (h : tree.read path = .ok bytes) (fault : PathFault) :
    ¬ tree.Unanswered path fault :=
  not_unanswered_of_has (has_of_read h) fault

theorem document_eq_ok_iff {data : Json} : tree.document path = .ok data ↔ tree.HoldsDocument path data := by
  rcases document_cases tree path with
    ⟨fault, hfault, hdoc⟩ | ⟨-, hread, fault, hdoc, -⟩ | ⟨bytes, fault, hread, hbad, hdoc⟩ | ⟨text, htext, hdoc⟩ <;>
    rw [hdoc]
  · refine ⟨by rintro ⟨⟩, ?_⟩
    rintro ⟨_, ⟨raw, hread, -⟩, -⟩
    exact absurd hfault (not_unanswered_of_read hread fault)
  · refine ⟨by rintro ⟨⟩, ?_⟩
    rintro ⟨_, ⟨raw, hraw, -⟩, -⟩
    exact absurd hraw (hread _)
  · refine ⟨by rintro ⟨⟩, ?_⟩
    rintro ⟨text, htext, -⟩
    exact absurd (htext.valid hread) hbad
  · constructor
    · intro h
      refine ⟨text, htext, ?_⟩
      cases hjson : Json.read text with
      | error error => rw [hjson] at h; cases h
      | ok value => rw [hjson] at h; cases h; rfl
    · rintro ⟨text', htext', hjson⟩
      rw [htext.unique htext', hjson]
      rfl

/-- The faults of another kind come about in the three ways. -/
theorem document_strays_iff :
    (∃ fault, tree.document path = .error fault ∧ fault.isOrdinary = false) ↔ tree.Strays path := by
  constructor
  · rintro ⟨fault, hfault, hkind⟩
    rcases document_cases tree path with
      ⟨other, hother, -⟩ | ⟨-, -, other, hdoc, hordinary⟩ | ⟨bytes, -, hread, hbad, -⟩ | ⟨text, htext, hdoc⟩
    · exact .unanswered hother
    · rw [hdoc] at hfault
      cases hfault
      rw [hordinary] at hkind
      cases hkind
    · exact .notText hread hbad
    · rw [hdoc] at hfault
      cases hjson : Json.read text with
      | ok value => rw [hjson] at hfault; cases hfault
      | error error =>
        rw [hjson] at hfault
        cases hfault
        have hlimit : error.fault.isLimit = true := by simpa [DocumentFault.isOrdinary] using hkind
        exact .longNumber htext (Json.stopsAtNumber_iff.2 ⟨error, hjson, hlimit⟩)
  · intro hstrays
    rcases document_cases tree path with
      ⟨fault, -, hdoc⟩ | ⟨hanswered, hread, -⟩ | ⟨-, fault, -, -, hdoc⟩ | ⟨text, htext, hdoc⟩
    · exact ⟨_, hdoc, rfl⟩
    · cases hstrays with
      | unanswered hfault => exact absurd hfault (hanswered _)
      | notText hbytes _ => exact absurd hbytes (hread _)
      | longNumber htext _ =>
        obtain ⟨raw, hraw, -⟩ := htext
        exact absurd hraw (hread _)
    · exact ⟨_, hdoc, rfl⟩
    · cases hstrays with
      | unanswered hfault =>
        obtain ⟨raw, hread, -⟩ := htext
        exact absurd hfault (not_unanswered_of_read hread _)
      | notText hbytes hbad => exact absurd (htext.valid hbytes) hbad
      | longNumber htext' hstops =>
        obtain ⟨error, hread, hlimit⟩ := Json.stopsAtNumber_iff.1 hstops
        obtain rfl := htext.unique htext'
        refine ⟨.refused error, ?_, by simp [DocumentFault.isOrdinary, hlimit]⟩
        rw [hdoc, hread]
        rfl

theorem strays_of_digits {digits : List Char} (hread : tree.read path = .ok (String.ofList digits).toUTF8)
    (hdigits : ∀ c ∈ digits, c.isDigit = true) (hzero : digits.head? ≠ some '0')
    (hlong : Json.mostDigits < digits.length) : tree.Strays path := by
  have hreturn : '\r' ∉ digits := fun hm => absurd (hdigits _ hm) (by decide)
  refine .longNumber ⟨_, hread, rfl⟩ ?_
  rw [Utf8.uniform, String.toList_ofList, Text.unifyNewlines_of_not_mem hreturn]
  exact Json.stopsAtNumber_digits hdigits hzero hlong

end FileTree

end SchemaDecl

import SchemaDecl.Json.Writer
import SchemaDecl.Proofs.Text.Numerals
import SchemaDecl.Text.Utf8

/-!
# JSON over several lines

A value that is written over several lines has line feeds for its line breaks, and no carriage return of its
texts is left unescaped. So its bytes are decoded as they were written, although line endings are made uniform.
-/

namespace SchemaDecl

/-- There is no carriage return in the text. -/
def NoReturn (s : String) : Prop := '\r' ∉ s.toList

instance (s : String) : Decidable (NoReturn s) := inferInstanceAs (Decidable ('\r' ∉ s.toList))

namespace NoReturn

@[simp] theorem append_iff {a b : String} : NoReturn (a ++ b) ↔ NoReturn a ∧ NoReturn b := by
  rw [NoReturn, String.toList_append, List.mem_append, not_or]
  rfl

theorem of_numeral {s : String} (h : s.toList ⊆ numeralChars) : NoReturn s :=
  fun hc => absurd (h hc) (by decide)

end NoReturn

namespace Json

theorem return_not_mem_unicodeEscape (n : Nat) : '\r' ∉ unicodeEscape n := by
  have hdigits : hexDigits 4 n ⊆ numeralChars := by
    refine List.append_subset.2 ⟨fun c hc => ?_, toDigits_subset 16 n⟩
    rw [List.eq_of_mem_replicate hc]
    decide
  have hescape : unicodeEscape n ⊆ '\\' :: 'u' :: numeralChars :=
    List.cons_subset_cons _ (List.cons_subset_cons _ hdigits)
  exact fun hc => absurd (hescape hc) (by decide)

theorem return_not_mem_plainEscape (c : Char) : '\r' ∉ plainEscape c := by
  intro h
  unfold plainEscape shortEscape? at h
  split at h
  next escape he =>
    split at he
    · cases he; exact absurd h (by decide)
    · cases he; exact absurd h (by decide)
    · cases he; exact absurd h (by decide)
    · cases he; exact absurd h (by decide)
    · cases he; exact absurd h (by decide)
    · split at he
      · cases he; exact absurd h (by decide)
      · split at he
        · cases he; exact absurd h (by decide)
        · cases he
  next hnone =>
    split at h
    next => exact return_not_mem_unicodeEscape _ h
    next =>
      -- the return itself has an escape of its own
      obtain rfl := List.mem_singleton.1 h
      exact absurd hnone (by decide)

theorem noReturn_quotePlain (s : String) : NoReturn (quotePlain s) := by
  have hchars : '\r' ∉ s.toList.flatMap plainEscape := by
    rw [List.mem_flatMap]
    rintro ⟨c, -, hc⟩
    exact return_not_mem_plainEscape c hc
  rw [NoReturn, quotePlain, String.toList_ofList, quoteChars]
  simp [hchars]

theorem noReturn_newline (level : Nat) : NoReturn (newline level) := by
  rw [newline, NoReturn.append_iff]
  refine ⟨by decide, ?_⟩
  rw [NoReturn, String.toList_ofList]
  exact fun hc => absurd (List.eq_of_mem_replicate hc) (by decide)

theorem noReturn_renderFloat (x : Binary64) : NoReturn (renderFloat x) := by
  intro hc
  rcases Binary64.mem_textWith hc with h | h | h
  · exact absurd h (by decide)
  · exact absurd h (by decide)
  · exact absurd h (by decide)

mutual

theorem noReturn_renderIndented : ∀ (level : Nat) (value : Json), NoReturn (value.renderIndented level)
  | _, null => by rw [renderIndented]; decide
  | _, bool b => by rw [renderIndented]; cases b <;> decide
  | _, int i => by rw [renderIndented]; exact .of_numeral (toString_int_subset i)
  | _, float x => by rw [renderIndented]; exact noReturn_renderFloat x
  | _, text s => by rw [renderIndented]; exact noReturn_quotePlain s
  | _, list [] => by rw [renderIndented]; decide
  | level, list (item :: rest) => by
    rw [renderIndented]
    · simp only [NoReturn.append_iff]
      exact ⟨⟨⟨by decide, noReturn_indentedItems (level + 1) (item :: rest)⟩, noReturn_newline level⟩, by decide⟩
    · simp
  | _, object [] => by rw [renderIndented]; decide
  | level, object (e :: rest) => by
    rw [renderIndented]
    · simp only [NoReturn.append_iff]
      exact ⟨⟨⟨by decide, noReturn_indentedEntries (level + 1) (e :: rest)⟩, noReturn_newline level⟩, by decide⟩
    · simp

theorem noReturn_indentedItems : ∀ (level : Nat) (items : List Json), NoReturn (indentedItems level items)
  | _, [] => by rw [indentedItems]; decide
  | level, [item] => by
    rw [indentedItems, NoReturn.append_iff]
    exact ⟨noReturn_newline level, noReturn_renderIndented level item⟩
  | level, item :: next :: rest => by
    rw [indentedItems]
    · simp only [NoReturn.append_iff]
      exact ⟨⟨⟨noReturn_newline level, noReturn_renderIndented level item⟩, by decide⟩,
        noReturn_indentedItems level (next :: rest)⟩
    · simp

theorem noReturn_indentedEntries : ∀ (level : Nat) (entries : List (String × Json)),
    NoReturn (indentedEntries level entries)
  | _, [] => by rw [indentedEntries]; decide
  | level, [(key, value)] => by
    rw [indentedEntries]
    simp only [NoReturn.append_iff]
    exact ⟨⟨⟨noReturn_newline level, noReturn_quotePlain key⟩, by decide⟩, noReturn_renderIndented level value⟩
  | level, (key, value) :: next :: rest => by
    rw [indentedEntries]
    · simp only [NoReturn.append_iff]
      exact ⟨⟨⟨⟨⟨noReturn_newline level, noReturn_quotePlain key⟩, by decide⟩,
        noReturn_renderIndented level value⟩, by decide⟩, noReturn_indentedEntries level (next :: rest)⟩
    · simp

end

end Json

theorem Text.unifyNewlines_of_not_mem {cs : List Char} (h : '\r' ∉ cs) : Text.unifyNewlines cs = cs := by
  fun_induction Text.unifyNewlines cs with
  | case1 => rfl
  | case2 rest => exact absurd List.mem_cons_self h
  | case3 rest => exact absurd List.mem_cons_self h
  | case4 c rest _ _ ih => rw [ih (List.not_mem_of_not_mem_cons h)]

namespace Utf8

theorem decode_toUTF8 (s : String) : decode s.toUTF8 = .ok s := by
  have hread : String.fromUTF8? s.toUTF8 = some s := by
    rw [String.fromUTF8?, String.toUTF8_eq_toByteArray, dif_pos s.isValidUTF8]
    rfl
  rw [decode, hread]

theorem decodeLines_toUTF8 {s : String} (h : NoReturn s) : decodeLines s.toUTF8 = .ok s := by
  rw [decodeLines, decode_toUTF8]
  change Except.ok (String.ofList (Text.unifyNewlines s.toList)) = _
  rw [Text.unifyNewlines_of_not_mem h, String.ofList_toList]

end Utf8

end SchemaDecl

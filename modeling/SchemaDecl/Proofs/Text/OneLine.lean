import SchemaDecl.Proofs.Number.Grammar
import SchemaDecl.Proofs.Text.Bare

/-!
# Texts on one line

No line feed comes from values that are written as JSON, from numerals, or from names.
-/

namespace SchemaDecl

/-- There is no line feed in the text. -/
def OneLine (s : String) : Prop := '\n' ∉ s.toList

instance (s : String) : Decidable (OneLine s) := inferInstanceAs (Decidable ('\n' ∉ s.toList))

namespace OneLine

@[simp] theorem append_iff {a b : String} : OneLine (a ++ b) ↔ OneLine a ∧ OneLine b := by
  rw [OneLine, String.toList_append, List.mem_append, not_or]
  rfl

@[simp] theorem ofList_iff {cs : List Char} : OneLine (String.ofList cs) ↔ '\n' ∉ cs := by
  rw [OneLine, String.toList_ofList]

theorem intercalate {sep : String} {parts : List String} (hs : OneLine sep)
    (hp : ∀ part ∈ parts, OneLine part) : OneLine (sep.intercalate parts) :=
  intercalate_closed (P := ('\n' ∉ ·)) List.not_mem_nil
    (fun ha hb hm => (List.mem_append.1 hm).elim ha hb) hs hp

theorem of_bare {s : String} (h : Bare s) : OneLine s := h.newline_not_mem

end OneLine

namespace Json

theorem newline_not_mem_asciiEscape (c : Char) : '\n' ∉ asciiEscape c := by
  intro h
  rcases isBare_asciiEscape h with hbare | ⟨hbracket, -⟩
  · exact absurd hbare (by decide)
  · exact absurd hbracket (by decide)

theorem oneLine_quote (s : String) : OneLine (quote s) := by
  have hchars : '\n' ∉ s.toList.flatMap asciiEscape := by
    rw [List.mem_flatMap]
    rintro ⟨c, -, hc⟩
    exact newline_not_mem_asciiEscape c hc
  rw [quote, OneLine.ofList_iff, quoteChars]
  simp [hchars]

mutual

/-- Every value is written as JSON on one line. -/
theorem oneLine_render : ∀ value : Json, OneLine value.render
  | null => by rw [render]; decide
  | bool b => by rw [render]; cases b <;> decide
  | int i => by rw [render]; exact .of_bare (bare_int i)
  | float x => by rw [render]; exact .of_bare (x.bare_textWith (by decide) (by decide))
  | text s => by rw [render]; exact oneLine_quote s
  | list items => by
    rw [render, OneLine.append_iff, OneLine.append_iff]
    exact ⟨⟨by decide, oneLine_renderItems items⟩, by decide⟩
  | object entries => by
    rw [render, OneLine.append_iff, OneLine.append_iff]
    exact ⟨⟨by decide, oneLine_renderEntries entries⟩, by decide⟩

theorem oneLine_renderItems : ∀ items : List Json, OneLine (renderItems items)
  | [] => by rw [renderItems]; decide
  | [item] => by rw [renderItems]; exact oneLine_render item
  | item :: next :: rest => by
    rw [renderItems, OneLine.append_iff, OneLine.append_iff]
    · exact ⟨⟨oneLine_render item, by decide⟩, oneLine_renderItems (next :: rest)⟩
    · simp

theorem oneLine_renderEntries : ∀ entries : List (String × Json), OneLine (renderEntries entries)
  | [] => by rw [renderEntries]; decide
  | [(key, value)] => by
    rw [renderEntries, OneLine.append_iff, OneLine.append_iff]
    exact ⟨⟨oneLine_quote key, by decide⟩, oneLine_render value⟩
  | (key, value) :: next :: rest => by
    rw [renderEntries]
    · simp only [OneLine.append_iff]
      exact ⟨⟨⟨⟨oneLine_quote key, by decide⟩, oneLine_render value⟩, by decide⟩,
        oneLine_renderEntries (next :: rest)⟩
    · simp

end

end Json

theorem Numeral.newline_not_mem_trim {s : String} (h : isFinite s = true) : '\n' ∉ Text.trim s.toList := by
  intro hm
  obtain ⟨p, hp, htext⟩ := parts_of_isFinite h
  rw [← htext] at hm
  exact absurd (isBlank_of_mem_text hp hm) (by decide)

theorem TypeExpr.oneLine_literal (numeric : Bool) (value : Json) : OneLine (literal numeric value) := by
  unfold literal
  split
  next s =>
    split
    next h =>
      rw [Bool.and_eq_true] at h
      exact OneLine.ofList_iff.2 (Numeral.newline_not_mem_trim h.2)
    next => exact Json.oneLine_render _
  next => exact Json.oneLine_render _

namespace Naming

variable {lead name : String}

theorem oneLine_declare (h : OneLine lead) (uid : String) : OneLine (declare lead uid) :=
  OneLine.append_iff.2 ⟨h, .of_bare (bare_pascalCase uid)⟩

theorem oneLine_placeholder (h : OneLine name) : OneLine (placeholder name) :=
  OneLine.append_iff.2 ⟨by decide, h⟩

theorem oneLine_declare? {target : Json} (h : OneLine lead) (hn : declare? lead target = .ok name) :
    OneLine name := by
  obtain ⟨uid, -, rfl⟩ := declare?_ok hn
  exact oneLine_declare h uid

theorem Extends.oneLine {base : String} (h : Extends base name) (hb : OneLine base) : OneLine name := by
  cases h with
  | plain => exact hb
  | numbered n => exact OneLine.append_iff.2 ⟨hb, .of_bare (bare_nat n)⟩

end Naming

end SchemaDecl

import SchemaDecl.Proofs.Generation.Equations
import SchemaDecl.Proofs.TypeExpr.Bars

/-!
# Lists of choices

The choices of a field are written side by side with bars between them, in one pair of parentheses. Texts among
them keep their brackets, and the search for a bar outside brackets counts those like any others, so a text can
close the parentheses too early: then the whole counts as a union, and is set in parentheses once more where the
field holds a list.
-/

namespace SchemaDecl

namespace TypeExpr

variable {cs : List Char}

/-- Before one of the bars, one bracket more has been closed than opened. -/
def BarEscapes (cs : List Char) : Prop :=
  ∃ front rear, cs = front ++ '|' :: rear ∧ front.countP isClosing = front.countP isOpening + 1

theorem barEscapes_iff : BarEscapes cs ↔ barFrom 1 cs = true := by
  rw [barFrom_eq_true_iff, BarEscapes]
  refine exists_congr fun front => exists_congr fun rear => and_congr_right fun _ => ?_
  rw [foldl_depthAfter]
  omega

instance (cs : List Char) : Decidable (BarEscapes cs) := decidable_of_iff (barFrom 1 cs = true) barEscapes_iff.symm

/-- The literals of choices with bars between them. -/
def alternatives (numeric : Bool) (values : List Json) : String := " | ".intercalate (values.map (literal numeric))

theorem barFrom_closing (depth : Int) : barFrom depth [')'] = false := by
  rw [barFrom, barFrom, Bool.or_false]
  rfl

theorem isUnion_parentheses (s : String) : isUnion ("(" ++ s ++ ")") = barFrom 1 s.toList := by
  have hchars : ("(" ++ s ++ ")").toList = '(' :: (s.toList ++ [')']) := by
    rw [String.toList_append, String.toList_append]
    rfl
  have hopen : barFrom 0 ('(' :: (s.toList ++ [')'])) = barFrom 1 (s.toList ++ [')']) := rfl
  rw [isUnion, hchars, hopen, barFrom_append, barFrom_closing, Bool.or_false]

theorem isUnion_choicesText_iff (numeric : Bool) (values : List Json) :
    isUnion (choicesText numeric values) = true ↔ BarEscapes (alternatives numeric values).toList := by
  rw [barEscapes_iff, choicesText, isUnion_parentheses, alternatives]

theorem not_barEscapes (h : Text.Balanced cs) : ¬ BarEscapes cs := by
  rw [barEscapes_iff, barFrom_within h]
  exact Bool.false_ne_true

end TypeExpr

namespace Generation

open TypeExpr

/-- The type of a field with choices that holds a list is the array of the choices, whatever else the field says.
Its text has the parentheses of the choices only, unless a bar gets out of these; then there is a second pair. No
bar gets out where the brackets of the literals match. -/
theorem visitField_choices {input : Input} {declare : Declare} {path : Json} {attrs : Attributes}
    {schema? : Option (List Field)} {blocks : List Block} {values : List Json} (hk : attrs.kind ≠ .boolean)
    (hc : attrs.choices = some values) (hne : values ≠ []) (s : State) :
    let numeric : Bool := attrs.kind = .number
    let union := choicesText numeric values
    let escapes := BarEscapes (alternatives numeric values).toList
    (isUnion union = true ↔ escapes) ∧ (Text.Balanced (alternatives numeric values).toList → ¬ escapes) ∧
      (Naming.isUsable attrs.uid = .ok true → attrs.multiple = true → attrs.maxInstance.truthy = false →
        ∃ type, visitField input declare path ⟨attrs, schema?, blocks⟩ s = ((memberOf attrs type).map some, s) ∧
          (¬ escapes → type.text input.style = union ++ "[]") ∧
          (escapes → type.text input.style = "(" ++ union ++ ")[]")) := by
  intro numeric union escapes
  have hunion : isUnion union = true ↔ escapes := isUnion_choicesText_iff numeric values
  refine ⟨hunion, not_barEscapes, fun hu hm hcount => ?_⟩
  refine ⟨.array (.choices numeric values), ?_, fun hbar => ?_, fun hbar => ?_⟩
  · have hliterals : attrs.literals? = some values := by
      rw [Attributes.literals?, if_neg hk, hc]
      cases values with
      | nil => exact absurd rfl hne
      | cons value rest => rfl
    have hflat : flatType? input.style attrs (joinPath path attrs.uid) =
        some (repeated attrs (pure (.choices numeric values))) := by
      rw [flatType?, hliterals]
    have htype : TypeExpr.repeated (.choices numeric values) attrs.multiple attrs.maxInstance =
        .array (.choices numeric values) := by
      rw [TypeExpr.repeated, hm, hcount]
      rfl
    rw [visitField_flat hu hflat, repeated, pure_bind, htype, pure_bind]
    unfold typedMember
    cases memberOf attrs (.array (.choices numeric values)) <;> rfl
  · rw [text, text, arrayText, if_neg (by rwa [hunion])]
  · rw [text, text, arrayText, if_pos (hunion.2 hbar)]

/-- A mandatory field that holds a list of texts, with choices one of which ends in a parenthesis. -/
def strayMarks : Field :=
  ⟨{ uid := .text "mark", kind := .text, tag := "text", multiple := true, mandatory := true,
     choices := some [.text "a)", .text "b"] }, none, []⟩

theorem visitField_choices_strayMarks :
    strayMarks.attrs.kind ≠ .boolean ∧ strayMarks.attrs.choices = some [.text "a)", .text "b"] ∧
      ∃ type, visitField ⟨{}, []⟩ (fun _ _ _ => pure ()) (.text "") strayMarks {} =
          (.ok (some ⟨.text "mark", .null, false, false, type⟩), {}) ∧
        type.text {} = "(" ++ choicesText false [.text "a)", .text "b"] ++ ")[]" := by
  have hk : strayMarks.attrs.kind ≠ .boolean := by decide
  have hc : strayMarks.attrs.choices = some [.text "a)", .text "b"] := rfl
  obtain ⟨-, -, hlist⟩ := @visitField_choices ⟨{}, []⟩ (fun _ _ _ => pure ()) (.text "") strayMarks.attrs none []
    _ hk hc (by decide) {}
  obtain ⟨type, hvisit, -, htext⟩ := hlist (by decide +kernel) rfl rfl
  exact ⟨hk, hc, type, hvisit, htext (by decide +kernel)⟩

theorem strayMarks_doubled :
    isUnion (choicesText false [.text "a)", .text "b"]) = true ∧
      ((visitField ⟨{}, []⟩ (fun _ _ _ => pure ()) (.text "") strayMarks {}).1.toOption.join.map fun m =>
        m.type.text {}) = some "((\"a)\" | \"b\"))[]" := by
  decide +kernel

end Generation

end SchemaDecl

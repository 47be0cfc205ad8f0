import SchemaDecl.Declaration.Printer

/-!
# Texts of declarations

The text of a declaration consists of the texts of its unions and then that of its interface, and each of
these introduces its name.
-/

namespace SchemaDecl

/-- The text introduces an interface or a type with the name. -/
def Introduces (text name : String) : Prop :=
  ∃ before after, text = before ++ "interface " ++ name ++ after ∨ text = before ++ "type " ++ name ++ after

theorem Introduces.ne_empty {text name : String} (h : Introduces text name) : text ≠ "" := by
  have hinterface : "interface ".length = 10 := rfl
  have htype : "type ".length = 5 := rfl
  have hzero : "".length = 0 := rfl
  obtain ⟨before, after, rfl | rfl⟩ := h
  all_goals
    intro he
    have hlength := congrArg String.length he
    simp only [String.length_append] at hlength
    omega

theorem Introduces.within {text name : String} (h : Introduces text name) (front rear : String) :
    Introduces (front ++ text ++ rear) name := by
  obtain ⟨before, after, h⟩ := h
  exact ⟨front ++ before, after ++ rear, h.imp (fun h => by simp only [h, String.append_assoc])
    fun h => by simp only [h, String.append_assoc]⟩

namespace Template

theorem renderAll_append (context : Entries) (pieces more : List Piece) :
    Piece.renderAll context (pieces ++ more) =
      Piece.renderAll context pieces ++ Piece.renderAll context more := by
  induction pieces with
  | nil => simp [Piece.renderAll]
  | cons piece rest ih => simp [Piece.renderAll, ih, String.append_assoc]

theorem introduces_of_header {context : Entries} {name : String}
    (h : valueOf? context "name" = some (.text name)) (before after : List Piece) :
    Introduces (render (before ++ ([.text "export interface ", .hole "name"] ++ after)) context) name := by
  refine ⟨Piece.renderAll context before ++ "export ", Piece.renderAll context after, .inl ?_⟩
  have hexport : "export interface " = "export " ++ "interface " := rfl
  rw [render, renderAll_append, renderAll_append]
  simp only [Piece.renderAll, Piece.render, h, hexport, Option.map_some, Option.getD_some,
    Json.display_text, String.append_assoc, String.append_empty]

theorem valueOf?_name (name : String) (rest : Entries) :
    valueOf? (("name", .text name) :: rest) "name" = some (.text name) := by
  simp [valueOf?, constant?, Table.get?]

end Template

variable (style : Style)

theorem BlockUnion.introduces (u : BlockUnion) : Introduces (u.text style) u.name :=
  Template.introduces_of_header (Template.valueOf?_name _ _) [] _

theorem Interface.introduces (i : Interface) : Introduces (i.text style) i.name :=
  Template.introduces_of_header (Template.valueOf?_name _ _)
    [.ifSet "description" [.hole "description", .text "\n"]] _

theorem joinParts_mem {parts : List String} {part : String} (h : part ∈ parts) :
    ∃ front rear, joinParts parts = front ++ part ++ rear := by
  obtain ⟨before, after, rfl⟩ := List.append_of_mem h
  have hrest : ∃ rear, joinParts (part :: after) = part ++ rear := by
    cases after with
    | nil => exact ⟨"", by simp [joinParts]⟩
    | cons next rest =>
      exact ⟨"\n\n" ++ "\n\n".intercalate (next :: rest), by
        rw [joinParts, String.intercalate_cons_cons, String.append_assoc]⟩
  obtain ⟨rear, hrear⟩ := hrest
  cases before with
  | nil => exact ⟨"", rear, by rw [List.nil_append, hrear, String.empty_append]⟩
  | cons first rest =>
    refine ⟨"\n\n".intercalate (first :: rest) ++ "\n\n", rear, ?_⟩
    rw [joinParts] at hrear ⊢
    rw [String.intercalate_append_of_ne_nil (by simp) (by simp), hrear]
    simp only [String.append_assoc]

theorem introduces_joinParts {parts : List String} {part name : String} (h : part ∈ parts)
    (hn : Introduces part name) : Introduces (joinParts parts) name := by
  obtain ⟨front, rear, hjoin⟩ := joinParts_mem h
  rw [hjoin]
  exact hn.within front rear

/-- The names that a declaration declares: those of its unions, and its own. -/
def Declaration.names (d : Declaration) : List String := d.unions.map BlockUnion.name ++ [d.main.name]

theorem Declaration.introduces (d : Declaration) : ∀ name ∈ d.names, Introduces (d.text style) name := by
  intro name hn
  rcases List.mem_append.1 hn with hn | hn
  · obtain ⟨u, hu, rfl⟩ := List.mem_map.1 hn
    exact introduces_joinParts (List.mem_append_left _ (List.mem_map_of_mem hu)) (u.introduces style)
  · obtain rfl := List.mem_singleton.1 hn
    exact introduces_joinParts (List.mem_append_right _ (List.mem_singleton_self _)) (d.main.introduces style)

theorem Declaration.text_ne_empty (d : Declaration) : d.text style ≠ "" :=
  (d.introduces style d.main.name (List.mem_append_right _ (List.mem_singleton_self _))).ne_empty

end SchemaDecl

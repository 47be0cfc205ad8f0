import SchemaDecl.Proofs.Text.Nesting
import SchemaDecl.Proofs.Text.OneLine
import SchemaDecl.Proofs.TypeExpr.Comments

/-!
# Nesting in types

A type is clean if what it takes from a document brings no brackets and no line breaks. The brackets in the
text of a clean type match, and none of its lines is blank, in whatever style.
-/

namespace SchemaDecl

open Text (Neat Inner isBlank)

def Unbracketed (s : String) : Prop := ∀ c ∈ s.toList, isBracket c = false

instance (s : String) : Decidable (Unbracketed s) := List.decidableBAll (isBracket · = false) s.toList

theorem Bare.unbracketed {s : String} (h : Bare s) : Unbracketed s := by
  intro c hc
  have hbare := h c hc
  simp only [isBare, Bool.and_eq_true, Bool.not_eq_true'] at hbare
  rw [isBracket, hbare.1.2, hbare.2]
  rfl

namespace Json

mutual

/-- There are no brackets in the texts and keys of the value. -/
def unbracketed : Json → Bool
  | text s => decide (Unbracketed s)
  | list items => unbracketedItems items
  | object entries => unbracketedEntries entries
  | _ => true

def unbracketedItems : List Json → Bool
  | [] => true
  | item :: rest => unbracketed item && unbracketedItems rest

def unbracketedEntries : List (String × Json) → Bool
  | [] => true
  | (key, value) :: rest => decide (Unbracketed key) && unbracketed value && unbracketedEntries rest

end

theorem bare_quote {s : String} (h : Unbracketed s) : Bare (quote s) := by
  have hchars : AllBare (s.toList.flatMap asciiEscape) := by
    intro d hd
    obtain ⟨c, hc, hd⟩ := List.mem_flatMap.1 hd
    rcases isBare_asciiEscape hd with hbare | ⟨hbracket, rfl⟩
    · exact hbare
    · rw [h _ hc] at hbracket
      cases hbracket
  rw [quote, Bare.ofList_iff]
  exact (hchars.cons (by decide)).append (by decide)

theorem inner_concat {s t : String} (hs : Inner s.toList) (ht : Inner t.toList) : Inner (s ++ t).toList := by
  rw [String.toList_append]
  exact hs.append ht

theorem inner_separator : Inner ", ".toList := by decide

mutual

theorem inner_render : ∀ value : Json, value.unbracketed = true → Inner value.render.toList
  | null, _ => by rw [render]; decide
  | bool b, _ => by rw [render]; cases b <;> decide
  | int i, _ => by rw [render]; exact .of_bare (bare_int i)
  | float x, _ => by rw [render]; exact .of_bare (x.bare_textWith (by decide) (by decide))
  | text s, h => by
    rw [unbracketed, decide_eq_true_eq] at h
    rw [render]
    exact .of_bare (bare_quote h)
  | list items, h => by
    rw [unbracketed] at h
    rw [render, String.toList_append, String.toList_append]
    exact (Inner.bracketed (c := '[') rfl (inner_renderItems items h)).inner
  | object entries, h => by
    rw [unbracketed] at h
    rw [render, String.toList_append, String.toList_append]
    exact (Inner.bracketed (c := '\x7b') rfl (inner_renderEntries entries h)).inner

theorem inner_renderItems : ∀ items : List Json, unbracketedItems items = true → Inner (renderItems items).toList
  | [], _ => by rw [renderItems]; decide
  | [item], h => by
    rw [unbracketedItems, Bool.and_eq_true] at h
    rw [renderItems]
    exact inner_render item h.1
  | item :: next :: rest, h => by
    rw [unbracketedItems, Bool.and_eq_true] at h
    rw [renderItems]
    · exact inner_concat (inner_concat (inner_render item h.1) inner_separator) (inner_renderItems (next :: rest) h.2)
    · simp

theorem inner_renderEntries : ∀ entries : List (String × Json), unbracketedEntries entries = true →
    Inner (renderEntries entries).toList
  | [], _ => by rw [renderEntries]; decide
  | [(key, value)], h => by
    rw [unbracketedEntries, Bool.and_eq_true, Bool.and_eq_true, decide_eq_true_eq] at h
    rw [renderEntries]
    exact inner_concat (inner_concat (.of_bare (bare_quote h.1.1)) (by decide)) (inner_render value h.1.2)
  | (key, value) :: next :: rest, h => by
    rw [unbracketedEntries, Bool.and_eq_true, Bool.and_eq_true, decide_eq_true_eq] at h
    have hentry : Inner (quote key ++ ": " ++ value.render).toList :=
      inner_concat (inner_concat (.of_bare (bare_quote h.1.1)) (by decide)) (inner_render value h.1.2)
    rw [renderEntries]
    · exact inner_concat (inner_concat hentry inner_separator) (inner_renderEntries (next :: rest) h.2)
    · simp

end

end Json

namespace TypeExpr

open Json (inner_concat)

mutual

/-- What the type takes from a document holds no brackets and, but for choices, no line breaks. -/
def Clean : TypeExpr → Prop
  | .declared name => Bare name
  | .choices _ values => ∀ value ∈ values, value.unbracketed = true
  | .references names => ∀ name ∈ names, Bare name
  | .object members => MembersClean members
  | .array element => Clean element
  | .atMost element count => Clean element ∧ Bare count.display
  | _ => True

def MemberClean : Member → Prop
  | ⟨uid, label, _, _, type⟩ => (∃ s, uid = .text s ∧ Bare s) ∧ Bare label.display ∧ Clean type

def MembersClean : List Member → Prop
  | [] => True
  | member :: rest => MemberClean member ∧ MembersClean rest

end

variable {style : Style} {members : List Member}

theorem membersClean_iff : MembersClean members ↔ ∀ m ∈ members, MemberClean m := by
  induction members with
  | nil => simp [MembersClean]
  | cons member rest ih => rw [MembersClean, ih, List.forall_mem_cons]

theorem mem_of_mem_trim {c : Char} {cs : List Char} (h : c ∈ Text.trim cs) : c ∈ cs := by
  obtain ⟨rear, hrear, -⟩ := Text.dropEnd_append_of_all isBlank (cs.dropWhile isBlank)
  refine (List.dropWhile_suffix isBlank).subset ?_
  rw [hrear]
  exact List.mem_append_left _ h

theorem bare_literal {numeric : Bool} {s : String} (h : Unbracketed s) : Bare (literal numeric (.text s)) := by
  unfold literal
  dsimp only
  split
  next hnumeral =>
    rw [Bool.and_eq_true] at hnumeral
    rw [Bare.ofList_iff]
    intro c hc
    have hbreak : c ≠ '\n' := by
      rintro rfl
      exact Numeral.newline_not_mem_trim hnumeral.2 hc
    have hbracket := h c (mem_of_mem_trim hc)
    rw [isBracket, Bool.or_eq_false_iff] at hbracket
    simp [isBare, hbreak, hbracket]
  next =>
    rw [Json.render]
    exact Json.bare_quote h

theorem inner_literal (numeric : Bool) {value : Json} (h : value.unbracketed = true) :
    Inner (literal numeric value).toList := by
  cases value with
  | text s =>
    rw [Json.unbracketed, decide_eq_true_eq] at h
    exact .of_bare (bare_literal h)
  | _ => exact Json.inner_render _ h

theorem inner_parentheses {s : String} (h : Inner s.toList) : Inner ("(" ++ s ++ ")").toList := by
  rw [String.toList_append, String.toList_append]
  exact (Inner.bracketed (c := '(') rfl h).inner

theorem inner_parenthesesList {s : String} (h : Inner s.toList) : Inner ("(" ++ s ++ ")[]").toList := by
  have hsplit : ")[]" = ")" ++ "[]" := rfl
  rw [hsplit, ← String.append_assoc]
  exact inner_concat (inner_parentheses h) (by decide)

theorem bare_nameOf (h : Bare style.lead) (builtin : Builtin) : Bare (style.nameOf builtin) :=
  Bare.append_iff.2 ⟨h, by cases builtin <;> decide⟩

theorem inner_referencesText {names : List String} (hlead : Bare style.lead) (h : ∀ name ∈ names, Bare name) :
    Inner (referencesText style names).toList := by
  have hnames : ∀ name ∈ (if style.referencedEntry then names ++ [style.nameOf .referencedEntry] else names),
      Inner name.toList := by
    split
    · refine List.forall_mem_append.2 ⟨fun name hm => .of_bare (h name hm), ?_⟩
      exact List.forall_mem_singleton.2 (.of_bare (bare_nameOf hlead _))
    · exact fun name hm => .of_bare (h name hm)
  unfold referencesText
  split
  · decide
  · dsimp only
    split
    next name he =>
      rw [he] at hnames
      exact inner_concat (hnames name (List.mem_singleton_self _)) (by decide)
    next =>
      exact inner_parenthesesList (Inner.joined (by decide) hnames)

theorem inner_taxonomyText (hlead : Bare style.lead) : Inner (taxonomyText style).toList := by
  unfold taxonomyText
  split
  · have hunion : Bare (style.nameOf .taxonomy ++ " | " ++ style.nameOf .taxonomyEntry) :=
      Bare.append_iff.2 ⟨Bare.append_iff.2 ⟨bare_nameOf hlead _, by decide⟩, bare_nameOf hlead _⟩
    simpa only [String.append_assoc] using inner_parentheses (.of_bare hunion)
  · exact .of_bare (bare_nameOf hlead _)

theorem inner_arrayText {element : String} (h : Inner element.toList) : Inner (arrayText element).toList := by
  unfold arrayText
  split
  · exact inner_parenthesesList h
  · exact inner_concat h (by decide)

theorem toList_atMostText (element : String) (count : Json) : (atMostText element count).toList =
    "MaxTuple".toList ++ '<' :: ((element ++ ", " ++ count.display).toList ++ ['>']) := by
  simp [atMostText, String.toList_append]

theorem inner_atMostText {element : String} {count : Json} (h : Inner element.toList) (hc : Bare count.display) :
    Inner (atMostText element count).toList := by
  have harguments : Inner (element ++ ", " ++ count.display).toList :=
    inner_concat (inner_concat h (by decide)) (.of_bare hc)
  have hangles := (Inner.bracketed (c := '<') rfl harguments).inner
  rw [toList_atMostText]
  exact Inner.append (by decide) hangles

theorem neat_comment {s : String} (h : Bare s) : Neat (comment s).toList := by
  have hbare : Bare (comment s) := Bare.append_iff.2 ⟨Bare.append_iff.2 ⟨by decide, h⟩, by decide⟩
  exact .of_bare hbare (c := '/') (by simp [comment]) (by decide)

theorem neat_comment? {label : Json} (h : Bare label.display) :
    ∀ line ∈ (comment? style label).toList, Neat line.toList := by
  unfold comment?
  split
  · exact List.forall_mem_singleton.2 (neat_comment h)
  · exact fun _ hm => by cases hm

theorem neat_memberLine {s type : String} (hs : Bare s) (ht : Inner type.toList) (isOptional isNullable : Bool) :
    Neat (memberLine (.text s) isOptional isNullable type).toList := by
  have hfront : Bare (s ++ (if isOptional then "?" else "") ++ ": ") :=
    Bare.append_iff.2 ⟨Bare.append_iff.2 ⟨hs, by split <;> decide⟩, by decide⟩
  have hrear : Inner ((if isNullable && !endsWithNull type then " | null" else "") ++ ";").toList := by
    split <;> decide
  rw [memberLine_eq, String.toList_append, String.toList_append]
  exact ((Neat.of_bare hfront (c := ':') (by simp) (by decide)).append ht).append hrear

theorem neat_mappings {uids : List Json} (hne : uids ≠ []) (h : ∀ uid ∈ uids, ∃ s, uid = .text s ∧ Bare s) :
    Neat (LivePreview.mappings uids).toList := by
  have hline : ∀ uid ∈ uids, Neat ("  " ++ LivePreview.mapping uid ++ ";").toList := by
    intro uid hm
    obtain ⟨s, rfl, hs⟩ := h uid hm
    have hmapping : Bare (LivePreview.mapping (.text s)) := by
      rw [LivePreview.mapping, Json.render]
      exact Bare.append_iff.2 ⟨Json.bare_quote hs.unbracketed, by decide⟩
    have hbare : Bare ("  " ++ LivePreview.mapping (.text s) ++ ";") :=
      Bare.append_iff.2 ⟨Bare.append_iff.2 ⟨by decide, hmapping⟩, by decide⟩
    exact .of_bare hbare (c := ';') (by simp) (by decide)
  have hlines : Neat ("\n".intercalate (uids.map fun uid => "  " ++ LivePreview.mapping uid ++ ";")).toList :=
    Neat.lines (by simpa using hne) (List.forall_mem_map.2 hline)
  have hjoin : ∀ {uids : List Json}, uids ≠ [] →
      "\n".intercalate (uids.map fun uid => "  " ++ LivePreview.mapping uid ++ ";") =
        "  " ++ ";\n  ".intercalate (uids.map LivePreview.mapping) ++ ";" := by
    intro uids hne
    induction uids with
    | nil => exact absurd rfl hne
    | cons uid rest ih =>
      cases rest with
      | nil => simp
      | cons next rest =>
        have hsep : ";\n  " = ";" ++ ("\n" ++ "  ") := rfl
        have hrest := ih (by simp)
        rw [List.map_cons, List.map_cons] at hrest ⊢
        rw [List.map_cons, List.map_cons, String.intercalate_cons_cons, String.intercalate_cons_cons, hrest, hsep]
        simp only [String.append_assoc]
  rw [hjoin hne] at hlines
  have hblock := Neat.block (c := '\x7b') rfl hlines
  have hshape : (LivePreview.mappings uids).toList = "$?: ".toList ++
      ('\x7b' :: '\n' :: (("  " ++ ";\n  ".intercalate (uids.map LivePreview.mapping) ++ ";").toList ++ ['\n', '\x7d']) ++
        [';']) := by
    simp [LivePreview.mappings, String.toList_append]
  rw [hshape]
  exact (by decide : Neat "$?: ".toList).append (hblock.inner.append (by decide))

theorem neat_body (hne : members ≠ []) (h : MembersClean members)
    (hlines : ∀ line ∈ linesOf style members, Neat line.toList) : Neat (membersText style members).toList := by
  have huids : ∀ uid ∈ uidsOf members, ∃ s, uid = .text s ∧ Bare s := by
    intro uid hm
    obtain ⟨⟨_, _, _, _, _⟩, hmember, rfl⟩ := List.mem_map.1 hm
    have hclean := membersClean_iff.1 h _ hmember
    rw [MemberClean] at hclean
    exact hclean.1
  unfold membersText bodyText
  split
  · have hmappings := neat_mappings (by simpa [uidsOf] using hne) huids
    exact Neat.lines (by simp) (List.forall_mem_append.2 ⟨hlines, List.forall_mem_singleton.2 hmappings⟩)
  · exact Neat.lines (linesOf_ne_nil hne style) hlines

theorem blank_margin : ∀ c ∈ margin.toList, isBlank c = true ∧ c ≠ '\n' := by
  have hmargin : margin.toList = List.replicate 2 ' ' := rfl
  intro c hc
  rw [hmargin] at hc
  rw [List.eq_of_mem_replicate hc]
  decide

theorem inner_object (h : MembersClean members) (hlines : ∀ line ∈ linesOf style members, Neat line.toList) :
    Inner (objectText (membersText style members)).toList := by
  unfold objectText
  split
  · decide
  next hne =>
    have hmembers : members ≠ [] := by
      rintro rfl
      exact hne (by simp [membersText, bodyText, uidsOf, linesOf])
    have hbody := (neat_body hmembers h hlines).indent blank_margin
    rw [String.toList_append, String.toList_append]
    exact (Neat.block (c := '\x7b') rfl hbody).inner

mutual

/-- The brackets of a clean type match, and none of its lines is blank. -/
theorem inner_text (hlead : Bare style.lead) : ∀ type : TypeExpr, Clean type → Inner (text style type).toList
  | .object members, h => by
    rw [Clean] at h
    rw [text]
    exact inner_object h (neat_linesOf hlead members h)
  | .array element, h => by
    rw [Clean] at h
    rw [text]
    exact inner_arrayText (inner_text hlead element h)
  | .atMost element count, h => by
    rw [Clean] at h
    rw [text]
    exact inner_atMostText (inner_text hlead element h.1) h.2
  | .choices numeric values, h => by
    rw [Clean] at h
    rw [text]
    refine inner_parentheses (Inner.joined (by decide) (List.forall_mem_map.2 fun value hm => ?_))
    exact inner_literal numeric (h value hm)
  | .references names, h => by
    rw [Clean] at h
    rw [text]
    exact inner_referencesText hlead h
  | .declared name, h => by
    rw [Clean] at h
    rw [text]
    exact .of_bare h
  | .primitive p, _ => by rw [text]; cases p <;> decide
  | .link, _ => by rw [text]; exact .of_bare (bare_nameOf hlead _)
  | .file, _ => by rw [text]; exact .of_bare (bare_nameOf hlead _)
  | .taxonomy, _ => by rw [text]; exact inner_taxonomyText hlead
  | .folder, _ | .extension, _ | .fallback, _ => by rw [text]; decide
  | .richText, _ => by rw [text]; decide +kernel

theorem neat_memberLines (hlead : Bare style.lead) : ∀ member : Member, MemberClean member →
    ∀ line ∈ memberLines style member, Neat line.toList
  | ⟨_, label, isOptional, isNullable, type⟩, h => by
    rw [MemberClean] at h
    obtain ⟨⟨s, rfl, hs⟩, hlabel, htype⟩ := h
    rw [memberLines]
    refine List.forall_mem_append.2 ⟨neat_comment? hlabel, List.forall_mem_singleton.2 ?_⟩
    exact neat_memberLine hs (inner_text hlead type htype) isOptional isNullable

theorem neat_linesOf (hlead : Bare style.lead) : ∀ members : List Member, MembersClean members →
    ∀ line ∈ linesOf style members, Neat line.toList
  | [], _ => by
    rw [linesOf]
    exact fun _ hm => by cases hm
  | member :: rest, h => by
    rw [MembersClean] at h
    rw [linesOf]
    exact List.forall_mem_append.2 ⟨neat_memberLines hlead member h.1, neat_linesOf hlead rest h.2⟩

end

end TypeExpr

end SchemaDecl

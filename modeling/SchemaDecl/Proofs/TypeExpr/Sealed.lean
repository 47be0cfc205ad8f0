import SchemaDecl.Proofs.TypeExpr.Bars
import SchemaDecl.Proofs.TypeExpr.Nesting

/-!
# Sealed types

A type is tame if what it takes from a document brings no brackets, and its names no bars either. The brackets
in the text of a tame type match and its bars stand within them, in whatever style; only the type for the folder
of a file has a bar outside. So a bar outside brackets in the line of a member belongs to a `null` at its end.
-/

namespace SchemaDecl

open Text (Balanced)
open TypeExpr (Sealed)

theorem Unbracketed.balanced {s : String} (h : Unbracketed s) : Balanced s.toList := .of_unbracketed h

theorem Unbracketed.append {a b : String} (ha : Unbracketed a) (hb : Unbracketed b) : Unbracketed (a ++ b) := by
  rw [Unbracketed, String.toList_append]
  exact List.forall_mem_append.2 ⟨ha, hb⟩

/-- There are no brackets and no bars in the text. -/
structure Smooth (s : String) : Prop where
  unbracketed : Unbracketed s
  barless : '|' ∉ s.toList

instance (s : String) : Decidable (Smooth s) :=
  decidable_of_iff (Unbracketed s ∧ '|' ∉ s.toList) ⟨fun h => ⟨h.1, h.2⟩, fun h => ⟨h.unbracketed, h.barless⟩⟩

theorem Smooth.append {a b : String} (ha : Smooth a) (hb : Smooth b) : Smooth (a ++ b) := by
  refine ⟨ha.unbracketed.append hb.unbracketed, ?_⟩
  rw [String.toList_append, List.mem_append, not_or]
  exact ⟨ha.barless, hb.barless⟩

theorem Smooth.sealed {s : String} (h : Smooth s) : Sealed s.toList :=
  ⟨h.unbracketed.balanced, TypeExpr.barFrom_of_not_mem h.barless 0⟩

namespace Naming

variable {lead name base : String}

theorem smooth_declare? {target : Json} (h : Smooth lead) (hn : declare? lead target = .ok name) : Smooth name := by
  obtain ⟨uid, -, rfl⟩ := declare?_ok hn
  refine h.append ⟨(bare_pascalCase uid).unbracketed, fun hbar => ?_⟩
  exact absurd (isWordChar_of_mem_pascalCase hbar) (by decide)

theorem Extends.smooth (h : Extends base name) (hb : Smooth base) : Smooth name := by
  cases h with
  | plain => exact hb
  | numbered n =>
    refine hb.append ⟨(bare_nat n).unbracketed, fun hbar => ?_⟩
    exact absurd (toString_nat_subset n hbar) (by decide)

end Naming

namespace TypeExpr

variable {style : Style} {s t type : String} {members : List Member} {front rear : List Char}

theorem balanced_concat (hs : Balanced s.toList) (ht : Balanced t.toList) : Balanced (s ++ t).toList := by
  rw [String.toList_append]
  exact hs.append ht

theorem sealed_concat (hs : Sealed s.toList) (ht : Sealed t.toList) : Sealed (s ++ t).toList := by
  rw [String.toList_append]
  exact hs.append ht

mutual

/-- What the type takes from a document holds no brackets, and its names hold no bars. -/
def Tame : TypeExpr → Prop
  | .declared name => Smooth name
  | .choices _ values => ∀ value ∈ values, value.unbracketed = true
  | .references names => ∀ name ∈ names, Smooth name
  | .object members => MembersTame members
  | .array element => Tame element
  | .atMost element count => Tame element ∧ Unbracketed count.display
  | _ => True

def MemberTame : Member → Prop
  | ⟨uid, label, _, _, type⟩ => (∃ s, uid = .text s ∧ Unbracketed s) ∧ Unbracketed label.display ∧ Tame type

def MembersTame : List Member → Prop
  | [] => True
  | member :: rest => MemberTame member ∧ MembersTame rest

end

theorem membersTame_iff : MembersTame members ↔ ∀ m ∈ members, MemberTame m := by
  induction members with
  | nil => simp [MembersTame]
  | cons member rest ih => rw [MembersTame, ih, List.forall_mem_cons]

theorem sealed_parentheses (h : Balanced s.toList) : Sealed ("(" ++ s ++ ")").toList := by
  rw [String.toList_append, String.toList_append]
  exact Sealed.bracketed (c := '(') rfl h

theorem sealed_parenthesesList (h : Balanced s.toList) : Sealed ("(" ++ s ++ ")[]").toList := by
  have hsplit : ")[]" = ")" ++ "[]" := rfl
  rw [hsplit, ← String.append_assoc]
  exact sealed_concat (sealed_parentheses h) (by decide)

theorem sealed_nameOf (h : Smooth style.lead) (builtin : Builtin) : Sealed (style.nameOf builtin).toList :=
  Smooth.sealed (h.append (by cases builtin <;> decide))

theorem sealed_choicesText (numeric : Bool) {values : List Json} (h : ∀ value ∈ values, value.unbracketed = true) :
    Sealed (choicesText numeric values).toList := by
  refine sealed_parentheses (Balanced.joined (by decide) (List.forall_mem_map.2 fun value hm => ?_))
  exact (inner_literal numeric (h value hm)).balanced

theorem sealed_referencesText {names : List String} (hlead : Smooth style.lead) (h : ∀ name ∈ names, Smooth name) :
    Sealed (referencesText style names).toList := by
  have hnames : ∀ name ∈ (if style.referencedEntry then names ++ [style.nameOf .referencedEntry] else names),
      Sealed name.toList := by
    split
    · refine List.forall_mem_append.2 ⟨fun name hm => (h name hm).sealed, ?_⟩
      exact List.forall_mem_singleton.2 (sealed_nameOf hlead _)
    · exact fun name hm => (h name hm).sealed
  unfold referencesText
  split
  · decide
  · dsimp only
    split
    next name he =>
      rw [he] at hnames
      exact sealed_concat (hnames name (List.mem_singleton_self _)) (by decide)
    next => exact sealed_parenthesesList (Balanced.joined (by decide) fun name hm => (hnames name hm).balanced)

theorem sealed_taxonomyText (hlead : Smooth style.lead) : Sealed (taxonomyText style).toList := by
  unfold taxonomyText
  split
  · have hunion : Balanced (style.nameOf .taxonomy ++ " | " ++ style.nameOf .taxonomyEntry).toList :=
      balanced_concat (balanced_concat (sealed_nameOf hlead _).balanced (by decide)) (sealed_nameOf hlead _).balanced
    simpa only [String.append_assoc] using sealed_parentheses hunion
  · exact sealed_nameOf hlead _

theorem sealed_arrayText {element : String} (h : Balanced element.toList) : Sealed (arrayText element).toList := by
  unfold arrayText
  split
  next => exact sealed_parenthesesList h
  next hbar => exact sealed_concat ⟨h, Bool.eq_false_iff.2 hbar⟩ (by decide)

theorem sealed_atMostText {element : String} {count : Json} (h : Balanced element.toList)
    (hc : Unbracketed count.display) : Sealed (atMostText element count).toList := by
  have harguments : Balanced (element ++ ", " ++ count.display).toList :=
    balanced_concat (balanced_concat h (by decide)) hc.balanced
  rw [toList_atMostText]
  exact Sealed.append (by decide) (Sealed.bracketed (c := '<') rfl harguments)

/-- The type as it stands in the line of a member. -/
def shown (isNullable : Bool) (type : String) : String :=
  if isNullable && !endsWithNull type then type ++ " | null" else type

theorem memberLine_shown (uid : Json) (isOptional isNullable : Bool) (type : String) :
    memberLine uid isOptional isNullable type =
      uid.display ++ (if isOptional then "?" else "") ++ ": " ++ shown isNullable type ++ ";" := rfl

theorem balanced_shown (isNullable : Bool) (h : Balanced type.toList) : Balanced (shown isNullable type).toList := by
  unfold shown
  split
  · exact balanced_concat h (by decide)
  · exact h

theorem balanced_memberLine {uid : String} (hu : Unbracketed uid) (ht : Balanced type.toList)
    (isOptional isNullable : Bool) : Balanced (memberLine (.text uid) isOptional isNullable type).toList := by
  have hmark : Balanced (if isOptional then "?" else "").toList := by cases isOptional <;> decide
  have huid : Balanced (Json.display (.text uid)).toList := hu.balanced
  rw [memberLine_shown]
  exact balanced_concat (balanced_concat (balanced_concat (balanced_concat huid hmark) (by decide))
    (balanced_shown isNullable ht)) (by decide)

theorem balanced_comment? {label : Json} (h : Unbracketed label.display) :
    ∀ line ∈ (comment? style label).toList, Balanced line.toList := by
  unfold comment?
  split
  · exact List.forall_mem_singleton.2 (balanced_concat (balanced_concat (by decide) h.balanced) (by decide))
  · exact fun _ hm => by cases hm

theorem balanced_mappings {uids : List Json} (h : ∀ uid ∈ uids, ∃ s, uid = .text s ∧ Unbracketed s) :
    Balanced (LivePreview.mappings uids).toList := by
  have hmapping : ∀ uid ∈ uids, Balanced (LivePreview.mapping uid).toList := by
    intro uid hm
    obtain ⟨s, rfl, hs⟩ := h uid hm
    rw [LivePreview.mapping, Json.render]
    exact balanced_concat (Json.bare_quote hs).unbracketed.balanced (by decide)
  have hbody : Balanced ("\n  " ++ ";\n  ".intercalate (uids.map LivePreview.mapping) ++ ";\n").toList :=
    balanced_concat (balanced_concat (by decide) (Balanced.joined (by decide) (List.forall_mem_map.2 hmapping)))
      (by decide)
  have hshape : (LivePreview.mappings uids).toList = "$?: ".toList ++
      ('\x7b' :: (("\n  " ++ ";\n  ".intercalate (uids.map LivePreview.mapping) ++ ";\n").toList ++ ['\x7d']) ++
        [';']) := by
    simp [LivePreview.mappings, String.toList_append]
  rw [hshape]
  exact Balanced.append (by decide) ((hbody.bracketed (c := '\x7b') rfl).append (by decide))

theorem balanced_membersText (h : MembersTame members)
    (hlines : ∀ line ∈ linesOf style members, Balanced line.toList) : Balanced (membersText style members).toList := by
  have huids : ∀ uid ∈ uidsOf members, ∃ s, uid = .text s ∧ Unbracketed s := by
    intro uid hm
    obtain ⟨⟨_, _, _, _, _⟩, hmember, rfl⟩ := List.mem_map.1 hm
    have htame := membersTame_iff.1 h _ hmember
    rw [MemberTame] at htame
    exact htame.1
  refine Balanced.joined (by decide) ?_
  split
  · exact List.forall_mem_append.2 ⟨hlines, List.forall_mem_singleton.2 (balanced_mappings huids)⟩
  · exact hlines

theorem sealed_objectText {body : String} (h : Balanced body.toList) : Sealed (objectText body).toList := by
  have hblock : Balanced ("\n" ++ Text.indent margin body ++ "\n").toList :=
    balanced_concat (balanced_concat (by decide) (h.indent fun c hc => (blank_margin c hc).1)) (by decide)
  have hshape : ("\x7b\n" ++ Text.indent margin body ++ "\n\x7d").toList =
      '\x7b' :: (("\n" ++ Text.indent margin body ++ "\n").toList ++ ['\x7d']) := by
    simp [String.toList_append]
  unfold objectText
  split
  · decide
  · rw [hshape]
    exact Sealed.bracketed (c := '\x7b') rfl hblock

theorem balanced_of_sealed {type : TypeExpr} (h : type ≠ .folder → Sealed (text style type).toList) :
    Balanced (text style type).toList := by
  by_cases hf : type = .folder
  · subst hf
    rw [text]
    decide
  · exact (h hf).balanced

mutual

/-- The text of a tame type is sealed, but for the type of a folder. -/
theorem sealed_text (hlead : Smooth style.lead) : ∀ type : TypeExpr, Tame type → type ≠ .folder →
    Sealed (text style type).toList
  | .object members, h, _ => by
    rw [Tame] at h
    rw [text]
    exact sealed_objectText (balanced_membersText h (balanced_linesOf hlead members h))
  | .array element, h, _ => by
    rw [Tame] at h
    rw [text]
    exact sealed_arrayText (balanced_of_sealed (sealed_text hlead element h))
  | .atMost element count, h, _ => by
    rw [Tame] at h
    rw [text]
    exact sealed_atMostText (balanced_of_sealed (sealed_text hlead element h.1)) h.2
  | .choices numeric values, h, _ => by
    rw [Tame] at h
    rw [text]
    exact sealed_choicesText numeric h
  | .references names, h, _ => by
    rw [Tame] at h
    rw [text]
    exact sealed_referencesText hlead h
  | .declared name, h, _ => by
    rw [Tame] at h
    rw [text]
    exact h.sealed
  | .primitive p, _, _ => by rw [text]; cases p <;> decide
  | .link, _, _ => by rw [text]; exact sealed_nameOf hlead _
  | .file, _, _ => by rw [text]; exact sealed_nameOf hlead _
  | .taxonomy, _, _ => by rw [text]; exact sealed_taxonomyText hlead
  | .folder, _, hne => absurd rfl hne
  | .extension, _, _ | .fallback, _, _ => by rw [text]; decide
  | .richText, _, _ => by rw [text]; decide +kernel

theorem balanced_memberLines (hlead : Smooth style.lead) : ∀ member : Member, MemberTame member →
    ∀ line ∈ memberLines style member, Balanced line.toList
  | ⟨_, label, isOptional, isNullable, type⟩, h => by
    rw [MemberTame] at h
    obtain ⟨⟨s, rfl, hs⟩, hlabel, htype⟩ := h
    rw [memberLines]
    refine List.forall_mem_append.2 ⟨balanced_comment? hlabel, List.forall_mem_singleton.2 ?_⟩
    exact balanced_memberLine hs (balanced_of_sealed (sealed_text hlead type htype)) isOptional isNullable

theorem balanced_linesOf (hlead : Smooth style.lead) : ∀ members : List Member, MembersTame members →
    ∀ line ∈ linesOf style members, Balanced line.toList
  | [], _ => by
    rw [linesOf]
    exact fun _ hm => by cases hm
  | member :: rest, h => by
    rw [MembersTame] at h
    rw [linesOf]
    exact List.forall_mem_append.2 ⟨balanced_memberLines hlead member h.1, balanced_linesOf hlead rest h.2⟩

end

/-- After the front of the text, where every bracket is closed, comes a bar. -/
def OuterBar (cs front rear : List Char) : Prop := cs = front ++ '|' :: rear ∧ Balanced front

theorem Sealed.not_outerBar {cs : List Char} (h : Sealed cs) : ¬ OuterBar cs front rear := by
  rintro ⟨heq, hfront⟩
  have hbar := (barFrom_iff_of_balanced h.balanced).2 ⟨front, rear, heq, hfront⟩
  rw [h.barless] at hbar
  cases hbar

theorem isUnion_iff_outerBar (h : Balanced type.toList) :
    isUnion type = true ↔ ∃ front rear, OuterBar type.toList front rear := barFrom_iff_of_balanced h

/-- The mark of a list goes around the whole of a tame type, with parentheses if that has a bar outside brackets. -/
theorem array_marked {element : TypeExpr} (hlead : Smooth style.lead) (h : Tame element) :
    (∃ front rear, OuterBar (text style element).toList front rear) ∧
        text style (.array element) = "(" ++ text style element ++ ")[]" ∨
      (¬ ∃ front rear, OuterBar (text style element).toList front rear) ∧
        text style (.array element) = text style element ++ "[]" := by
  rw [text, arrayText, ← isUnion_iff_outerBar (balanced_of_sealed (sealed_text hlead element h))]
  cases isUnion (text style element) <;> simp

theorem endsWithNull_of_sealed (h : Sealed type.toList) : endsWithNull type = false := by
  refine Bool.eq_false_iff.2 fun hnull => ?_
  obtain ⟨front, hfront⟩ := List.reverse_prefix.1 (List.isPrefixOf_iff_prefix.1 hnull)
  have hdepth := foldl_of_balanced h.balanced 0
  rw [← hfront, List.foldl_append, foldl_depthAfter] at hdepth
  have hbar : barFrom 0 type.toList = true :=
    barFrom_eq_true_iff.2 ⟨front, " null".toList, hfront.symm, by simpa [isOpening, isClosing] using hdepth⟩
  rw [h.barless] at hbar
  cases hbar

theorem outerBar_nullable (h : Sealed type.toList) (hbar : OuterBar (type ++ " | null").toList front rear) :
    '|' :: rear = "| null".toList := by
  obtain ⟨heq, hfront⟩ := hbar
  rw [String.toList_append] at heq
  have hnull : " | null".toList = ' ' :: '|' :: " null".toList := rfl
  rcases List.append_eq_append_iff.1 heq with ⟨middle, -, hrear⟩ | ⟨middle, hsplit, hrear⟩
  · rw [hnull] at hrear
    match middle with
    | [] => cases hrear
    | [c] => exact (List.cons.inj hrear).2.symm
    | c :: d :: rest =>
      have hmem : '|' ∈ " null".toList := by
        rw [(List.cons.inj (List.cons.inj hrear).2).2]
        simp
      exact absurd hmem (by decide)
  · rw [hnull] at hrear
    match middle with
    | [] => cases hrear
    | c :: rest =>
      obtain ⟨rfl, -⟩ := List.cons.inj hrear
      exact absurd ⟨hsplit, hfront⟩ h.not_outerBar

/-- A bar outside brackets comes with a null at the end of the type: for a member that may be empty, and for the
type of a folder. -/
theorem shown_bars {type : TypeExpr} (hlead : Smooth style.lead) (h : Tame type) (isNullable : Bool) :
    let cs := (shown isNullable (text style type)).toList
    Balanced cs ∧ (∀ front rear, OuterBar cs front rear → '|' :: rear = "| null".toList) ∧
      ((∃ front rear, OuterBar cs front rear) ↔ isNullable = true ∨ type = .folder) := by
  intro cs
  refine ⟨balanced_shown isNullable (balanced_of_sealed (sealed_text hlead type h)), ?_⟩
  -- Both with a null that is added and with that of a folder, a sealed text comes before it.
  have hnull : ∀ {s : String}, Sealed s.toList → cs = (s ++ " | null").toList →
      (∀ front rear, OuterBar cs front rear → '|' :: rear = "| null".toList) ∧ ∃ front rear, OuterBar cs front rear := by
    intro s hs hcs
    rw [hcs]
    refine ⟨fun front rear hbar => outerBar_nullable hs hbar, s.toList ++ [' '], " null".toList, ?_, ?_⟩
    · simp [String.toList_append]
    · exact hs.balanced.append (by decide)
  by_cases hf : type = .folder
  · have hcs : cs = ("string" ++ " | null").toList := by
      simp only [cs, hf, text]
      cases isNullable <;> decide
    obtain ⟨hlast, hbar⟩ := hnull (by decide) hcs
    exact ⟨hlast, iff_of_true hbar (.inr hf)⟩
  have hsealed := sealed_text hlead type h hf
  cases isNullable with
  | true =>
    have hcs : cs = (text style type ++ " | null").toList := by
      simp only [cs, shown, endsWithNull_of_sealed hsealed, Bool.not_false, Bool.and_self, if_true]
    obtain ⟨hlast, hbar⟩ := hnull hsealed hcs
    exact ⟨hlast, iff_of_true hbar (.inl rfl)⟩
  | false =>
    have hcs : cs = (text style type).toList := by
      simp only [cs, shown, Bool.false_and, Bool.false_eq_true, if_false]
    rw [hcs]
    refine ⟨fun front rear hbar => absurd hbar hsealed.not_outerBar, iff_of_false ?_ (by simp [hf])⟩
    rintro ⟨front, rear, hbar⟩
    exact hsealed.not_outerBar hbar

end TypeExpr

end SchemaDecl

import SchemaDecl.Proofs.Text.Comments
import SchemaDecl.Proofs.Text.OneLine
import SchemaDecl.Proofs.TypeExpr.Bars

/-!
# Comments in types

A type that is legible, which is to say that what it takes from a document stays on one line, is written
with comments as it is without them, but for lines that hold a comment. Its brackets have to be counted for
that: a type that is repeated is put in parentheses if it has a bar outside brackets, and comments inside it
are not to change that.
-/

namespace SchemaDecl

open Text (splitOn Omits indentChars Inserts)

/-- The style without comments. -/
def Style.undocumented (style : Style) : Style := { style with documented := false }

namespace TypeExpr

/-- There is no bar in the text, and it closes as many brackets as it opens. -/
def Neutral (s : String) : Prop :=
  '|' ∉ s.toList ∧ s.toList.countP isOpening = s.toList.countP isClosing

instance (s : String) : Decidable (Neutral s) := inferInstanceAs (Decidable (_ ∧ _))

/-- At every depth the texts have a bar outside brackets or not alike, and lead to the same depth. -/
def Level (a b : List Char) : Prop :=
  ∀ depth, barFrom depth a = barFrom depth b ∧ a.foldl depthAfter depth = b.foldl depthAfter depth

variable {a a' b b' cs m : List Char}

theorem Level.refl (a : List Char) : Level a a := fun _ => ⟨rfl, rfl⟩

theorem Level.symm (h : Level a b) : Level b a := fun depth => ⟨(h depth).1.symm, (h depth).2.symm⟩

theorem Level.trans {c : List Char} (h : Level a b) (h' : Level b c) : Level a c :=
  fun depth => ⟨(h depth).1.trans (h' depth).1, (h depth).2.trans (h' depth).2⟩

theorem Level.append (h : Level a b) (h' : Level a' b') : Level (a ++ a') (b ++ b') := by
  intro depth
  obtain ⟨hbar, hdepth⟩ := h depth
  rw [barFrom_append, barFrom_append, List.foldl_append, List.foldl_append, hbar, hdepth]
  exact ⟨by rw [(h' _).1], (h' _).2⟩

theorem level_nil (hbar : '|' ∉ cs) (hcount : cs.countP isOpening = cs.countP isClosing) : Level cs [] := by
  intro depth
  refine ⟨barFrom_of_not_mem hbar depth, ?_⟩
  rw [foldl_depthAfter, hcount, List.foldl_nil]
  omega

theorem level_inserts (hm : Level m []) (h : Inserts m a b) : Level b a := by
  induction h with
  | nil => exact .refl []
  | @cons c _ _ _ ih => exact (Level.refl [c]).append ih
  | @margin c _ _ _ _ _ ih => exact (Level.refl [c]).append (hm.append ih)

theorem level_indentChars (hm : Level m []) (cs : List Char) : Level (indentChars m cs) cs := by
  obtain ⟨b, hb, heq | ⟨heq, -⟩⟩ := Text.inserts_indentChars m cs <;> rw [heq]
  · exact level_inserts hm hb
  · exact hm.append (level_inserts hm hb)

def ended (lines : List String) : List Char := lines.flatMap fun line => line.toList ++ ['\n']

theorem level_intercalate (lines : List String) : Level ("\n".intercalate lines).toList (ended lines) := by
  have hfeed : Level ['\n'] [] := level_nil (by decide) (by decide)
  induction lines with
  | nil => exact .refl []
  | cons line rest ih =>
    cases rest with
    | nil =>
      have happend := (Level.refl line.toList).append hfeed.symm
      simpa [ended, String.intercalate_singleton] using happend
    | cons next rest =>
      rw [String.intercalate_cons_cons, String.toList_append, String.toList_append, ended, List.flatMap_cons]
      exact ((Level.refl line.toList).append (.refl ['\n'])).append ih

mutual

/-- What the comments of a type say. -/
def labels : TypeExpr → List Json
  | .object members => labelsOf members
  | .array element => labels element
  | .atMost element _ => labels element
  | _ => []

def memberLabels : Member → List Json
  | ⟨_, label, _, _, type⟩ => label :: labels type

def labelsOf : List Member → List Json
  | [] => []
  | member :: rest => memberLabels member ++ labelsOf rest

end

mutual

/-- What the type takes from a document stays on one line, and the comments of what is repeated are
neutral. -/
def Legible : TypeExpr → Prop
  | .declared name => OneLine name
  | .references names => ∀ name ∈ names, OneLine name
  | .object members => MembersLegible members
  | .array element => Legible element ∧ ∀ label ∈ labels element, Neutral label.display
  | .atMost element count => Legible element ∧ OneLine count.display
  | _ => True

def MemberLegible : Member → Prop
  | ⟨uid, label, _, _, type⟩ => (∃ s, uid = .text s ∧ OneLine s) ∧ OneLine label.display ∧ Legible type

def MembersLegible : List Member → Prop
  | [] => True
  | member :: rest => MemberLegible member ∧ MembersLegible rest

end

variable {style : Style}

/-- There are no other types in the type. -/
def isFlat : TypeExpr → Bool
  | .object _ | .array _ | .atMost _ _ => false
  | _ => true

theorem text_undocumented {type : TypeExpr} (h : isFlat type = true) :
    text style.undocumented type = text style type := by
  cases type with
  | object | array | atMost => cases h
  | _ => rw [text, text] <;> rfl

theorem endsWithNull_of_last {s : String} {c : Char} (h : s.toList.getLast? = some c) (hc : c ≠ 'l') :
    endsWithNull s = false := by
  obtain ⟨front, hs⟩ := List.getLast?_eq_some_iff.1 h
  rw [endsWithNull, hs, List.reverse_append]
  exact Bool.eq_false_iff.2 fun hp => hc (List.cons_prefix_cons.1 (List.isPrefixOf_iff_prefix.1 hp)).1.symm

theorem getLast?_append {rear : String} {c : Char} (h : rear.toList.getLast? = some c) (front : String) :
    (front ++ rear).toList.getLast? = some c := by
  rw [String.toList_append, List.getLast?_append, h]
  rfl

theorem getLast?_objectText (body : String) : (objectText body).toList.getLast? = some '\x7d' := by
  unfold objectText
  split
  · rfl
  · exact getLast?_append rfl _

theorem getLast?_arrayText (element : String) : (arrayText element).toList.getLast? = some ']' := by
  unfold arrayText
  split <;> exact getLast?_append rfl _

theorem getLast?_atMostText (element : String) (count : Json) :
    (atMostText element count).toList.getLast? = some '>' := getLast?_append rfl _

theorem endsWithNull_undocumented (type : TypeExpr) :
    endsWithNull (text style.undocumented type) = endsWithNull (text style type) := by
  cases type with
  | object =>
    rw [text, text, endsWithNull_of_last (getLast?_objectText _) (by decide),
      endsWithNull_of_last (getLast?_objectText _) (by decide)]
  | array =>
    rw [text, text, endsWithNull_of_last (getLast?_arrayText _) (by decide),
      endsWithNull_of_last (getLast?_arrayText _) (by decide)]
  | atMost =>
    rw [text, text, endsWithNull_of_last (getLast?_atMostText _ _) (by decide),
      endsWithNull_of_last (getLast?_atMostText _ _) (by decide)]
  | _ => rw [text_undocumented rfl]

theorem memberLine_eq (uid : Json) (isOptional isNullable : Bool) (type : String) :
    memberLine uid isOptional isNullable type =
      uid.display ++ (if isOptional then "?" else "") ++ ": " ++ type ++
        ((if isNullable && !endsWithNull type then " | null" else "") ++ ";") := by
  unfold memberLine
  split <;> simp [*, String.append_assoc]

theorem level_comment {label : Json} (h : Neutral label.display) :
    Level (ended (comment? style label).toList) [] := by
  unfold comment?
  split
  next =>
    have hcomment : ended (some (comment label.display)).toList =
        "/** ".toList ++ (label.display.toList ++ (" */".toList ++ ['\n'])) := by
      simp [ended, comment]
    have hfront : Level "/** ".toList [] := level_nil (by decide) (by decide)
    have hrear : Level (" */".toList ++ ['\n']) [] := level_nil (by decide) (by decide)
    rw [hcomment]
    exact hfront.append ((level_nil h.1 h.2).append hrear)
  next => exact .refl []

theorem ended_append (lines lines' : List String) : ended (lines ++ lines') = ended lines ++ ended lines' :=
  List.flatMap_append

theorem level_margin : Level margin.toList [] := level_nil (by decide) (by decide)

theorem level_body {members : List Member} (h : Level (ended (linesOf style members)) (ended (linesOf style.undocumented members))) :
    Level (bodyText style (uidsOf members) (linesOf style members)).toList
      (bodyText style.undocumented (uidsOf members) (linesOf style.undocumented members)).toList := by
  refine (level_intercalate _).trans (Level.trans ?_ (level_intercalate _).symm)
  change Level (ended (if style.editableTags && !(uidsOf members).isEmpty then _ else _))
    (ended (if style.editableTags && !(uidsOf members).isEmpty then _ else _))
  split
  · rw [ended_append, ended_append]
    exact h.append (.refl _)
  · exact h

theorem intercalate_ne_empty {sep part : String} {parts : List String} (hm : part ∈ parts) (hne : part ≠ "") :
    sep.intercalate parts ≠ "" := by
  induction parts with
  | nil => cases hm
  | cons first rest ih =>
    cases rest with
    | nil =>
      rw [String.intercalate_singleton]
      rwa [← List.mem_singleton.1 hm]
    | cons next rest =>
      rw [String.intercalate_cons_cons, ne_eq, String.append_eq_empty_iff, String.append_eq_empty_iff]
      rintro ⟨⟨hfirst, -⟩, hrest⟩
      rcases List.mem_cons.1 hm with rfl | hm
      · exact hne hfirst
      · exact ih hm hrest

theorem memberLine_ne_empty (uid : Json) (isOptional isNullable : Bool) (type : String) :
    memberLine uid isOptional isNullable type ≠ "" := by
  rw [memberLine_eq, ne_eq, String.append_eq_empty_iff]
  rintro ⟨-, h⟩
  exact absurd (String.append_eq_empty_iff.1 h).2 (by decide)

theorem bodyText_ne_empty (style : Style) (member : Member) (rest : List Member) :
    bodyText style (uidsOf (member :: rest)) (linesOf style (member :: rest)) ≠ "" := by
  obtain ⟨uid, label, isOptional, isNullable, type⟩ := member
  have hm : memberLine uid isOptional isNullable (text style type) ∈
      linesOf style (⟨uid, label, isOptional, isNullable, type⟩ :: rest) := by
    rw [linesOf, memberLines]
    simp
  unfold bodyText
  split
  · exact intercalate_ne_empty (List.mem_append_left _ hm) (memberLine_ne_empty _ _ _ _)
  · exact intercalate_ne_empty hm (memberLine_ne_empty _ _ _ _)

theorem level_object {members : List Member} (h : Level (ended (linesOf style members)) (ended (linesOf style.undocumented members))) :
    Level (text style (.object members)).toList (text style.undocumented (.object members)).toList := by
  rw [text, text]
  cases members with
  | nil => exact .refl _
  | cons member rest =>
    unfold objectText
    rw [if_neg (bodyText_ne_empty _ _ _), if_neg (bodyText_ne_empty _ _ _)]
    simp only [String.toList_append, Text.indent, String.toList_ofList]
    refine ((Level.refl _).append ?_).append (.refl _)
    exact (level_indentChars level_margin _).trans ((level_body h).trans (level_indentChars level_margin _).symm)

mutual

/-- With neutral comments the brackets of a type are the same without comments. -/
theorem level_text : ∀ type : TypeExpr, (∀ label ∈ labels type, Neutral label.display) →
    Level (text style type).toList (text style.undocumented type).toList
  | .object members, h => by
    rw [labels] at h
    exact level_object (level_linesOf members h)
  | .array element, h => by
    rw [labels] at h
    have hlevel := level_text element h
    rw [text, text, arrayText, arrayText, isUnion, isUnion, (hlevel 0).1]
    split <;> simp only [String.toList_append]
    · exact ((Level.refl _).append hlevel).append (.refl _)
    · exact hlevel.append (.refl _)
  | .atMost element count, h => by
    rw [labels] at h
    rw [text, text, atMostText, atMostText]
    simp only [String.toList_append]
    exact ((((Level.refl _).append (level_text element h)).append (.refl _)).append (.refl _)).append (.refl _)
  | .primitive _, _ | .link, _ | .file, _ | .folder, _ | .taxonomy, _ | .declared _, _ | .choices _ _, _
  | .references _, _ | .extension, _ | .richText, _ | .fallback, _ => by
    rw [text_undocumented rfl]
    exact .refl _

theorem level_memberLines : ∀ member : Member, (∀ label ∈ memberLabels member, Neutral label.display) →
    Level (ended (memberLines style member)) (ended (memberLines style.undocumented member))
  | ⟨uid, label, isOptional, isNullable, type⟩, h => by
    rw [memberLabels, List.forall_mem_cons] at h
    have hlevel := level_text type h.2
    rw [memberLines, memberLines, ended_append, ended_append, memberLine_eq, memberLine_eq,
      endsWithNull_undocumented]
    refine (level_comment h.1).append ?_
    simp only [ended, List.flatMap_singleton, String.toList_append]
    exact ((((Level.refl _).append (.refl _)).append hlevel).append (.refl _)).append (.refl _)

theorem level_linesOf : ∀ members : List Member, (∀ label ∈ labelsOf members, Neutral label.display) →
    Level (ended (linesOf style members)) (ended (linesOf style.undocumented members))
  | [], _ => by
    rw [linesOf, linesOf]
    exact .refl _
  | member :: rest, h => by
    rw [labelsOf, List.forall_mem_append] at h
    rw [linesOf, linesOf, ended_append, ended_append]
    exact (level_memberLines member h.1).append (level_linesOf rest h.2)

end

/-- What follows a type on its last line: it does not end as a comment does. -/
structure Closes (rear : List Char) : Prop where
  line : '\n' ∉ rear
  ends : ∃ c, rear.getLast? = some c ∧ c ≠ '/'

theorem Closes.getLast?_ne {rear : List Char} (h : Closes rear) (front : List Char) :
    (front ++ rear).getLast? ≠ some '/' := by
  obtain ⟨c, hc, hne⟩ := h.ends
  rw [List.getLast?_append, hc]
  simpa using hne

theorem Closes.append {rear : List Char} (h : Closes rear) {front : List Char} (hf : '\n' ∉ front) :
    Closes (front ++ rear) := by
  obtain ⟨c, hc, hne⟩ := h.ends
  refine ⟨List.not_mem_append hf h.line, c, ?_, hne⟩
  rw [List.getLast?_append, hc]
  rfl

/-- Wherever the first text may stand, the second one omits comment lines of it. -/
def Fits (s t : String) : Prop :=
  ∀ front rear : List Char, '\n' ∉ front → Closes rear →
    Omits (splitOn '\n' (front ++ s.toList ++ rear)) (splitOn '\n' (front ++ t.toList ++ rear))

theorem Fits.self {s : String} (h : OneLine s) : Fits s s := by
  intro front rear hf hr
  rw [Text.splitOn_of_not_mem (List.not_mem_append (List.not_mem_append hf h) hr.line)]
  exact .single (hr.getLast?_ne _)

theorem Fits.wrap {s t : String} (h : Fits s t) {before after : String} (hb : OneLine before)
    (ha : OneLine after) : Fits (before ++ s ++ after) (before ++ t ++ after) := by
  intro front rear hf hr
  have hfits := h (front ++ before.toList) (after.toList ++ rear) (List.not_mem_append hf hb) (hr.append ha)
  simpa only [String.toList_append, List.append_assoc] using hfits

def linesIn (texts : List String) : List (List Char) := texts.flatMap fun s => splitOn '\n' s.toList

theorem linesIn_append (a b : List String) : linesIn (a ++ b) = linesIn a ++ linesIn b := List.flatMap_append

theorem splitOn_join {texts : List String} (h : texts ≠ []) :
    splitOn '\n' ("\n".intercalate texts).toList = linesIn texts := by
  have hne : texts.map String.toList ≠ [] := by simpa using h
  rw [String.toList_intercalate, show "\n".toList = ['\n'] from rfl, Text.splitOn_intercalate hne,
    List.flatMap_map]
  rfl

theorem fits_braces {a b : String} (h : Omits (splitOn '\n' a.toList) (splitOn '\n' b.toList)) :
    Fits ("\x7b\n" ++ Text.indent margin a ++ "\n\x7d") ("\x7b\n" ++ Text.indent margin b ++ "\n\x7d") := by
  intro front rear hf hr
  have hsplit : ∀ s : String, splitOn '\n' (front ++ ("\x7b\n" ++ Text.indent margin s ++ "\n\x7d").toList ++ rear) =
      (front ++ ['\x7b']) :: ((splitOn '\n' s.toList).map (indentChars margin.toList) ++ ['\x7d' :: rear]) := by
    intro s
    have hfront : '\n' ∉ front ++ ['\x7b'] := List.not_mem_append hf (by decide)
    have hrear : '\n' ∉ '\x7d' :: rear := List.not_mem_append (s := ['\x7d']) (by decide) hr.line
    have hshape : front ++ ("\x7b\n" ++ Text.indent margin s ++ "\n\x7d").toList ++ rear =
        (front ++ ['\x7b']) ++ '\n' :: (indentChars margin.toList s.toList ++ '\n' :: '\x7d' :: rear) := by
      simp [Text.indent, String.toList_append]
    rw [hshape, Text.splitOn_append_cons, Text.splitOn_append_cons, Text.splitOn_of_not_mem hfront,
      Text.splitOn_of_not_mem hrear, Text.splitOn_indentChars (by decide)]
    rfl
  rw [hsplit, hsplit]
  refine .keep (by simp) ((h.indent (List.all_eq_true.1 (by decide +kernel))).append (.single ?_))
  exact hr.getLast?_ne ['\x7d']

theorem Closes.commentless {rear : List Char} (h : Closes rear) {front : List Char} (hf : '\n' ∉ front) :
    Text.Commentless (front ++ rear) :=
  Text.commentless_line (List.not_mem_append hf h.line) (h.getLast?_ne front)

theorem commentless_mappings {uids : List Json} (h : uids ≠ []) :
    Text.Commentless (LivePreview.mappings uids).toList := by
  have hend : Closes [';'] := ⟨by decide, ';', rfl, by decide⟩
  have hparts : ∀ parts : List String, parts ≠ [] → (∀ part ∈ parts, OneLine part) →
      Text.Commentless ("  ".toList ++ (";\n  ".intercalate parts).toList ++ ";\n\x7d;".toList) := by
    intro parts hne hlines
    induction parts with
    | nil => exact absurd rfl hne
    | cons part rest ih =>
      obtain ⟨hpart, hrest⟩ := List.forall_mem_cons.1 hlines
      have hline : Text.Commentless ("  ".toList ++ part.toList ++ [';']) :=
        hend.commentless (List.not_mem_append (by decide) hpart)
      cases rest with
      | nil =>
        rw [String.intercalate_singleton]
        have happend := Text.commentless_append_cons.2 ⟨hline, (by decide : Text.Commentless "\x7d;".toList)⟩
        simpa [String.toList_append] using happend
      | cons next rest =>
        rw [String.intercalate_cons_cons]
        have happend := Text.commentless_append_cons.2 ⟨hline, ih (by simp) hrest⟩
        simpa [String.toList_append, List.append_assoc] using happend
  have hmapped := hparts (uids.map LivePreview.mapping) (by simpa using h) (by
    rw [List.forall_mem_map]
    exact fun uid _ => OneLine.append_iff.2 ⟨Json.oneLine_render uid, by decide⟩)
  have happend := Text.commentless_append_cons.2 ⟨(by decide : Text.Commentless "$?: \x7b".toList), hmapped⟩
  simpa [LivePreview.mappings, String.toList_append, List.append_assoc] using happend

theorem linesOf_ne_nil {members : List Member} (h : members ≠ []) (style : Style) :
    linesOf style members ≠ [] := by
  cases members with
  | nil => exact absurd rfl h
  | cons member rest =>
    obtain ⟨uid, label, isOptional, isNullable, type⟩ := member
    rw [linesOf, memberLines]
    simp

/-- The lines of a body are those of its members and then those of the mappings. -/
theorem omits_body {members : List Member}
    (h : Omits (linesIn (linesOf style members)) (linesIn (linesOf style.undocumented members)))
    (hne : members ≠ []) :
    Omits (splitOn '\n' (bodyText style (uidsOf members) (linesOf style members)).toList)
      (splitOn '\n' (bodyText style.undocumented (uidsOf members) (linesOf style.undocumented members)).toList) := by
  have huids : uidsOf members ≠ [] := by simpa [uidsOf] using hne
  have hmappings : Omits (linesIn [LivePreview.mappings (uidsOf members)])
      (linesIn [LivePreview.mappings (uidsOf members)]) := by
    rw [linesIn, List.flatMap_singleton]
    exact (commentless_mappings huids).omits
  change Omits
    (splitOn '\n' ("\n".intercalate (if style.editableTags && !(uidsOf members).isEmpty then _ else _)).toList)
    (splitOn '\n' ("\n".intercalate (if style.editableTags && !(uidsOf members).isEmpty then _ else _)).toList)
  split
  · rw [splitOn_join (by simp), splitOn_join (by simp), linesIn_append, linesIn_append]
    exact h.append hmappings
  · rwa [splitOn_join (linesOf_ne_nil hne _), splitOn_join (linesOf_ne_nil hne _)]

theorem fits_object {members : List Member}
    (h : Omits (linesIn (linesOf style members)) (linesIn (linesOf style.undocumented members))) :
    Fits (text style (.object members)) (text style.undocumented (.object members)) := by
  rw [text, text]
  cases members with
  | nil =>
    have hempty : ∀ style : Style, objectText (bodyText style (uidsOf []) (linesOf style [])) = "\x7b\x7d" := by
      intro style
      simp [bodyText, uidsOf, linesOf, objectText]
    rw [hempty, hempty]
    exact .self (by decide)
  | cons member rest =>
    unfold objectText
    rw [if_neg (bodyText_ne_empty _ _ _), if_neg (bodyText_ne_empty _ _ _)]
    exact fits_braces (omits_body h (by simp))

theorem fits_richText : Fits richTextText richTextText := by
  have hshape : richTextText = "\x7b\n" ++ Text.indent margin
      ("type: string;\nuid: string;\n_version: number;\nattrs: Record<string, any>;\n" ++
        "children: JSONRTENode[];") ++ "\n\x7d" := by
    refine String.toList_injective ?_
    unfold richTextText fallbackText richTextNode Text.indent margin
    repeat rw [String.toList_append]
    repeat rw [String.toList_ofList]
    decide
  rw [hshape]
  refine fits_braces (Text.Commentless.omits ?_)
  rw [String.toList_append, String.toList_ofList, String.toList_ofList]
  decide

theorem isComment_comment (s : String) : Text.isComment (comment s).toList = true := by
  refine Text.isComment_iff.2 ⟨[], (comment s).toList, rfl, by simp, ?_, ?_⟩
  · refine ⟨' ' :: s.toList ++ " */".toList, ?_⟩
    simp [comment]
  · refine ⟨"/** ".toList ++ s.toList ++ [' '], ?_⟩
    simp [comment]

theorem omits_comment {label : Json} (h : OneLine label.display) :
    Omits (linesIn (comment? style label).toList) [] := by
  unfold comment?
  split
  next =>
    have hline : OneLine (comment label.display) :=
      OneLine.append_iff.2 ⟨OneLine.append_iff.2 ⟨by decide, h⟩, by decide⟩
    rw [linesIn, Option.toList_some, List.flatMap_singleton, Text.splitOn_of_not_mem hline]
    exact .drop (isComment_comment _) .nil
  next => exact .nil

theorem oneLine_nameOf (h : OneLine style.lead) (builtin : Builtin) : OneLine (style.nameOf builtin) :=
  OneLine.append_iff.2 ⟨h, by cases builtin <;> decide⟩

theorem oneLine_references {names : List String} (hlead : OneLine style.lead)
    (h : ∀ name ∈ names, OneLine name) : OneLine (referencesText style names) := by
  have hnames : ∀ name ∈ (if style.referencedEntry then names ++ [style.nameOf .referencedEntry] else names),
      OneLine name := by
    split
    · exact List.forall_mem_append.2 ⟨h, by simpa using oneLine_nameOf hlead _⟩
    · exact h
  unfold referencesText
  split
  · decide
  · dsimp only
    split
    next name he =>
      rw [he] at hnames
      exact OneLine.append_iff.2 ⟨hnames name (List.mem_singleton_self _), by decide⟩
    next =>
      simp only [OneLine.append_iff]
      exact ⟨⟨by decide, .intercalate (by decide) hnames⟩, by decide⟩

theorem fits_flat {type : TypeExpr} (hlead : OneLine style.lead) (h : Legible type)
    (hflat : isFlat type = true) : Fits (text style type) (text style type) := by
  cases type with
  | object | array | atMost => cases hflat
  | richText => exact fits_richText
  | primitive p => exact .self (by rw [text]; cases p <;> decide)
  | link => exact .self (oneLine_nameOf hlead _)
  | file => exact .self (oneLine_nameOf hlead _)
  | folder | extension | fallback => exact .self (by rw [text]; decide)
  | taxonomy =>
    refine .self ?_
    rw [text, taxonomyText]
    split
    · simp only [OneLine.append_iff]
      exact ⟨⟨⟨⟨by decide, oneLine_nameOf hlead _⟩, by decide⟩, oneLine_nameOf hlead _⟩, by decide⟩
    · exact oneLine_nameOf hlead _
  | declared name => exact .self h
  | choices numeric values =>
    refine .self ?_
    rw [text, choicesText]
    simp only [OneLine.append_iff]
    refine ⟨⟨by decide, .intercalate (by decide) ?_⟩, by decide⟩
    rw [List.forall_mem_map]
    exact fun value _ => oneLine_literal numeric value
  | references names => exact .self (oneLine_references hlead h)

mutual

/-- A legible type is written without comments as it is with them, but for lines that hold one. -/
theorem fits_text (hlead : OneLine style.lead) : ∀ type : TypeExpr, Legible type →
    Fits (text style type) (text style.undocumented type)
  | .object members, h => by
    rw [Legible] at h
    exact fits_object (omits_linesOf hlead members h)
  | .array element, h => by
    rw [Legible] at h
    have hfits := fits_text hlead element h.1
    rw [text, text, arrayText, arrayText, isUnion, isUnion, (level_text element h.2 0).1]
    split
    · exact hfits.wrap (by decide) (by decide)
    · simpa using hfits.wrap (show OneLine "" by decide) (show OneLine "[]" by decide)
  | .atMost element count, h => by
    rw [Legible] at h
    have hafter : OneLine (", " ++ count.display ++ ">") := by
      simp only [OneLine.append_iff]
      exact ⟨⟨by decide, h.2⟩, by decide⟩
    rw [text, text, atMostText, atMostText]
    simpa only [String.append_assoc] using (fits_text hlead element h.1).wrap (by decide) hafter
  | .primitive _, h | .link, h | .file, h | .folder, h | .taxonomy, h | .declared _, h | .choices _ _, h
  | .references _, h | .extension, h | .richText, h | .fallback, h => by
    rw [text_undocumented rfl]
    exact fits_flat hlead h rfl

theorem omits_memberLines (hlead : OneLine style.lead) : ∀ member : Member, MemberLegible member →
    Omits (linesIn (memberLines style member)) (linesIn (memberLines style.undocumented member))
  | ⟨uid, label, isOptional, isNullable, type⟩, h => by
    rw [MemberLegible] at h
    obtain ⟨⟨s, rfl, hs⟩, hlabel, htype⟩ := h
    have hfront : OneLine ((Json.text s).display ++ (if isOptional then "?" else "") ++ ": ") := by
      simp only [OneLine.append_iff]
      exact ⟨⟨hs, by split <;> decide⟩, by decide⟩
    have hrear : Closes ((if isNullable && !endsWithNull (text style type) then " | null" else "") ++ ";").toList := by
      split <;> exact ⟨by decide, ';', rfl, by decide⟩
    have hline := fits_text hlead type htype _ _ hfront hrear
    rw [memberLines, memberLines, linesIn_append, linesIn_append, memberLine_eq, memberLine_eq,
      endsWithNull_undocumented]
    refine Omits.append (omits_comment hlabel) ?_
    simp only [linesIn, List.flatMap_singleton, String.toList_append] at hline ⊢
    exact hline

theorem omits_linesOf (hlead : OneLine style.lead) : ∀ members : List Member, MembersLegible members →
    Omits (linesIn (linesOf style members)) (linesIn (linesOf style.undocumented members))
  | [], _ => by
    rw [linesOf, linesOf]
    exact .nil
  | member :: rest, h => by
    rw [MembersLegible] at h
    rw [linesOf, linesOf, linesIn_append, linesIn_append]
    exact (omits_memberLines hlead member h.1).append (omits_linesOf hlead rest h.2)

end

/-- Legible types that are written alike with comments are written alike without. -/
theorem text_undocumented_congr (hlead : OneLine style.lead) {type type' : TypeExpr} (h : Legible type)
    (h' : Legible type') (he : text style type = text style type') :
    text style.undocumented type = text style.undocumented type' := by
  have hline : ∀ type : TypeExpr, Legible type →
      (splitOn '\n' ((text style type).toList ++ [';'])).filter (fun line => !Text.isComment line) =
        splitOn '\n' ((text style.undocumented type).toList ++ [';']) := fun type h =>
    (fits_text hlead type h [] [';'] (by simp) ⟨by decide, ';', rfl, by decide⟩).filter
  have hsplit := hline type h
  rw [he, hline type' h'] at hsplit
  have hchars := congrArg (['\n'].intercalate ·) hsplit
  rw [Text.intercalate_splitOn, Text.intercalate_splitOn] at hchars
  exact String.toList_inj.1 (List.append_cancel_right hchars).symm

end TypeExpr

end SchemaDecl

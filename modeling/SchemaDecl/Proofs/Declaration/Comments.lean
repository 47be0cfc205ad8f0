import SchemaDecl.Proofs.Declaration.Builtins
import SchemaDecl.Proofs.TypeExpr.Comments

/-!
# Comments in declarations

The text of declarations without comments is that with comments but for the lines that hold one, if the
declarations are legible. The builtin declarations have no comments.
-/

namespace SchemaDecl

open Text (splitOn Omits Commentless)
open TypeExpr (linesIn)

/-- The uid of a block stays on one line, and its type is legible. -/
def BlockLegible (block : Json × TypeExpr) : Prop := (∃ s, block.1 = .text s ∧ OneLine s) ∧ block.2.Legible

structure BlockUnion.Legible (u : BlockUnion) : Prop where
  name : OneLine u.name
  blocks : ∀ block ∈ u.blocks, BlockLegible block

structure Interface.Legible (i : Interface) : Prop where
  name : OneLine i.name
  description : OneLine i.description.display
  members : TypeExpr.MembersLegible i.members

structure Declaration.Legible (d : Declaration) : Prop where
  unions : ∀ u ∈ d.unions, u.Legible
  main : d.main.Legible

variable {style : Style} {a b : List Char}

/-- What a declaration says of the system fields. -/
def extendsText (style : Style) (extended : Bool) : String :=
  if extended then " extends " ++ style.nameOf .systemFields else ""

theorem oneLine_extendsText (h : OneLine style.lead) (extended : Bool) : OneLine (extendsText style extended) := by
  unfold extendsText
  split
  · exact OneLine.append_iff.2 ⟨by decide, TypeExpr.oneLine_nameOf h _⟩
  · decide

theorem nameOf_ne_empty (style : Style) (builtin : Builtin) : style.nameOf builtin ≠ "" := by
  intro h
  have hbase := (String.append_eq_empty_iff.1 h).2
  cases builtin <;> exact absurd hbase (by decide)

/-- What stands between braces, and the lines around it, without the margin. -/
def BlockUnion.body (style : Style) (u : BlockUnion) : List String :=
  u.blocks.map fun (uid, type) => uid.display ++ ": " ++ type.text style ++ ";"

def header (style : Style) (name : String) (extended : Bool) : String :=
  "export interface " ++ name ++ extendsText style extended ++ " \x7b"

theorem BlockUnion.text_eq (style : Style) (u : BlockUnion) :
    u.text style = "\n".intercalate [header style u.name style.systemFields,
      Text.indent margin ("\n".intercalate (u.body style)), "\x7d"] := by
  unfold BlockUnion.text BlockUnion.body header extendsText
  cases hs : style.systemFields <;>
    simp [Template.render, Template.blockUnion, Template.extendsPart, Piece.renderAll, Piece.render,
      Template.valueOf?, Template.constant?, Table.get?, Json.ofText?, systemFields?, Json.truthy,
      nameOf_ne_empty, String.intercalate_cons_cons, String.append_assoc]

theorem comment_ne_empty (s : String) : comment s ≠ "" := by
  rw [comment, ne_eq, String.append_eq_empty_iff]
  exact fun h => absurd h.2 (by decide)

theorem indent_ne_empty {s : String} (h : s ≠ "") : Text.indent margin s ≠ "" := by
  intro he
  have hlast := Text.getLast?_indentChars margin.toList s.toList
  have hnil : Text.indentChars margin.toList s.toList = [] := by
    rwa [Text.indent, String.ofList_eq_empty_iff] at he
  rw [hnil, List.getLast?_nil, eq_comm, List.getLast?_eq_none_iff, String.toList_eq_nil_iff] at hlast
  exact h hlast

def Interface.body? (style : Style) (i : Interface) : Option String :=
  if i.members.isEmpty then none else some (Text.indent margin (TypeExpr.membersText style i.members))

theorem Interface.body?_eq (style : Style) (i : Interface) :
    i.body? style = if Text.indent margin (TypeExpr.membersText style i.members) = "" then none
      else some (Text.indent margin (TypeExpr.membersText style i.members)) := by
  unfold Interface.body?
  cases hm : i.members with
  | nil =>
    have hempty : TypeExpr.membersText style [] = "" := by
      simp [TypeExpr.membersText, TypeExpr.bodyText, TypeExpr.uidsOf, TypeExpr.linesOf]
    rw [hempty]
    rfl
  | cons member rest =>
    have hne := indent_ne_empty (TypeExpr.bodyText_ne_empty style member rest)
    rw [TypeExpr.membersText, if_neg hne]
    rfl

theorem Interface.text_eq (style : Style) (i : Interface) :
    i.text style = "\n".intercalate
      ((comment? style i.description).toList ++ [header style i.name i.extendsSystem] ++
        ((versionComment? style).map (margin ++ ·)).toList ++ [margin ++ "_version?: number;"] ++
        (i.body? style).toList ++ ["\x7d"]) := by
  rw [Interface.body?_eq]
  unfold Interface.text header extendsText comment? versionComment?
  cases hs : i.extendsSystem <;> cases hd : style.documented <;> cases ht : i.description.truthy <;>
    by_cases hb : Text.indent margin (TypeExpr.membersText style i.members) = "" <;>
    simp [Template.render, Template.interface, Template.extendsPart, Piece.renderAll, Piece.render,
      Template.valueOf?, Template.constant?, Table.get?, Json.ofText?, systemFields?, Json.truthy, hb,
      nameOf_ne_empty, comment_ne_empty, String.intercalate_cons_cons, String.append_assoc]

/-- The lines of the second text are those of the first without comments. -/
def Uncomments (s t : String) : Prop := Omits (splitOn '\n' s.toList) (splitOn '\n' t.toList)

theorem linesIn_singleton (s : String) : linesIn [s] = splitOn '\n' s.toList := List.flatMap_singleton ..

theorem omits_cons {s t : String} {texts texts' : List String} (h : Omits (linesIn [s]) (linesIn [t]))
    (h' : Omits (linesIn texts) (linesIn texts')) : Omits (linesIn (s :: texts)) (linesIn (t :: texts')) := by
  rw [linesIn_singleton, linesIn_singleton] at h
  exact h.append h'

theorem oneLine_header (hlead : OneLine style.lead) {name : String} (hn : OneLine name) (extended : Bool) :
    OneLine (header style name extended) := by
  have hfront : OneLine ("export interface " ++ name) := OneLine.append_iff.2 ⟨by decide, hn⟩
  have hparts := OneLine.append_iff.2 ⟨hfront, oneLine_extendsText hlead extended⟩
  exact OneLine.append_iff.2 ⟨hparts, by decide⟩

theorem omits_header (hlead : OneLine style.lead) {name : String} (hn : OneLine name) (extended : Bool) :
    Omits (linesIn [header style name extended]) (linesIn [header style name extended]) := by
  have hbrace : (header style name extended).toList.getLast? = some '\x7b' := TypeExpr.getLast?_append rfl _
  rw [linesIn_singleton, Text.splitOn_of_not_mem (oneLine_header hlead hn extended)]
  exact .single (by rw [hbrace]; decide)

theorem omits_indent {s t : String} (h : Uncomments s t) :
    Omits (linesIn [Text.indent margin s]) (linesIn [Text.indent margin t]) := by
  have hindent : ∀ s : String, linesIn [Text.indent margin s] =
      (splitOn '\n' s.toList).map (Text.indentChars margin.toList) := by
    intro s
    rw [linesIn_singleton, Text.indent, String.toList_ofList, Text.splitOn_indentChars (by decide)]
  rw [hindent, hindent]
  exact Omits.indent (List.all_eq_true.1 (by decide)) h

theorem omits_brace : Omits (linesIn ["\x7d"]) (linesIn ["\x7d"]) := by
  rw [linesIn_singleton]
  exact Text.Commentless.omits (by decide)

theorem omits_blocks (hlead : OneLine style.lead) {blocks : List (Json × TypeExpr)}
    (h : ∀ block ∈ blocks, BlockLegible block) :
    Omits (linesIn (blocks.map fun (uid, type) => uid.display ++ ": " ++ type.text style ++ ";"))
      (linesIn (blocks.map fun (uid, type) => uid.display ++ ": " ++ type.text style.undocumented ++ ";")) := by
  induction blocks with
  | nil => exact .nil
  | cons block rest ih =>
    obtain ⟨⟨⟨s, hs, hline⟩, htype⟩, hrest⟩ := List.forall_mem_cons.1 h
    have hfront : OneLine ((Json.text s).display ++ ": ") := OneLine.append_iff.2 ⟨hline, by decide⟩
    have hfits := TypeExpr.fits_text hlead block.2 htype _ [';'] hfront ⟨by decide, ';', rfl, by decide⟩
    have happend := hfits.append (ih hrest)
    simpa [linesIn, String.toList_append, hs] using happend

theorem BlockUnion.uncomments_body (hlead : OneLine style.lead) {u : BlockUnion} (h : u.Legible) :
    Uncomments ("\n".intercalate (u.body style)) ("\n".intercalate (u.body style.undocumented)) := by
  unfold Uncomments
  by_cases hne : u.blocks = []
  · have hempty : ∀ style : Style, u.body style = [] := fun style => by rw [BlockUnion.body, hne, List.map_nil]
    rw [hempty, hempty]
    exact Text.Commentless.omits (by decide)
  · have hmap : ∀ style : Style, u.body style ≠ [] := fun style => by simpa [BlockUnion.body] using hne
    rw [TypeExpr.splitOn_join (hmap _), TypeExpr.splitOn_join (hmap _)]
    exact omits_blocks hlead h.blocks

theorem BlockUnion.uncomments (hlead : OneLine style.lead) {u : BlockUnion} (h : u.Legible) :
    Uncomments (u.text style) (u.text style.undocumented) := by
  have hbody := omits_indent (BlockUnion.uncomments_body hlead h)
  unfold Uncomments
  rw [BlockUnion.text_eq, BlockUnion.text_eq, TypeExpr.splitOn_join (by simp), TypeExpr.splitOn_join (by simp)]
  exact omits_cons (omits_header hlead h.name style.systemFields) (omits_cons hbody omits_brace)

theorem Interface.uncomments (hlead : OneLine style.lead) {i : Interface} (h : i.Legible) :
    Uncomments (i.text style) (i.text style.undocumented) := by
  have hversion : Omits (linesIn ((versionComment? style).map (margin ++ ·)).toList) [] := by
    unfold versionComment?
    split
    · exact .drop (by decide) .nil
    · exact .nil
  have hline : Omits (linesIn [margin ++ "_version?: number;"]) (linesIn [margin ++ "_version?: number;"]) := by
    rw [linesIn_singleton]
    exact Text.Commentless.omits (by decide)
  have hbody : Omits (linesIn (i.body? style).toList) (linesIn (i.body? style.undocumented).toList) := by
    unfold Interface.body?
    cases hm : i.members with
    | nil => exact .nil
    | cons member rest =>
      have hmembers := TypeExpr.omits_linesOf hlead i.members h.members
      rw [hm] at hmembers
      exact omits_indent (TypeExpr.omits_body hmembers (by simp))
  unfold Uncomments
  rw [Interface.text_eq, Interface.text_eq, TypeExpr.splitOn_join (by simp), TypeExpr.splitOn_join (by simp)]
  simp only [TypeExpr.linesIn_append]
  have hdescription : Omits (linesIn (comment? style i.description).toList) [] :=
    TypeExpr.omits_comment h.description
  exact ((((hdescription.append (omits_header hlead h.name _)).append hversion).append hline).append
    hbody).append omits_brace

theorem splitOn_joinParts (part next : String) (rest : List String) :
    splitOn '\n' (joinParts (part :: next :: rest)).toList =
      splitOn '\n' part.toList ++ [] :: splitOn '\n' (joinParts (next :: rest)).toList := by
  have hshape : (joinParts (part :: next :: rest)).toList =
      part.toList ++ '\n' :: ([] ++ '\n' :: (joinParts (next :: rest)).toList) := by
    simp [joinParts, String.intercalate_cons_cons, String.toList_append]
  rw [hshape, Text.splitOn_append_cons, Text.splitOn_append_cons]
  rfl

/-- Texts with an empty line between any two keep their lines. -/
theorem uncomments_joinParts {parts parts' : List String} (h : List.Forall₂ Uncomments parts parts') :
    Uncomments (joinParts parts) (joinParts parts') := by
  induction h with
  | nil => exact Text.Commentless.omits (by decide)
  | @cons part part' rest rest' hpart hrest ih =>
    cases hrest with
    | nil => simpa [joinParts] using hpart
    | cons =>
      unfold Uncomments
      rw [splitOn_joinParts, splitOn_joinParts]
      exact hpart.append (.keep (by simp) ih)

theorem forall₂_map {α : Type} {f g : α → String} {items : List α}
    (h : ∀ item ∈ items, Uncomments (f item) (g item)) :
    List.Forall₂ Uncomments (items.map f) (items.map g) := by
  rw [List.forall₂_map_left_iff, List.forall₂_map_right_iff, List.forall₂_same]
  exact h

theorem Declaration.uncomments (hlead : OneLine style.lead) {d : Declaration} (h : d.Legible) :
    Uncomments (d.text style) (d.text style.undocumented) := by
  have hunions := forall₂_map fun u hu => BlockUnion.uncomments hlead (h.unions u hu)
  exact uncomments_joinParts (List.rel_append hunions (.cons (Interface.uncomments hlead h.main) .nil))

namespace Prelude

open Template

theorem commentless_renderAll {values : Entries} {pieces : Template}
    (h : ∀ piece ∈ pieces, Commentless (piece.render values).toList) :
    Commentless (Piece.renderAll values pieces).toList := by
  induction pieces with
  | nil =>
    rw [Piece.renderAll]
    decide
  | cons piece rest ih =>
    obtain ⟨hpiece, hrest⟩ := List.forall_mem_cons.1 h
    rw [Piece.renderAll, String.toList_append]
    exact Text.commentless_append hpiece (ih hrest)

theorem commentless_append {values : Entries} {pieces more : Template}
    (h : Commentless (pieces.render values).toList) (h' : Commentless (more.render values).toList) :
    Commentless (render (pieces ++ more) values).toList := by
  rw [render, renderAll_append, String.toList_append]
  exact Text.commentless_append h h'

theorem commentless_text {s : String} (h : Commentless s.toList) (values : Entries) :
    Commentless (render [.text s] values).toList := commentless_renderAll (by simpa [Piece.render] using h)

theorem commentless_led (hlead : OneLine style.lead) {rest : String} (h : TypeExpr.Closes rest.toList) :
    Commentless (render [.hole "prefix", .text rest] (context style)).toList := by
  have hrender : render [.hole "prefix", .text rest] (context style) = style.lead ++ rest := by
    simp [render, Piece.renderAll, Piece.render, valueOf?_prefix]
  rw [hrender, String.toList_append]
  exact h.commentless hlead

theorem commentless_named (hlead : OneLine style.lead) (builtin : Builtin) :
    Commentless ((named builtin).render (context style)).toList :=
  commentless_led hlead (by cases builtin <;> exact ⟨by decide, _, rfl, by decide⟩)

theorem commentless_interfaceOf (hlead : OneLine style.lead) (builtin : Builtin) {lines : List Template}
    (h : ∀ line ∈ lines, Commentless (line.render (context style)).toList) :
    Commentless ((interfaceOf builtin lines).render (context style)).toList := by
  have hlines : Commentless (render (lines.flatMap fun line => [Piece.text margin] ++ line ++ [.text ";\n"])
      (context style)).toList := by
    induction lines with
    | nil => exact (by decide : Commentless [])
    | cons line rest ih =>
      obtain ⟨hline, hrest⟩ := List.forall_mem_cons.1 h
      rw [List.flatMap_cons]
      refine commentless_append (commentless_append (commentless_append ?_ hline) ?_) (ih hrest)
      · exact commentless_text (by decide) _
      · exact commentless_text (by decide) _
  have hbraced : Commentless ((braced lines).render (context style)).toList :=
    commentless_append (commentless_append (commentless_text (by decide) _) hlines)
      (commentless_text (by decide) _)
  exact commentless_append (commentless_append (commentless_append (commentless_text (by decide) _)
    (commentless_named hlead builtin)) (commentless_text (by decide) _)) hbraced

/-- A declaration whose members have fixed texts. -/
theorem commentless_fixed (hlead : OneLine style.lead) (builtin : Builtin) (texts : List String)
    (h : ∀ s ∈ texts, Commentless s.toList) :
    Commentless ((interfaceOf builtin (texts.map plain)).render (context style)).toList := by
  refine commentless_interfaceOf hlead builtin ?_
  rw [List.forall_mem_map]
  exact fun s hs => commentless_text (h s hs) _

theorem commentless_tuple (values : Entries) : Commentless (tuple.render values).toList := by
  refine commentless_text ?_ values
  rw [String.toList_append, String.toList_append, String.toList_append, String.toList_append]
  refine Text.commentless_append (Text.commentless_append (Text.commentless_append
    (Text.commentless_append ?_ ?_) ?_) ?_) ?_ <;> rw [String.toList_ofList] <;> decide

theorem commentless_livePreview : Commentless livePreview.toList := by
  delta livePreview
  rw [String.toList_append, String.toList_append]
  refine Text.commentless_append (Text.commentless_append ?_ ?_) ?_ <;> rw [String.toList_ofList] <;> decide

theorem commentless_richText (style : Style) : Commentless (richText.render (context style)).toList := by
  have hnode : valueOf? (context style) "node" = some (.text TypeExpr.richTextNode) := by
    simp [valueOf?, constant?, context, Table.get?]
  have hfallback : valueOf? (context style) "fallback" = some (.text TypeExpr.fallbackText) := by
    simp [valueOf?, constant?, context, Table.get?]
  have hmembers : Commentless ("[];\n  text?: string;\n  bold?: boolean;\n  italic?: boolean;\n  underline?: boolean;\n" ++
      "  src?: string;\n  alt?: string;\n  href?: string;\n  target?: string;\n" ++
      "  embed?: \x7b\n    type: string;\n    uid: string;\n    _version: number;\n    attrs: ").toList := by
    rw [String.toList_append, String.toList_append]
    refine Text.commentless_append (Text.commentless_append ?_ ?_) ?_ <;> rw [String.toList_ofList] <;> decide
  have hpieces : ∀ piece ∈ richText, Commentless (piece.render (context style)).toList := by
    simp only [richText, List.forall_mem_cons, List.not_mem_nil, false_imp_iff, implies_true, and_true,
      Piece.render, hnode, hfallback, Option.map_some, Option.getD_some, Json.display_text, TypeExpr.richTextNode,
      TypeExpr.fallbackText]
    refine ⟨?_, ?_, ?_, ?_, ?_, ?_, hmembers, ?_, ?_⟩ <;> rw [String.toList_ofList] <;> decide
  exact commentless_renderAll hpieces

/-- A declaration whose last member but some holds the details of a publication. -/
theorem commentless_published (hlead : OneLine style.lead) (builtin : Builtin) (texts : List String)
    (front : String) (more : List String) (h : ∀ s ∈ texts ++ front :: more, Commentless s.toList) :
    Commentless ((interfaceOf builtin (texts.map plain ++ [.text front :: named .publishDetails] ++
      more.map plain)).render (context style)).toList := by
  rw [List.forall_mem_append, List.forall_mem_cons] at h
  refine commentless_interfaceOf hlead builtin ?_
  simp only [List.forall_mem_append, List.forall_mem_map, List.forall_mem_singleton]
  have hdetails := commentless_append (commentless_text h.2.1 (context style))
    (commentless_named hlead .publishDetails)
  exact ⟨⟨fun s hs => commentless_text (h.1 s hs) _, hdetails⟩, fun s hs => commentless_text (h.2.2 s hs) _⟩

theorem commentless_file (hlead : OneLine style.lead) : Commentless (file.render (context style)).toList := by
  have h := commentless_published hlead .file
    ["uid: string", "created_at: string", "updated_at: string", "created_by: string", "updated_by: string",
      "content_type: string", "file_size: string", "tags: string[]", "filename: string", "url: string",
      "ACL: any[] | object", "is_dir: boolean", "parent_uid: string", "_version: number", "title: string",
      "_metadata?: object", "description?: string"] "publish_details: " [] (by decide +kernel)
  exact h

theorem commentless_systemFields (hlead : OneLine style.lead) :
    Commentless (systemFields.render (context style)).toList := by
  have h := commentless_published hlead .systemFields
    ["uid?: string", "created_at?: string", "updated_at?: string", "created_by?: string", "updated_by?: string",
      "_content_type_uid?: string", "tags?: string[]", "ACL?: any[]", "_version?: number",
      "_in_progress?: boolean", "locale?: string"] "publish_details?: " ["title?: string"] (by decide +kernel)
  exact h

theorem commentless_taxonomyEntry (hlead : OneLine style.lead) :
    Commentless (taxonomyEntry.render (context style)).toList := by
  have hterm := commentless_text (by decide : Commentless " & \x7b term_uid: string \x7d;".toList) (context style)
  exact commentless_append (commentless_append (commentless_append (commentless_append
    (commentless_text (by decide) _) (commentless_named hlead _)) (commentless_text (by decide) _))
    (commentless_named hlead _)) hterm

theorem commentless_modularBlocks (hlead : OneLine style.lead) :
    Commentless (modularBlocks.render (context style)).toList := by
  have hrest : TypeExpr.Closes "ModularBlocksExtension<T> = T & ".toList :=
    ⟨by decide, ' ', by decide, by decide⟩
  have hname : Commentless (render ([.text "export type "] ++
      [.hole "prefix", .text "ModularBlocksExtension<T> = T & "]) (context style)).toList :=
    commentless_append (commentless_text (by decide) _) (commentless_led hlead hrest)
  exact commentless_append (commentless_append hname (commentless_named hlead .systemFields))
    (commentless_text (by decide) _)

theorem commentless_select (hlead : OneLine style.lead) (richTextUsed : Bool) :
    ∀ part ∈ select style richTextUsed, Commentless part.toList := by
  have hite : ∀ {parts : List String}, (∀ part ∈ parts, Commentless part.toList) → ∀ c : Bool,
      ∀ part ∈ (if c then parts else []), Commentless part.toList := by
    intro parts h c
    cases c with
    | false => exact fun part hp => by cases hp
    | true => exact h
  have hreferenced := commentless_fixed hlead .referencedEntry ["uid: string", "_content_type_uid: string"]
    (by decide)
  have hpublish := commentless_fixed hlead .publishDetails
    ["environment: string", "locale: string", "time: string", "user: string"] (by decide)
  have hlink := commentless_fixed hlead .link ["title: string", "href: string"] (by decide)
  have htaxonomy := commentless_fixed hlead .taxonomy
    ["taxonomy_uid: string", "max_terms?: number", "mandatory: boolean", "non_localizable: boolean"]
    (by decide)
  unfold select
  simp only [List.forall_mem_append]
  refine ⟨⟨⟨⟨⟨⟨?_, hite ?_ _⟩, ?_⟩, hite ?_ _⟩, hite ?_ _⟩, hite ?_ _⟩, hite ?_ _⟩
  · exact List.forall_mem_singleton.2 (commentless_tuple _)
  · exact List.forall_mem_singleton.2 hreferenced
  · exact List.forall_mem_cons.2 ⟨hpublish, List.forall_mem_cons.2 ⟨commentless_file hlead,
      List.forall_mem_cons.2 ⟨hlink, List.forall_mem_singleton.2 htaxonomy⟩⟩⟩
  · exact List.forall_mem_singleton.2 (commentless_taxonomyEntry hlead)
  · exact List.forall_mem_singleton.2 (commentless_richText style)
  · exact List.forall_mem_singleton.2 commentless_livePreview
  · exact List.forall_mem_cons.2 ⟨commentless_systemFields hlead,
      List.forall_mem_singleton.2 (commentless_modularBlocks hlead)⟩

end Prelude

end SchemaDecl

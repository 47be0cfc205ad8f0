import Mathlib.Data.List.Count
import SchemaDecl.Proofs.Declaration.Comments
import SchemaDecl.Proofs.TypeExpr.References

/-!
# Builtin declarations in declarations

The declarations of a schema refer to builtin ones by the types in them and by what they extend, and the
builtin ones refer to each other. What those declare and refer to is read off their texts, in which a mark
stands for the lead of names.
-/

namespace SchemaDecl

variable {names names' : Spelling} {style : Style}

/-- What a header refers to. -/
def headerBuiltins (extended : Bool) : List (Bool × String) :=
  if extended then [(true, "SystemFields")] else []

def headerSpelled (names : Spelling) (name : String) (extended : Bool) : String :=
  "export interface " ++ name ++ (if extended then " extends " ++ names (true, "SystemFields") else "") ++ " \x7b"

theorem headerSpelled_congr {extended : Bool} (h : ∀ ref ∈ headerBuiltins extended, names ref = names' ref)
    (name : String) : headerSpelled names name extended = headerSpelled names' name extended := by
  unfold headerSpelled
  cases extended with
  | false => rfl
  | true => rw [h _ (List.mem_singleton_self _)]

namespace BlockUnion

/-- The builtin declarations that a union of blocks refers to. -/
def builtins (style : Style) (u : BlockUnion) : List (Bool × String) :=
  headerBuiltins style.systemFields ++ u.blocks.flatMap fun (_, type) => type.builtins style

def spelled (names : Spelling) (style : Style) (u : BlockUnion) : String :=
  "\n".intercalate [headerSpelled names u.name style.systemFields,
    Text.indent margin ("\n".intercalate
      (u.blocks.map fun (uid, type) => uid.display ++ ": " ++ type.spelled names style ++ ";")), "\x7d"]

theorem spelled_congr {u : BlockUnion} (h : ∀ ref ∈ u.builtins style, names ref = names' ref) :
    u.spelled names style = u.spelled names' style := by
  obtain ⟨hheader, hblocks⟩ := List.forall_mem_append.1 h
  have hlines : (u.blocks.map fun (uid, type) => uid.display ++ ": " ++ type.spelled names style ++ ";") =
      u.blocks.map fun (uid, type) => uid.display ++ ": " ++ type.spelled names' style ++ ";" := by
    refine List.map_congr_left fun block hb => ?_
    have htype := TypeExpr.spelled_congr block.2 fun ref hr => hblocks ref (List.mem_flatMap.2 ⟨block, hb, hr⟩)
    simp only [htype]
  rw [spelled, spelled, headerSpelled_congr hheader, hlines]

theorem spelled_spell (u : BlockUnion) : u.spelled (Prelude.spell style.lead) style = u.text style := by
  rw [text_eq, spelled, body]
  simp only [TypeExpr.spelled_spell]
  rfl

end BlockUnion

namespace Interface

def builtins (style : Style) (i : Interface) : List (Bool × String) :=
  headerBuiltins i.extendsSystem ++ TypeExpr.membersBuiltins style i.members

def spelled (names : Spelling) (style : Style) (i : Interface) : String :=
  "\n".intercalate
    ((comment? style i.description).toList ++ [headerSpelled names i.name i.extendsSystem] ++
      ((versionComment? style).map (margin ++ ·)).toList ++ [margin ++ "_version?: number;"] ++
      (if i.members.isEmpty then none
        else some (Text.indent margin (TypeExpr.membersSpelled names style i.members))).toList ++ ["\x7d"])

theorem spelled_congr {i : Interface} (h : ∀ ref ∈ i.builtins style, names ref = names' ref) :
    i.spelled names style = i.spelled names' style := by
  obtain ⟨hheader, hmembers⟩ := List.forall_mem_append.1 h
  rw [spelled, spelled, headerSpelled_congr hheader, TypeExpr.membersSpelled_congr hmembers]

theorem spelled_spell (i : Interface) : i.spelled (Prelude.spell style.lead) style = i.text style := by
  rw [text_eq, spelled, body?, TypeExpr.membersSpelled_spell]
  rfl

end Interface

namespace Declaration

/-- The builtin declarations that a declaration refers to, with those that its unions refer to. -/
def builtins (style : Style) (d : Declaration) : List (Bool × String) :=
  d.unions.flatMap (BlockUnion.builtins style) ++ d.main.builtins style

/-- The text of a declaration with the builtin ones under the given names. -/
def spelled (names : Spelling) (style : Style) (d : Declaration) : String :=
  joinParts (d.unions.map (BlockUnion.spelled names style) ++ [d.main.spelled names style])

theorem spelled_congr {d : Declaration} (h : ∀ ref ∈ d.builtins style, names ref = names' ref) :
    d.spelled names style = d.spelled names' style := by
  obtain ⟨hunions, hmain⟩ := List.forall_mem_append.1 h
  have hmap : d.unions.map (BlockUnion.spelled names style) = d.unions.map (BlockUnion.spelled names' style) :=
    List.map_congr_left fun u hu => BlockUnion.spelled_congr fun ref hr =>
      hunions ref (List.mem_flatMap.2 ⟨u, hu, hr⟩)
  rw [spelled, spelled, hmap, Interface.spelled_congr hmain]

theorem spelled_spell (d : Declaration) : d.spelled (Prelude.spell style.lead) style = d.text style := by
  rw [spelled, text, Interface.spelled_spell, List.map_congr_left fun u _ => BlockUnion.spelled_spell u]

end Declaration

namespace Prelude

/-- What a piece puts into a text, with a gap where the lead of names goes. -/
def glyphsOf : Piece → List (Option Char)
  | .text s => s.toList.map some
  | .hole name =>
    if name = "prefix" then [none]
    else (if name = "node" then TypeExpr.richTextNode else TypeExpr.fallbackText).toList.map some
  | .ifSet .. => []

def glyphs (template : Template) : List (Option Char) := template.flatMap glyphsOf

def isNameGlyph : Option Char → Bool
  | none => true
  | some c => c.isAlphanum || c = '_' || c = ':'

/-- The longest runs of characters of names, where `word` is the run so far, backwards. -/
def wordsFrom (word : List (Option Char)) : List (Option Char) → List (List (Option Char))
  | [] => if word.isEmpty then [] else [word.reverse]
  | c :: rest =>
    if isNameGlyph c then wordsFrom (c :: word) rest
    else if word.isEmpty then wordsFrom [] rest
    else word.reverse :: wordsFrom [] rest

def words (template : Template) : List (List (Option Char)) := wordsFrom [] (glyphs template)

def spellWord (word : List (Option Char)) : String := String.ofList (word.filterMap id)

/-- The builtin declaration that a word names, if any: a word after a gap names one that takes the lead. -/
def named? : List (Option Char) → Option (Bool × String)
  | none :: word => some (true, spellWord word)
  | word => if (false, spellWord word) ∈ allBases then some (false, spellWord word) else none

/-- The builtin declarations that a template refers to, be it to declare them. -/
def mentions (template : Template) : List (Bool × String) := (words template).filterMap named?

/-- The words that stand after one that begins a declaration. -/
def declaredAmong : List (List (Option Char)) → List (List (Option Char))
  | [] => []
  | [_] => []
  | word :: next :: rest =>
    let begins := spellWord word = "interface" || spellWord word = "type"
    (if begins then [next] else []) ++ declaredAmong (next :: rest)

def declares (template : Template) : List (Bool × String) := (declaredAmong (words template)).filterMap named?

def chosen (style : Style) (richTextUsed : Bool) : List Template :=
  [tuple] ++ (if style.referencedEntry then [referencedEntry] else []) ++
  [publishDetails, file, link, taxonomy] ++ (if style.taxonomyEntry then [taxonomyEntry] else []) ++
  (if richTextUsed then [richText] else []) ++ (if style.editableTags then [[.text livePreview]] else []) ++
  (if style.systemFields then [systemFields, modularBlocks] else [])

theorem select_eq (style : Style) (richTextUsed : Bool) : select style richTextUsed =
    (chosen style richTextUsed).map fun template => template.render (context style) := by
  unfold select chosen
  simp only [List.map_append, apply_ite (List.map _), List.map_cons, List.map_nil, render_text]

/-- A piece without conditions, and with no other names than those of the builtin declarations. -/
def Fillable : Piece → Prop
  | .text _ => True
  | .hole name => name = "prefix" ∨ name = "node" ∨ name = "fallback"
  | .ifSet .. => False

instance : DecidablePred Fillable
  | .text _ => inferInstanceAs (Decidable True)
  | .hole name => inferInstanceAs (Decidable (name = "prefix" ∨ name = "node" ∨ name = "fallback"))
  | .ifSet .. => inferInstanceAs (Decidable False)

def allTemplates : List Template :=
  chosen { systemFields := true, editableTags := true, referencedEntry := true, taxonomyEntry := true } true

theorem chosen_subset (style : Style) (richTextUsed : Bool) : chosen style richTextUsed ⊆ allTemplates := by
  have hite : ∀ (c : Bool) (l : List Template), (if c then l else []).Sublist l := by
    intro c l
    cases c <;> simp
  refine List.Sublist.subset ?_
  unfold chosen
  exact ((((((List.Sublist.refl _).append (hite _ _)).append (.refl _)).append
    (hite _ _)).append (hite _ _)).append (hite _ _)).append (hite _ _)

theorem fillable : ∀ template ∈ allTemplates, ∀ piece ∈ template, Fillable piece := by decide +kernel

theorem render_hole {name value : String} (h : Template.valueOf? (context style) name = some (.text value)) :
    (Piece.hole name).render (context style) = value := by
  rw [Piece.render, h]
  exact Json.display_text value

/-- The characters with the lead in the gaps. -/
def fill (lead : String) (cs : List (Option Char)) : List Char :=
  cs.flatMap fun c => c.elim lead.toList fun c => [c]

theorem Fillable.render {piece : Piece} (h : Fillable piece) (style : Style) :
    (piece.render (context style)).toList = fill style.lead (glyphsOf piece) := by
  have hfill : ∀ s : String, s.toList = fill style.lead (s.toList.map some) := by
    intro s
    rw [fill, List.flatMap_map]
    exact (List.flatMap_singleton' _).symm
  cases piece with
  | text s => exact hfill s
  | hole name =>
    rcases h with rfl | rfl | rfl
    · have hlead := valueOf?_prefix style
      rw [render_hole hlead]
      simp [glyphsOf, fill]
    · have hnode : Template.valueOf? (context style) "node" = some (.text TypeExpr.richTextNode) := rfl
      rw [render_hole hnode]
      exact hfill _
    · have hfallback : Template.valueOf? (context style) "fallback" = some (.text TypeExpr.fallbackText) := rfl
      rw [render_hole hfallback]
      exact hfill _
  | ifSet => exact h.elim

theorem render_glyphs (style : Style) {template : Template} (h : ∀ piece ∈ template, Fillable piece) :
    (template.render (context style)).toList = fill style.lead (glyphs template) := by
  unfold Template.render
  induction template with
  | nil => rfl
  | cons piece rest ih =>
    obtain ⟨hpiece, hrest⟩ := List.forall_mem_cons.1 h
    rw [Piece.renderAll, String.toList_append, hpiece.render style, ih hrest, glyphs, glyphs, List.flatMap_cons,
      fill, fill, fill, List.flatMap_append]

theorem toList_select (style : Style) (richTextUsed : Bool) :
    (select style richTextUsed).map String.toList =
      (chosen style richTextUsed).map fun template => fill style.lead (glyphs template) := by
  rw [select_eq, List.map_map]
  exact List.map_congr_left fun template ht =>
    render_glyphs style (fillable template (chosen_subset style richTextUsed ht))

/-- What a template declares, and all that it refers to. -/
def names? (template : Template) : List (Bool × String) × List (Bool × String) :=
  (declares template, mentions template)

theorem names?_templates :
    names? tuple = ([(false, "BuildTuple"), (false, "TuplePrefixes"), (false, "MaxTuple")],
        [(false, "BuildTuple"), (false, "BuildTuple"), (false, "TuplePrefixes"), (false, "TuplePrefixes"),
          (false, "MaxTuple"), (false, "TuplePrefixes"), (false, "BuildTuple")]) ∧
      names? referencedEntry = ([(true, "ReferencedEntry")], [(true, "ReferencedEntry")]) ∧
      names? publishDetails = ([(true, "PublishDetails")], [(true, "PublishDetails")]) ∧
      names? file = ([(true, "File")], [(true, "File"), (true, "PublishDetails")]) ∧
      names? link = ([(true, "Link")], [(true, "Link")]) ∧
      names? taxonomy = ([(true, "Taxonomy")], [(true, "Taxonomy")]) ∧
      names? taxonomyEntry = ([(true, "TaxonomyEntry")], [(true, "TaxonomyEntry"), (true, "Taxonomy")]) ∧
      names? richText = ([(false, "JSONRTENode")], [(false, "JSONRTENode"), (false, "JSONRTENode")]) ∧
      names? systemFields = ([(true, "SystemFields")], [(true, "SystemFields"), (true, "PublishDetails")]) ∧
      names? modularBlocks =
        ([(true, "ModularBlocksExtension")], [(true, "ModularBlocksExtension"), (true, "SystemFields")]) ∧
      names? [.text livePreview] = ([(false, "CSLPAttribute"), (false, "CSLPFieldMapping")],
        [(false, "CSLPAttribute"), (false, "CSLPFieldMapping"), (false, "CSLPAttribute")]) := by
  refine ⟨?_, ?_, ?_, ?_, ?_, ?_, ?_, ?_, ?_, ?_, ?_⟩
  rotate_right
  · unfold names? declares mentions words glyphs livePreview
    simp only [List.flatMap_cons, List.flatMap_nil, glyphsOf, String.toList_append]
    repeat rw [String.toList_ofList]
    decide +kernel
  all_goals
    simp only [names?, declares, mentions, words, glyphs, tuple, referencedEntry, publishDetails, file, link,
      taxonomy, taxonomyEntry, richText, systemFields, modularBlocks, interfaceOf, braced, named, plain,
      List.flatMap_cons, List.flatMap_nil, List.cons_append, List.nil_append, glyphsOf, String.toList_append]
    repeat rw [String.toList_ofList]
    decide +kernel

/-- The builtin declarations that the templates of a style declare. -/
def declared (style : Style) (richTextUsed : Bool) : List (Bool × String) :=
  (chosen style richTextUsed).flatMap declares

theorem declared_eq (style : Style) (richTextUsed : Bool) :
    declared style richTextUsed = bases style richTextUsed := by
  obtain ⟨htuple, hentry, hdetails, hfile, hlink, htaxonomy, hterm, hrich, hsystem, hblocks, hpreview⟩ :=
    names?_templates
  have hdeclares : ∀ {template read}, names? template = read → declares template = read.1 :=
    fun h => congrArg Prod.fst h
  simp only [declared, chosen, bases, List.flatMap_append, apply_ite (List.flatMap declares), List.flatMap_cons,
    List.flatMap_nil, List.append_nil, hdeclares htuple, hdeclares hentry, hdeclares hdetails, hdeclares hfile,
    hdeclares hlink, hdeclares htaxonomy, hdeclares hterm, hdeclares hrich, hdeclares hsystem, hdeclares hblocks,
    hdeclares hpreview, List.cons_append, List.nil_append]

theorem mentions_chosen (style : Style) (richTextUsed : Bool) {template : Template} {base : Bool × String}
    (ht : template ∈ chosen style richTextUsed) (hb : base ∈ mentions template) :
    base ∈ bases style richTextUsed := by
  obtain ⟨htuple, hentry, hdetails, hfile, hlink, htaxonomy, hterm, hrich, hsystem, hblocks, hpreview⟩ :=
    names?_templates
  have hwithin : ∀ {read}, names? template = read → (∀ base ∈ read.2, base ∈ bases style richTextUsed) →
      base ∈ bases style richTextUsed := by
    rintro _ rfl h
    exact h base hb
  simp only [chosen, List.mem_append, List.mem_ite_nil_right, List.mem_cons, List.not_mem_nil, or_false] at ht
  rcases ht with
    (((((rfl | ⟨hc, rfl⟩) | rfl | rfl | rfl | rfl) | ⟨hc, rfl⟩) | ⟨hc, rfl⟩) | ⟨hc, rfl⟩) | ⟨hc, rfl | rfl⟩
  · exact hwithin htuple (by simp [bases])
  · exact hwithin hentry (by simp [bases, hc])
  · exact hwithin hdetails (by simp [bases])
  · exact hwithin hfile (by simp [bases])
  · exact hwithin hlink (by simp [bases])
  · exact hwithin htaxonomy (by simp [bases])
  · exact hwithin hterm (by simp [bases, hc])
  · exact hwithin hrich (by simp [bases, hc])
  · exact hwithin hpreview (by simp [bases, hc])
  · exact hwithin hsystem (by simp [bases, hc])
  · exact hwithin hblocks (by simp [bases, hc])

/-- What is declared is declared once, under whatever lead. -/
theorem count_declared {style : Style} {richTextUsed : Bool} {base : Bool × String}
    (h : base ∈ bases style richTextUsed) :
    ((declared style richTextUsed).map (spell style.lead)).count (spell style.lead base) = 1 := by
  rw [declared_eq]
  exact List.count_eq_one_of_mem (names_nodup style richTextUsed) (List.mem_map_of_mem h)

end Prelude

end SchemaDecl

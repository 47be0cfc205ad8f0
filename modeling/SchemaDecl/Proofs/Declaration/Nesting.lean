import SchemaDecl.Proofs.Declaration.References
import SchemaDecl.Proofs.TypeExpr.Nesting

/-!
# Nesting in declarations

The texts of declarations are neat if what they take from a document is clean, and so are those of the
builtin declarations.
-/

namespace SchemaDecl

open Text (Neat Inner Reading isBlank)

variable {style : Style} {name : String}

/-- The uid and the type of a block bring no brackets and no line breaks. -/
def BlockClean (block : Json × TypeExpr) : Prop := (∃ s, block.1 = .text s ∧ Bare s) ∧ block.2.Clean

theorem bare_extendsText (hlead : Bare style.lead) (extended : Bool) : Bare (extendsText style extended) := by
  unfold extendsText
  split
  · exact Bare.append_iff.2 ⟨by decide, TypeExpr.bare_nameOf hlead _⟩
  · decide

theorem neat_braces (hlead : Bare style.lead) (hn : Bare name) (extended : Bool) {lines : List String}
    (hne : lines ≠ []) (h : ∀ line ∈ lines, Neat line.toList) :
    Neat ("\n".intercalate (header style name extended :: (lines ++ ["\x7d"]))).toList := by
  have hrest : Bare (name ++ extendsText style extended ++ " ") :=
    Bare.append_iff.2 ⟨Bare.append_iff.2 ⟨hn, bare_extendsText hlead _⟩, by decide⟩
  have hfront : Neat ("export interface ".toList ++ (name ++ extendsText style extended ++ " ").toList) :=
    (by decide : Neat "export interface ".toList).append (.of_bare hrest)
  have hblock := (Neat.block (c := '\x7b') rfl (Neat.lines hne h)).inner
  have hshape : ("\n".intercalate (header style name extended :: (lines ++ ["\x7d"]))).toList =
      "export interface ".toList ++ (name ++ extendsText style extended ++ " ").toList ++
        '\x7b' :: '\n' :: (("\n".intercalate lines).toList ++ ['\n', '\x7d']) := by
    have hlast : "\n".intercalate (lines ++ ["\x7d"]) = "\n".intercalate lines ++ "\n" ++ "\x7d" := by
      rw [String.intercalate_append_of_ne_nil hne (by simp), String.intercalate_singleton]
    have hopen : " \x7b".toList = [' ', '\x7b'] := rfl
    have hclose : "\x7d".toList = ['\x7d'] := rfl
    have hfeed : "\n".toList = ['\n'] := rfl
    have hspace : " ".toList = [' '] := rfl
    rw [String.intercalate_cons_of_ne_nil (by simp), hlast]
    unfold header
    simp only [String.toList_append, List.append_assoc, hopen, hclose, hfeed, hspace, List.cons_append, List.nil_append]
  rw [hshape]
  exact hfront.append hblock

theorem BlockUnion.neat_body {u : BlockUnion} (hlead : Bare style.lead) (h : ∀ block ∈ u.blocks, BlockClean block) :
    ∀ line ∈ u.body style, Neat line.toList := by
  refine List.forall_mem_map.2 fun ⟨uid, type⟩ hb => ?_
  obtain ⟨⟨s, rfl, hs⟩, htype⟩ := h _ hb
  have hfront : Bare (s ++ ": ") := Bare.append_iff.2 ⟨hs, by decide⟩
  have hneat : Neat (s ++ ": ").toList := .of_bare hfront (c := ':') (by simp) (by decide)
  have hline := (hneat.append (TypeExpr.inner_text hlead type htype)).append (by decide : Inner ";".toList)
  rwa [← String.toList_append, ← String.toList_append] at hline

theorem BlockUnion.neat {u : BlockUnion} (hlead : Bare style.lead) (hn : Bare u.name) (hne : u.blocks ≠ [])
    (h : ∀ block ∈ u.blocks, BlockClean block) : Neat (u.text style).toList := by
  have hlines : u.body style ≠ [] := by simpa [BlockUnion.body] using hne
  have hbody := (Neat.lines hlines (BlockUnion.neat_body hlead h)).indent TypeExpr.blank_margin
  rw [BlockUnion.text_eq]
  have hbraces := neat_braces hlead hn style.systemFields (List.cons_ne_nil _ []) (List.forall_mem_singleton.2 hbody)
  exact hbraces

theorem Interface.neat {i : Interface} (hlead : Bare style.lead) (hn : Bare i.name)
    (hd : Bare i.description.display) (h : TypeExpr.MembersClean i.members) : Neat (i.text style).toList := by
  have hversion : ∀ line ∈ ((versionComment? style).map (margin ++ ·)).toList, Neat line.toList := by
    unfold versionComment?
    split
    · exact List.forall_mem_singleton.2 (by decide +kernel)
    · exact fun _ hm => by cases hm
  have hline : ∀ line ∈ [margin ++ "_version?: number;"], Neat line.toList :=
    List.forall_mem_singleton.2 (by decide +kernel)
  have hbody : ∀ line ∈ (i.body? style).toList, Neat line.toList := by
    unfold Interface.body?
    split
    next => exact fun _ hm => by cases hm
    next hne =>
      refine List.forall_mem_singleton.2 (Neat.indent TypeExpr.blank_margin ?_)
      exact TypeExpr.neat_body (by simpa using hne) h (TypeExpr.neat_linesOf hlead _ h)
  have hlines := List.forall_mem_append.2 ⟨List.forall_mem_append.2 ⟨hversion, hline⟩, hbody⟩
  have hinterface := neat_braces hlead hn i.extendsSystem (by simp) hlines
  rw [Interface.text_eq]
  cases hc : comment? style i.description with
  | none => simpa using hinterface
  | some line =>
    have hcomment : Neat line.toList :=
      TypeExpr.neat_comment? hd line (by rw [hc]; exact List.mem_singleton_self line)
    have hjoin := hcomment.line hinterface
    simpa [String.intercalate_cons_cons, String.toList_append] using hjoin

namespace Prelude

/-- Reads a character or a gap; the gap for a lead is inside a line. -/
def readGlyph (r : Reading) : Option Char → Option Reading
  | some c => r.next c
  | none => if r.blank then none else some r

theorem read_fill {lead : String} {cs : List (Option Char)} {r r' : Reading} (hlead : Bare lead)
    (h : cs.foldlM readGlyph r = some r') : r.read (fill lead cs) = some r' := by
  induction cs generalizing r with
  | nil => exact h
  | cons glyph rest ih =>
    rw [List.foldlM_cons] at h
    obtain ⟨mid, hglyph, hrest⟩ := Option.bind_eq_some_iff.1 h
    have hread : r.read (glyph.elim lead.toList fun c => [c]) = some mid := by
      cases glyph with
      | some c =>
        rw [Option.elim_some, Reading.read_cons, show r.next c = some mid from hglyph]
        rfl
      | none =>
        rw [readGlyph] at hglyph
        split at hglyph
        next => cases hglyph
        next hblank =>
          cases hglyph
          obtain ⟨pending, blank⟩ := r
          rw [Bool.not_eq_true] at hblank
          rw [Option.elim_none, Reading.read_bare hlead, show blank = false from hblank, Bool.false_and]
    rw [fill, List.flatMap_cons, Reading.read_append_of_read hread]
    exact ih hrest

theorem read_templates : ∀ template ∈ allTemplates, (glyphs template).foldlM readGlyph ⟨[], true⟩ = some ⟨[], false⟩ := by
  simp only [allTemplates, chosen, if_true, List.cons_append, List.nil_append, List.forall_mem_cons]
  refine ⟨?_, ?_, ?_, ?_, ?_, ?_, ?_, ?_, ?_, ?_, ?_, by simp⟩
  on_goal 9 => unfold livePreview
  all_goals
    simp only [glyphs, tuple, referencedEntry, publishDetails, file, link,
      taxonomy, taxonomyEntry, richText, systemFields, modularBlocks, interfaceOf, braced, named, plain,
      List.flatMap_cons, List.flatMap_nil, List.cons_append, List.nil_append, glyphsOf, String.toList_append]
    repeat rw [String.toList_ofList]
    decide +kernel

theorem neat_select (hlead : Bare style.lead) (richTextUsed : Bool) :
    ∀ part ∈ select style richTextUsed, Neat part.toList := by
  rw [select_eq]
  refine List.forall_mem_map.2 fun template ht => ?_
  have hmem := chosen_subset style richTextUsed ht
  rw [render_glyphs style (fillable template hmem)]
  exact read_fill hlead (read_templates template hmem)

end Prelude

end SchemaDecl

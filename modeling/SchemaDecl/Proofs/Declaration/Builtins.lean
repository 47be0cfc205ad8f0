import Mathlib.Data.List.Nodup
import SchemaDecl.Declaration.Prelude
import SchemaDecl.Proofs.Declaration.Texts

/-!
# Names of builtin declarations

Some builtin declarations take the lead that all names share and others go by a fixed name. Whatever the
lead, no two of them have the same name, since no fixed name ends in the name of one that takes it.
-/

namespace SchemaDecl.Prelude

/-- The builtin declarations of a style: the name of each, and whether it takes the lead. -/
def bases (style : Style) (richTextUsed : Bool) : List (Bool × String) :=
  [(false, "BuildTuple"), (false, "TuplePrefixes"), (false, "MaxTuple")] ++
  (if style.referencedEntry then [(true, "ReferencedEntry")] else []) ++
  [(true, "PublishDetails"), (true, "File"), (true, "Link"), (true, "Taxonomy")] ++
  (if style.taxonomyEntry then [(true, "TaxonomyEntry")] else []) ++
  (if richTextUsed then [(false, "JSONRTENode")] else []) ++
  (if style.editableTags then [(false, "CSLPAttribute"), (false, "CSLPFieldMapping")] else []) ++
  (if style.systemFields then [(true, "SystemFields"), (true, "ModularBlocksExtension")] else [])

def spell (lead : String) (base : Bool × String) : String :=
  if base.1 then lead ++ base.2 else base.2

def names (style : Style) (richTextUsed : Bool) : List String :=
  (bases style richTextUsed).map (spell style.lead)

def allBases : List (Bool × String) :=
  bases { systemFields := true, editableTags := true, referencedEntry := true, taxonomyEntry := true } true

theorem ite_sublist (c : Bool) (l : List (Bool × String)) : (if c then l else []).Sublist l := by
  cases c <;> simp

theorem bases_sublist (style : Style) (richTextUsed : Bool) :
    (bases style richTextUsed).Sublist allBases := by
  unfold bases
  refine ((((((List.Sublist.refl _).append (ite_sublist _ _)).append (.refl _)).append
    (ite_sublist _ _)).append (ite_sublist _ _)).append (ite_sublist _ _)).append (ite_sublist _ _)

theorem allBases_nodup : allBases.Nodup := by decide

theorem allBases_suffix : ∀ base ∈ allBases, ∀ other ∈ allBases, base.1 = true → other.1 = false →
    ¬ base.2.toList <:+ other.2.toList := by decide

theorem spell_ne {lead : String} {base other : Bool × String} (hb : base ∈ allBases)
    (ho : other ∈ allBases) (hlead : base.1 = true) (hfixed : other.1 = false) :
    spell lead base ≠ spell lead other := by
  intro h
  rw [spell, spell, if_pos hlead, if_neg (by simp [hfixed])] at h
  refine allBases_suffix base hb other ho hlead hfixed ⟨lead.toList, ?_⟩
  rw [← h, String.toList_append]

theorem spell_inj {lead : String} {base other : Bool × String} (hb : base ∈ allBases)
    (ho : other ∈ allBases) (h : spell lead base = spell lead other) : base = other := by
  cases hbase : base.1 <;> cases hother : other.1
  · rw [spell, spell, if_neg (by simp [hbase]), if_neg (by simp [hother])] at h
    exact Prod.ext (hbase.trans hother.symm) h
  · exact absurd h.symm (spell_ne ho hb hother hbase)
  · exact absurd h (spell_ne hb ho hbase hother)
  · rw [spell, spell, if_pos hbase, if_pos hother] at h
    exact Prod.ext (hbase.trans hother.symm) ((String.append_right_inj lead).1 h)

theorem names_nodup (style : Style) (richTextUsed : Bool) : (names style richTextUsed).Nodup := by
  have hsub := bases_sublist style richTextUsed
  refine List.Nodup.map_on (fun base hb other ho => ?_) (allBases_nodup.sublist hsub)
  exact spell_inj (hsub.subset hb) (hsub.subset ho)

/-- Each of the names is introduced by one of the parts. -/
def Covers (lead : String) (bases : List (Bool × String)) (parts : List String) : Prop :=
  ∀ base ∈ bases, ∃ part ∈ parts, Introduces part (spell lead base)

variable {lead : String} {bases₁ bases₂ : List (Bool × String)} {parts₁ parts₂ : List String}

theorem Covers.append (h₁ : Covers lead bases₁ parts₁) (h₂ : Covers lead bases₂ parts₂) :
    Covers lead (bases₁ ++ bases₂) (parts₁ ++ parts₂) := by
  intro base hb
  rcases List.mem_append.1 hb with hb | hb
  · obtain ⟨part, hp, hi⟩ := h₁ base hb
    exact ⟨part, List.mem_append_left _ hp, hi⟩
  · obtain ⟨part, hp, hi⟩ := h₂ base hb
    exact ⟨part, List.mem_append_right _ hp, hi⟩

theorem Covers.ite (h : Covers lead bases₁ parts₁) (c : Bool) :
    Covers lead (if c then bases₁ else []) (if c then parts₁ else []) := by
  cases c with
  | false => exact fun base hb => by cases hb
  | true => exact h

theorem Covers.single {base : Bool × String} {part : String} (h : Introduces part (spell lead base)) :
    Covers lead [base] [part] := by
  intro b hb
  obtain rfl := List.mem_singleton.1 hb
  exact ⟨part, List.mem_singleton_self _, h⟩

theorem Covers.cons {base : Bool × String} {part : String} (h : Introduces part (spell lead base))
    (hrest : Covers lead bases₁ parts₁) : Covers lead (base :: bases₁) (part :: parts₁) :=
  (Covers.single h).append hrest

variable (style : Style)

theorem valueOf?_prefix : Template.valueOf? (context style) "prefix" = some (.text style.lead) := by
  simp [Template.valueOf?, Template.constant?, context, Table.get?]

theorem introduces_led {front : String} (hfront : front = "export interface " ∨ front = "export type ")
    (base rest : String) (more : Template) :
    Introduces (Template.render (.text front :: .hole "prefix" :: .text (base ++ rest) :: more)
      (context style)) (spell style.lead (true, base)) := by
  refine ⟨"export ", rest ++ Piece.renderAll (context style) more, hfront.imp ?_ ?_⟩
  all_goals
    rintro rfl
    simp only [Template.render, Piece.renderAll, Piece.render, valueOf?_prefix, Option.map_some,
      Option.getD_some, Json.display_text, spell, if_true, String.append_assoc]
    rfl

theorem introduces_interfaceOf (builtin : Builtin) (lines : List Template) :
    Introduces ((interfaceOf builtin lines).render (context style))
      (spell style.lead (true, builtin.baseName)) := by
  have h := introduces_led style (.inl rfl) builtin.baseName "" (.text " " :: braced lines)
  rw [String.append_empty] at h
  exact h

theorem render_text (text : String) : Template.render [.text text] (context style) = text :=
  String.append_empty

theorem covers_tuple :
    Covers style.lead [(false, "BuildTuple"), (false, "TuplePrefixes"), (false, "MaxTuple")]
      [tuple.render (context style)] := by
  have hbuild : Introduces (tuple.render (context style)) "BuildTuple" := by
    rw [tuple, render_text]
    refine ⟨"", "<T, N extends number, R extends T[] = []> =\n" ++
      "  R['length'] extends N ? R : BuildTuple<T, N, [...R, T]>;\n" ++
      "type TuplePrefixes<T extends any[]> =\n" ++
      "  T extends [any, ...infer Rest] ? T | TuplePrefixes<Rest extends any[] ? Rest : []> : [];\n" ++
      "type MaxTuple<T, N extends number> = TuplePrefixes<BuildTuple<T, N>>;", .inr ?_⟩
    decide +kernel
  have hprefixes : Introduces (tuple.render (context style)) "TuplePrefixes" := by
    rw [tuple, render_text]
    refine ⟨"type BuildTuple<T, N extends number, R extends T[] = []> =\n" ++
      "  R['length'] extends N ? R : BuildTuple<T, N, [...R, T]>;\n", "<T extends any[]> =\n" ++
      "  T extends [any, ...infer Rest] ? T | TuplePrefixes<Rest extends any[] ? Rest : []> : [];\n" ++
      "type MaxTuple<T, N extends number> = TuplePrefixes<BuildTuple<T, N>>;", .inr ?_⟩
    decide +kernel
  have hmax : Introduces (tuple.render (context style)) "MaxTuple" := by
    rw [tuple, render_text]
    refine ⟨"type BuildTuple<T, N extends number, R extends T[] = []> =\n" ++
      "  R['length'] extends N ? R : BuildTuple<T, N, [...R, T]>;\n" ++
      "type TuplePrefixes<T extends any[]> =\n" ++
      "  T extends [any, ...infer Rest] ? T | TuplePrefixes<Rest extends any[] ? Rest : []> : [];\n",
      "<T, N extends number> = TuplePrefixes<BuildTuple<T, N>>;", .inr ?_⟩
    decide +kernel
  intro base hb
  refine ⟨_, List.mem_singleton_self _, ?_⟩
  simp only [List.mem_cons, List.not_mem_nil, or_false] at hb
  rcases hb with rfl | rfl | rfl
  · exact hbuild
  · exact hprefixes
  · exact hmax

theorem introduces_richText :
    Introduces (richText.render (context style)) (spell style.lead (false, "JSONRTENode")) := by
  have hnode : Template.valueOf? (context style) "node" = some (.text "JSONRTENode") := by
    simp [Template.valueOf?, Template.constant?, context, Table.get?, TypeExpr.richTextNode]
  refine ⟨"export ", Piece.renderAll (context style) (richText.drop 2), .inl ?_⟩
  rw [show richText = .text "export interface " :: .hole "node" :: richText.drop 2 from rfl]
  simp only [Template.render, Piece.renderAll, Piece.render, hnode, Option.map_some, Option.getD_some,
    Json.display_text, ← String.append_assoc]
  rfl

theorem covers_livePreview :
    Covers style.lead [(false, "CSLPAttribute"), (false, "CSLPFieldMapping")] [livePreview] := by
  have hattribute : Introduces livePreview "CSLPAttribute" := by
    refine ⟨"export ", " \x7b\n  \"data-cslp\"?: string;\n  \"data-cslp-parent-field\"?: string;\n\x7d\n" ++
      "export type CSLPFieldMapping = CSLPAttribute | string;", .inl ?_⟩
    decide +kernel
  have hmapping : Introduces livePreview "CSLPFieldMapping" := by
    refine ⟨"export interface CSLPAttribute \x7b\n  \"data-cslp\"?: string;\n" ++
      "  \"data-cslp-parent-field\"?: string;\n\x7d\nexport ", " = CSLPAttribute | string;", .inr ?_⟩
    decide +kernel
  intro base hb
  refine ⟨_, List.mem_singleton_self _, ?_⟩
  simp only [List.mem_cons, List.not_mem_nil, or_false] at hb
  rcases hb with rfl | rfl
  · exact hattribute
  · exact hmapping

theorem names_introduced (richTextUsed : Bool) : ∀ name ∈ names style richTextUsed,
    ∃ part ∈ select style richTextUsed, Introduces part name := by
  have hbuiltins : Covers style.lead
      [(true, "PublishDetails"), (true, "File"), (true, "Link"), (true, "Taxonomy")]
      [publishDetails.render (context style), file.render (context style), link.render (context style),
        taxonomy.render (context style)] :=
    .cons (introduces_interfaceOf style .publishDetails _) <|
      .cons (introduces_interfaceOf style .file _) <|
      .cons (introduces_interfaceOf style .link _) <|
      .single (introduces_interfaceOf style .taxonomy _)
  have hsystem : Covers style.lead [(true, "SystemFields"), (true, "ModularBlocksExtension")]
      [systemFields.render (context style), modularBlocks.render (context style)] :=
    .cons (introduces_interfaceOf style .systemFields _) <|
      .single (introduces_led style (.inr rfl) "ModularBlocksExtension" "<T> = T & " _)
  have hentry : Covers style.lead [(true, "ReferencedEntry")] [referencedEntry.render (context style)] :=
    .single (introduces_interfaceOf style .referencedEntry _)
  have hterm : Covers style.lead [(true, "TaxonomyEntry")] [taxonomyEntry.render (context style)] :=
    .single (introduces_led style (.inr rfl) "TaxonomyEntry" "" _)
  have hall : Covers style.lead (bases style richTextUsed) (select style richTextUsed) :=
    ((((((covers_tuple style).append (hentry.ite _)).append hbuiltins).append (hterm.ite _)).append
      ((Covers.single (introduces_richText style)).ite _)).append ((covers_livePreview style).ite _)).append
      (hsystem.ite _)
  intro name hn
  obtain ⟨base, hb, rfl⟩ := List.mem_map.1 hn
  exact hall base hb

end SchemaDecl.Prelude

import SchemaDecl.Proofs.Declaration.Builtins

/-!
# Builtin declarations in types

Which builtin declarations a type refers to. Where the names of the builtin declarations are up to a
spelling, the text of a type depends on how those that it refers to are spelled, and on no others.
-/

namespace SchemaDecl

/-- The names of the builtin declarations, each of which is given by whether its name takes the lead of all
names, and by what follows the lead. -/
abbrev Spelling := Bool × String → String

namespace LivePreview

/-- The mappings of members where the type of a mapping has the name. -/
def mappingsTo (name : String) (uids : List Json) : String :=
  "$?: \x7b\n  " ++ ";\n  ".intercalate (uids.map fun uid => uid.render ++ "?: " ++ name) ++ ";\n\x7d;"

theorem mappingsTo_eq (uids : List Json) : mappingsTo "CSLPFieldMapping" uids = mappings uids := by
  unfold mappingsTo mappings
  congr 4
  funext uid
  rw [mapping, String.append_assoc]
  rfl

end LivePreview

namespace TypeExpr

def isMapped (style : Style) (members : List Member) : Bool := style.editableTags && !members.isEmpty

def namesEntry (style : Style) (targets : List String) : Bool := style.referencedEntry && !targets.isEmpty

mutual

/-- The builtin declarations that a type refers to. -/
def builtins (style : Style) : TypeExpr → List (Bool × String)
  | .link => [(true, "Link")]
  | .file => [(true, "File")]
  | .taxonomy => (true, "Taxonomy") :: if style.taxonomyEntry then [(true, "TaxonomyEntry")] else []
  | .references targets => if namesEntry style targets then [(true, "ReferencedEntry")] else []
  | .richText => [(false, "JSONRTENode")]
  | .object members =>
    (if isMapped style members then [(false, "CSLPFieldMapping")] else []) ++ builtinsIn style members
  | .array element => builtins style element
  | .atMost element _ => (false, "MaxTuple") :: builtins style element
  | .primitive _ | .folder | .declared _ | .choices _ _ | .extension | .fallback => []

def memberBuiltins (style : Style) : Member → List (Bool × String)
  | ⟨_, _, _, _, type⟩ => builtins style type

def builtinsIn (style : Style) : List Member → List (Bool × String)
  | [] => []
  | member :: rest => memberBuiltins style member ++ builtinsIn style rest

end

/-- The builtin declarations that a list of members refers to, with the mappings after them. -/
def membersBuiltins (style : Style) (members : List Member) : List (Bool × String) :=
  (if isMapped style members then [(false, "CSLPFieldMapping")] else []) ++ builtinsIn style members

def taxonomySpelled (names : Spelling) (style : Style) : String :=
  if style.taxonomyEntry then "(" ++ names (true, "Taxonomy") ++ " | " ++ names (true, "TaxonomyEntry") ++ ")"
  else names (true, "Taxonomy")

def referencesSpelled (names : Spelling) (style : Style) (targets : List String) : String :=
  if targets.isEmpty then fallbackText ++ "[]"
  else match if style.referencedEntry then targets ++ [names (true, "ReferencedEntry")] else targets with
    | [name] => name ++ "[]"
    | names => "(" ++ " | ".intercalate names ++ ")[]"

def richTextSpelled (names : Spelling) : String :=
  "\x7b\n  type: string;\n  uid: string;\n  _version: number;\n  attrs: " ++ fallbackText ++
    ";\n  children: " ++ names (false, "JSONRTENode") ++ "[];\n\x7d"

def bodySpelled (names : Spelling) (style : Style) (members : List Member) (lines : List String) : String :=
  "\n".intercalate (if isMapped style members
    then lines ++ [LivePreview.mappingsTo (names (false, "CSLPFieldMapping")) (uidsOf members)] else lines)

mutual

/-- The text of a type with the builtin declarations under the given names. -/
def spelled (names : Spelling) (style : Style) : TypeExpr → String
  | .primitive p => p.name
  | .link => names (true, "Link")
  | .file => names (true, "File")
  | .folder => "string | null"
  | .taxonomy => taxonomySpelled names style
  | .declared name => name
  | .choices numeric values => choicesText numeric values
  | .references targets => referencesSpelled names style targets
  | .extension => extensionText
  | .richText => richTextSpelled names
  | .fallback => fallbackText
  | .object members => objectText (bodySpelled names style members (linesSpelled names style members))
  | .array element => arrayText (spelled names style element)
  | .atMost element count =>
    names (false, "MaxTuple") ++ "<" ++ spelled names style element ++ ", " ++ count.display ++ ">"

def memberSpelled (names : Spelling) (style : Style) : Member → List String
  | ⟨uid, label, isOptional, isNullable, type⟩ =>
    (comment? style label).toList ++ [memberLine uid isOptional isNullable (spelled names style type)]

def linesSpelled (names : Spelling) (style : Style) : List Member → List String
  | [] => []
  | member :: rest => memberSpelled names style member ++ linesSpelled names style rest

end

def membersSpelled (names : Spelling) (style : Style) (members : List Member) : String :=
  bodySpelled names style members (linesSpelled names style members)

variable {names names' : Spelling} {style : Style}

theorem taxonomySpelled_congr (h : ∀ ref ∈ builtins style .taxonomy, names ref = names' ref) :
    taxonomySpelled names style = taxonomySpelled names' style := by
  rw [builtins, List.forall_mem_cons] at h
  unfold taxonomySpelled
  cases ht : style.taxonomyEntry with
  | false => exact h.1
  | true =>
    rw [ht] at h
    rw [h.1, h.2 _ (List.mem_singleton_self _)]

theorem referencesSpelled_congr {targets : List String}
    (h : ∀ ref ∈ builtins style (.references targets), names ref = names' ref) :
    referencesSpelled names style targets = referencesSpelled names' style targets := by
  rw [builtins] at h
  unfold referencesSpelled
  cases he : targets.isEmpty with
  | true => rfl
  | false =>
    cases hr : style.referencedEntry with
    | false => rfl
    | true =>
      have hentry : namesEntry style targets = true := by rw [namesEntry, he, hr]; rfl
      rw [if_pos hentry] at h
      rw [h _ (List.mem_singleton_self _)]

theorem richTextSpelled_congr (h : ∀ ref ∈ builtins style .richText, names ref = names' ref) :
    richTextSpelled names = richTextSpelled names' := by
  rw [builtins, List.forall_mem_singleton] at h
  unfold richTextSpelled
  rw [h]

theorem bodySpelled_congr {members : List Member} {lines : List String}
    (h : ∀ ref ∈ if isMapped style members then [(false, "CSLPFieldMapping")] else [], names ref = names' ref) :
    bodySpelled names style members lines = bodySpelled names' style members lines := by
  unfold bodySpelled
  split
  next hm =>
    rw [if_pos hm] at h
    rw [h _ (List.mem_singleton_self _)]
  next => rfl

mutual

theorem spelled_congr : ∀ type : TypeExpr, (∀ ref ∈ builtins style type, names ref = names' ref) →
    spelled names style type = spelled names' style type
  | .primitive _ | .folder | .declared _ | .choices _ _ | .extension | .fallback => fun _ => by
    rw [spelled, spelled]
  | .link | .file => fun h => by
    rw [builtins, List.forall_mem_singleton] at h
    rw [spelled, spelled, h]
  | .taxonomy => fun h => by rw [spelled, spelled, taxonomySpelled_congr h]
  | .references targets => fun h => by rw [spelled, spelled, referencesSpelled_congr h]
  | .richText => fun h => by rw [spelled, spelled, richTextSpelled_congr h]
  | .object members => fun h => by
    rw [builtins, List.forall_mem_append] at h
    rw [spelled, spelled, linesSpelled_congr members h.2, bodySpelled_congr h.1]
  | .array element => fun h => by
    rw [builtins] at h
    rw [spelled, spelled, spelled_congr element h]
  | .atMost element _ => fun h => by
    rw [builtins, List.forall_mem_cons] at h
    rw [spelled, spelled, spelled_congr element h.2, h.1]

theorem memberSpelled_congr : ∀ member : Member,
    (∀ ref ∈ memberBuiltins style member, names ref = names' ref) →
      memberSpelled names style member = memberSpelled names' style member
  | ⟨_, _, _, _, type⟩ => fun h => by
    rw [memberBuiltins] at h
    rw [memberSpelled, memberSpelled, spelled_congr type h]

theorem linesSpelled_congr : ∀ members : List Member,
    (∀ ref ∈ builtinsIn style members, names ref = names' ref) →
      linesSpelled names style members = linesSpelled names' style members
  | [] => fun _ => by rw [linesSpelled, linesSpelled]
  | member :: rest => fun h => by
    rw [builtinsIn, List.forall_mem_append] at h
    rw [linesSpelled, linesSpelled, memberSpelled_congr member h.1, linesSpelled_congr rest h.2]

end

theorem membersSpelled_congr {members : List Member}
    (h : ∀ ref ∈ membersBuiltins style members, names ref = names' ref) :
    membersSpelled names style members = membersSpelled names' style members := by
  rw [membersBuiltins, List.forall_mem_append] at h
  rw [membersSpelled, membersSpelled, linesSpelled_congr members h.2, bodySpelled_congr h.1]

theorem bodySpelled_spell (members : List Member) (lines : List String) :
    bodySpelled (Prelude.spell style.lead) style members lines = bodyText style (uidsOf members) lines := by
  have hempty : (uidsOf members).isEmpty = members.isEmpty := List.isEmpty_map
  rw [bodySpelled, bodyText, hempty, ← LivePreview.mappingsTo_eq]
  rfl

mutual

theorem spelled_spell : ∀ type : TypeExpr, spelled (Prelude.spell style.lead) style type = text style type
  | .primitive _ | .folder | .declared _ | .choices _ _ | .extension | .fallback => by rw [spelled, text]
  | .link | .file | .taxonomy | .references _ | .richText => by
    rw [spelled, text]
    rfl
  | .object members => by rw [spelled, text, linesSpelled_spell members, bodySpelled_spell]
  | .array element => by rw [spelled, text, spelled_spell element]
  | .atMost element count => by
    rw [spelled, text, spelled_spell element]
    rfl

theorem memberSpelled_spell : ∀ member : Member,
    memberSpelled (Prelude.spell style.lead) style member = memberLines style member
  | ⟨_, _, _, _, type⟩ => by rw [memberSpelled, memberLines, spelled_spell type]

theorem linesSpelled_spell : ∀ members : List Member,
    linesSpelled (Prelude.spell style.lead) style members = linesOf style members
  | [] => by rw [linesSpelled, linesOf]
  | member :: rest => by rw [linesSpelled, linesOf, memberSpelled_spell member, linesSpelled_spell rest]

end

theorem membersSpelled_spell (members : List Member) :
    membersSpelled (Prelude.spell style.lead) style members = membersText style members := by
  rw [membersSpelled, membersText, linesSpelled_spell, bodySpelled_spell]

end TypeExpr

end SchemaDecl

import SchemaDecl.Proofs.Declaration.References
import SchemaDecl.Proofs.Generation.RichText
import SchemaDecl.Proofs.Generation.Standards

/-!
# Builtin declarations that a run refers to

The builtin declarations are chosen by the options of the style and by what was noted of rich text. That
choice covers whatever is referred to: by the declarations of a run, by the unions that it met, also where
they were declared already, and by the builtin declarations themselves.
-/

namespace SchemaDecl.Generation

open TypeExpr (builtinsIn)

theorem mem_builtinsIn {style : Style} {members : List Member} {ref : Bool × String} :
    ref ∈ builtinsIn style members ↔ ∃ m ∈ members, ref ∈ m.type.builtins style := by
  induction members with
  | nil => simp [builtinsIn]
  | cons member rest ih =>
    obtain ⟨uid, label, isOptional, isNullable, type⟩ := member
    simp [builtinsIn, TypeExpr.memberBuiltins, ih]

/-- The builtin declarations that the type refers to are among those that are chosen. -/
def Covered (style : Style) (richTextUsed : Bool) (type : TypeExpr) : Prop :=
  ∀ ref ∈ type.builtins style, ref ∈ Prelude.bases style richTextUsed

variable {style : Style} {b : Bool} {type : TypeExpr} {members : List Member}

theorem Covered.noted (h : Covered style false type) : Covered style true type := by
  have hsub : Prelude.bases style false ⊆ Prelude.bases style true := by
    intro base hb
    simp only [Prelude.bases, List.mem_append] at hb ⊢
    tauto
  exact fun ref hr => hsub (h ref hr)

theorem members_covered (h : ∀ m ∈ members, Covered style b m.type) :
    ∀ ref ∈ TypeExpr.membersBuiltins style members, ref ∈ Prelude.bases style b := by
  refine List.forall_mem_append.2 ⟨fun ref hr => ?_, fun ref hr => ?_⟩
  · split at hr
    next hm =>
      obtain rfl := List.mem_singleton.1 hr
      have htags : style.editableTags = true := (Bool.and_eq_true_iff.1 hm).1
      simp [Prelude.bases, htags]
    next => cases hr
  · obtain ⟨m, hm, hr⟩ := mem_builtinsIn.1 hr
    exact h m hm ref hr

theorem Covered.object (h : ∀ m ∈ members, Covered style b m.type) : Covered style b (.object members) := by
  intro ref hr
  rw [TypeExpr.builtins] at hr
  exact members_covered h ref hr

theorem Covered.repeated (h : Covered style b type) (multiple : Bool) (count : Json) :
    Covered style b (type.repeated multiple count) := by
  unfold TypeExpr.repeated
  split
  · exact h
  split
  · intro ref hr
    rw [TypeExpr.builtins] at hr
    rcases List.mem_cons.1 hr with rfl | hr
    · simp [Prelude.bases]
    · exact h ref hr
  · intro ref hr
    rw [TypeExpr.builtins] at hr
    exact h ref hr

theorem Covered.flat {attrs : Attributes} (h : FlatType style attrs type) (hb : type = .richText → b = true) :
    Covered style b type := by
  intro ref hr
  cases h with
  | choices | primitive | folder | extension | fallback =>
    rw [TypeExpr.builtins] at hr
    cases hr
  | link | file =>
    rw [TypeExpr.builtins, List.mem_singleton] at hr
    simp [Prelude.bases, hr]
  | taxonomy =>
    rw [TypeExpr.builtins, List.mem_cons] at hr
    rcases hr with rfl | hr
    · simp [Prelude.bases]
    · cases ht : style.taxonomyEntry with
      | false => simp [ht] at hr
      | true =>
        simp only [ht, if_true, List.mem_singleton] at hr
        simp [Prelude.bases, ht, hr]
  | @references names =>
    rw [TypeExpr.builtins] at hr
    split at hr
    next hn =>
      have hentry : style.referencedEntry = true := (Bool.and_eq_true_iff.1 hn).1
      rw [List.mem_singleton] at hr
      simp [Prelude.bases, hentry, hr]
    next => cases hr
  | richText =>
    rw [TypeExpr.builtins, List.mem_singleton] at hr
    simp [Prelude.bases, hb rfl, hr]

/-- Types that refer to builtin declarations that are chosen, as a standard for a pass. -/
def coverage (input : Input) : Standard input where
  type := Covered input.style
  labels _ _ := True
  uid _ := True
  name _ := True
  description _ := True
  noted h := h.noted
  fallback ref hr := by
    rw [TypeExpr.builtins] at hr
    cases hr
  declared _ ref hr := by
    rw [TypeExpr.builtins] at hr
    cases hr
  object h := .object fun m hm => (h m hm).2
  repeated _ h := h.repeated _ _
  flat _ h hb := .flat h hb
  member _ := trivial
  block _ := trivial
  named _ := trivial
  placeholder _ := trivial
  extended _ _ := trivial
  described _ := trivial
  undescribed := trivial

variable {input : Input} {s t u : State} {steps : List Step}

theorem header_covered {extended : Bool} (h : extended = true → style.systemFields = true) :
    ∀ ref ∈ headerBuiltins extended, ref ∈ Prelude.bases style b := by
  intro ref hr
  cases extended with
  | false => cases hr
  | true =>
    obtain rfl := List.mem_singleton.1 hr
    simp [Prelude.bases, h rfl]

theorem union_covered {blocks : Blocks} (name : String)
    (h : ∀ entry ∈ blocks, (coverage input).BlockMet b entry) :
    ∀ ref ∈ BlockUnion.builtins input.style ⟨name, blocks⟩, ref ∈ Prelude.bases input.style b := by
  refine List.forall_mem_append.2 ⟨header_covered id, fun ref hr => ?_⟩
  obtain ⟨entry, he, hr⟩ := List.mem_flatMap.1 hr
  exact (h entry he).2 ref hr

theorem Standard.DeclarationMet.covered {d : Declaration} (h : (coverage input).DeclarationMet b d) :
    ∀ ref ∈ d.builtins input.style, ref ∈ Prelude.bases input.style b := by
  refine List.forall_mem_append.2 ⟨fun ref hr => ?_, ?_⟩
  · obtain ⟨u, hu, hr⟩ := List.mem_flatMap.1 hr
    exact union_covered u.name (h.unions u hu).blocks ref hr
  · exact List.forall_mem_append.2 ⟨header_covered h.extended, members_covered fun m hm => (h.members m hm).2⟩

/-- What a run refers to among the builtin declarations, in what it puts out or comes across. -/
def Output.Refers (input : Input) (o : Output) (steps : List Step) (richTextUsed : Bool)
    (ref : Bool × String) : Prop :=
  (∃ d ∈ o.globals ++ o.contentTypes, ref ∈ d.builtins input.style) ∨
    (∃ m ∈ meetings steps, ref ∈ m.union.builtins input.style) ∨
    ∃ template ∈ Prelude.chosen input.style richTextUsed, ref ∈ Prelude.mentions template

/-- The builtin declarations that a run puts out declare exactly once, under the lead of the style, each one
that is referred to by a declaration of the run, by a union that it met, or by a builtin declaration of the
run. The texts of those do not depend on the names of any other builtin declarations. The one for rich text is
there exactly if a json field of a content type or of a global field that was built is written out as rich
text, or a record allows rich text. -/
theorem run_declares_builtins {o : Output} (hs : start input = .ok s) (hr : runFrom input s = (.ok o, t)) :
    (∃ steps u, Passes input 0 input.records s steps (.ok o.contentTypes) u) ∧
      ∀ steps result u, Passes input 0 input.records s steps result u →
        o.prelude.map String.toList = (Prelude.chosen input.style t.richTextUsed).map
          (fun template => Prelude.fill input.style.lead (Prelude.glyphs template)) ∧
        (∀ ref, o.Refers input steps t.richTextUsed ref →
          ((Prelude.declared input.style t.richTextUsed).map (Prelude.spell input.style.lead)).count
            (Prelude.spell input.style.lead ref) = 1) ∧
        (∀ names : Spelling, (∀ ref ∈ Prelude.declared input.style t.richTextUsed,
            names ref = Prelude.spell input.style.lead ref) →
          (∀ d ∈ o.globals ++ o.contentTypes, d.spelled names input.style = d.text input.style) ∧
          ∀ m ∈ meetings steps, m.union.spelled names input.style = m.union.text input.style) ∧
        ((false, TypeExpr.richTextNode) ∈ Prelude.declared input.style t.richTextUsed ↔
          RecordsShow input.records ∨ BuildsShow steps ∨
            ∃ r ∈ input.records, fieldsRichText r.fields = .ok true) := by
  obtain ⟨steps₀, u₀, hp₀, -, rfl, ho⟩ := runFrom_ok hr
  refine ⟨⟨steps₀, u₀, hp₀⟩, fun steps result u hp => ?_⟩
  obtain ⟨rfl, rfl⟩ := hp.unique hp₀
  have hrich : u.summarize.richTextUsed = u.richTextUsed := rfl
  obtain ⟨hds, hsteps⟩ := output_met (coverage input) hs hp
  have hdeclarations : ∀ d ∈ o.globals ++ o.contentTypes, ∀ ref ∈ d.builtins input.style,
      ref ∈ Prelude.bases input.style u.richTextUsed := by
    rw [ho]
    exact fun d hd => (hds d hd).covered
  have hunions : ∀ m ∈ meetings steps, ∀ ref ∈ m.union.builtins input.style,
      ref ∈ Prelude.bases input.style u.richTextUsed := fun m hm => union_covered m.name (hsteps m hm)
  have hprelude : o.prelude = Prelude.select input.style u.richTextUsed := by
    rw [ho]
    rfl
  rw [hrich]
  refine ⟨?_, ?_, fun names hnames => ⟨fun d hd => ?_, fun m hm => ?_⟩, ?_⟩
  · rw [hprelude]
    exact Prelude.toList_select _ _
  · rintro ref (⟨d, hd, href⟩ | ⟨m, hm, href⟩ | ⟨template, ht, href⟩)
    · exact Prelude.count_declared (hdeclarations d hd ref href)
    · exact Prelude.count_declared (hunions m hm ref href)
    · exact Prelude.count_declared (Prelude.mentions_chosen _ _ ht href)
  · rw [Prelude.declared_eq] at hnames
    rw [← Declaration.spelled_spell]
    exact Declaration.spelled_congr fun ref href => hnames ref (hdeclarations d hd ref href)
  · rw [Prelude.declared_eq] at hnames
    rw [← BlockUnion.spelled_spell]
    exact BlockUnion.spelled_congr fun ref href => hnames ref (hunions m hm ref href)
  · rw [← run_notices hs hp, Prelude.declared_eq]
    cases u.richTextUsed <;> simp [Prelude.bases, TypeExpr.richTextNode]

/-- A content type with rich text in a global field that has its fields inline, where the look over the
records does not go. -/
def inlineRichText : Input :=
  let body : Field := ⟨{ uid := .text "body", kind := .json, tag := "json" }, none, []⟩
  let seo : Field := ⟨{ uid := .text "seo", kind := .globalField, tag := "global_field" }, some [body], []⟩
  ⟨{ systemFields := true }, [⟨.text "page", .null, .null, some [seo], false⟩]⟩

theorem run_declares_inlineRichText :
    start inlineRichText = .ok {} ∧
      ∃ o t steps, runFrom inlineRichText {} = (.ok o, t) ∧ BuildsShow steps ∧
        ∀ ref, o.Refers inlineRichText steps t.richTextUsed ref →
          ((Prelude.declared inlineRichText.style t.richTextUsed).map (Prelude.spell "")).count
            (Prelude.spell "" ref) = 1 := by
  have hstart : start inlineRichText = .ok {} := by rfl
  have hok : (runFrom inlineRichText {}).1.isOk = true := by decide +kernel
  have hrich : (runFrom inlineRichText {}).2.richTextUsed = true := by decide +kernel
  have hallows : ¬ ∃ r ∈ inlineRichText.records, fieldsRichText r.fields = .ok true := by
    simp [inlineRichText, Record.fields, fieldsRichText, fieldRichText, orFind]
  have hshows : ¬ RecordsShow inlineRichText.records := by
    simp [RecordsShow, inlineRichText, Record.fields, FieldsShow, FieldShows]
  rcases hr : runFrom inlineRichText {} with ⟨e | o, t⟩ <;> rw [hr] at hok hrich
  · cases hok
  · obtain ⟨⟨steps, u, hp⟩, hall⟩ := run_declares_builtins hstart hr
    obtain ⟨-, hcounts, -, hnode⟩ := hall steps _ u hp
    refine ⟨hstart, o, t, steps, rfl, ?_, hcounts⟩
    have hmem : (false, TypeExpr.richTextNode) ∈ Prelude.declared inlineRichText.style t.richTextUsed := by
      rw [hrich, Prelude.declared_eq]
      decide
    rcases hnode.1 hmem with h | h | h
    · exact absurd h hshows
    · exact h
    · exact absurd h hallows

end SchemaDecl.Generation

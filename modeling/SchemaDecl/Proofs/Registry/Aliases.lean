import Mathlib.Data.List.Induction
import SchemaDecl.Proofs.Registry.Histories

/-!
# Aliases and languages of one name

An alias may not be the name of a registered language, but a language may be registered under a name that is an
alias by then. Where nothing is replaced, that is the only way to an alias that does not stand for its language
any more.
-/

namespace SchemaDecl.Registry

variable {r : Registry} {name target language : String} {call : Call} {calls : List Call}

/-- The aliases that are listed for a registered language are resolved to it. -/
def AliasesResolve (r : Registry) : Prop :=
  ∀ language, Table.has (Text.lower language) r.generators = true →
    ∀ name ∈ r.aliasesOf language, r.resolve name = .ok (Text.lower language)

/-- No alias is the name of a language. -/
def Apart (r : Registry) : Prop := ∀ name ∈ Table.names r.aliases, Table.has name r.generators = false

/-- The call registers a language under a name that is an alias. -/
def Call.TakesAlias (call : Call) (r : Registry) : Prop :=
  ∃ language, call.language? = some language ∧ language ∈ Table.names r.aliases

theorem mem_aliasesOf : name ∈ r.aliasesOf language ↔ (name, Text.lower language) ∈ r.aliases := by
  simp [aliasesOf]

theorem Sound.resolve_alias (h : r.Sound) (hm : (name, target) ∈ r.aliases) :
    r.resolve name = .ok (if Table.has name r.generators then name else target) := by
  have hsmall : Text.lower name = name := h.small_alias name (List.mem_map_of_mem hm)
  rw [resolve, hsmall, (Table.get?_eq_some_iff h.distinct).2 hm]
  split <;> rfl

theorem Sound.aliasesResolve_iff (h : r.Sound) : r.AliasesResolve ↔ r.Apart := by
  constructor
  · intro hr name hn
    obtain ⟨⟨name, target⟩, hm, rfl⟩ := List.mem_map.1 hn
    have htarget := h.registered hm
    have hsmall : Text.lower target = target :=
      h.small_language target ((Table.has_iff_mem_names _ _).1 htarget)
    have hfound := hr target (by rwa [hsmall]) name (mem_aliasesOf.2 (by rwa [hsmall]))
    rw [h.resolve_alias hm, hsmall] at hfound
    rw [Bool.eq_false_iff]
    intro hlanguage
    rw [hlanguage, if_pos rfl] at hfound
    exact h.apart hm (Except.ok.inj hfound)
  · intro ha language _ name hn
    have hm := mem_aliasesOf.1 hn
    rw [h.resolve_alias hm, ha name (List.mem_map_of_mem hm), if_neg Bool.false_ne_true]

theorem Apart.unregister (h : r.Apart) (language : String) : (r.unregister language).Apart := by
  intro name hn
  exact Table.has_erase (h name ((Table.names_filter_sublist _ _).subset hn)) (Text.lower language)

theorem Apart.entered (h : r.Apart) (hn : name ∉ Table.names r.aliases) (g : Generator) :
    (r.entered name g).Apart := by
  intro other hother
  have hne : name ≠ other := fun heq => hn (heq ▸ hother)
  rw [Registry.entered, Table.has_put_of_ne hne]
  exact h other hother

theorem Apart.withAlias {key spelling : String} (h : r.Apart) (hc : ¬ r.Conflicts key spelling) :
    (r.withAlias key spelling).Apart := by
  rw [Registry.withAlias]
  split
  next => exact h
  next hne =>
    intro other hother
    rcases Table.mem_names_put.1 hother with rfl | hother
    · exact Bool.eq_false_iff.2 fun hl => hc ⟨hne, .inl hl⟩
    · exact h other hother

theorem mem_names_addAliases {key : String} {replace : Bool} {spellings : List String}
    (h : name ∈ Table.names r.aliases) : name ∈ Table.names (addAliases key replace r spellings).2.aliases := by
  refine addAliases_induction (P := fun s => name ∈ Table.names s.aliases) h fun hs hne _ => ?_
  rw [withAlias, if_neg hne]
  exact Table.mem_names_put.2 (.inr hs)

theorem Apart.after_iff (h : r.Apart) (hkeep : call.replaces = false) :
    (r.after call).Apart ↔ ¬ call.TakesAlias r := by
  cases call with
  | unregister language => exact iff_of_true (h.unregister language) (by rintro ⟨_, ⟨⟩, _⟩)
  | register language generator? aliases replace =>
    cases hkeep
    rw [after]
    rcases register_cases r language generator? aliases false with
      ⟨rfl, hend⟩ | ⟨hknown, hend⟩ | ⟨g, rfl, -, hadded⟩
    · rw [hend]
      exact iff_of_true h (by rintro ⟨_, ⟨⟩, _⟩)
    · rw [hend]
      refine iff_of_true h ?_
      rintro ⟨taken, htaken, hm⟩
      cases generator? with
      | none => cases htaken
      | some g =>
        cases htaken
        rw [h _ hm] at hknown
        cases hknown
    · rw [hadded]
      constructor
      · rintro ha ⟨_, ⟨⟩, hm⟩
        have hfree := ha _ (mem_names_addAliases hm)
        rw [generators_addAliases, has_entered] at hfree
        cases hfree
      · intro hfree
        have hn : Text.lower language ∉ Table.names r.aliases := fun hm => hfree ⟨_, rfl, hm⟩
        exact addAliases_induction (h.entered hn g) fun hs _ hc => hs.withAlias (hc rfl)

/-- Over a history in which nothing is replaced, the aliases and the languages are apart at every moment exactly
if no call registers a language under the name of an alias. -/
theorem Apart.history_iff (h : r.Apart) (hkeep : ∀ call ∈ calls, call.replaces = false) :
    (∀ before, before <+: calls → (r.afterAll before).Apart) ↔
      ∀ before call, before ++ [call] <+: calls → ¬ call.TakesAlias (r.afterAll before) := by
  constructor
  · intro ha before call hp
    have hprefix : before <+: calls := (List.prefix_append before [call]).trans hp
    have hcall : call ∈ calls := hp.subset (List.mem_append_right before List.mem_cons_self)
    have hnext := ha (before ++ [call]) hp
    rw [afterAll, List.foldl_append] at hnext
    exact ((ha before hprefix).after_iff (hkeep call hcall)).1 hnext
  · intro hfree before
    induction before using List.reverseRecOn with
    | nil => exact fun _ => h
    | append_singleton before call ih =>
      intro hp
      have hprefix : before <+: calls := (List.prefix_append before [call]).trans hp
      have hcall : call ∈ calls := hp.subset (List.mem_append_right before List.mem_cons_self)
      rw [afterAll, List.foldl_append]
      exact ((ih hprefix).after_iff (hkeep call hcall)).2 (hfree before call hp)

/-- Over a history in which nothing is replaced, the aliases listed for a registered language are resolved to it
at every moment exactly if no call registers a language under the name of an alias. At any moment an alias is
resolved to its language, unless a language of its name is registered, to which it is resolved then. -/
theorem aliasesResolve_history_iff (hkeep : ∀ call ∈ calls, call.replaces = false) :
    ((∀ before, before <+: calls → (afterAll {} before).AliasesResolve) ↔
        ∀ before call, before ++ [call] <+: calls → ¬ call.TakesAlias (afterAll {} before)) ∧
      ∀ language, ∀ name ∈ (afterAll {} calls).aliasesOf language,
        (afterAll {} calls).resolve name =
          .ok (if Table.has name (afterAll {} calls).generators then name else Text.lower language) := by
  have hsound : ∀ calls, (afterAll {} calls).Sound := sound_empty.afterAll
  have hempty : Apart {} := by rintro _ ⟨⟩
  refine ⟨?_, fun language name hn => (hsound calls).resolve_alias (mem_aliasesOf.1 hn)⟩
  rw [← hempty.history_iff hkeep]
  exact forall₂_congr fun before _ => (hsound before).aliasesResolve_iff

/-- A language is registered under the name of an alias of another one. -/
def takenAlias : List Call :=
  [.register "typescript" (some .typescript) ["ts"] false, .register "ts" (some .typescript) [] false]

theorem aliasesResolve_history_iff_takenAlias :
    (∀ call ∈ takenAlias, call.replaces = false) ∧
      (¬ ∀ before, before <+: takenAlias → (afterAll {} before).AliasesResolve) ∧
      (afterAll {} takenAlias).resolve "ts" = .ok "ts" := by
  have hkeep : ∀ call ∈ takenAlias, call.replaces = false := by decide
  obtain ⟨hiff, hresolve⟩ := aliasesResolve_history_iff hkeep
  refine ⟨hkeep, fun hall => ?_, hresolve "typescript" "ts" (mem_aliasesOf.2 (by decide +kernel))⟩
  exact hiff.1 hall [_] _ (List.prefix_refl takenAlias) ⟨"ts", by decide +kernel, by decide +kernel⟩

/-- The alias is listed for the one language and stands for the other. -/
theorem takenAlias_not_resolved :
    (∀ call ∈ takenAlias, call.replaces = false) ∧
      Table.has "typescript" (afterAll {} takenAlias).generators = true ∧
      "ts" ∈ (afterAll {} takenAlias).aliasesOf "typescript" ∧
      (afterAll {} takenAlias).resolve "ts" = .ok "ts" :=
  ⟨by decide, by decide +kernel, mem_aliasesOf.2 (by decide +kernel), by decide +kernel⟩

end SchemaDecl.Registry

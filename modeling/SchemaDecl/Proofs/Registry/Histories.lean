import SchemaDecl.Proofs.Registry.Registration
import SchemaDecl.Proofs.Text.Lowercase

/-!
# Histories of a registry

A registry is filled and emptied by calls, some of which are refused halfway. After any history every alias
stands for a registered language, so that a name is supported exactly if a generator is found for it, and a
language that is taken out is found under no name until it is registered again.
-/

namespace SchemaDecl.Registry

inductive Call
  | register (language : String) (generator? : Option Generator) (aliases : List String) (replace : Bool)
  | unregister (language : String)
  deriving DecidableEq, Repr

/-- The language that the call registers, if it is not refused at once. -/
def Call.language? : Call → Option String
  | .register language (some _) _ _ => some (Text.lower language)
  | _ => none

def Call.replaces : Call → Bool
  | .register _ _ _ replace => replace
  | .unregister _ => false

/-- The registry after a call, whether or not the call is refused. -/
def after (r : Registry) : Call → Registry
  | .register language generator? aliases replace => (r.register language generator? aliases replace).2
  | .unregister language => r.unregister language

def afterAll (r : Registry) (calls : List Call) : Registry := calls.foldl after r

variable {r : Registry} {key : String} {call : Call} {calls : List Call}

/-- What calls keep of a registry: aliases are in small letters and distinct, and each stands for another
name, that of a registered language. -/
structure Sound (r : Registry) : Prop where
  registered : ∀ {name target}, (name, target) ∈ r.aliases → Table.has target r.generators = true
  apart : ∀ {name target}, (name, target) ∈ r.aliases → name ≠ target
  distinct : (Table.names r.aliases).Nodup
  small_alias : ∀ name ∈ Table.names r.aliases, Text.lower name = name
  small_language : ∀ name ∈ Table.names r.generators, Text.lower name = name

theorem sound_empty : Sound {} where
  registered := by rintro _ _ ⟨⟩
  apart := by rintro _ _ ⟨⟩
  distinct := .nil
  small_alias := by rintro _ ⟨⟩
  small_language := by rintro _ ⟨⟩

theorem Sound.entered (h : r.Sound) (language : String) (g : Generator) :
    (r.entered (Text.lower language) g).Sound where
  registered hm := by
    exact Table.has_put (h.registered hm) _ _
  apart := h.apart
  distinct := h.distinct
  small_alias := h.small_alias
  small_language name hm := by
    rcases Table.mem_names_put.1 hm with rfl | hm
    · exact Text.lower_lower language
    · exact h.small_language name hm

theorem Sound.withAlias (h : r.Sound) (hkey : Table.has key r.generators = true) (spelling : String) :
    (r.withAlias key spelling).Sound := by
  rw [Registry.withAlias]
  split
  next => exact h
  next hne =>
    constructor
    case registered =>
      intro name target hm
      rcases Table.mem_put hm with ⟨-, rfl⟩ | hm
      · exact hkey
      · exact h.registered hm
    case apart =>
      intro name target hm
      rcases Table.mem_put hm with ⟨rfl, rfl⟩ | hm
      · exact hne
      · exact h.apart hm
    case distinct => exact Table.nodup_put h.distinct _ _
    case small_alias =>
      intro name hm
      rcases Table.mem_names_put.1 hm with rfl | hm
      · exact Text.lower_lower spelling
      · exact h.small_alias name hm
    case small_language => exact h.small_language

theorem Sound.unregister (h : r.Sound) (language : String) : (r.unregister language).Sound where
  registered {name target} hm := by
    obtain ⟨hm, hne⟩ := List.mem_filter.1 hm
    have hne : target ≠ Text.lower language := by simpa using hne
    rw [Registry.unregister, Table.has_erase_of_ne (Ne.symm hne)]
    exact h.registered hm
  apart hm := h.apart (List.mem_filter.1 hm).1
  distinct := (Table.names_filter_sublist _ _).nodup h.distinct
  small_alias name hm := h.small_alias name ((Table.names_filter_sublist _ _).subset hm)
  small_language name hm := h.small_language name ((Table.names_filter_sublist _ _).subset hm)

theorem generators_addAliases {spellings : List String} {replace : Bool} :
    (addAliases key replace r spellings).2.generators = r.generators :=
  addAliases_induction (P := fun s => s.generators = r.generators) rfl
    fun h _ _ => generators_withAlias.trans h

theorem Sound.after (h : r.Sound) (call : Call) : (r.after call).Sound := by
  cases call with
  | unregister language => exact h.unregister language
  | register language generator? aliases replace =>
    rw [Registry.after]
    rcases register_cases r language generator? aliases replace with
      ⟨-, hend⟩ | ⟨-, hend⟩ | ⟨g, -, -, hadded⟩
    · rwa [hend]
    · rwa [hend]
    · rw [hadded]
      refine (addAliases_induction
        (P := fun s => s.Sound ∧ Table.has (Text.lower language) s.generators = true)
        ⟨h.entered language g, has_entered g⟩ fun hs _ _ => ?_).1
      exact ⟨hs.1.withAlias hs.2 _, by rw [generators_withAlias]; exact hs.2⟩

theorem Sound.afterAll (h : r.Sound) (calls : List Call) : (r.afterAll calls).Sound := by
  induction calls generalizing r with
  | nil => exact h
  | cons call rest ih => exact ih (h.after call)

theorem supports_iff (name : String) : r.supports name = true ↔ ∃ language, r.resolve name = .ok language := by
  rw [supports, resolve]
  split
  next hlanguage => exact iff_of_true (by rw [hlanguage]; rfl) ⟨_, rfl⟩
  next hlanguage =>
    rw [Bool.not_eq_true] at hlanguage
    rw [hlanguage, Bool.false_or, Table.has]
    cases Table.get? (Text.lower name) r.aliases with
    | some target => exact iff_of_true rfl ⟨target, rfl⟩
    | none => exact iff_of_false Bool.false_ne_true (by rintro ⟨_, ⟨⟩⟩)

theorem Sound.has_of_resolve {name language : String} (h : r.Sound) (hr : r.resolve name = .ok language) :
    Table.has language r.generators = true := by
  rw [resolve] at hr
  split at hr
  next hlanguage =>
    cases hr
    exact hlanguage
  next =>
    split at hr
    next target hget =>
      cases hr
      exact h.registered (Table.mem_of_get? hget)
    next => cases hr

theorem generator_unresolved {name : String} {fault : Fault} (h : r.resolve name = .error fault) :
    r.generator name = .error fault := by
  rw [generator, h]
  rfl

theorem generator_resolved {name language : String} {g : Generator} (h : r.resolve name = .ok language)
    (hg : Table.get? language r.generators = some g) : r.generator name = .ok g := by
  rw [generator, h]
  simp only [bind, Except.bind, hg]
  rfl

theorem Sound.generator_iff (h : r.Sound) (name : String) :
    (∃ g, r.generator name = .ok g) ↔ ∃ language, r.resolve name = .ok language := by
  cases hr : r.resolve name with
  | error fault =>
    rw [generator_unresolved hr]
    exact iff_of_false (by rintro ⟨_, ⟨⟩⟩) (by rintro ⟨_, ⟨⟩⟩)
  | ok language =>
    obtain ⟨g, hg⟩ := Option.isSome_iff_exists.1 (h.has_of_resolve hr)
    exact iff_of_true ⟨g, generator_resolved hr hg⟩ ⟨language, rfl⟩

theorem has_unregister (r : Registry) (language : String) :
    Table.has (Text.lower language) (r.unregister language).generators = false :=
  Table.has_erase_self

theorem not_has_after (h : Table.has key r.generators = false) (hcall : call.language? ≠ some key) :
    Table.has key (r.after call).generators = false := by
  cases call with
  | unregister language => exact Table.has_erase h (Text.lower language)
  | register language generator? aliases replace =>
    rw [after]
    rcases register_cases r language generator? aliases replace with
      ⟨-, hend⟩ | ⟨-, hend⟩ | ⟨g, rfl, -, hadded⟩
    · rwa [hend]
    · rwa [hend]
    · have hne : Text.lower language ≠ key := fun heq => hcall (congrArg some heq)
      rwa [hadded, generators_addAliases, entered, Table.has_put_of_ne hne]

theorem not_has_afterAll (h : Table.has key r.generators = false)
    (hcalls : ∀ call ∈ calls, call.language? ≠ some key) :
    Table.has key (r.afterAll calls).generators = false := by
  induction calls generalizing r with
  | nil => exact h
  | cons call rest ih =>
    obtain ⟨hcall, hrest⟩ := List.forall_mem_cons.1 hcalls
    exact ih (not_has_after h hcall) hrest

/-- After any history of calls every alias stands for a registered language. A name is supported exactly if it
is resolved, and exactly if a generator is found for it. A language that is taken out is what no name is
resolved to, until a call registers it again. -/
theorem afterAll_resolves (calls : List Call) :
    (∀ name target, (name, target) ∈ (afterAll {} calls).aliases →
        Table.has target (afterAll {} calls).generators = true) ∧
      (∀ name,
        ((afterAll {} calls).supports name = true ↔ ∃ language, (afterAll {} calls).resolve name = .ok language) ∧
        ((∃ language, (afterAll {} calls).resolve name = .ok language) ↔
          ∃ g, (afterAll {} calls).generator name = .ok g)) ∧
      ∀ language later, (∀ call ∈ later, call.language? ≠ some (Text.lower language)) →
        ∀ name, (((afterAll {} calls).unregister language).afterAll later).resolve name ≠
          .ok (Text.lower language) := by
  have hsound : (afterAll {} calls).Sound := sound_empty.afterAll calls
  refine ⟨fun _ _ hm => hsound.registered hm,
    fun name => ⟨supports_iff name, (hsound.generator_iff name).symm⟩, fun language later hlater name hname => ?_⟩
  have hfound := ((hsound.unregister language).afterAll later).has_of_resolve hname
  rw [not_has_afterAll (has_unregister _ language) hlater] at hfound
  cases hfound

end SchemaDecl.Registry

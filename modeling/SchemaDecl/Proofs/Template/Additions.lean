import Mathlib.Data.List.Induction
import SchemaDecl.Proofs.Json.Indented
import SchemaDecl.Template.Simple

/-!
# Templates that are added

Whatever the library makes of sources, a template that is added goes over any other with its name. An engine over added
templates keeps all others, and renders them as before where they do not ask for the one that is added. An engine over a
folder gives up the folder when the first template is added, and with it every template that stands in the folder under
another name; from then on it keeps what it has.
-/

namespace SchemaDecl.Template

namespace Rendering

variable {sources sources' : Sources}

theorem outcome_congr (rendering : Rendering) (h : ∀ name ∈ rendering.asked sources, sources' name = sources name) :
    rendering.outcome sources' = rendering.outcome sources := by
  induction rendering with
  | done outcome => rfl
  | ask name next ih =>
    obtain ⟨hname, hnext⟩ := List.forall_mem_cons.1 h
    rw [outcome, outcome, hname]
    exact ih (sources name) hnext

end Rendering

/-- A table has a source under each of its names, and none under any other. -/
def Library.ReadsTables {Context : Type} (library : Library Context) : Prop :=
  ∀ (table : Table String) (name : String), library.inTable table name =
    match Table.get? name table with
    | some source => .ok source
    | none => .error (.absent name)

namespace Engine

variable {Context : Type} {library : Library Context} {engine : Engine} {name other text : String}
  {added : List (String × String)}

def isFolder : Engine → Bool
  | .added _ => false
  | .folder _ _ => true

def addAll (engine : Engine) (added : List (String × String)) : Engine :=
  added.foldl (fun engine (name, text) => engine.add name text) engine

def lastAdded? (name : String) (added : List (String × String)) : Option String :=
  (added.reverse.find? fun entry => entry.1 = name).map Prod.snd

/-- The templates that are asked for when a template is rendered in a context. -/
def asked (library : Library Context) (name : String) (context : Context) (engine : Engine) : List String :=
  match engine.get library name with
  | .error _ => []
  | .ok template => (template context).asked (engine.sources library)

/-- A template with another name than the one that is added can be loaded afterwards if it could be before. It gives
the same text in every context in which it does not ask for the one that is added, unless this is what it was. -/
def KeepsOthers (library : Library Context) (engine : Engine) (other text : String) : Prop :=
  ∀ name, name ≠ other → engine.has library name = .ok true →
    (engine.add other text).has library name = .ok true ∧
      ∀ context, (other ∈ engine.asked library name context → engine.sources library other = .ok text) →
        (engine.add other text).render library name context = engine.render library name context

theorem isFolder_add (engine : Engine) (name text : String) : (engine.add name text).isFolder = false := by
  cases engine <;> rfl

theorem sources_add (htables : library.ReadsTables) (engine : Engine) (name other text : String) :
    (engine.add other text).sources library name =
      if other = name then .ok text
      else if engine.isFolder then .error (.absent name) else engine.sources library name := by
  cases engine with
  | added table =>
    rw [add, sources, htables, Table.get?_put]
    by_cases h : other = name
    · rw [if_pos h, if_pos h]
    · rw [if_neg h, if_neg h, isFolder, if_neg Bool.false_ne_true, sources, htables]
  | folder tree path =>
    rw [add, sources, htables, Table.get?]
    by_cases h : other = name
    · rw [if_pos h, if_pos h]
    · rw [if_neg h, if_neg h]
      rfl

theorem get_congr {engine' : Engine} (h : engine'.sources library name = engine.sources library name) :
    engine'.get library name = engine.get library name := by
  rw [get, h, get]

theorem get_of_source (h : engine.sources library name = .ok text) :
    engine.get library name = (library.compile name text).mapError .malformed := by
  rw [get, h]
  rfl

theorem has_of_absent {reason : String} (h : engine.sources library name = .error (.absent reason)) :
    engine.has library name = .ok false := by
  rw [has, get, h]
  rfl

theorem keepsOthers_of_not_isFolder (htables : library.ReadsTables) (hfolder : engine.isFolder = false)
    (other text : String) : engine.KeepsOthers library other text := by
  intro name hne hhas
  have hothers : ∀ name, name ≠ other →
      (engine.add other text).sources library name = engine.sources library name := fun name hne => by
    rw [sources_add htables, if_neg (Ne.symm hne), hfolder, if_neg Bool.false_ne_true]
  have hget : (engine.add other text).get library name = engine.get library name := get_congr (hothers name hne)
  refine ⟨by rw [has, hget, ← has, hhas], fun context hasked => ?_⟩
  rw [render, hget, render]
  cases hgot : engine.get library name with
  | error fault => rfl
  | ok template =>
    refine congrArg (Except.mapError _) (Rendering.outcome_congr _ fun next hnext => ?_)
    by_cases hother : next = other
    · subst hother
      rw [asked, hgot] at hasked
      rw [sources_add htables, if_pos rfl, hasked hnext]
    · exact hothers next hother

theorem keepsOthers_iff (htables : library.ReadsTables) : engine.KeepsOthers library other text ↔
    engine.isFolder = false ∨ ∀ name, name ≠ other → engine.has library name ≠ .ok true := by
  constructor
  · intro hkeeps
    cases hfolder : engine.isFolder with
    | false => exact .inl rfl
    | true =>
      refine .inr fun name hne hhas => ?_
      have hgone : (engine.add other text).sources library name = .error (.absent name) := by
        rw [sources_add htables, if_neg (Ne.symm hne), hfolder, if_pos rfl]
      have hkept := (hkeeps name hne hhas).1
      rw [has_of_absent hgone] at hkept
      cases hkept
  · rintro (hfolder | hnone)
    · exact keepsOthers_of_not_isFolder htables hfolder other text
    · intro name hne hhas
      exact absurd hhas (hnone name hne)

theorem addAll_concat (engine : Engine) (added : List (String × String)) (other text : String) :
    engine.addAll (added ++ [(other, text)]) = (engine.addAll added).add other text := by
  rw [addAll, List.foldl_append]
  rfl

theorem isFolder_addAll (engine : Engine) (added : List (String × String)) :
    (engine.addAll added).isFolder = (engine.isFolder && added.isEmpty) := by
  rcases List.eq_nil_or_concat added with rfl | ⟨front, ⟨other, text⟩, rfl⟩
  · exact (Bool.and_true _).symm
  · rw [List.concat_eq_append, addAll_concat, isFolder_add]
    simp

theorem lastAdded?_concat (name : String) (added : List (String × String)) (other text : String) :
    lastAdded? name (added ++ [(other, text)]) = if other = name then some text else lastAdded? name added := by
  rw [lastAdded?, List.reverse_append, List.reverse_singleton, List.singleton_append, List.find?_cons]
  by_cases h : other = name <;> simp [h, lastAdded?]

theorem sources_addAll (htables : library.ReadsTables) (engine : Engine) (added : List (String × String))
    (name : String) :
    (engine.addAll added).sources library name =
      match lastAdded? name added with
      | some text => .ok text
      | none => if engine.isFolder && !added.isEmpty then .error (.absent name) else engine.sources library name := by
  induction added using List.reverseRecOn with
  | nil => simp [lastAdded?, addAll]
  | append_singleton added entry ih =>
    obtain ⟨other, text⟩ := entry
    rw [addAll_concat, sources_add htables, lastAdded?_concat]
    split
    next => rfl
    next hne =>
      rw [isFolder_addAll, ih]
      cases added with
      | nil => simp [lastAdded?]
      | cons first rest => simp

/-- After any number of additions, the source that was added last under a name is the one that is found and rendered;
under a name that was not added there is the source that was there before, unless it stood in a folder, which the first
addition gives up. One more addition keeps all other templates as they are exactly if the engine was not over a folder,
or something was added to it before, or no other template can be loaded from the folder. -/
theorem addAll_renders (library : Library Context) (htables : library.ReadsTables) (engine : Engine)
    (added : List (String × String)) :
    (∀ name, (engine.addAll added).sources library name =
      match lastAdded? name added with
      | some text => .ok text
      | none =>
        if engine.isFolder && !added.isEmpty then .error (.absent name) else engine.sources library name) ∧
    (∀ name text context, lastAdded? name added = some text →
      (engine.addAll added).render library name context =
        match library.compile name text with
        | .error reason => .error ⟨name, reason⟩
        | .ok template => ((template context).outcome ((engine.addAll added).sources library)).mapError
          fun reason => ⟨name, reason⟩) ∧
    (∀ other text, (engine.addAll added).KeepsOthers library other text ↔
      engine.isFolder = false ∨ added ≠ [] ∨ ∀ name, name ≠ other → engine.has library name ≠ .ok true) := by
  refine ⟨sources_addAll htables engine added, fun name text context hlast => ?_, fun other text => ?_⟩
  · have hsource : (engine.addAll added).sources library name = .ok text := by rw [sources_addAll htables, hlast]
    rw [render, get_of_source hsource]
    cases library.compile name text <;> rfl
  · rw [keepsOthers_iff htables, isFolder_addAll]
    cases added with
    | nil => simp [addAll]
    | cons first rest => simp

/-- The source of a template that includes the template `greeting`. -/
def inclusion : String := "\x7b% include 'greeting' %\x7d"

/-- A library as far as this source and literal texts go. -/
def including : Library Unit where
  compile _ source := .ok fun _ =>
    if source = inclusion then .ask "greeting" fun found => .done (found.mapError LoadFault.reason)
    else .done (.ok source)
  inTable := sourceInTable
  inFolder := sourceInFolder

def pages : Engine := .added [("page", inclusion), ("greeting", "hello")]

/-- The page that includes the greeting is kept when a farewell is added, and changes with the greeting. -/
theorem addAll_renders_pages : including.ReadsTables ∧ pages.has including "page" = .ok true ∧
    (pages.addAll [("farewell", "bye")]).has including "page" = .ok true ∧
    (pages.addAll [("farewell", "bye")]).render including "page" () = .ok "hello" ∧
    (pages.addAll [("farewell", "bye"), ("greeting", "hi")]).render including "page" () = .ok "hi" ∧
    (pages.addAll [("farewell", "bye"), ("greeting", "hi")]).render including "greeting" () = .ok "hi" := by
  have htables : including.ReadsTables := fun _ _ => rfl
  obtain ⟨-, -, hkeeps⟩ := addAll_renders including htables pages []
  obtain ⟨hhas, hsame⟩ := (hkeeps "farewell" "bye").2 (.inl rfl) "page" (by decide) rfl
  have hgreeting := (addAll_renders including htables pages [("farewell", "bye"), ("greeting", "hi")]).2.1
    "greeting" "hi" () rfl
  refine ⟨htables, rfl, hhas, (hsame () fun hasked => ?_).trans rfl, rfl, hgreeting.trans rfl⟩
  exact absurd hasked (by decide)

/-- A folder with one template in it. -/
def greetingFolder : FileTree := { nodes := [(["templates", "greeting"], .file "hello".toUTF8)] }

def greetings : Engine := .folder greetingFolder ⟨false, ["templates"]⟩

/-- A template that can be loaded from a folder is gone when another one is added. -/
theorem greetings_givenUp :
    greetings.has .simple "greeting" = .ok true ∧ greetings.render .simple "greeting" [] = .ok "hello" ∧
      (greetings.add "farewell" "bye").has .simple "greeting" = .ok false ∧
      ¬ greetings.KeepsOthers .simple "farewell" "bye" := by
  have htables : Library.simple.ReadsTables := fun _ _ => rfl
  have hsource : greetings.sources .simple "greeting" = .ok "hello" := by
    have hplace : greetingFolder.resolve ⟨false, ["templates", "greeting"]⟩ = .ok ["templates", "greeting"] := by
      rw [FileTree.resolve, String.contains_char_eq]
      rfl
    have hread : greetingFolder.read ⟨false, ["templates", "greeting"]⟩ = .ok "hello".toUTF8 := by
      rw [FileTree.read, hplace]
      rfl
    have hpath : pathWithin ⟨false, ["templates"]⟩ "greeting" = some ⟨false, ["templates", "greeting"]⟩ := by
      decide +kernel
    have htext : Utf8.decodeLines "hello".toUTF8 = .ok "hello" := Utf8.decodeLines_toUTF8 (by decide)
    change sourceInFolder greetingFolder ⟨false, ["templates"]⟩ "greeting" = .ok "hello"
    rw [sourceInFolder, hpath]
    dsimp only
    rw [hplace, if_pos (by decide +kernel), hread]
    dsimp only [Except.mapError, bind, Except.bind]
    rw [htext]
  have hget : greetings.get .simple "greeting" = .ok fun _ => .done (.ok "hello") := by
    rw [get_of_source hsource]
    rfl
  have hhas : greetings.has .simple "greeting" = .ok true := by
    rw [has, hget]
  have hgone : (greetings.add "farewell" "bye").sources .simple "greeting" = .error (.absent "greeting") := by
    rw [sources_add htables, if_neg (by decide), greetings, isFolder, if_pos rfl]
  refine ⟨hhas, by rw [render, hget]; rfl, has_of_absent hgone, fun hkeeps => ?_⟩
  have hkept := (hkeeps "greeting" (by decide) hhas).1
  rw [has_of_absent hgone] at hkept
  cases hkept

end Engine

end SchemaDecl.Template

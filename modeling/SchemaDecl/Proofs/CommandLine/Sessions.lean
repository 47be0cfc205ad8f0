import SchemaDecl.CommandLine.Run

/-!
# Steps of a session

What a session makes of the files, step by step: a step that comes to a result leaves files of which more is
known, and one that ends the session leaves the files as they were at the start, unless the console fails.
-/

namespace SchemaDecl.CommandLine

theorem run_bind {α β : Type} (x : Session α) (f : α → Session β) (w : World) :
    (x >>= f).run w = match x.run w with
      | (.ok a, w') => (f a).run w'
      | (.error ending, w') => (.error ending, w') := by
  change (ExceptT.bindCont f (x.run w).1) (x.run w).2 = _
  rcases x.run w with ⟨_ | _, _⟩ <;> rfl

/-- From the files `now` on, the session comes to a result with files `after`, or ends. Unless a text cannot be
shown on the console, it then ends with the files `before`, and not as a success. -/
structure Proceeds {α : Type} (before now : FileTree) (x : Session α) (after : α → FileTree → Prop) : Prop where
  run (w : World) : w.files = now →
    match x.run w with
    | (.ok a, w') => after a w'.files
    | (.error ending, w') =>
      (∃ fault, ending = .escape (.console fault)) ∨ ending ≠ .exit 0 ∧ w'.files = before

/-- The files stay as they are. -/
def unchanged {α : Type} (now : FileTree) : α → FileTree → Prop := fun _ files => files = now

namespace Proceeds

variable {α β : Type} {before now : FileTree} {x : Session α} {after after' : α → FileTree → Prop}
  {next : β → FileTree → Prop} {a : α}

/-- What is known of a result and of the files then. -/
theorem result {w w' : World} (hx : Proceeds before now x after) (hw : w.files = now)
    (hrun : x.run w = (.ok a, w')) : after a w'.files := by
  have hstep := hx.run w hw
  rw [hrun] at hstep
  exact hstep

theorem pure (h : after a now) : Proceeds before now (Pure.pure a) after := by
  refine ⟨?_⟩
  rintro w rfl
  exact h

theorem bind {f : α → Session β} (hx : Proceeds before now x after)
    (hf : ∀ a files, after a files → Proceeds before files (f a) next) : Proceeds before now (x >>= f) next := by
  refine ⟨fun w hw => ?_⟩
  have hstep := hx.run w hw
  rw [run_bind]
  rcases hresult : x.run w with ⟨ending | a, w'⟩
  · rw [hresult] at hstep
    exact hstep
  · rw [hresult] at hstep
    exact (hf a w'.files hstep).run w' rfl

theorem mono (hx : Proceeds before now x after) (h : ∀ a files, after a files → after' a files) :
    Proceeds before now x after' := by
  refine ⟨fun w hw => ?_⟩
  have hstep := hx.run w hw
  rcases hresult : x.run w with ⟨ending | a, w'⟩
  · rw [hresult] at hstep
    exact hstep
  · rw [hresult] at hstep
    exact h a w'.files hstep

/-- The session may end only while the files are as they were. -/
theorem ends {ending : Ending} (h : ending ≠ .exit 0) (hfiles : now = before) :
    Proceeds before now (throw ending) after := by
  refine ⟨?_⟩
  rintro w rfl
  exact .inr ⟨h, hfiles⟩

theorem shown (result : Except Console.Fault α) : Proceeds before now (shown result) (unchanged now) := by
  cases result with
  | ok a => exact pure rfl
  | error fault => exact ⟨fun _ _ => .inl ⟨fault, rfl⟩⟩

theorem world : Proceeds before now get fun w files => w.files = now ∧ files = now := by
  refine ⟨?_⟩
  rintro w rfl
  exact ⟨rfl, rfl⟩

theorem change {f : World → World} {files : FileTree} (h : ∀ w : World, w.files = now → (f w).files = files) :
    Proceeds before now (modify f) (unchanged files) :=
  ⟨h⟩

theorem forIn {δ : Type} {items : List δ} {body : δ → Session Unit}
    (h : ∀ item ∈ items, Proceeds before now (body item) (unchanged now)) :
    Proceeds before now (ForIn.forIn items PUnit.unit fun item _ => do
      body item
      Pure.pure (ForInStep.yield PUnit.unit)) (unchanged now) := by
  induction items with
  | nil => exact pure rfl
  | cons item rest ih =>
    obtain ⟨hitem, hrest⟩ := List.forall_mem_cons.1 h
    have hbody : Proceeds before now (do body item; Pure.pure (ForInStep.yield PUnit.unit))
        fun step files => step = .yield PUnit.unit ∧ files = now := by
      refine bind hitem ?_
      rintro _ _ rfl
      exact pure ⟨rfl, rfl⟩
    rw [List.forIn_cons]
    refine bind hbody ?_
    rintro _ _ ⟨rfl, rfl⟩
    exact ih hrest

theorem tell (lines : List String) : Proceeds before now (tell lines) (unchanged now) :=
  change fun _ h => h

theorem say (console : Console) (markup : String) : Proceeds before now (say console markup) (unchanged now) := by
  refine bind (shown _) ?_
  rintro lines _ rfl
  exact tell lines

theorem showTable (console : Console) (title : String) (headers : List String) (rows : List (List String)) :
    Proceeds before now (showTable console title headers rows) (unchanged now) := by
  refine bind (shown _) ?_
  rintro lines _ rfl
  exact pure rfl

theorem failWith (console : Console) (markup : String) : Proceeds before before (failWith console markup) after := by
  refine bind (say console markup) ?_
  rintro _ _ rfl
  exact ends (by simp) rfl

end Proceeds

end SchemaDecl.CommandLine

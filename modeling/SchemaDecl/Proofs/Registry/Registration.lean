import SchemaDecl.Proofs.Table
import SchemaDecl.Registry.Basic

/-!
# Registrations

A registration stores the generator, then checks and stores the aliases one by one. So it is refused as a
whole only if what is to be registered is no generator. If an alias may not be added, the language stands
registered all the same, with the aliases before that one.
-/

namespace SchemaDecl.Registry

variable {r : Registry} {key spelling : String} {spellings : List String} {replace : Bool}

/-- The alias names another language, or stands for another language, than the one that is registered under
`key`. -/
def Conflicts (r : Registry) (key spelling : String) : Prop :=
  Text.lower spelling ≠ key ∧
    (Table.has (Text.lower spelling) r.generators = true ∨
      ∃ other, Table.get? (Text.lower spelling) r.aliases = some other ∧ other ≠ key)

/-- Stores an alias; the name of a language is no alias of it. -/
def withAlias (key : String) (r : Registry) (spelling : String) : Registry :=
  if Text.lower spelling = key then r
  else { r with aliases := Table.put (Text.lower spelling) key r.aliases }

/-- Stores a generator under its language. -/
def entered (r : Registry) (key : String) (g : Generator) : Registry :=
  { r with generators := Table.put key g r.generators }

theorem checkAlias_eq_ok_iff (h : Text.lower spelling ≠ key) :
    r.checkAlias key spelling = .ok () ↔ ¬ r.Conflicts key spelling := by
  rw [checkAlias, Conflicts]
  split
  next hl => exact iff_of_false (by rintro ⟨⟩) (fun hc => hc ⟨h, .inl hl⟩)
  next hl =>
    cases hget : Table.get? (Text.lower spelling) r.aliases with
    | none => simp [hl]
    | some other => by_cases heq : other = key <;> simp [heq, hl, h]

theorem conflicts_withAlias {s : String} (hs : ¬ r.Conflicts key s) :
    (r.withAlias key s).Conflicts key spelling ↔ r.Conflicts key spelling := by
  rw [withAlias]
  split
  next => rfl
  next hne =>
    refine and_congr_right fun _ => or_congr_right ?_
    dsimp only
    rw [Table.get?_put]
    split
    next heq =>
      -- the alias that was added stands for this very language, and it stood for no other before
      have hmine : ∀ other, Table.get? (Text.lower spelling) r.aliases = some other → other = key :=
        fun other hget => Decidable.byContradiction fun hother => hs ⟨hne, .inr ⟨other, heq ▸ hget, hother⟩⟩
      constructor
      · rintro ⟨other, hother, hne'⟩
        exact absurd (Option.some.inj hother).symm hne'
      · rintro ⟨other, hget, hne'⟩
        exact absurd (hmine other hget) hne'
    next => rfl

theorem conflicts_entered {g : Generator} :
    (r.entered key g).Conflicts key spelling ↔ r.Conflicts key spelling := by
  refine and_congr_right fun hne => or_congr_left ?_
  rw [entered, Table.has_put_of_ne (Ne.symm hne)]

@[simp] theorem generators_withAlias : (r.withAlias key spelling).generators = r.generators := by
  rw [withAlias]
  split <;> rfl

theorem generators_foldl_withAlias : (spellings.foldl (withAlias key) r).generators = r.generators := by
  induction spellings generalizing r with
  | nil => rfl
  | cons spelling rest ih => rw [List.foldl_cons, ih, generators_withAlias]

theorem has_entered (g : Generator) : Table.has key (r.entered key g).generators = true :=
  Table.has_put_self

theorem addAliases_free (h : replace = false → ¬ r.Conflicts key spelling) :
    addAliases key replace r (spelling :: spellings) =
      addAliases key replace (r.withAlias key spelling) spellings := by
  rw [addAliases, withAlias]
  by_cases hown : Text.lower spelling = key
  · rw [if_pos hown, if_pos hown]
  · have hcheck : (if replace then .ok () else r.checkAlias key spelling) = .ok () := by
      cases replace with
      | true => rfl
      | false => exact (checkAlias_eq_ok_iff hown).2 (h rfl)
    rw [if_neg hown, if_neg hown, hcheck]

theorem addAliases_conflict (h : r.Conflicts key spelling) (spellings : List String) :
    ∃ fault, addAliases key false r (spelling :: spellings) = (some fault, r) := by
  rw [addAliases, if_neg h.1, if_neg Bool.false_ne_true]
  cases hcheck : r.checkAlias key spelling with
  | ok => exact absurd h ((checkAlias_eq_ok_iff h.1).1 hcheck)
  | error fault => exact ⟨fault, rfl⟩

/-- What holds of a registry and is kept by every alias that is added, holds when all are added that may be. -/
theorem addAliases_induction {P : Registry → Prop} (h : P r)
    (hstep : ∀ {r : Registry} {spelling : String}, P r → Text.lower spelling ≠ key →
      (replace = false → ¬ r.Conflicts key spelling) → P (r.withAlias key spelling)) :
    P (addAliases key replace r spellings).2 := by
  induction spellings generalizing r with
  | nil => exact h
  | cons spelling rest ih =>
    by_cases hfree : replace = false → ¬ r.Conflicts key spelling
    · rw [addAliases_free hfree]
      refine ih ?_
      by_cases hown : Text.lower spelling = key
      · rwa [withAlias, if_pos hown]
      · exact hstep h hown hfree
    · obtain ⟨rfl, hc⟩ := Classical.not_imp.1 hfree
      obtain ⟨fault, hend⟩ := addAliases_conflict (Classical.not_not.1 hc) rest
      rwa [hend]

theorem addAliases_fault {fault : Fault} (h : (addAliases key replace r spellings).1 = some fault) :
    replace = false ∧ ∃ before spelling after, spellings = before ++ spelling :: after ∧
      (∀ s ∈ before, ¬ r.Conflicts key s) ∧ r.Conflicts key spelling ∧
      (addAliases key replace r spellings).2 = before.foldl (withAlias key) r := by
  induction spellings generalizing r with
  | nil => cases h
  | cons spelling rest ih =>
    by_cases hfree : replace = false → ¬ r.Conflicts key spelling
    · rw [addAliases_free hfree] at h ⊢
      obtain ⟨hreplace, before, s, after, rfl, hbefore, hs, hend⟩ := ih h
      have hc := hfree hreplace
      refine ⟨hreplace, spelling :: before, s, after, rfl, List.forall_mem_cons.2 ⟨hc, fun s hm => ?_⟩,
        (conflicts_withAlias hc).1 hs, hend⟩
      exact fun hcs => hbefore s hm ((conflicts_withAlias hc).2 hcs)
    · obtain ⟨rfl, hc⟩ := Classical.not_imp.1 hfree
      have hc := Classical.not_not.1 hc
      obtain ⟨first, hend⟩ := addAliases_conflict hc rest
      exact ⟨rfl, [], spelling, rest, rfl, by simp, hc, by rw [hend]; rfl⟩

/-- What a registration does: it is refused at once, as it has no generator, or it does nothing, as the language
is known, or it stores the generator and goes on with the aliases. -/
theorem register_cases (r : Registry) (language : String) (generator? : Option Generator)
    (spellings : List String) (replace : Bool) :
    generator? = none ∧ r.register language generator? spellings replace = (some .notGenerator, r) ∨
      Table.has (Text.lower language) r.generators = true ∧
        r.register language generator? spellings replace = (none, r) ∨
      ∃ g, generator? = some g ∧ (replace = true ∨ Table.has (Text.lower language) r.generators = false) ∧
        r.register language generator? spellings replace =
          addAliases (Text.lower language) replace (r.entered (Text.lower language) g) spellings := by
  cases generator? with
  | none => exact .inl ⟨rfl, rfl⟩
  | some g =>
    refine .inr ?_
    rw [register]
    split
    next h => exact .inl ⟨((Bool.and_eq_true _ _).mp h).1, rfl⟩
    next h =>
      refine .inr ⟨g, rfl, ?_, rfl⟩
      rw [Bool.not_eq_true, Bool.and_eq_false_iff, Bool.not_eq_false'] at h
      exact h.symm

/-- A registration that is refused leaves the registry as it was exactly if it was to register what is no
generator. Otherwise an alias conflicts, and the language, new to the registry, stands registered with the
aliases before the first that does. -/
theorem register_refused {language : String} {generator? : Option Generator} {fault : Fault}
    (h : (r.register language generator? spellings replace).1 = some fault) :
    ((r.register language generator? spellings replace).2 = r ↔ generator? = none) ∧
      ∀ g, generator? = some g →
        replace = false ∧ Table.has (Text.lower language) r.generators = false ∧
          ∃ before spelling after, spellings = before ++ spelling :: after ∧
            (∀ s ∈ before, ¬ r.Conflicts (Text.lower language) s) ∧
            r.Conflicts (Text.lower language) spelling ∧
            (r.register language generator? spellings replace).2 =
              before.foldl (withAlias (Text.lower language)) (r.entered (Text.lower language) g) := by
  rcases register_cases r language generator? spellings replace with
    ⟨rfl, hend⟩ | ⟨-, hend⟩ | ⟨g, rfl, hentered, hadded⟩
  · rw [hend]
    exact ⟨iff_of_true rfl rfl, by rintro _ ⟨⟩⟩
  · rw [hend] at h
    cases h
  · rw [hadded] at h ⊢
    obtain ⟨rfl, before, spelling, after, hsplit, hbefore, hspelling, hend⟩ := addAliases_fault h
    have hnew : Table.has (Text.lower language) r.generators = false :=
      hentered.resolve_left Bool.false_ne_true
    refine ⟨iff_of_false (fun hsame => ?_) (by rintro ⟨⟩), ?_⟩
    · have hgenerators := congrArg generators (hend.symm.trans hsame)
      rw [generators_foldl_withAlias] at hgenerators
      rw [← hgenerators, has_entered] at hnew
      cases hnew
    · rintro _ ⟨⟩
      exact ⟨rfl, hnew, before, spelling, after, hsplit, fun s hs hc => hbefore s hs (conflicts_entered.2 hc),
        conflicts_entered.1 hspelling, hend⟩

theorem register_refused_takenAlias :
    (standard.register "tsx" (some .typescript) ["t", "ts"] false).1 = some (.aliasTaken "ts" "typescript") ∧
      (standard.register "tsx" (some .typescript) ["t", "ts"] false).2 ≠ standard := by
  have h : (standard.register "tsx" (some .typescript) ["t", "ts"] false).1 =
      some (.aliasTaken "ts" "typescript") := by decide +kernel
  exact ⟨h, fun hsame => by cases (register_refused h).1.1 hsame⟩

/-- The language and its first alias stay behind after the second alias is refused. -/
theorem takenAlias_leaves_language :
    (standard.register "tsx" (some .typescript) ["t", "ts"] false).1 = some (.aliasTaken "ts" "typescript") ∧
      standard = ⟨[("typescript", .typescript)], [("ts", "typescript")]⟩ ∧
      (standard.register "tsx" (some .typescript) ["t", "ts"] false).2 =
        ⟨[("typescript", .typescript), ("tsx", .typescript)], [("ts", "typescript"), ("t", "tsx")]⟩ := by
  decide +kernel

end SchemaDecl.Registry

import SchemaDecl.Proofs.Table
import SchemaDecl.Settings.Merge

/-!
# Spellings of settings

A source may give a setting under its name, under another spelling of it, or, if it is the prefix, within
`naming`. Reading a source puts under the name of a setting what the last of these entries gives, and leaves
nothing to be read anew.
-/

namespace SchemaDecl.Settings

variable {setting other : Setting} {key name : String} {value : Json} {entries done out : Entries}

theorem name_injective (h : setting.name = other.name) : setting = other := by
  cases setting <;> cases other <;> simp_all [Setting.name]

theorem ofName?_name (setting : Setting) : Setting.ofName? setting.name = some setting := by
  cases setting <;> rfl

theorem ofName?_eq_some_iff : Setting.ofName? key = some setting ↔ key = setting.name := by
  constructor
  · intro h
    have hname := List.find?_some h
    exact (of_decide_eq_true hname).symm
  · rintro rfl
    exact ofName?_name setting

theorem canonical_name (setting : Setting) : Setting.canonical setting.name = setting.name := by
  cases setting <;> rfl

theorem name_ne_naming (setting : Setting) : setting.name ≠ "naming" := by
  cases setting <;> decide

theorem naming_not_spelling (setting : Setting) : ("naming", setting) ∉ Setting.aliases := by
  cases setting <;> decide

theorem nodup_aliases : (Table.names Setting.aliases).Nodup := by
  decide

theorem canonical_eq_name_iff :
    Setting.canonical key = setting.name ↔ key = setting.name ∨ (key, setting) ∈ Setting.aliases := by
  constructor
  · intro h
    rw [Setting.canonical] at h
    split at h
    next other hget =>
      rw [← name_injective h]
      exact .inr (Table.mem_of_get? hget)
    next => exact .inl h
  · rintro (rfl | hm)
    · exact canonical_name setting
    · rw [Setting.canonical, (Table.get?_eq_some_iff nodup_aliases).2 hm]

theorem canonical_cases (key : String) :
    (∃ setting : Setting, Setting.canonical key = setting.name) ∨ Setting.canonical key = key := by
  rw [Setting.canonical]
  split
  next setting _ => exact .inl ⟨setting, rfl⟩
  next => exact .inr rfl

theorem canonical_canonical (key : String) : Setting.canonical (Setting.canonical key) = Setting.canonical key := by
  rcases canonical_cases key with ⟨setting, h⟩ | h
  · rw [h, canonical_name]
  · rw [h, h]

theorem canonical_ne_naming (h : key ≠ "naming") : Setting.canonical key ≠ "naming" := by
  rcases canonical_cases key with ⟨setting, hname⟩ | hkey
  · rw [hname]
    exact name_ne_naming setting
  · rwa [hkey]

/-- The prefix within a value for `naming`. -/
def prefixIn? : Json → Option Json
  | .object naming => Table.get? "prefix" naming
  | _ => none

/-- The value that an entry gives to a setting, under its name or another spelling, or within `naming`. -/
def given? (setting : Setting) : String × Json → Option Json
  | (key, value) =>
    if key = setting.name ∨ (key, setting) ∈ Setting.aliases then some value
    else if setting = .namePrefix ∧ key = "naming" then prefixIn? value
    else none

/-- The value that the last entry gives that gives the setting one. -/
def lastGiven? (setting : Setting) (entries : Entries) : Option Json :=
  (entries.filterMap (given? setting)).getLast?

theorem given?_naming (setting : Setting) (naming : Entries) :
    given? setting ("naming", .object naming) =
      if setting = .namePrefix then Table.get? "prefix" naming else none := by
  rw [given?, if_neg]
  · simp only [and_true]
    rfl
  · exact not_or.2 ⟨(name_ne_naming setting).symm, naming_not_spelling setting⟩

theorem given?_of_ne (h : key ≠ "naming") :
    given? setting (key, value) = if Setting.canonical key = setting.name then some value else none := by
  rw [given?]
  by_cases hs : key = setting.name ∨ (key, setting) ∈ Setting.aliases
  · rw [if_pos hs, if_pos (canonical_eq_name_iff.2 hs)]
  · rw [if_neg hs, if_neg (fun hc => h hc.2), if_neg (mt canonical_eq_name_iff.1 hs)]

theorem lastGiven?_cons (setting : Setting) (e : String × Json) (rest : Entries) :
    lastGiven? setting (e :: rest) = (lastGiven? setting rest).or (given? setting e) := by
  rw [lastGiven?, lastGiven?, List.filterMap_cons]
  cases given? setting e with
  | none => rw [Option.or_none]
  | some value =>
    dsimp only
    rw [List.getLast?_cons]
    cases (rest.filterMap (given? setting)).getLast? <;> rfl

theorem mem_of_lastGiven?_custom (h : lastGiven? .custom entries = some value) : ("custom", value) ∈ entries := by
  obtain ⟨⟨key, v⟩, he, hgiven⟩ := List.mem_filterMap.1 (List.mem_of_getLast? h)
  rw [given?] at hgiven
  split at hgiven
  next hspelled =>
    have hkey : key = "custom" := by
      rcases hspelled with hkey | hm
      · exact hkey
      · simp [Setting.aliases] at hm
    rw [← hkey, ← Option.some.inj hgiven]
    exact he
  next => simp at hgiven

/-- Every entry of the name holds an object. -/
def ObjectsUnder (name : String) (entries : Entries) : Prop :=
  ∀ value, (name, value) ∈ entries → ∃ inner, value = .object inner

/-- A source that gives every setting once, under its name. -/
structure Normal (entries : Entries) : Prop where
  distinct : (Table.names entries).Nodup
  canonical : ∀ name ∈ Table.names entries, name ≠ "naming" ∧ Setting.canonical name = name

theorem Normal.put (h : Normal entries) (hn : name ≠ "naming") (hc : Setting.canonical name = name)
    (value : Json) : Normal (Table.put name value entries) where
  distinct := Table.nodup_put h.distinct name value
  canonical n hm := by
    rcases Table.mem_names_put.1 hm with rfl | hm
    · exact ⟨hn, hc⟩
    · exact h.canonical n hm

/-- The entries with the prefix within `naming`, if it has one, over the prefix that was there. -/
def withPrefix (done naming : Entries) : Entries :=
  (Table.get? "prefix" naming).elim done fun leading => Table.put "prefix" leading done

theorem Normal.withPrefix (h : Normal done) (naming : Entries) : Normal (withPrefix done naming) := by
  rw [Settings.withPrefix]
  cases Table.get? "prefix" naming with
  | none => exact h
  | some leading => exact h.put (by decide) (canonical_name .namePrefix) leading

theorem get?_withPrefix (setting : Setting) (done naming : Entries) :
    Table.get? setting.name (withPrefix done naming) =
      (given? setting ("naming", .object naming)).or (Table.get? setting.name done) := by
  rw [given?_naming, withPrefix]
  cases Table.get? "prefix" naming with
  | none =>
    rw [ite_self]
    rfl
  | some leading =>
    have hname : Setting.namePrefix.name = setting.name ↔ setting = .namePrefix :=
      ⟨fun heq => (name_injective heq).symm, fun heq => heq ▸ rfl⟩
    rw [Option.elim_some, Table.get?_put]
    by_cases hs : setting = .namePrefix
    · rw [if_pos hs, if_pos (show "prefix" = setting.name from hname.2 hs)]
      rfl
    · rw [if_neg hs, if_neg (show "prefix" ≠ setting.name from mt hname.1 hs)]
      rfl

theorem normalizeInto_naming (done naming rest : Entries) :
    normalizeInto done (("naming", .object naming) :: rest) = normalizeInto (withPrefix done naming) rest := by
  rw [normalizeInto, if_pos rfl, withPrefix]
  cases Table.get? "prefix" naming <;> rfl

theorem normalizeInto_notObject (h : ¬ ∃ naming, value = .object naming) (done rest : Entries) :
    normalizeInto done (("naming", value) :: rest) = none := by
  rw [normalizeInto, if_pos rfl]
  exact fun naming heq => h ⟨naming, heq⟩

theorem normalizeInto_key (h : key ≠ "naming") (value : Json) (done rest : Entries) :
    normalizeInto done ((key, value) :: rest) =
      normalizeInto (Table.put (Setting.canonical key) value done) rest :=
  if_neg h

/-- What reading an entry leaves to be read. -/
theorem normalizeInto_cons (h : normalizeInto done ((key, value) :: entries) = some out) :
    (∃ naming, key = "naming" ∧ value = .object naming ∧
        normalizeInto (withPrefix done naming) entries = some out) ∨
      key ≠ "naming" ∧ normalizeInto (Table.put (Setting.canonical key) value done) entries = some out := by
  by_cases hkey : key = "naming"
  · subst hkey
    by_cases hvalue : ∃ naming, value = .object naming
    · obtain ⟨naming, rfl⟩ := hvalue
      rw [normalizeInto_naming] at h
      exact .inl ⟨naming, rfl, rfl, h⟩
    · rw [normalizeInto_notObject hvalue] at h
      cases h
  · rw [normalizeInto_key hkey] at h
    exact .inr ⟨hkey, h⟩

theorem normalizeInto_normal (hd : Normal done) (h : normalizeInto done entries = some out) : Normal out := by
  induction entries generalizing done with
  | nil =>
    cases h
    exact hd
  | cons e rest ih =>
    rcases normalizeInto_cons h with ⟨naming, -, -, hnext⟩ | ⟨hkey, hnext⟩
    · exact ih (hd.withPrefix naming) hnext
    · exact ih (hd.put (canonical_ne_naming hkey) (canonical_canonical e.1) e.2) hnext

/-- Reading goes over what was read before, and of one source the last entry holds. -/
theorem get?_normalizeInto (setting : Setting) (h : normalizeInto done entries = some out) :
    Table.get? setting.name out = (lastGiven? setting entries).or (Table.get? setting.name done) := by
  induction entries generalizing done with
  | nil =>
    cases h
    rfl
  | cons e rest ih =>
    obtain ⟨key, value⟩ := e
    rw [lastGiven?_cons, Option.or_assoc]
    rcases normalizeInto_cons h with ⟨naming, rfl, rfl, hnext⟩ | ⟨hkey, hnext⟩
    · rw [ih hnext, get?_withPrefix]
    · rw [ih hnext, given?_of_ne hkey, Table.get?_put]
      split <;> rfl

theorem objectsUnder_cons :
    ObjectsUnder name ((key, value) :: entries) ↔
      (key = name → ∃ inner, value = .object inner) ∧ ObjectsUnder name entries := by
  constructor
  · intro h
    exact ⟨fun hkey => h value (hkey ▸ List.mem_cons_self), fun v hm => h v (List.mem_cons_of_mem _ hm)⟩
  · rintro ⟨hvalue, hrest⟩ v hm
    rcases List.mem_cons.1 hm with heq | hm
    · cases heq
      exact hvalue rfl
    · exact hrest v hm

/-- A source cannot be read exactly if what it has under `naming` is no object. -/
theorem normalizeInto_eq_none_iff : normalizeInto done entries = none ↔ ¬ ObjectsUnder "naming" entries := by
  induction entries generalizing done with
  | nil => exact iff_of_false (by rintro ⟨⟩) (fun h => h (by rintro _ ⟨⟩))
  | cons e rest ih =>
    obtain ⟨key, value⟩ := e
    rw [objectsUnder_cons]
    by_cases hkey : key = "naming"
    · subst hkey
      by_cases hvalue : ∃ naming, value = .object naming
      · obtain ⟨naming, rfl⟩ := hvalue
        rw [normalizeInto_naming, ih]
        simp
      · rw [normalizeInto_notObject hvalue]
        exact iff_of_true rfl fun h => hvalue (h.1 rfl)
    · rw [normalizeInto_key hkey, ih]
      simp [hkey]

/-- A source that gives every setting once, under its name, is read as it is. -/
theorem normalizeInto_of_normal (h : Normal (done ++ entries)) :
    normalizeInto done entries = some (done ++ entries) := by
  induction entries generalizing done with
  | nil => rw [List.append_nil, normalizeInto]
  | cons e rest ih =>
    obtain ⟨key, value⟩ := e
    have hnames : Table.names (done ++ (key, value) :: rest) =
        Table.names done ++ key :: Table.names rest := List.map_append
    have hkey : key ∈ Table.names (done ++ (key, value) :: rest) := by
      rw [hnames]
      exact List.mem_append_right _ List.mem_cons_self
    obtain ⟨hnaming, hcanonical⟩ := h.canonical key hkey
    have hnew : key ∉ Table.names done := fun hm => by
      have hdistinct := h.distinct
      rw [hnames] at hdistinct
      exact (List.nodup_append.1 hdistinct).2.2 key hm key List.mem_cons_self rfl
    have hsplit : done ++ (key, value) :: rest = done ++ [(key, value)] ++ rest := by simp
    rw [normalizeInto_key hnaming, hcanonical, Table.put_of_not_mem hnew, hsplit]
    exact ih (hsplit ▸ h)

theorem normalize_normalize (entries : Entries) : (normalize entries).bind normalize = normalize entries := by
  cases h : normalize entries with
  | none => rfl
  | some out =>
    have hempty : Normal [] := ⟨.nil, by rintro _ ⟨⟩⟩
    have hnormal : Normal ([] ++ out) := normalizeInto_normal hempty h
    have hread := normalizeInto_of_normal hnormal
    exact hread

end SchemaDecl.Settings

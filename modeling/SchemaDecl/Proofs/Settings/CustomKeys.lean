import SchemaDecl.Proofs.Settings.Precedence

/-!
# Custom settings of several sources

A source may give a custom setting beside its settings or within its `custom`. What is given beside the
settings, in the overrides or the file, goes over what is given within `custom`, in either of them: an override
within `custom` gives way to a file that has the key beside its settings.
-/

namespace SchemaDecl

variable {a b : Entries}

theorem KeyTable.put_ofEntries (key : String) (value : Json) (entries : Entries) :
    KeyTable.put (.text key) value (.ofEntries entries) = .ofEntries (Table.put key value entries) := by
  induction entries with
  | nil => rfl
  | cons e rest ih =>
    obtain ⟨k, v⟩ := e
    have hkey : (Json.text k).sameKey (.text key) = decide (k = key) := rfl
    rw [Table.put]
    change (if (Json.text k).sameKey (.text key) then (Json.text k, value) :: KeyTable.ofEntries rest
      else (Json.text k, v) :: KeyTable.put (.text key) value (.ofEntries rest)) = _
    rw [hkey]
    by_cases h : k = key
    · rw [if_pos h, if_pos (decide_eq_true h)]
      rfl
    · rw [if_neg h, if_neg (by simpa using h), ih]
      rfl

theorem KeyTable.update_ofEntries (a b : Entries) :
    KeyTable.update (.ofEntries a) (.ofEntries b) = .ofEntries (Table.update a b) := by
  induction b generalizing a with
  | nil => rfl
  | cons e rest ih =>
    obtain ⟨key, value⟩ := e
    change KeyTable.update (KeyTable.put (.text key) value (.ofEntries a)) (.ofEntries rest) = _
    rw [KeyTable.put_ofEntries, ih]
    rfl

theorem KeyTable.displayed_ofEntries (h : (Table.names a).Nodup) :
    KeyTable.displayed (.ofEntries a) = .object a := by
  have hpairs : (KeyTable.ofEntries a).map (Prod.map Json.display id) = a := by
    rw [KeyTable.ofEntries, List.map_map]
    exact List.map_id a
  change Json.object (Table.ofPairs ((KeyTable.ofEntries a).map (Prod.map Json.display id))) = _
  rw [hpairs, Table.ofPairs_of_nodup h]

theorem KeyTable.written_ofEntries (a : Entries) : KeyTable.written (.ofEntries a) = .object a := by
  have hpairs : (KeyTable.ofEntries a).map (Prod.map KeyTable.writtenKey id) = a := by
    rw [KeyTable.ofEntries, List.map_map]
    exact List.map_id a
  exact congrArg Json.object hpairs

namespace Settings

variable {key k : String} {value : Json} {entries done out newer inner : Entries} {s : Settings}
  {file? overrides? : Option Entries}

/-- The key is no spelling of a setting, and is not `naming`. -/
def IsOther (key : String) : Prop :=
  key ≠ "naming" ∧ ∀ setting : Setting, key ≠ setting.name ∧ (key, setting) ∉ Setting.aliases

theorem IsOther.canonical_ne (h : IsOther key) (setting : Setting) : Setting.canonical key ≠ setting.name := fun hc =>
  (canonical_eq_name_iff.1 hc).elim (h.2 setting).1 (h.2 setting).2

theorem IsOther.canonical_eq (h : IsOther key) : Setting.canonical key = key :=
  (canonical_cases key).resolve_left fun ⟨setting, hc⟩ => h.canonical_ne setting hc

theorem IsOther.ofName? (h : IsOther key) : Setting.ofName? key = none :=
  (name_or_extra key).resolve_left fun ⟨setting, hname⟩ => (h.2 setting).1 hname

theorem IsOther.canonical_eq_iff (h : IsOther key) : Setting.canonical k = key ↔ k = key := by
  refine ⟨fun hc => ?_, fun hk => hk ▸ h.canonical_eq⟩
  rcases canonical_cases k with ⟨setting, hname⟩ | hsame
  · exact absurd (hc.symm.trans hname) (h.2 setting).1
  · exact hsame.symm.trans hc

def beside? (key : String) (entries : Entries) : Option Json := Table.get? key (Table.ofPairs entries)

theorem beside?_cons (key k : String) (value : Json) (rest : Entries) :
    beside? key ((k, value) :: rest) = (beside? key rest).or (if k = key then some value else none) := by
  change Table.get? key (Table.update [(k, value)] rest) = _
  rw [Table.get?_update_ofPairs, beside?, Table.get?, Table.get?]

theorem get?_withPrefix_of_other (h : IsOther key) (done naming : Entries) :
    Table.get? key (withPrefix done naming) = Table.get? key done := by
  have hne : "prefix" ≠ key := ((h.2 .namePrefix).1).symm
  rw [withPrefix]
  cases Table.get? "prefix" naming with
  | none => rfl
  | some leading => rw [Option.elim_some, Table.get?_put, if_neg hne]

theorem get?_normalizeInto_of_other (hkey : IsOther key) (h : normalizeInto done entries = some out) :
    Table.get? key out = (beside? key entries).or (Table.get? key done) := by
  induction entries generalizing done with
  | nil =>
    cases h
    rfl
  | cons e rest ih =>
    obtain ⟨k, value⟩ := e
    rw [beside?_cons, Option.or_assoc]
    rcases normalizeInto_cons h with ⟨naming, rfl, rfl, hnext⟩ | ⟨-, hnext⟩
    · rw [ih hnext, get?_withPrefix_of_other hkey, if_neg hkey.1.symm]
      rfl
    · rw [ih hnext, Table.get?_put]
      simp only [hkey.canonical_eq_iff]
      split <;> rfl

theorem get?_layer_of_other (hkey : IsOther key) {source? : Option Entries} (h : layer entries source? = .ok out) :
    Table.get? key out = (source?.bind (beside? key)).or (Table.get? key entries) := by
  cases source? with
  | none =>
    cases h
    rfl
  | some newer =>
    rw [layer] at h
    cases hread : normalize newer with
    | none =>
      rw [hread] at h
      cases h
    | some normal =>
      rw [hread] at h
      cases h
      have hempty : Normal [] := ⟨.nil, by rintro _ ⟨⟩⟩
      have hdistinct := (normalizeInto_normal hempty hread).distinct
      rw [Table.get?_update hdistinct, get?_normalizeInto_of_other hkey hread, Table.get?, Option.or_none]
      rfl

/-- Every entry of the name holds an object with distinct keys. -/
def TablesUnder (name : String) (entries : Entries) : Prop :=
  ∀ value, (name, value) ∈ entries → ∃ inner, value = .object inner ∧ (Table.names inner).Nodup

def within? (key : String) : Json → Option Json
  | .object inner => Table.get? key inner
  | _ => none

theorem extras_cons (key : String) (value : Json) (rest : Entries) :
    extras ((key, value) :: rest) =
      if (Setting.ofName? key).isNone then (key, value) :: extras rest else extras rest := by
  rw [extras, List.filter_cons]
  rfl

theorem get?_extras (h : Setting.ofName? key = none) (entries : Entries) :
    Table.get? key (extras entries) = Table.get? key entries := by
  induction entries with
  | nil => rfl
  | cons e rest ih =>
    obtain ⟨k, value⟩ := e
    rw [extras_cons, Table.get?]
    by_cases hk : k = key
    · subst hk
      rw [h, if_pos rfl]
      exact if_pos rfl
    · rw [if_neg hk]
      split
      next => rw [Table.get?, if_neg hk, ih]
      next => exact ih

theorem nodup_extras (h : (Table.names entries).Nodup) : (Table.names (extras entries)).Nodup :=
  (Table.names_filter_sublist _ entries).nodup h

theorem custom_noPrefix (s : Settings) :
    (if s.namePrefix = .null then { s with namePrefix := .text "" } else s).custom = s.custom := by
  split <;> rfl

/-- What the settings that entries become have under `custom`: the object that the entries have there, with the
entries of other names over it. -/
theorem ofEntries_custom (hs : ofEntries entries = .ok s) (hgiven : (apply {} entries).custom = .given (.object inner))
    (hinner : (Table.names inner).Nodup) : s.get .custom = .object (Table.update inner (extras entries)) := by
  have hcustom := (custom_noPrefix (apply {} entries)).trans hgiven
  rw [ofEntries, hcustom] at hs
  split at hs
  next hempty =>
    cases hs
    rw [List.isEmpty_iff.1 hempty]
    exact congrArg Custom.toJson hcustom
  next =>
    cases hs
    change KeyTable.displayed (KeyTable.update (.ofEntries inner) (.ofEntries (extras entries))) = _
    rw [KeyTable.update_ofEntries, KeyTable.displayed_ofEntries (Table.nodup_update hinner _)]

theorem custom_apply (h : (Table.names entries).Nodup) :
    (apply {} entries).custom = .given ((Table.get? "custom" entries).getD (.object [])) := by
  obtain ⟨value, hvalue⟩ := CustomGiven.apply (s := {}) ⟨.object [], rfl⟩ entries
  have hget : value = (Table.get? "custom" entries).getD (.object []) :=
    (congrArg Custom.toJson hvalue).symm.trans (get_apply h {} .custom)
  rw [hvalue, hget]

/-- Merging goes by entries under distinct names, in which the overrides go over the file. -/
theorem merge_entries (hnaming : ∀ entries, IsSource file? overrides? entries → ObjectsUnder "naming" entries) :
    ∃ all, merge file? overrides? = (ofEntries all).mapError .custom ∧ (Table.names all).Nodup ∧
      (∀ setting : Setting, Table.get? setting.name all =
        (overrides?.bind (lastGiven? setting)).or (file?.bind (lastGiven? setting))) ∧
      ∀ key, IsOther key → Table.get? key all = (overrides?.bind (beside? key)).or (file?.bind (beside? key)) := by
  have hempty : (Table.names ([] : Entries)).Nodup := .nil
  obtain ⟨ofFile, hfile, hdistinct, hlookFile⟩ :=
    layer_ok hempty file? fun entries he => hnaming entries (.inl he)
  obtain ⟨all, hall, hdistinct', hlook⟩ :=
    layer_ok hdistinct overrides? fun entries he => hnaming entries (.inr he)
  refine ⟨all, ?_, hdistinct', fun setting => ?_, fun key hkey => ?_⟩
  · rw [merge, hfile]
    change (layer ofFile overrides?).bind _ = _
    rw [hall]
    rfl
  · rw [hlook, hlookFile, Table.get?, Option.or_none]
  · rw [get?_layer_of_other hkey hall, get?_layer_of_other hkey hfile, Table.get?, Option.or_none]

/-- The value that a source gives to a custom setting: beside its settings, else within `custom`. -/
def customGiven? (key : String) (entries : Entries) : Option Json :=
  (beside? key entries).or ((lastGiven? .custom entries).bind (within? key))

/-- What stands under `custom` after a merge: the object of the overrides there, else that of the file, with what
is given beside the settings over it. -/
theorem merge_custom (hcustom : ∀ entries, IsSource file? overrides? entries → TablesUnder "custom" entries)
    (hnaming : ∀ entries, IsSource file? overrides? entries → ObjectsUnder "naming" entries) :
    ∃ s custom, merge file? overrides? = .ok s ∧ s.get .custom = .object custom ∧
      ∀ key, IsOther key → Table.get? key custom =
        ((overrides?.bind (beside? key)).or (file?.bind (beside? key))).or
          (((overrides?.bind (lastGiven? .custom)).or (file?.bind (lastGiven? .custom))).bind (within? key)) := by
  obtain ⟨all, hmerge, hdistinct, hnamed, hother⟩ := merge_entries hnaming
  have hobject : ∀ value, Table.get? "custom" all = some value →
      ∃ inner, value = .object inner ∧ (Table.names inner).Nodup := by
    intro value hvalue
    have hsource := (hnamed .custom).symm.trans hvalue
    rcases Option.or_eq_some_iff.1 hsource with hfound | ⟨-, hfound⟩
    · obtain ⟨entries, he, hlast⟩ := Option.bind_eq_some_iff.1 hfound
      exact hcustom entries (.inr he) value (mem_of_lastGiven?_custom hlast)
    · obtain ⟨entries, he, hlast⟩ := Option.bind_eq_some_iff.1 hfound
      exact hcustom entries (.inl he) value (mem_of_lastGiven?_custom hlast)
  obtain ⟨s, hs, -⟩ := ofEntries_ok hdistinct fun value hvalue => (hobject value hvalue).imp fun _ h => h.1
  obtain ⟨inner, hinner, hnodup, hwithin⟩ : ∃ inner,
      (Table.get? "custom" all).getD (.object []) = .object inner ∧ (Table.names inner).Nodup ∧
        ∀ key, Table.get? key inner = (Table.get? "custom" all).bind (within? key) := by
    cases hvalue : Table.get? "custom" all with
    | none => exact ⟨[], rfl, .nil, fun _ => rfl⟩
    | some value =>
      obtain ⟨inner, rfl, hnodup⟩ := hobject value hvalue
      exact ⟨inner, rfl, hnodup, fun _ => rfl⟩
  have hgiven : (apply {} all).custom = .given (.object inner) := by rw [custom_apply hdistinct, hinner]
  refine ⟨s, Table.update inner (extras all), by rw [hmerge, hs]; rfl, ofEntries_custom hs hgiven hnodup, ?_⟩
  intro key hkey
  rw [Table.get?_update (nodup_extras hdistinct), get?_extras hkey.ofName?, hother key hkey, hwithin]
  have hcustomName := hnamed .custom
  rw [Setting.name] at hcustomName
  rw [hcustomName]

/-- Loading settings from a file that can be read and overrides gives a custom setting the value that the
overrides, else the file, give it beside the settings, and only then one from within `custom`. So what the
overrides give it holds exactly if they give it beside the settings, or the file does not give it another value
there. -/
theorem load_customs {tree : FileTree} {path? : Option FilePath} (hread : path?.mapM (readFile tree) = .ok file?)
    (hcustom : ∀ entries, IsSource file? overrides? entries → TablesUnder "custom" entries)
    (hnaming : ∀ entries, IsSource file? overrides? entries → ObjectsUnder "naming" entries) :
    ∃ s custom, load tree path? overrides? = .ok s ∧ s.get .custom = .object custom ∧ ∀ key, IsOther key →
      (Table.get? key custom = ((overrides?.bind (beside? key)).or (file?.bind (beside? key))).or
        (((overrides?.bind (lastGiven? .custom)).or (file?.bind (lastGiven? .custom))).bind (within? key))) ∧
      ∀ value, overrides?.bind (customGiven? key) = some value →
        (Table.get? key custom = some value ↔
          overrides?.bind (beside? key) = some value ∨ ∀ other ∈ file?.bind (beside? key), other = value) := by
  obtain ⟨s, custom, hs, hget, hlook⟩ := merge_custom hcustom hnaming
  refine ⟨s, custom, by rw [load_eq hread, hs]; rfl, hget, fun key hkey => ⟨hlook key hkey, fun value hvalue => ?_⟩⟩
  obtain ⟨entries, rfl, hgiven⟩ := Option.bind_eq_some_iff.1 hvalue
  rw [hlook key hkey]
  simp only [Option.bind_some]
  rcases Option.or_eq_some_iff.1 hgiven with hbeside | ⟨hnone, hwithin⟩
  · rw [hbeside]
    exact iff_of_true rfl (.inl rfl)
  · obtain ⟨object, hlast, hinner⟩ := Option.bind_eq_some_iff.1 hwithin
    rw [hnone, Option.none_or, hlast, Option.some_or, Option.bind_some, hinner]
    cases hfile : file?.bind (beside? key) with
    | none => simp
    | some other => simp

def themeFolder : FileTree :=
  { nodes := [(["typegen.json"], .file "\x7b\"theme\": \"light\"\x7d".toUTF8)] }

def themeEntries : Entries := [("theme", .text "light")]

def themeBeside : Entries := [("theme", .text "dark")]

def themeWithin : Entries := [("custom", .object [("theme", .text "dark")])]

theorem isOther_theme : IsOther "theme" :=
  ⟨by decide, fun setting => by cases setting <;> decide⟩

theorem readFile_themeFolder : readFile themeFolder projectFile = .ok themeEntries := by
  have hplace : themeFolder.resolve projectFile = .ok ["typegen.json"] := by
    rw [FileTree.resolve, String.contains_char_eq]
    rfl
  have hread : (readFile themeFolder projectFile).toOption = some themeEntries := by
    rw [readFile, FileTree.has, FileTree.read, hplace]
    decide +kernel
  exact ok_of_toOption hread

theorem load_customs_beside :
    (some projectFile).mapM (readFile themeFolder) = .ok (some themeEntries) ∧
      ∃ s custom, load themeFolder (some projectFile) (some themeBeside) = .ok s ∧
        s.get .custom = .object custom ∧ Table.get? "theme" custom = some (.text "dark") := by
  have hread := mapM_readFile readFile_themeFolder
  have hcustom : ∀ entries, IsSource (some themeEntries) (some themeBeside) entries →
      TablesUnder "custom" entries := by
    rintro _ (⟨⟨⟩⟩ | ⟨⟨⟩⟩) <;> simp [TablesUnder, themeEntries, themeBeside]
  have hnaming : ∀ entries, IsSource (some themeEntries) (some themeBeside) entries →
      ObjectsUnder "naming" entries := by
    rintro _ (⟨⟨⟩⟩ | ⟨⟨⟩⟩) <;> simp [ObjectsUnder, themeEntries, themeBeside]
  obtain ⟨s, custom, hs, hget, hlook⟩ := load_customs hread hcustom hnaming
  refine ⟨hread, s, custom, hs, hget, ?_⟩
  exact ((hlook "theme" isOther_theme).2 (.text "dark") (by decide)).2 (.inl (by decide))

/-- What the overrides give within `custom` gives way to what the file gives beside its settings. -/
theorem load_within_overridden :
    (some projectFile).mapM (readFile themeFolder) = .ok (some themeEntries) ∧
      customGiven? "theme" themeWithin = some (.text "dark") ∧ IsOther "theme" ∧
      ∃ s custom, load themeFolder (some projectFile) (some themeWithin) = .ok s ∧
        s.get .custom = .object custom ∧ Table.get? "theme" custom = some (.text "light") := by
  have hmerge : (merge (some themeEntries) (some themeWithin)).toOption.map (fun s => s.get .custom) =
      some (.object [("theme", .text "light")]) := by decide +kernel
  have hread := mapM_readFile readFile_themeFolder
  refine ⟨hread, by decide, isOther_theme, ?_⟩
  cases hs : merge (some themeEntries) (some themeWithin) with
  | error fault => rw [hs] at hmerge; cases hmerge
  | ok s =>
    rw [hs] at hmerge
    refine ⟨s, _, ?_, Option.some.inj hmerge, by decide⟩
    rw [load_eq hread, hs]
    rfl

end Settings

end SchemaDecl

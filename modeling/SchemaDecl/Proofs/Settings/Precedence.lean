import SchemaDecl.Proofs.Settings.Spellings
import SchemaDecl.Settings.File

/-!
# Which value a setting has

Settings come from the overrides, else from the file, else from the defaults. Where a source gives a setting
more than once, under whatever spellings, the last value holds.
-/

namespace SchemaDecl.Settings

variable {s : Settings} {entries : Entries} {source? : Option Entries}

theorem apply_name (s : Settings) (setting : Setting) (value : Json) (rest : Entries) :
    apply s ((setting.name, value) :: rest) = apply (s.set setting value) rest := by
  rw [apply, List.foldl_cons, ← apply]
  dsimp only
  rw [ofName?_name]

theorem apply_extra {key : String} (h : Setting.ofName? key = none) (s : Settings) (value : Json) (rest : Entries) :
    apply s ((key, value) :: rest) = apply s rest := by
  rw [apply, List.foldl_cons, ← apply]
  dsimp only
  rw [h]

theorem name_or_extra (key : String) : (∃ setting : Setting, key = setting.name) ∨ Setting.ofName? key = none := by
  cases h : Setting.ofName? key with
  | none => exact .inr rfl
  | some setting => exact .inl ⟨setting, ofName?_eq_some_iff.1 h⟩

theorem get_apply (h : (Table.names entries).Nodup) (s : Settings) (setting : Setting) :
    (apply s entries).get setting = (Table.get? setting.name entries).getD (s.get setting) := by
  induction entries generalizing s with
  | nil => rfl
  | cons e rest ih =>
    obtain ⟨key, value⟩ := e
    obtain ⟨hkey, hrest⟩ := List.nodup_cons.1 h
    rcases name_or_extra key with ⟨other, rfl⟩ | hextra
    · rw [apply_name, ih hrest, get_set, Table.get?]
      by_cases heq : other = setting
      · -- the name is not given again, so that the value stays
        subst heq
        rw [if_pos rfl, if_pos rfl, Table.get?_eq_none hkey]
        rfl
      · rw [if_neg heq, if_neg (mt name_injective heq)]
    · have hne : key ≠ setting.name := fun heq => by
        rw [ofName?_eq_some_iff.2 heq] at hextra
        cases hextra
      rw [apply_extra hextra, ih hrest, Table.get?, if_neg hne]

/-- What stands under `custom` is a value as it was given. -/
def CustomGiven (s : Settings) : Prop := ∃ value, s.custom = .given value

theorem CustomGiven.set (h : s.CustomGiven) (setting : Setting) (value : Json) : (s.set setting value).CustomGiven := by
  cases setting with
  | custom => exact ⟨value, rfl⟩
  | _ => exact h

theorem CustomGiven.apply (h : s.CustomGiven) (entries : Entries) : (s.apply entries).CustomGiven := by
  induction entries generalizing s with
  | nil => exact h
  | cons e rest ih =>
    obtain ⟨key, value⟩ := e
    rcases name_or_extra key with ⟨setting, rfl⟩ | hextra
    · rw [apply_name]
      exact ih (h.set setting value)
    · rw [apply_extra hextra]
      exact ih h

/-- A prefix of `null` is no prefix. -/
def orNoPrefix (setting : Setting) (value : Json) : Json :=
  if setting = .namePrefix ∧ value = .null then .text "" else value

theorem get_noPrefix (s : Settings) (setting : Setting) :
    (if s.namePrefix = .null then { s with namePrefix := .text "" } else s).get setting =
      orNoPrefix setting (s.get setting) := by
  rw [orNoPrefix]
  by_cases h : s.namePrefix = .null
  · rw [if_pos h]
    cases setting <;> simp [get, h]
  · rw [if_neg h]
    cases setting <;> simp [get, h]

theorem get_withCustom {setting : Setting} (h : setting ∈ Setting.basic) (s : Settings) (custom : Custom) :
    { s with custom := custom }.get setting = s.get setting := by
  cases setting with
  | custom => simp [Setting.basic] at h
  | _ => rfl

theorem ofEntries_ok (h : (Table.names entries).Nodup)
    (hc : ∀ value, Table.get? "custom" entries = some value → ∃ inner, value = .object inner) :
    ∃ s, ofEntries entries = .ok s ∧ ∀ setting ∈ Setting.basic,
      s.get setting = orNoPrefix setting ((Table.get? setting.name entries).getD (({} : Settings).get setting)) := by
  have hget := get_apply h {}
  obtain ⟨custom, hcustom⟩ := CustomGiven.apply (s := {}) ⟨.object [], rfl⟩ entries
  have hobject : ∃ inner, custom = .object inner := by
    have hvalue : custom = (Table.get? "custom" entries).getD (.object []) := by
      have hjson : (apply {} entries).get .custom = custom := congrArg Custom.toJson hcustom
      rw [← hjson]
      exact hget .custom
    cases hentry : Table.get? "custom" entries with
    | none => exact ⟨[], by rw [hvalue, hentry]; rfl⟩
    | some value => exact hc custom (by rw [hentry, hvalue, hentry]; rfl)
  obtain ⟨inner, rfl⟩ := hobject
  have hnoPrefix := get_noPrefix (apply {} entries)
  have hcustom' : (if (apply {} entries).namePrefix = .null then { apply {} entries with namePrefix := .text "" }
      else apply {} entries).custom = .given (.object inner) := by
    split <;> exact hcustom
  rw [ofEntries]
  split
  next => exact ⟨_, rfl, fun setting _ => by rw [hnoPrefix, hget]⟩
  next =>
    rw [hcustom']
    exact ⟨_, rfl, fun setting hs => by rw [get_withCustom hs, hnoPrefix, hget]⟩

theorem layer_ok (h : (Table.names entries).Nodup) (source? : Option Entries)
    (hs : ∀ newer ∈ source?, ObjectsUnder "naming" newer) :
    ∃ out, layer entries source? = .ok out ∧ (Table.names out).Nodup ∧ ∀ setting : Setting,
      Table.get? setting.name out = (source?.bind (lastGiven? setting)).or (Table.get? setting.name entries) := by
  cases source? with
  | none => exact ⟨entries, rfl, h, fun _ => rfl⟩
  | some newer =>
    have hempty : Normal [] := ⟨.nil, by rintro _ ⟨⟩⟩
    rw [layer]
    cases hread : normalize newer with
    | none => exact absurd (hs newer rfl) (normalizeInto_eq_none_iff.1 hread)
    | some normal =>
      have hdistinct := (normalizeInto_normal hempty hread).distinct
      refine ⟨Table.update entries normal, rfl, Table.nodup_update h normal, fun setting => ?_⟩
      have hlast := get?_normalizeInto setting hread
      rw [Table.get?, Option.or_none] at hlast
      rw [Table.get?_update hdistinct, hlast]
      rfl

theorem layer_naming (hs : ¬ ∀ newer ∈ source?, ObjectsUnder "naming" newer) (entries : Entries) :
    layer entries source? = .error .naming := by
  cases source? with
  | none => exact absurd (by rintro _ ⟨⟩) hs
  | some newer =>
    have hnaming : ¬ ObjectsUnder "naming" newer := fun h => hs (by rintro _ ⟨⟩; exact h)
    rw [layer, normalize, normalizeInto_eq_none_iff.2 hnaming]

/-- The entries come from the file or from the overrides. -/
def IsSource (file? overrides? : Option Entries) (entries : Entries) : Prop :=
  file? = some entries ∨ overrides? = some entries

variable {file? overrides? : Option Entries}

theorem merge_ok (hcustom : ∀ entries, IsSource file? overrides? entries → ObjectsUnder "custom" entries)
    (hnaming : ∀ entries, IsSource file? overrides? entries → ObjectsUnder "naming" entries) :
    ∃ s, merge file? overrides? = .ok s ∧ ∀ setting ∈ Setting.basic,
      s.get setting = orNoPrefix setting (((overrides?.bind (lastGiven? setting)).or
        (file?.bind (lastGiven? setting))).getD (({} : Settings).get setting)) := by
  have hempty : (Table.names ([] : Entries)).Nodup := .nil
  obtain ⟨ofFile, hfile, hdistinct, hlookFile⟩ :=
    layer_ok hempty file? fun entries he => hnaming entries (.inl he)
  obtain ⟨all, hall, hdistinct', hlook⟩ :=
    layer_ok hdistinct overrides? fun entries he => hnaming entries (.inr he)
  have hgiven : ∀ setting : Setting, Table.get? setting.name all =
      (overrides?.bind (lastGiven? setting)).or (file?.bind (lastGiven? setting)) := by
    intro setting
    rw [hlook, hlookFile, Table.get?, Option.or_none]
  have hobject : ∀ value, Table.get? "custom" all = some value → ∃ inner, value = .object inner := by
    intro value hvalue
    have hsource := (hgiven .custom).symm.trans hvalue
    rcases Option.or_eq_some_iff.1 hsource with hfound | ⟨-, hfound⟩
    · obtain ⟨entries, he, hlast⟩ := Option.bind_eq_some_iff.1 hfound
      exact hcustom entries (.inr he) value (mem_of_lastGiven?_custom hlast)
    · obtain ⟨entries, he, hlast⟩ := Option.bind_eq_some_iff.1 hfound
      exact hcustom entries (.inl he) value (mem_of_lastGiven?_custom hlast)
  obtain ⟨s, hs, hget⟩ := ofEntries_ok hdistinct' hobject
  refine ⟨s, ?_, fun setting hm => by rw [hget setting hm, hgiven]⟩
  rw [merge, hfile]
  change (layer ofFile overrides?).bind _ = _
  rw [hall]
  change (ofEntries all).mapError MergeFault.custom = _
  rw [hs]
  rfl

theorem merge_naming (he : IsSource file? overrides? entries) (hbad : ¬ ObjectsUnder "naming" entries) :
    merge file? overrides? = .error .naming := by
  rw [merge]
  by_cases hfile : ∀ entries ∈ file?, ObjectsUnder "naming" entries
  · have hempty : (Table.names ([] : Entries)).Nodup := .nil
    obtain ⟨ofFile, hlayer, -⟩ := layer_ok hempty file? hfile
    have hover : ¬ ∀ entries ∈ overrides?, ObjectsUnder "naming" entries := fun h =>
      hbad (he.elim (fun he => hfile entries he) (fun he => h entries he))
    rw [hlayer]
    change (layer ofFile overrides?).bind _ = _
    rw [layer_naming hover]
    rfl
  · rw [layer_naming hfile]
    rfl

theorem ok_of_toOption {ε α : Type} {r : Except ε α} {a : α} (h : r.toOption = some a) : r = .ok a := by
  cases r with
  | error e => cases h
  | ok b => exact congrArg Except.ok (Option.some.inj h)

theorem mapM_readFile {tree : FileTree} {path : FilePath} (h : readFile tree path = .ok entries) :
    (some path).mapM (readFile tree) = .ok (some entries) := by
  change (readFile tree path).bind _ = _
  rw [h]
  rfl

theorem load_eq {tree : FileTree} {path? : Option FilePath} (h : path?.mapM (readFile tree) = .ok file?) :
    load tree path? overrides? = (merge file? overrides?).mapError .merge := by
  cases path? with
  | none =>
    cases h
    rfl
  | some path =>
    rw [load]
    cases hfile : readFile tree path with
    | error fault =>
      change (readFile tree path).bind _ = _ at h
      rw [hfile] at h
      cases h
    | ok entries =>
      change (readFile tree path).bind _ = _ at h
      rw [hfile] at h
      cases h
      change (((readFile tree path).mapError (LoadFault.file path)).bind _).bind _ = _
      rw [hfile]
      rfl

/-- Loading settings from a file that can be read and overrides, whose entries for `custom` are objects, fails
exactly if one of them has an entry for `naming` that is no object. Otherwise every setting has the value that
the overrides give it last, else the one that the file gives it last, else its default, and a prefix of `null`
is empty. What reading a source makes of it is read as it is. -/
theorem load_settings {tree : FileTree} {path? : Option FilePath} (hread : path?.mapM (readFile tree) = .ok file?)
    (hcustom : ∀ entries, IsSource file? overrides? entries → ObjectsUnder "custom" entries) :
    (load tree path? overrides? = .error (.merge .naming) ↔
        ∃ entries, IsSource file? overrides? entries ∧ ¬ ObjectsUnder "naming" entries) ∧
      ((∀ entries, IsSource file? overrides? entries → ObjectsUnder "naming" entries) →
        ∃ s, load tree path? overrides? = .ok s ∧ ∀ setting ∈ Setting.basic,
          s.get setting = orNoPrefix setting (((overrides?.bind (lastGiven? setting)).or
            (file?.bind (lastGiven? setting))).getD (({} : Settings).get setting))) ∧
      ∀ entries, (normalize entries).bind normalize = normalize entries := by
  refine ⟨?_, fun hnaming => ?_, normalize_normalize⟩
  · rw [load_eq hread]
    constructor
    · intro h
      by_cases hbad : ∃ entries, IsSource file? overrides? entries ∧ ¬ ObjectsUnder "naming" entries
      · exact hbad
      · have hnaming : ∀ entries, IsSource file? overrides? entries → ObjectsUnder "naming" entries :=
          fun entries he => Classical.not_not.1 fun hn => hbad ⟨entries, he, hn⟩
        obtain ⟨s, hs, -⟩ := merge_ok hcustom hnaming
        rw [hs] at h
        cases h
    · rintro ⟨entries, he, hbad⟩
      rw [merge_naming he hbad]
      rfl
  · obtain ⟨s, hs, hget⟩ := merge_ok hcustom hnaming
    exact ⟨s, by rw [load_eq hread, hs]; rfl, hget⟩

def projectFolder : FileTree :=
  { nodes := [(["typegen.json"],
      .file "\x7b\"naming\": \x7b\"prefix\": \"I\"\x7d, \"systemFields\": true\x7d".toUTF8)] }

def projectFile : FilePath := ⟨false, ["typegen.json"]⟩

def projectEntries : Entries := [("naming", .object [("prefix", .text "I")]), ("systemFields", .bool true)]

/-- Two spellings of one setting, and a prefix. -/
def tagOverrides : Entries :=
  [("editable_tags", .bool true), ("prefix", .text "T"), ("isEditableTags", .bool false)]

theorem readFile_projectFile : readFile projectFolder projectFile = .ok projectEntries := by
  have hplace : projectFolder.resolve projectFile = .ok ["typegen.json"] := by
    rw [FileTree.resolve, String.contains_char_eq]
    rfl
  have hread : (readFile projectFolder projectFile).toOption = some projectEntries := by
    rw [readFile, FileTree.has, FileTree.read, hplace]
    decide +kernel
  exact ok_of_toOption hread

theorem load_settings_projectFile :
    (some projectFile).mapM (readFile projectFolder) = .ok (some projectEntries) ∧
      ∃ s, load projectFolder (some projectFile) (some tagOverrides) = .ok s ∧
        s.namePrefix = .text "T" ∧ s.editableTags = .bool false ∧ s.systemFields = .bool true ∧
        s.documentation = .bool true := by
  have hread := mapM_readFile readFile_projectFile
  have hcustom : ∀ entries, IsSource (some projectEntries) (some tagOverrides) entries →
      ObjectsUnder "custom" entries := by
    rintro _ (⟨⟨⟩⟩ | ⟨⟨⟩⟩) <;> simp [ObjectsUnder, projectEntries, tagOverrides]
  have hnaming : ∀ entries, IsSource (some projectEntries) (some tagOverrides) entries →
      ObjectsUnder "naming" entries := by
    rintro _ (⟨⟨⟩⟩ | ⟨⟨⟩⟩) <;> simp [ObjectsUnder, projectEntries, tagOverrides]
  obtain ⟨-, hloads, -⟩ := load_settings hread hcustom
  obtain ⟨s, hs, hget⟩ := hloads hnaming
  refine ⟨hread, s, hs, ?_, ?_, ?_, ?_⟩
  · exact (hget .namePrefix (by decide)).trans (by decide +kernel)
  · exact (hget .editableTags (by decide)).trans (by decide +kernel)
  · exact (hget .systemFields (by decide)).trans (by decide +kernel)
  · exact (hget .documentation (by decide)).trans (by decide +kernel)

end SchemaDecl.Settings

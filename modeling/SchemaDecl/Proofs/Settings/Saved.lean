import SchemaDecl.Proofs.Json.Indented
import SchemaDecl.Proofs.Json.Same
import SchemaDecl.Proofs.Settings.CustomKeys
import SchemaDecl.Proofs.Source.FileTree

/-!
# Saving settings and loading them back

A saved file has the custom settings beside the others. Loading it tells them apart by their keys, so that the
settings come back exactly if no custom setting has a key that stands for something else. A custom setting
`custom` is unpacked on loading; what comes out of it lies deeper than it did, and is not the same.
-/

namespace SchemaDecl

variable {key value k v w : Json} {name : String} {table out : KeyTable} {entries : Entries}

theorem KeyTable.mem_put (h : (k, v) ∈ KeyTable.put key value table) :
    (k.sameKey key = true ∨ k = key) ∧ v = value ∨ (k, v) ∈ table := by
  induction table with
  | nil =>
    cases List.mem_singleton.1 h
    exact .inl ⟨.inr rfl, rfl⟩
  | cons e rest ih =>
    obtain ⟨other, old⟩ := e
    rw [KeyTable.put] at h
    split at h
    next hsame =>
      rcases List.mem_cons.1 h with heq | h
      · cases heq
        exact .inl ⟨.inl hsame, rfl⟩
      · exact .inr (List.mem_cons_of_mem _ h)
    next =>
      rcases List.mem_cons.1 h with heq | h
      · exact .inr (heq ▸ List.mem_cons_self)
      · exact (ih h).imp_right (List.mem_cons_of_mem _)

theorem KeyTable.mem_update_ofEntries (h : (k, v) ∈ KeyTable.update table (.ofEntries entries)) :
    (∃ name, k = .text name ∧ (name, v) ∈ entries) ∨ (k, v) ∈ table := by
  induction entries generalizing table with
  | nil => exact .inr h
  | cons e rest ih =>
    rcases ih h with ⟨name, hk, hm⟩ | hput
    · exact .inl ⟨name, hk, List.mem_cons_of_mem _ hm⟩
    · rcases KeyTable.mem_put hput with ⟨hsame, rfl⟩ | htable
      · exact .inl ⟨e.1, hsame.elim Json.sameKey_text id, List.mem_cons_self⟩
      · exact .inr htable

theorem KeyTable.mem_displayed (h : table.displayed = .object entries) (hm : (name, v) ∈ entries) :
    ∃ k, (k, v) ∈ table ∧ k.display = name := by
  rw [← Json.object.inj h] at hm
  obtain ⟨⟨k, _⟩, hk, heq⟩ := List.mem_map.1 (Table.mem_of_mem_ofPairs hm)
  cases heq
  exact ⟨k, hk, rfl⟩

namespace Custom

theorem depth_pairItems {item : Json} {items : List Json} (h : pairItems? item = some items) :
    ∀ x ∈ items, x.depth ≤ item.depth := by
  intro x hx
  cases item with
  | list items' =>
    cases h
    exact Nat.le_of_lt (Json.depth_lt_list hx)
  | text s =>
    cases h
    obtain ⟨c, -, rfl⟩ := List.mem_map.1 hx
    exact Nat.zero_le _
  | object entries =>
    cases h
    obtain ⟨e, -, rfl⟩ := List.mem_map.1 hx
    exact Nat.zero_le _
  | _ => cases h

theorem depth_readPair {index : Nat} {item : Json} (h : readPair index item = .ok (k, v)) : v.depth ≤ item.depth := by
  rw [readPair] at h
  split at h
  next => cases h
  next key value hitems =>
    split at h
    next =>
      cases h
      exact depth_pairItems hitems v (by simp)
    next => cases h
  next => cases h

theorem depth_readPairs {bound index : Nat} {items : List Json} (h : readPairs index table items = .ok out)
    (htable : ∀ k v, (k, v) ∈ table → v.depth < bound) (hitems : ∀ item ∈ items, item.depth < bound) :
    ∀ k v, (k, v) ∈ out → v.depth < bound := by
  induction items generalizing index table with
  | nil =>
    cases h
    exact htable
  | cons item rest ih =>
    rw [readPairs] at h
    cases hpair : readPair index item with
    | error fault =>
      rw [hpair] at h
      cases h
    | ok pair =>
      obtain ⟨key, value⟩ := pair
      rw [hpair] at h
      have hvalue : value.depth < bound :=
        Nat.lt_of_le_of_lt (depth_readPair hpair) (hitems item List.mem_cons_self)
      refine ih h (fun k v hm => ?_) fun item hm => hitems item (List.mem_cons_of_mem _ hm)
      rcases KeyTable.mem_put hm with ⟨-, rfl⟩ | hm
      · exact hvalue
      · exact htable k v hm

theorem readPairs_characters {index : Nat} {cs : List Char}
    (h : readPairs index table (cs.map fun c => .text (String.ofList [c])) = .ok out) : out = table := by
  cases cs with
  | nil =>
    cases h
    rfl
  | cons c rest =>
    have hpair : readPair index (.text (String.ofList [c])) = .error (.pairOfWrongSize index 1) := by
      rw [readPair, pairItems?, String.toList_ofList]
      rfl
    rw [List.map_cons, readPairs, hpair] at h
    cases h

theorem depth_entriesOf {value : Json} (h : entriesOf value = .ok out) (hm : (k, v) ∈ out) : v.depth < value.depth := by
  cases value with
  | object entries =>
    cases h
    obtain ⟨e, he, heq⟩ := List.mem_map.1 hm
    cases heq
    exact Json.depth_lt_object he
  | list items =>
    exact depth_readPairs h (fun _ _ hnil => absurd hnil List.not_mem_nil)
      (fun item hitem => Json.depth_lt_list hitem) k v hm
  | text s =>
    rw [readPairs_characters h] at hm
    cases hm
  | _ => cases h

/-- What stands under `custom` is a table of entries. -/
inductive Holds (entries : Entries) : Custom → Prop
  | given : Holds entries (.given (.object entries))
  | keyed : Holds entries (.keyed (.ofEntries entries))

theorem Holds.read {custom : Custom} (h : custom.Holds entries) : custom.read = .ok (.ofEntries entries) := by
  cases h <;> rfl

theorem Holds.toJson {custom : Custom} (h : custom.Holds entries) (hd : (Table.names entries).Nodup) :
    custom.toJson = .object entries := by
  cases h with
  | given => rfl
  | keyed => exact KeyTable.displayed_ofEntries hd

end Custom

namespace Settings

variable {s t : Settings} {custom normal : Entries} {tree : FileTree} {path : FilePath} {place : List String}

/-- Settings are the same if every setting has the same value. -/
def Same (s t : Settings) : Prop := ∀ setting : Setting, (s.get setting).same (t.get setting) = true

/-- What settings have under `custom` once entries have become settings: an entry of another name, or something
that lies within what the entries have under `custom`. -/
theorem mem_custom_of_ofEntries (hd : (Table.names entries).Nodup) (hs : ofEntries entries = .ok s)
    (hcustom : s.get .custom = .object custom) (hm : (name, w) ∈ custom) :
    (name, w) ∈ extras entries ∨ w.depth < ((Table.get? "custom" entries).getD (.object [])).depth := by
  have hgiven := (custom_noPrefix (apply {} entries)).trans (custom_apply hd)
  rw [ofEntries, hgiven] at hs
  split at hs
  next =>
    cases hs
    have hvalue := (congrArg Custom.toJson hgiven).symm.trans hcustom
    change (Table.get? "custom" entries).getD (.object []) = .object custom at hvalue
    rw [hvalue]
    exact .inr (Json.depth_lt_object hm)
  next =>
    cases hread : Custom.entriesOf ((Table.get? "custom" entries).getD (.object [])) with
    | error fault =>
      rw [Custom.read, hread] at hs
      cases hs
    | ok table =>
      rw [Custom.read, hread] at hs
      cases hs
      obtain ⟨k, hk, hname⟩ := KeyTable.mem_displayed hcustom hm
      rcases KeyTable.mem_update_ofEntries hk with ⟨other, rfl, he⟩ | htable
      · exact .inl (hname ▸ he)
      · exact .inr (Custom.depth_entriesOf hread htable)

theorem merge_file_iff : merge (some entries) none = .ok s ↔ ∃ normal, normalize entries = some normal ∧
    ofEntries normal = .ok s := by
  have hempty : Normal [] := ⟨.nil, by rintro _ ⟨⟩⟩
  cases hread : normalize entries with
  | none =>
    have hmerge : merge (some entries) none = .error .naming := by
      rw [merge, layer, hread]
      rfl
    rw [hmerge]
    exact iff_of_false (by rintro ⟨⟩) (by rintro ⟨_, ⟨⟩, -⟩)
  | some normal =>
    have hdistinct := (normalizeInto_normal hempty hread).distinct
    have hmerge : merge (some entries) none = (ofEntries normal).mapError MergeFault.custom := by
      rw [merge, layer, hread]
      change (ofEntries (Table.ofPairs normal)).mapError MergeFault.custom = _
      rw [Table.ofPairs_of_nodup hdistinct]
    rw [hmerge]
    constructor
    · intro h
      refine ⟨normal, rfl, ?_⟩
      cases hs : ofEntries normal with
      | error fault => rw [hs] at h; cases h
      | ok s => rw [hs] at h; cases h; rfl
    · rintro ⟨_, ⟨⟩, hs⟩
      rw [hs]
      rfl

theorem isOther_of_extra (hn : Normal entries) (hm : (name, value) ∈ extras entries) : IsOther name := by
  obtain ⟨he, hextra⟩ := List.mem_filter.1 hm
  obtain ⟨hnaming, hcanonical⟩ := hn.canonical name (List.mem_map_of_mem he)
  have hnone : Setting.ofName? name = none := Option.isNone_iff_eq_none.1 hextra
  have hne : ∀ setting : Setting, name ≠ setting.name := fun setting hname => by
    rw [ofName?_eq_some_iff.2 hname] at hnone
    cases hnone
  refine ⟨hnaming, fun setting => ⟨hne setting, fun halias => hne setting ?_⟩⟩
  exact hcanonical.symm.trans (canonical_eq_name_iff.2 (.inr halias))

theorem given?_custom (key : String) (value : Json) :
    given? .custom (key, value) = if key = "custom" then some value else none := by
  by_cases hkey : key = "naming"
  · subst hkey
    rw [given?, if_neg (not_or.2 ⟨by decide, naming_not_spelling .custom⟩), if_neg (by simp), if_neg (by decide)]
  · have hiff : Setting.canonical key = Setting.name .custom ↔ key = "custom" := by
      rw [canonical_eq_name_iff, Setting.name, or_iff_left]
      simp [Setting.aliases]
    rw [given?_of_ne hkey]
    simp only [hiff]

theorem lastGiven?_custom (hd : (Table.names entries).Nodup) :
    lastGiven? .custom entries = Table.get? "custom" entries := by
  have hbeside : ∀ entries, lastGiven? .custom entries = beside? "custom" entries := by
    intro entries
    induction entries with
    | nil => rfl
    | cons e rest ih =>
      obtain ⟨key, value⟩ := e
      rw [lastGiven?_cons, beside?_cons, ih, given?_custom]
  rw [hbeside, beside?, Table.ofPairs_of_nodup hd]

/-- The entries that settings with a table of custom settings are saved as. -/
def savedEntries (s : Settings) (custom : Entries) : Entries := Table.update s.basicEntries custom

theorem names_basicEntries (s : Settings) : Table.names s.basicEntries = Setting.basic.map Setting.name := by
  rw [Table.names, basicEntries, List.map_map]
  rfl

theorem nodup_basicEntries (s : Settings) : (Table.names s.basicEntries).Nodup := by
  rw [names_basicEntries]
  decide

theorem nodup_savedEntries (s : Settings) (custom : Entries) : (Table.names (s.savedEntries custom)).Nodup :=
  Table.nodup_update s.nodup_basicEntries custom

def savedText (s : Settings) (custom : Entries) : String :=
  (Json.object (s.savedEntries custom)).renderIndented 0

theorem noReturn_savedText (s : Settings) (custom : Entries) : NoReturn (s.savedText custom) :=
  Json.noReturn_renderIndented 0 _

theorem save_eq (hcustom : s.custom.Holds custom) (hplace : tree.resolve path = .ok place)
    (hfree : tree.isFolder place = false) (hwritable : tree.mayWrite place = true) :
    save s path tree = .ok (tree.stored place (s.savedText custom).toUTF8) := by
  have hentries : s.toEntries = .ok (.ofEntries (s.savedEntries custom)) := by
    rw [toEntries, hcustom.read]
    change Except.ok (KeyTable.update (.ofEntries s.basicEntries) (.ofEntries custom)) = _
    rw [KeyTable.update_ofEntries]
    rfl
  rw [save, hentries]
  change (tree.write path ((KeyTable.written (.ofEntries (s.savedEntries custom))).renderIndented 0).toUTF8).mapError
    (SaveFault.unwritable path) = _
  rw [KeyTable.written_ofEntries, FileTree.write_of_resolve hplace hfree hwritable]
  rfl

theorem readFile_stored {text : String} (hjson : path.isJson = true) (hplace : tree.resolve path = .ok place)
    (hfree : tree.isFolder place = false) (hreadable : tree.allows .read place = true) (htext : NoReturn text)
    (hread : Json.read text = .ok (.object entries)) :
    readFile (tree.stored place text.toUTF8) path = .ok entries := by
  rw [readFile, FileTree.has_stored hplace hfree, FileTree.read_stored hplace hfree hreadable, hjson]
  change (((Utf8.decodeLines text.toUTF8).mapError FileFault.notText).bind fun text =>
    ((Json.read text).mapError FileFault.malformed).bind _) = _
  rw [Utf8.decodeLines_toUTF8 htext]
  change ((Json.read text).mapError FileFault.malformed).bind _ = _
  rw [hread]
  rfl

variable {leading : String}

theorem savedEntries_eq (hd : (Table.names custom).Nodup) (hother : ∀ key ∈ Table.names custom, IsOther key) :
    s.savedEntries custom = s.basicEntries ++ custom := by
  refine Table.update_of_nodup ?_
  rw [Table.names, List.map_append]
  refine List.nodup_append.2 ⟨s.nodup_basicEntries, hd, ?_⟩
  rintro name hname _ hkey rfl
  rw [← Table.names, names_basicEntries] at hname
  obtain ⟨setting, -, rfl⟩ := List.mem_map.1 hname
  exact ((hother _ hkey).2 setting).1 rfl

theorem normal_savedEntries (hother : ∀ key ∈ Table.names custom, IsOther key) : Normal (s.savedEntries custom) where
  distinct := s.nodup_savedEntries custom
  canonical name hm := by
    rcases Table.mem_names_update.1 hm with hkey | hname
    · exact ⟨(hother name hkey).1, (hother name hkey).canonical_eq⟩
    · rw [names_basicEntries] at hname
      obtain ⟨setting, -, rfl⟩ := List.mem_map.1 hname
      exact ⟨name_ne_naming setting, canonical_name setting⟩

theorem extras_savedEntries (hd : (Table.names custom).Nodup) (hother : ∀ key ∈ Table.names custom, IsOther key) :
    extras (s.savedEntries custom) = custom := by
  have hbasic : extras s.basicEntries = [] := by
    refine List.filter_eq_nil_iff.2 fun e he => ?_
    obtain ⟨setting, -, rfl⟩ := List.mem_map.1 he
    simp [ofName?_name]
  have hcustom : extras custom = custom := by
    refine List.filter_eq_self.2 fun e he => ?_
    simp [(hother e.1 (List.mem_map_of_mem he)).ofName?]
  rw [savedEntries_eq hd hother, extras, List.filter_append, ← extras, ← extras, hbasic, hcustom, List.nil_append]

theorem get?_savedEntries (hd : (Table.names custom).Nodup) (hother : ∀ key ∈ Table.names custom, IsOther key)
    {setting : Setting} (hs : setting ∈ Setting.basic) :
    Table.get? setting.name (s.savedEntries custom) = some (s.get setting) := by
  rw [Table.get?_eq_some_iff (s.nodup_savedEntries custom), savedEntries_eq hd hother]
  exact List.mem_append_left _ (List.mem_map.2 ⟨setting, hs, rfl⟩)

theorem get?_custom_savedEntries (hcustom : "custom" ∉ Table.names custom) :
    Table.get? "custom" (s.savedEntries custom) = none := by
  refine Table.get?_eq_none fun hm => ?_
  rcases Table.mem_names_update.1 hm with hkey | hname
  · exact hcustom hkey
  · rw [names_basicEntries] at hname
    exact absurd hname (by decide)

/-- If no custom setting has a key that stands for something else, every setting comes back as it was. -/
theorem merge_savedEntries (hlead : s.namePrefix = .text leading) (hcustom : s.custom.Holds custom)
    (hd : (Table.names custom).Nodup) (hother : ∀ key ∈ Table.names custom, IsOther key) :
    ∃ t, merge (some (s.savedEntries custom)) none = .ok t ∧ ∀ setting, t.get setting = s.get setting := by
  have hnone : Table.get? "custom" (s.savedEntries custom) = none :=
    get?_custom_savedEntries fun hm => ((hother _ hm).2 .custom).1 rfl
  have hdistinct := s.nodup_savedEntries custom
  obtain ⟨t, ht, hget⟩ := ofEntries_ok hdistinct (by simp [hnone])
  have hread : normalize (s.savedEntries custom) = some (s.savedEntries custom) :=
    normalizeInto_of_normal (normal_savedEntries hother)
  refine ⟨t, merge_file_iff.2 ⟨_, hread, ht⟩, fun setting => ?_⟩
  by_cases hbasic : setting ∈ Setting.basic
  · rw [hget setting hbasic, get?_savedEntries hd hother hbasic, Option.getD_some, orNoPrefix, if_neg]
    rintro ⟨rfl, hnull⟩
    rw [get, hlead] at hnull
    cases hnull
  · have hsetting : setting = .custom := by
      cases setting <;> simp_all [Setting.basic]
    have hempty : (apply {} (s.savedEntries custom)).custom = .given (.object []) := by
      rw [custom_apply hdistinct, hnone]
      rfl
    rw [hsetting, ofEntries_custom ht hempty .nil, extras_savedEntries hd hother]
    change Json.object (Table.ofPairs custom) = s.custom.toJson
    rw [Table.ofPairs_of_nodup hd, hcustom.toJson hd]

/-- If the settings that come back are the same, no custom setting had a key that stands for something else. -/
theorem isOther_of_same (hcustom : s.custom.Holds custom) (hd : (Table.names custom).Nodup)
    (ht : merge (some (s.savedEntries custom)) none = .ok t) (hsame : s.Same t) :
    ∀ key ∈ Table.names custom, IsOther key := by
  have hempty : Normal [] := ⟨.nil, by rintro _ ⟨⟩⟩
  obtain ⟨normal, hread, hof⟩ := merge_file_iff.1 ht
  have hn : Normal normal := normalizeInto_normal hempty hread
  have hlook : Table.get? "custom" normal = Table.get? "custom" custom := by
    have hlast := get?_normalizeInto .custom hread
    rw [lastGiven?_custom (s.nodup_savedEntries custom), savedEntries, Table.get?_update hd] at hlast
    change Table.get? "custom" normal = ((Table.get? "custom" custom).or none).or none at hlast
    rw [hlast, Option.or_none, Option.or_none]
  have hobject : (Json.object custom).same (t.get .custom) = true := hcustom.toJson hd ▸ hsame .custom
  obtain ⟨loaded, hloaded, hentries⟩ := Json.same_object hobject
  have hcases : ∀ name w, (name, w) ∈ loaded →
      IsOther name ∨ w.depth < ((Table.get? "custom" custom).getD (.object [])).depth := fun name w hm =>
    (hlook ▸ mem_custom_of_ofEntries hn.distinct hof hloaded hm).imp_left (isOther_of_extra hn)
  intro key hkey
  cases hvalue : Table.get? "custom" custom with
  | none =>
    obtain ⟨⟨_, value⟩, hm, rfl⟩ := List.mem_map.1 hkey
    obtain ⟨w, hw, -⟩ := Json.mem_of_entriesIn hentries hm
    refine (hcases _ w hw).resolve_right fun hdepth => ?_
    rw [hvalue] at hdepth
    exact absurd hdepth (Nat.not_lt_zero _)
  | some value =>
    -- what is loaded for the key `custom` itself lies too deep to be the same
    obtain ⟨w, hw, hsameValue⟩ := Json.mem_of_entriesIn hentries (Table.mem_of_get? hvalue)
    rcases hcases _ w hw with hother | hdepth
    · exact absurd rfl (hother.2 .custom).1
    · rw [hvalue] at hdepth
      exact absurd hdepth (Nat.not_lt.2 (Json.depth_le_of_same hsameValue))

/-- Saving settings, with a text as their prefix and a table of custom settings, to a JSON file that may be written
and read succeeds, and loading the file gives the same settings exactly if no custom setting has a key that is a
spelling of a setting, or `naming`, provided that the text is read as the value that was written. -/
theorem load_saved_same_iff (hlead : s.namePrefix = .text leading) (hcustom : s.custom.Holds custom)
    (hd : (Table.names custom).Nodup) (hjson : path.isJson = true) (hplace : tree.resolve path = .ok place)
    (hfree : tree.isFolder place = false) (hwritable : tree.mayWrite place = true)
    (hreadable : tree.allows .read place = true)
    (hread : Json.read (s.savedText custom) = .ok (.object (s.savedEntries custom))) :
    ∃ saved, save s path tree = .ok saved ∧
      ((∃ t, load saved (some path) none = .ok t ∧ s.Same t) ↔ ∀ key ∈ Table.names custom, IsOther key) := by
  have hfile := readFile_stored hjson hplace hfree hreadable (s.noReturn_savedText custom) hread
  refine ⟨_, save_eq hcustom hplace hfree hwritable, ?_⟩
  rw [load_eq (mapM_readFile hfile)]
  constructor
  · rintro ⟨t, ht, hsame⟩
    cases hmerge : merge (some (s.savedEntries custom)) none with
    | error fault =>
      rw [hmerge] at ht
      cases ht
    | ok merged =>
      rw [hmerge] at ht
      cases ht
      exact isOther_of_same hcustom hd hmerge hsame
  · intro hother
    obtain ⟨t, ht, hget⟩ := merge_savedEntries hlead hcustom hd hother
    refine ⟨t, by rw [ht]; rfl, fun setting => ?_⟩
    rw [hget]
    exact Json.same_self _

def themeSettings : Settings := { namePrefix := .text "I", custom := .given (.object [("theme", .text "dark")]) }

theorem load_saved_same_iff_theme :
    themeSettings.namePrefix = .text "I" ∧ themeSettings.custom.Holds [("theme", .text "dark")] ∧
      projectFile.isJson = true ∧ FileTree.resolve {} projectFile = .ok ["typegen.json"] ∧
      Json.read (themeSettings.savedText [("theme", .text "dark")]) =
        .ok (.object (themeSettings.savedEntries [("theme", .text "dark")])) ∧
      ∃ saved, save themeSettings projectFile {} = .ok saved ∧
        ∃ t, load saved (some projectFile) none = .ok t ∧ themeSettings.Same t := by
  have hcustom : themeSettings.custom.Holds [("theme", .text "dark")] := .given
  have hjson : projectFile.isJson = true := by decide +kernel
  have hplace : FileTree.resolve {} projectFile = .ok ["typegen.json"] := by
    rw [FileTree.resolve, String.contains_char_eq]
    rfl
  have hread : Json.read (themeSettings.savedText [("theme", .text "dark")]) =
      .ok (.object (themeSettings.savedEntries [("theme", .text "dark")])) := ok_of_toOption (by decide +kernel)
  obtain ⟨saved, hsaved, hiff⟩ :=
    load_saved_same_iff rfl hcustom (by decide) hjson hplace (by decide +kernel) rfl rfl hread
  refine ⟨rfl, hcustom, hjson, hplace, hread, saved, hsaved, hiff.2 fun key hkey => ?_⟩
  rw [List.mem_singleton.1 hkey]
  exact isOther_theme

end Settings

end SchemaDecl

import Mathlib.Data.List.Basic
import Mathlib.Data.List.TakeWhile
import SchemaDecl.Proofs.Naming.Heads
import SchemaDecl.Proofs.Text.Lowercase

/-!
# Where words end

Whether a word ends after a letter or digit is seen from the two characters that follow it. Reading an identifier
character by character in this way gives the words that are taken from it one after another, so that no letter or
digit is lost between them, and the name in Pascal case differs from the letters and digits in capitals only.
-/

namespace SchemaDecl.Naming

def isLetter (c : Char) : Bool := isUpper c || isLower c

/-- Whether a word ends between `a` and `b`, letters or digits side by side, with `next` after them: where a letter
meets a digit, between a small letter and a capital, and before the last of several capitals if a small letter
follows it. -/
def parts (a b : Char) (next : Option Char) : Bool :=
  isLetter a && isDigit b || isDigit a && isLetter b || isLower a && isUpper b ||
    isUpper a && isUpper b && next.any isLower

/-- Whether the word with the letter or digit `a` ends before the rest of the identifier. -/
def endsBefore (a : Char) : List Char → Bool
  | [] => true
  | b :: rest => !isWordChar b || parts a b rest.head?

/-- A word ends where the letters and digits `cs` have been read. -/
def EndsAfter (ws : List (List Char)) (cs : List Char) : Prop :=
  ∃ before after, ws = before ++ after ∧ before.flatten = cs

/-- One or more characters, all with `p`. -/
def IsRun (p : Char → Bool) (cs : List Char) : Prop := cs ≠ [] ∧ ∀ c ∈ cs, p c = true

/-- A run of capitals, a run of small letters with a capital in front or without one, or a run of digits. -/
inductive IsWord : List Char → Prop
  | capitals {cs : List Char} (h : IsRun isUpper cs) : IsWord cs
  | small {cs : List Char} (h : IsRun isLower cs) : IsWord cs
  | capitalized {c : Char} {cs : List Char} (hc : isUpper c = true) (h : IsRun isLower cs) : IsWord (c :: cs)
  | digits {cs : List Char} (h : IsRun isDigit cs) : IsWord cs

variable {a b c : Char} {cs front rear rest word : List Char} {ws : List (List Char)}

theorem kind_cases (h : isWordChar c = true) :
    (isUpper c = true ∧ isLower c = false ∧ isDigit c = false) ∨
    (isUpper c = false ∧ isLower c = true ∧ isDigit c = false) ∨
    (isUpper c = false ∧ isLower c = false ∧ isDigit c = true) := by
  simp only [isWordChar, Bool.or_eq_true] at h
  simp only [← Bool.not_eq_true]
  rw [isUpper_iff, isLower_iff, isDigit_iff] at *
  omega

theorem takeWord_nil (a : Char) : takeWord a [] = ([a], []) := by
  unfold takeWord takeCapital
  split
  · rfl
  · split <;> rfl

theorem takeCapital_of_head (h : rest.head?.any isUpper = false) :
    takeCapital a rest = (a :: rest.takeWhile isLower, rest.dropWhile isLower) := by
  cases rest with
  | nil => rfl
  | cons b rest =>
    have hb : isUpper b = false := h
    cases hl : isLower b <;> simp [takeCapital, hb, hl]

theorem takeCapital_cons_cons (hb : isUpper b = true) (hc : isUpper c = true) :
    takeCapital a (b :: c :: rest) = (a :: (takeCapital b (c :: rest)).1, (takeCapital b (c :: rest)).2) := by
  unfold takeCapital
  simp only [List.takeWhile_cons_of_pos hb, List.takeWhile_cons_of_pos hc, List.dropWhile_cons_of_pos hb,
    List.dropWhile_cons_of_pos hc, List.getLast?_cons_cons, List.dropLast_cons_cons]
  split
  · split
    next h => exact absurd (List.getLast?_eq_none_iff.1 h) (List.cons_ne_nil _ _)
    next => rfl
  · rfl

/-- Of two capitals the first is a word of its own if the second begins a capitalized word. -/
theorem takeCapital_cons (hb : isUpper b = true) :
    takeCapital a (b :: rest) =
      if rest.head?.any isLower then ([a], b :: rest) else (a :: (takeCapital b rest).1, (takeCapital b rest).2) := by
  cases rest with
  | nil => simp [takeCapital, hb]
  | cons c rest =>
    cases hc : isUpper c with
    | true =>
      have hl : isLower c = false := by
        rw [← Bool.not_eq_true, isLower_iff]
        rw [isUpper_iff] at hc
        omega
      rw [takeCapital_cons_cons hb hc, if_neg (by simp [hl])]
    | false => cases hl : isLower c <;> simp [takeCapital, hb, hc, hl]

/-- The word is read one character at a time. -/
theorem takeWord_cons (ha : isWordChar a = true) (b : Char) (rest : List Char) :
    takeWord a (b :: rest) =
      if endsBefore a (b :: rest) then ([a], b :: rest) else (a :: (takeWord b rest).1, (takeWord b rest).2) := by
  by_cases hb : isWordChar b = true
  -- The kinds of the two characters settle the matter, but for two capitals, where a third one is looked at.
  · rcases kind_cases ha with ⟨hua, hla, hda⟩ | ⟨hua, hla, hda⟩ | ⟨hua, hla, hda⟩ <;>
    rcases kind_cases hb with ⟨hub, hlb, hdb⟩ | ⟨hub, hlb, hdb⟩ | ⟨hub, hlb, hdb⟩ <;>
    simp [takeWord, endsBefore, parts, isLetter, takeCapital_cons, takeCapital_of_head, *]
  · have hkinds : isUpper b = false ∧ isLower b = false ∧ isDigit b = false := by
      simpa [isWordChar, and_assoc] using hb
    simp [takeWord, endsBefore, takeCapital_of_head, *]

theorem words_of_separator (ha : isWordChar a = false) (rest : List Char) : words (a :: rest) = words rest := by
  rw [words, if_neg (by simp [ha])]

theorem words_of_ends (ha : isWordChar a = true) (h : endsBefore a rest = true) :
    words (a :: rest) = [a] :: words rest := by
  rw [words, if_pos ha]
  cases rest with
  | nil => rw [takeWord_nil]
  | cons b rest => rw [takeWord_cons ha, if_pos h]

theorem words_of_goes_on (ha : isWordChar a = true) (h : endsBefore a rest = false) :
    ∃ word more, word ≠ [] ∧ words rest = word :: more ∧ words (a :: rest) = (a :: word) :: more := by
  cases rest with
  | nil => cases h
  | cons b rest =>
    have hb : isWordChar b = true := by
      rw [endsBefore, Bool.or_eq_false_iff] at h
      simpa using h.1
    refine ⟨(takeWord b rest).1, words (takeWord b rest).2, takeWord_ne_nil b rest, ?_, ?_⟩
    · rw [words, if_pos hb]
    · rw [words, if_pos ha, takeWord_cons ha, if_neg (by simp [h])]

theorem isRun_takeWhile {p : Char → Bool} (hc : p c = true) (rest : List Char) : IsRun p (c :: rest.takeWhile p) :=
  ⟨List.cons_ne_nil _ _, List.forall_mem_cons.2 ⟨hc, fun _ hd => List.mem_takeWhile_imp hd⟩⟩

theorem isWord_cons_small (hc : isUpper c = true) (h : ∀ d ∈ cs, isLower d = true) : IsWord (c :: cs) := by
  by_cases hnil : cs = []
  · rw [hnil]
    exact .capitals ⟨List.cons_ne_nil _ _, List.forall_mem_singleton.2 hc⟩
  · exact .capitalized hc ⟨hnil, h⟩

theorem isWord_takeCapital (hc : isUpper c = true) (rest : List Char) : IsWord (takeCapital c rest).1 := by
  have hcapitals : IsRun isUpper (c :: rest.takeWhile isUpper) := isRun_takeWhile hc rest
  unfold takeCapital
  dsimp only
  split
  · split
    next => exact isWord_cons_small hc fun _ hd => List.mem_takeWhile_imp hd
    next =>
      refine .capitals ⟨List.cons_ne_nil _ _, fun d hd => hcapitals.2 d ?_⟩
      exact List.cons_subset_cons c (List.dropLast_subset _) hd
  · exact .capitals hcapitals

theorem isWord_takeWord (hc : isWordChar c = true) (rest : List Char) : IsWord (takeWord c rest).1 := by
  unfold takeWord
  split
  next hu => exact isWord_takeCapital hu rest
  next hu =>
    split
    next hl => exact .small (isRun_takeWhile hl rest)
    next hl =>
      have hd : isDigit c = true := by simpa [isWordChar, hu, hl] using hc
      exact .digits (isRun_takeWhile hd rest)

theorem isWord_of_mem_words (h : word ∈ words cs) : IsWord word := by
  fun_induction words cs with
  | case1 => cases h
  | case2 c rest hc ih =>
    rcases List.mem_cons.1 h with rfl | h
    · exact isWord_takeWord hc rest
    · exact ih h
  | case3 c rest hc ih => exact ih h

theorem IsWord.isWordChar (h : IsWord word) (hc : c ∈ word) : isWordChar c = true := by
  cases h with
  | capitals h => simp [Naming.isWordChar, h.2 c hc]
  | small h => simp [Naming.isWordChar, h.2 c hc]
  | capitalized hd h =>
    rcases List.mem_cons.1 hc with rfl | hc
    · simp [Naming.isWordChar, hd]
    · simp [Naming.isWordChar, h.2 c hc]
  | digits h => simp [Naming.isWordChar, h.2 c hc]

theorem isWordChar_of_mem_words (hw : word ∈ words cs) (hc : c ∈ word) : isWordChar c = true :=
  (isWord_of_mem_words hw).isWordChar hc

/-- Nothing but separators is lost. -/
theorem flatten_words (cs : List Char) : (words cs).flatten = cs.filter isWordChar := by
  induction cs with
  | nil => rw [words]; rfl
  | cons c rest ih =>
    by_cases hc : isWordChar c = true
    · rw [List.filter_cons_of_pos hc, ← ih]
      cases hends : endsBefore c rest with
      | true => rw [words_of_ends hc hends, List.flatten_cons, List.singleton_append]
      | false =>
        obtain ⟨word, more, -, hrest, hwords⟩ := words_of_goes_on hc hends
        rw [hwords, hrest, List.flatten_cons, List.flatten_cons, List.cons_append]
    · rw [List.filter_cons_of_neg hc, words_of_separator (Bool.eq_false_iff.2 hc), ih]

theorem endsAfter_nil (ws : List (List Char)) : EndsAfter ws [] := ⟨[], ws, rfl, rfl⟩

theorem endsAfter_cons_iff :
    EndsAfter (word :: ws) cs ↔ cs = [] ∨ ∃ more, cs = word ++ more ∧ EndsAfter ws more := by
  constructor
  · rintro ⟨before, after, hws, rfl⟩
    rcases List.cons_eq_append_iff.1 hws with ⟨rfl, -⟩ | ⟨before, rfl, rfl⟩
    · exact .inl rfl
    · exact .inr ⟨before.flatten, rfl, before, after, rfl, rfl⟩
  · rintro (rfl | ⟨more, rfl, before, after, rfl, rfl⟩)
    · exact endsAfter_nil _
    · exact ⟨word :: before, after, rfl, rfl⟩

theorem endsAfter_singleton_cons : EndsAfter ([a] :: ws) (a :: cs) ↔ EndsAfter ws cs := by
  simp [endsAfter_cons_iff]

theorem endsAfter_cons_cons (hcs : cs ≠ []) :
    EndsAfter ((a :: word) :: ws) (a :: cs) ↔ EndsAfter (word :: ws) cs := by
  simp [endsAfter_cons_iff, hcs]

theorem not_endsAfter_singleton (hword : word ≠ []) : ¬EndsAfter ((a :: word) :: ws) [a] := by
  simp [endsAfter_cons_iff, hword]

/-- A word ends after a letter or digit exactly if the two characters after it say so. -/
theorem endsAfter_words_iff (front : List Char) (ha : isWordChar a = true) (rear : List Char) :
    EndsAfter (words (front ++ a :: rear)) ((front ++ [a]).filter isWordChar) ↔ endsBefore a rear = true := by
  -- A character in front of `a` is skipped, is a word of its own, or belongs to the word that comes next.
  induction front with
  | nil =>
    rw [List.nil_append, List.nil_append, List.filter_cons_of_pos ha, List.filter_nil]
    cases hends : endsBefore a rear with
    | true => simpa [words_of_ends ha hends, endsAfter_singleton_cons] using endsAfter_nil _
    | false =>
      obtain ⟨word, more, hword, -, hwords⟩ := words_of_goes_on ha hends
      simpa [hwords] using not_endsAfter_singleton hword
  | cons c front ih =>
    rw [List.cons_append, List.cons_append]
    by_cases hc : isWordChar c = true
    · rw [List.filter_cons_of_pos hc, ← ih]
      cases hends : endsBefore c (front ++ a :: rear) with
      | true => rw [words_of_ends hc hends, endsAfter_singleton_cons]
      | false =>
        obtain ⟨word, more, -, hrest, hwords⟩ := words_of_goes_on hc hends
        have hread : (front ++ [a]).filter isWordChar ≠ [] := by simp [ha]
        rw [hwords, hrest, endsAfter_cons_cons hread]
    · rw [List.filter_cons_of_neg hc, words_of_separator (Bool.eq_false_iff.2 hc), ih]

theorem isWordChar_toUpper (h : isWordChar c = true) : isWordChar c.toUpper = true :=
  wordChar_induction (P := fun c => isWordChar c.toUpper = true) (by decide +kernel) h

theorem isWordChar_toLower (h : isWordChar c = true) : isWordChar c.toLower = true :=
  wordChar_induction (P := fun c => isWordChar c.toLower = true) (by decide +kernel) h

theorem toLower_cased (h : isWordChar c = true) : c.toUpper.toLower = c.toLower ∧ c.toLower.toLower = c.toLower :=
  wordChar_induction (P := fun c => c.toUpper.toLower = c.toLower ∧ c.toLower.toLower = c.toLower)
    (by decide +kernel) h

theorem isWordChar_of_mem_capitalize (h : ∀ c ∈ word, isWordChar c = true) (hc : c ∈ capitalize word) :
    isWordChar c = true := by
  cases word with
  | nil => cases hc
  | cons d rest =>
    obtain ⟨hd, hrest⟩ := List.forall_mem_cons.1 h
    rcases List.mem_cons.1 hc with rfl | hc
    · exact isWordChar_toUpper hd
    · obtain ⟨e, he, rfl⟩ := List.mem_map.1 hc
      exact isWordChar_toLower (hrest e he)

theorem isWordChar_of_mem_pascalChars (hc : c ∈ pascalChars cs) : isWordChar c = true := by
  obtain ⟨word, hw, hm⟩ := List.mem_flatMap.1 hc
  exact isWordChar_of_mem_capitalize (fun _ => isWordChar_of_mem_words hw) hm

theorem isWordChar_of_mem_pascalCase {uid : String} (hc : c ∈ (pascalCase uid).toList) : isWordChar c = true :=
  isWordChar_of_mem_pascalChars (toList_pascalCase uid ▸ hc)

theorem map_toLower_capitalize (h : ∀ c ∈ word, isWordChar c = true) :
    (capitalize word).map Char.toLower = word.map Char.toLower := by
  cases word with
  | nil => rfl
  | cons c rest =>
    obtain ⟨hc, hrest⟩ := List.forall_mem_cons.1 h
    have hsmall : (rest.map Char.toLower).map Char.toLower = rest.map Char.toLower := by
      rw [List.map_map]
      exact List.map_congr_left fun d hd => (toLower_cased (hrest d hd)).2
    rw [capitalize, List.map_cons, List.map_cons, hsmall, (toLower_cased hc).1]

/-- A name in Pascal case has the letters and digits of the identifier, but for the case of letters. -/
theorem map_toLower_pascalChars (cs : List Char) :
    (pascalChars cs).map Char.toLower = (cs.filter isWordChar).map Char.toLower := by
  calc (pascalChars cs).map Char.toLower
    _ = (words cs).flatMap fun word => (capitalize word).map Char.toLower := List.map_flatMap
    _ = (words cs).flatMap (List.map Char.toLower) :=
      List.flatMap_congr fun _ hw => map_toLower_capitalize fun _ => isWordChar_of_mem_words hw
    _ = (words cs).flatten.map Char.toLower := by rw [List.map_flatten, List.flatMap_def]
    _ = (cs.filter isWordChar).map Char.toLower := by rw [flatten_words]

theorem lowerChar_eq (h : isWordChar c = true) : Text.lowerChar c = [c.toLower] :=
  wordChar_induction (P := fun c => Text.lowerChar c = [c.toLower]) (by decide +kernel) h

theorem lowerFrom_eq_map (h : ∀ c ∈ cs, isWordChar c = true) (before : List Char) :
    Text.lowerFrom before cs = cs.map Char.toLower := by
  have hsigma : 'Σ' ∉ cs := fun hm => absurd (h 'Σ' hm) (by decide)
  rw [Text.lowerFrom_eq_flatMap hsigma, List.flatMap_congr fun c hc => lowerChar_eq (h c hc), List.map_eq_flatMap]

theorem lower_pascalCase (name : String) :
    Text.lower (pascalCase name) = Text.lower (String.ofList (name.toList.filter isWordChar)) := by
  have hpascal : ∀ c ∈ (pascalCase name).toList, isWordChar c = true := fun _ h => isWordChar_of_mem_pascalCase h
  have hkept : ∀ c ∈ name.toList.filter isWordChar, isWordChar c = true := fun _ h => (List.mem_filter.1 h).2
  rw [Text.lower, Text.lower, String.toList_ofList, lowerFrom_eq_map hpascal, lowerFrom_eq_map hkept,
    toList_pascalCase, map_toLower_pascalChars]

theorem map_toList_wordTexts (name : String) : (wordTexts name).map String.toList = words name.toList := by
  rw [wordTexts, List.map_map]
  exact (List.map_congr_left fun _ _ => String.toList_ofList).trans (List.map_id _)

/-- The words of a name are its letters and digits, in order and each once. Every word is a run of capitals, a run of
small letters with a capital in front or without one, or a run of digits. After a letter or digit a word ends exactly
if the name ends or a separator follows, or if the next character begins a word: a digit after a letter, a letter
after a digit, a capital after a small letter, or the last of several capitals in front of a small letter. So the name
in Pascal case is the same in small letters as its letters and digits, and begins with a digit exactly if the first of
them is one. -/
theorem wordTexts_ends (name : String) :
    ((wordTexts name).map String.toList).flatten = name.toList.filter isWordChar ∧
    (∀ word ∈ wordTexts name, IsWord word.toList) ∧
    (∀ front a rear, name.toList = front ++ a :: rear → isWordChar a = true →
      (EndsAfter ((wordTexts name).map String.toList) ((front ++ [a]).filter isWordChar) ↔
        endsBefore a rear = true)) ∧
    Text.lower (pascalCase name) = Text.lower (String.ofList (name.toList.filter isWordChar)) ∧
    startsWithDigit (pascalCase name) = (firstWordChar? name).any isDigit := by
  rw [map_toList_wordTexts]
  refine ⟨flatten_words _, fun word hw => ?_, fun front a rear hname ha => ?_, lower_pascalCase name,
    startsWithDigit_pascalCase name⟩
  · have hm : word.toList ∈ words name.toList := map_toList_wordTexts name ▸ List.mem_map_of_mem hw
    exact isWord_of_mem_words hm
  · rw [hname]
    exact endsAfter_words_iff front ha rear

example : wordTexts "blog_postV2 HTMLParser" = ["blog", "post", "V", "2", "HTML", "Parser"] := by decide +kernel

end SchemaDecl.Naming

import Mathlib.Data.List.TakeWhile
import SchemaDecl.Json.Reader

/-!
# Where reading stops at a limit

Each reader takes what it reads off the front of the input, so that an end of the input is left. Hence a text that
is refused although it kept to the grammar was read up to a whole number with more digits than one can have.
-/

namespace SchemaDecl.Json

variable {α β : Type} {cs cs' rest word whole digits : List Char} {n count : Nat} {fault : Fault} {s : Stop}

/-- The input begins with a whole number that has more digits than one can have. -/
def BeginsTooLong (count : Nat) (cs : List Char) : Prop :=
  ∃ sign digits rest, cs = sign ++ (digits ++ rest) ∧ (sign = [] ∨ sign = ['-']) ∧
    (∀ c ∈ digits, c.isDigit = true) ∧ digits.length = count ∧ mostDigits < count

/-- A reading of the input leaves an end of it, and if it stops at a limit, it stops where an end of the input begins
with a whole number that is too long. -/
def ReadsOn (cs : List Char) : Except Stop (α × List Char) → Prop
  | .ok (_, rest) => rest <:+ cs
  | .error s => ∀ count, s.fault = .tooManyDigits count → s.rest <:+ cs ∧ BeginsTooLong count s.rest

variable {r : Except Stop (α × List Char)}

theorem ReadsOn.within (h : ReadsOn cs r) (hcs : cs <:+ cs') : ReadsOn cs' r := by
  cases r with
  | ok read => exact List.IsSuffix.trans h hcs
  | error s => exact fun count hcount => ⟨(h count hcount).1.trans hcs, (h count hcount).2⟩

theorem ReadsOn.bind {f : α × List Char → Except Stop (β × List Char)} (h : ReadsOn cs r)
    (hf : ∀ a rest, ReadsOn rest (f (a, rest))) : ReadsOn cs (r >>= f) := by
  cases r with
  | ok read =>
    obtain ⟨a, rest⟩ := read
    exact (hf a rest).within h
  | error s => exact h

theorem readsOn_stop (h : fault.isLimit = false) (cs rest : List Char) :
    ReadsOn cs (stop fault rest : Except Stop (α × List Char)) := by
  intro count hcount
  rw [show fault = .tooManyDigits count from hcount] at h
  cases h

theorem skipSpace_suffix (cs : List Char) : skipSpace cs <:+ cs := List.dropWhile_suffix _

theorem suffix_of_skipSpace {c : Char} (h : skipSpace cs = c :: rest) : rest <:+ cs :=
  (List.suffix_cons c rest).trans (h ▸ skipSpace_suffix cs)

theorem readHex4_suffix (h : readHex4 cs = some (n, rest)) : rest <:+ cs := by
  unfold readHex4 at h
  split at h
  next a b c d e tail =>
    simp only [Option.bind_eq_bind, Option.bind_eq_some_iff, Option.pure_def, Option.some.injEq, Prod.mk.injEq] at h
    obtain ⟨_, -, _, -, _, -, _, -, -, rfl⟩ := h
    exact ⟨[a, b, c, d], rfl⟩
  next => cases h

theorem readLow_suffix (h : readLow cs = .ok (some (n, rest))) : rest <:+ cs := by
  unfold readLow at h
  split at h
  next digits =>
    split at h
    next => cases h
    next =>
      split at h
      next low tail hlow =>
        split at h
        next =>
          cases h
          exact (readHex4_suffix hlow).trans ⟨['\\', 'u'], rfl⟩
        next => cases h
      next => cases h
  next => cases h

theorem readLow_stop (h : readLow cs = .error s) : s.fault = .badUnicodeEscape := by
  unfold readLow at h
  split at h
  next digits =>
    split at h
    next => cases h
    next =>
      split at h
      next => cases h
      next =>
        cases h
        rfl
  next => cases h

theorem readUnicode_readsOn (digits : List Char) : ReadsOn digits (readUnicode digits) := by
  unfold readUnicode
  split
  next => exact readsOn_stop rfl _ _
  next n rest hcode =>
    have hrest := readHex4_suffix hcode
    split
    next =>
      cases hlow : readLow rest with
      | error s =>
        intro count hcount
        rw [readLow_stop hlow] at hcount
        cases hcount
      | ok low? =>
        cases low? with
        | none => exact hrest
        | some low => exact (readLow_suffix hlow).trans hrest
    next => exact hrest

theorem readStringAux_readsOn (start : List Char) (fuel : Nat) (taken cs : List Char) :
    ReadsOn cs (readStringAux start fuel taken cs) := by
  induction fuel generalizing taken cs with
  | zero => exact readsOn_stop rfl _ _
  | succ fuel ih =>
    unfold readStringAux
    split
    next => exact readsOn_stop rfl _ _
    next rest => exact List.suffix_cons _ _
    next => exact readsOn_stop rfl _ _
    next digits =>
      refine ((readUnicode_readsOn digits).bind fun c rest => ih (c :: taken) rest).within ?_
      exact ⟨['\\', 'u'], rfl⟩
    next e rest _ =>
      split
      next c _ => exact (ih (c :: taken) rest).within ⟨['\\', e], rfl⟩
      next => exact readsOn_stop rfl _ _
    next c rest _ _ _ _ =>
      split
      next => exact readsOn_stop rfl _ _
      next => exact (ih (c :: taken) rest).within (List.suffix_cons _ _)

theorem readString_readsOn (start cs : List Char) : ReadsOn cs (readString start cs) :=
  readStringAux_readsOn start _ [] cs

theorem readWhole_split (h : readWhole cs = some (whole, rest)) :
    cs = whole ++ rest ∧ ∀ c ∈ whole, c.isDigit = true := by
  unfold readWhole at h
  split at h
  next =>
    cases h
    exact ⟨rfl, by simp⟩
  next =>
    dsimp only at h
    split at h
    next => cases h
    next =>
      cases h
      exact ⟨List.takeWhile_append_dropWhile.symm, List.all_eq_true.1 List.all_takeWhile⟩

theorem readFraction_suffix (cs : List Char) : (readFraction cs).2 <:+ cs := by
  unfold readFraction
  split
  next rest =>
    dsimp only
    split
    next => exact List.suffix_rfl
    next => exact (List.dropWhile_suffix _).trans (List.suffix_cons _ _)
  next => exact List.suffix_rfl

theorem readPower_suffix (cs : List Char) : (readPower cs).2 <:+ cs := by
  unfold readPower
  split
  next => exact List.suffix_rfl
  next e rest =>
    have hleft (n : Int) (tail : List Char) (htail : tail <:+ rest) :
        (if (tail.takeWhile Char.isDigit).isEmpty then (none, e :: rest)
          else (some n, tail.dropWhile Char.isDigit)).2 <:+ e :: rest := by
      split
      next => exact List.suffix_rfl
      next => exact ((List.dropWhile_suffix _).trans htail).trans (List.suffix_cons _ _)
    split
    next =>
      dsimp only
      split
      · exact hleft _ _ (List.suffix_cons _ _)
      · exact hleft _ _ (List.suffix_cons _ _)
      · exact hleft _ _ List.suffix_rfl
    next => exact List.suffix_rfl

theorem readNumber_readsOn {sign : List Char} (hsign : sign = [] ∨ sign = ['-']) (negative : Bool) (cs : List Char) :
    ReadsOn (sign ++ cs) (readNumber (sign ++ cs) negative cs) := by
  unfold readNumber
  split
  next => exact readsOn_stop rfl _ _
  next whole rest hwhole =>
    obtain ⟨rfl, hdigits⟩ := readWhole_split hwhole
    dsimp only
    have hleft : (readPower (readFraction rest).2).2 <:+ sign ++ (whole ++ rest) :=
      ((readPower_suffix _).trans (readFraction_suffix rest)).trans
        ((List.suffix_append whole rest).trans (List.suffix_append sign _))
    split
    next =>
      split
      next hlong =>
        intro count hcount
        cases hcount
        exact ⟨List.suffix_rfl, sign, whole, rest, rfl, hsign, hdigits, rfl, hlong⟩
      next => exact hleft
    next => exact hleft

theorem dropWord?_suffix (h : dropWord? word cs = some rest) : rest <:+ cs := by
  induction word generalizing cs with
  | nil =>
    cases h
    exact List.suffix_rfl
  | cons w ws ih =>
    cases cs with
    | nil => cases h
    | cons c cs =>
      rw [dropWord?] at h
      split at h
      next => exact (ih h).trans (List.suffix_cons _ _)
      next => cases h

theorem readScalar_readsOn (cs : List Char) : ReadsOn cs (readScalar cs) := by
  unfold readScalar
  split
  next found hfound =>
    obtain ⟨⟨word, value⟩, -, hword⟩ := List.exists_of_findSome?_eq_some hfound
    obtain ⟨rest, hrest, rfl⟩ := Option.map_eq_some_iff.1 hword
    exact dropWord?_suffix hrest
  next =>
    split
    next rest _ => exact readNumber_readsOn (.inr rfl) true rest
    next => exact readNumber_readsOn (.inl rfl) false cs

variable {fuel : Nat}

theorem readValue_step (hitems : ∀ taken cs, ReadsOn cs (readItems fuel taken cs))
    (hentries : ∀ taken cs, ReadsOn cs (readEntries fuel taken cs)) (cs : List Char) :
    ReadsOn cs (readValue (fuel + 1) cs) := by
  unfold readValue
  split
  next rest =>
    refine ((readString_readsOn _ rest).bind fun text tail => ?_).within (List.suffix_cons _ _)
    exact List.suffix_rfl
  next rest =>
    split
    next tail htail => exact (suffix_of_skipSpace htail).trans (List.suffix_cons _ _)
    next => exact (hitems [] _).within ((skipSpace_suffix rest).trans (List.suffix_cons _ _))
  next rest =>
    split
    next tail htail => exact (suffix_of_skipSpace htail).trans (List.suffix_cons _ _)
    next => exact (hentries [] _).within ((skipSpace_suffix rest).trans (List.suffix_cons _ _))
  next => exact readScalar_readsOn cs

theorem readItems_step (hvalue : ∀ cs, ReadsOn cs (readValue fuel cs))
    (hitems : ∀ taken cs, ReadsOn cs (readItems fuel taken cs)) (taken : List Json) (cs : List Char) :
    ReadsOn cs (readItems (fuel + 1) taken cs) := by
  unfold readItems
  refine (hvalue cs).bind fun item rest => ?_
  dsimp only
  split
  next tail htail => exact suffix_of_skipSpace htail
  next tail htail => exact (hitems _ _).within ((skipSpace_suffix tail).trans (suffix_of_skipSpace htail))
  next => exact readsOn_stop rfl _ _

theorem readEntries_step (hvalue : ∀ cs, ReadsOn cs (readValue fuel cs))
    (hentries : ∀ taken cs, ReadsOn cs (readEntries fuel taken cs)) (taken : Entries) (cs : List Char) :
    ReadsOn cs (readEntries (fuel + 1) taken cs) := by
  unfold readEntries
  split
  next rest =>
    refine ((readString_readsOn _ rest).bind fun key rest => ?_).within (List.suffix_cons _ _)
    dsimp only
    split
    next tail htail =>
      refine ((hvalue _).bind fun value rest => ?_).within
        ((skipSpace_suffix tail).trans (suffix_of_skipSpace htail))
      dsimp only
      split
      next tail htail => exact suffix_of_skipSpace htail
      next tail htail => exact (hentries _ _).within ((skipSpace_suffix tail).trans (suffix_of_skipSpace htail))
      next => exact readsOn_stop rfl _ _
    next => exact readsOn_stop rfl _ _
  next => exact readsOn_stop rfl _ _

/-- Values, the items of a list and the entries of an object read on, whatever was taken before. -/
theorem readValue_readsOn (fuel : Nat) :
    (∀ cs, ReadsOn cs (readValue fuel cs)) ∧ (∀ taken cs, ReadsOn cs (readItems fuel taken cs)) ∧
      ∀ taken cs, ReadsOn cs (readEntries fuel taken cs) := by
  induction fuel with
  | zero => exact ⟨fun _ => readsOn_stop rfl _ _, fun _ _ => readsOn_stop rfl _ _, fun _ _ => readsOn_stop rfl _ _⟩
  | succ fuel ih =>
    obtain ⟨hvalue, hitems, hentries⟩ := ih
    exact ⟨readValue_step hitems hentries, readItems_step hvalue hitems, readEntries_step hvalue hentries⟩

theorem readAll_limit (h : readAll cs = .error s) (hcount : s.fault = .tooManyDigits count) :
    s.rest <:+ cs ∧ BeginsTooLong count s.rest := by
  have hread : ReadsOn cs (readValue (2 * cs.length + 2) (skipSpace cs)) :=
    ((readValue_readsOn _).1 _).within (skipSpace_suffix cs)
  rw [readAll] at h
  split at h
  next =>
    cases h
    cases hcount
  next =>
    cases hvalue : readValue (2 * cs.length + 2) (skipSpace cs) with
    | error stopped =>
      rw [hvalue] at h hread
      cases h
      exact hread count hcount
    | ok found =>
      rw [hvalue] at h
      dsimp only [bind, Except.bind] at h
      split at h
      next => cases h
      next =>
        cases h
        cases hcount

theorem Fault.isLimit_iff : fault.isLimit = true ↔ ∃ count, fault = .tooManyDigits count := by
  cases fault <;> simp [isLimit]

/-- The text is refused where a whole number begins that has more digits than one can have. -/
def StopsAtNumber (text : String) : Prop :=
  ∃ error count front rear, read text = .error error ∧ error.fault = .tooManyDigits count ∧
    text.toList = front ++ rear ∧ error.offset = front.length ∧ BeginsTooLong count rear

/-- Such numbers are all that is refused at a limit. -/
theorem stopsAtNumber_iff {text : String} :
    StopsAtNumber text ↔ ∃ error, read text = .error error ∧ error.fault.isLimit = true := by
  constructor
  · rintro ⟨error, count, -, -, hread, hcount, -⟩
    exact ⟨error, hread, Fault.isLimit_iff.2 ⟨count, hcount⟩⟩
  · rintro ⟨error, hread, hlimit⟩
    obtain ⟨count, hcount⟩ := Fault.isLimit_iff.1 hlimit
    have hread' := hread
    rw [read] at hread'
    cases hall : readAll text.toList with
    | ok value =>
      rw [hall] at hread'
      cases hread'
    | error s =>
      rw [hall] at hread'
      cases hread'
      obtain ⟨⟨front, hfront⟩, hlong⟩ := readAll_limit hall hcount
      refine ⟨_, count, front, s.rest, hread, hcount, hfront.symm, ?_, hlong⟩
      rw [Stop.locate, ← hfront, List.length_append, Nat.add_sub_cancel]

theorem ne_of_isDigit {c d : Char} (hc : c.isDigit = true) (hd : d.isDigit = false) : c ≠ d := by
  rintro rfl
  rw [hc] at hd
  cases hd

theorem dropWord?_digit {c : Char} {w : String} {value : Json} (hc : c.isDigit = true) (hw : (w, value) ∈ words)
    (digits : List Char) : dropWord? w.toList (c :: digits) = none := by
  have hfirst : ∃ d ds, w.toList = d :: ds ∧ d.isDigit = false := by
    simp only [words, List.mem_cons, Prod.mk.injEq, List.not_mem_nil, or_false] at hw
    rcases hw with ⟨rfl, -⟩ | ⟨rfl, -⟩ | ⟨rfl, -⟩ | ⟨rfl, -⟩ | ⟨rfl, -⟩ | ⟨rfl, -⟩ <;> exact ⟨_, _, rfl, by decide⟩
  obtain ⟨d, ds, hword, hd⟩ := hfirst
  rw [hword, dropWord?, if_neg (ne_of_isDigit hc hd).symm]

theorem readScalar_digits {c : Char} (hc : ∀ d ∈ c :: digits, d.isDigit = true) (hzero : c ≠ '0')
    (hlong : mostDigits < (c :: digits).length) :
    readScalar (c :: digits) = stop (.tooManyDigits (c :: digits).length) (c :: digits) := by
  have hhead := hc c List.mem_cons_self
  have hwhole : readWhole (c :: digits) = some (c :: digits, []) := by
    rw [readWhole]
    · rw [List.takeWhile_eq_self_iff.2 hc, List.dropWhile_eq_nil_iff.2 hc]
      rfl
    · rintro rest heq
      exact hzero (List.cons.inj heq).1
  unfold readScalar
  split
  next found hfound =>
    obtain ⟨⟨w, value⟩, hw, hword⟩ := List.exists_of_findSome?_eq_some hfound
    obtain ⟨rest, hrest, -⟩ := Option.map_eq_some_iff.1 hword
    rw [dropWord?_digit hhead hw] at hrest
    cases hrest
  next =>
    split
    next heq => exact absurd (List.cons.inj heq).1 (ne_of_isDigit hhead (by decide))
    next =>
      rw [readNumber, hwhole]
      dsimp only [readFraction, readPower]
      rw [if_pos (by rfl), if_pos hlong]

theorem stopsAtNumber_digits (hdigits : ∀ c ∈ digits, c.isDigit = true) (hzero : digits.head? ≠ some '0')
    (hlong : mostDigits < digits.length) : StopsAtNumber (String.ofList digits) := by
  cases digits with
  | nil => cases hlong
  | cons c rest =>
    have hhead := hdigits c List.mem_cons_self
    have hscalar := readScalar_digits hdigits (fun heq => hzero (by rw [heq]; rfl)) hlong
    have hskip : skipSpace (c :: rest) = c :: rest := by
      refine List.dropWhile_cons_of_neg ?_
      simp [isSpace, ne_of_isDigit hhead]
    have hother {d : Char} (hd : d.isDigit = false) (tail : List Char) : c :: rest ≠ d :: tail :=
      fun heq => ne_of_isDigit hhead hd (List.cons.inj heq).1
    have hvalue : readValue (2 * (c :: rest).length + 2) (c :: rest) = readScalar (c :: rest) := by
      rw [readValue]
      · exact hother (by decide)
      · exact hother (by decide)
      · exact hother (by decide)
    have hall : readAll (c :: rest) = stop (.tooManyDigits (c :: rest).length) (c :: rest) := by
      rw [readAll, if_neg, hskip, hvalue, hscalar]
      · rfl
      · rintro heq
        exact ne_of_isDigit hhead (by decide) (Option.some.inj heq)
    have hread : read (String.ofList (c :: rest)) =
        .error (Stop.locate (c :: rest) ⟨.tooManyDigits (c :: rest).length, c :: rest⟩) := by
      rw [read, String.toList_ofList, hall]
      rfl
    exact stopsAtNumber_iff.2 ⟨_, hread, rfl⟩

end SchemaDecl.Json

import Mathlib.Data.List.Find
import Mathlib.Data.List.Nodup
import SchemaDecl.Proofs.Generation.GlobalFields
import SchemaDecl.Proofs.Generation.Signatures
import SchemaDecl.Proofs.Naming.Fresh

/-!
# Unions of blocks

A field of blocks meets a union: one that is known by its signature, or a new one that joins the scope of
the record in visit. The new ones of a trace are the first meetings of their signatures, and wherever a
visit leaves one record for another, each record is left with those that were first met in it.
-/

namespace SchemaDecl.Generation

/-- A field of blocks comes to the name of their union. -/
structure Meeting where
  scope : Scope
  blocks : Blocks
  name : String

def Step.meeting? : Step → Option Meeting
  | .union scope blocks name => some ⟨scope, blocks, name⟩
  | _ => none

def meetings (steps : List Step) : List Meeting := steps.filterMap Step.meeting?

namespace Meeting

def signature (style : Style) (m : Meeting) : Signature := signatureOf style m.blocks

def union (m : Meeting) : BlockUnion := ⟨m.name, m.blocks⟩

def entry (style : Style) (m : Meeting) : Signature × String := (m.signature style, m.name)

end Meeting

/-- The meetings with signatures that are not known by then. -/
def firstsFrom (style : Style) (known : List Signature) : List Meeting → List Meeting
  | [] => []
  | m :: rest =>
    if known.any (·.same (m.signature style)) then firstsFrom style known rest
    else m :: firstsFrom style (known ++ [m.signature style]) rest

def firsts (style : Style) (steps : List Step) : List Meeting := firstsFrom style [] (meetings steps)

/-- The unions of the meetings in a scope. -/
def unionsIn (scope : Scope) (ms : List Meeting) : List BlockUnion :=
  (ms.filter fun m => m.scope = scope).map Meeting.union

def State.signatures (s : State) : List Signature := s.unions.map Prod.fst

variable {input : Input} {own own' : Scope → Prop} {scope : Scope} {s t u : State}
  {steps : List Step} {ms ms' : List Meeting} {style : Style} {known : List Signature} {name : String}

@[simp] theorem meetings_append (steps steps' : List Step) :
    meetings (steps ++ steps') = meetings steps ++ meetings steps' := List.filterMap_append

@[simp] theorem meetings_build (name : String) (origin : Origin) (steps : List Step) :
    meetings (.build name origin :: steps) = meetings steps := rfl

theorem firstsFrom_append (style : Style) (known : List Signature) (ms ms' : List Meeting) :
    firstsFrom style known (ms ++ ms') =
      firstsFrom style known ms ++
        firstsFrom style (known ++ (firstsFrom style known ms).map (Meeting.signature style)) ms' := by
  induction ms generalizing known with
  | nil => simp [firstsFrom]
  | cons m rest ih =>
    rw [List.cons_append, firstsFrom, firstsFrom]
    split
    next => exact ih known
    next =>
      rw [ih, List.map_cons, List.append_assoc, List.singleton_append]
      rfl

theorem mem_of_mem_firstsFrom {m : Meeting} (h : m ∈ firstsFrom style known ms) : m ∈ ms := by
  induction ms generalizing known with
  | nil => exact h
  | cons first rest ih =>
    rw [firstsFrom] at h
    split at h
    next => exact List.mem_cons_of_mem _ (ih h)
    next =>
      rcases List.mem_cons.1 h with rfl | h
      · exact List.mem_cons_self
      · exact List.mem_cons_of_mem _ (ih h)

theorem unionsIn_append (scope : Scope) (ms ms' : List Meeting) :
    unionsIn scope (ms ++ ms') = unionsIn scope ms ++ unionsIn scope ms' := by
  rw [unionsIn, List.filter_append, List.map_append, unionsIn, unionsIn]

theorem unionsIn_firsts_eq_nil (h : ∀ m ∈ ms, m.scope ≠ scope) :
    unionsIn scope (firstsFrom style known ms) = [] := by
  rw [unionsIn, List.map_eq_nil_iff, List.filter_eq_nil_iff]
  intro m hm
  simpa using h m (mem_of_mem_firstsFrom hm)

/-- The unions of a state have names of their own, and signatures of blocks that are kept. -/
structure UnionsSound (s : State) : Prop where
  keyed : ∀ entry ∈ s.unions, Signature.Keyed entry.1
  nodup : s.unionNames.Nodup

theorem findUnion?_eq_some {sig : Signature} (h : s.findUnion? sig = some name) :
    ∃ entry ∈ s.unions, entry.1.same sig = true ∧ entry.2 = name := by
  obtain ⟨entry, hf, hn⟩ := Option.map_eq_some_iff.1 h
  exact ⟨entry, List.mem_of_find?_eq_some hf,
    List.find?_some (p := fun e : Signature × String => e.1.same sig) hf, hn⟩

theorem any_same_eq (s : State) (sig : Signature) :
    s.signatures.any (·.same sig) = (s.findUnion? sig).isSome := by
  rw [Bool.eq_iff_iff, State.findUnion?, Option.isSome_map, List.find?_isSome, State.signatures,
    List.any_map, List.any_eq_true]
  rfl

theorem findUnion?_of_append {sig : Signature} {more : List (Signature × String)}
    (h : s.findUnion? sig = some name) (ht : t.unions = s.unions ++ more) :
    t.findUnion? sig = some name := by
  obtain ⟨entry, hf, hn⟩ := Option.map_eq_some_iff.1 h
  rw [State.findUnion?, ht, List.find?_append, hf]
  exact congrArg some hn

theorem findUnion?_of_join {sig : Signature} (h : s.findUnion? sig = none)
    (ht : t.unions = s.unions ++ [(sig, name)]) (hsame : sig.same sig = true) :
    t.findUnion? sig = some name := by
  have hnone := Option.map_eq_none_iff.1 h
  rw [State.findUnion?, ht, List.find?_append, hnone, Option.none_or, List.find?_singleton]
  simp [hsame]

/-- Of two unions that are known, the names are the same exactly if the signatures are. -/
theorem name_eq_iff_same {sig sig' : Signature} {name' : String} (hs : UnionsSound s)
    (hsig : sig.Keyed) (hsig' : sig'.Keyed) (h : s.findUnion? sig = some name)
    (h' : s.findUnion? sig' = some name') : name = name' ↔ sig.same sig' = true := by
  constructor
  · rintro rfl
    obtain ⟨entry, hm, hsame, hn⟩ := findUnion?_eq_some h
    obtain ⟨entry', hm', hsame', hn'⟩ := findUnion?_eq_some h'
    obtain rfl : entry = entry' := List.inj_on_of_nodup_map hs.nodup hm hm' (hn.trans hn'.symm)
    have hk := hs.keyed entry hm
    exact Signature.same_trans hsig hk hsig' (Signature.same_comm hk hsig hsame) hsame'
  · intro hsame
    have hfind : s.findUnion? sig = s.findUnion? sig' := by
      refine congrArg (Option.map Prod.snd) (List.find?_congr fun entry hm => ?_)
      have hk := hs.keyed entry hm
      rw [Bool.eq_iff_iff]
      exact ⟨fun h => Signature.same_trans hk hsig hsig' h hsame,
        fun h => Signature.same_trans hk hsig' hsig h (Signature.same_comm hsig hsig' hsame)⟩
    rw [h, h'] at hfind
    exact Option.some.inj hfind

theorem unionName_meets {uid : Json} {blocks : Blocks}
    (hu : ∀ block ∈ blocks, Naming.isUsable block.1 = .ok true)
    (h : unionName style uid blocks s = (.ok name, t)) :
    (signatureOf style blocks).Keyed ∧
      (s.findUnion? (signatureOf style blocks) = some name ∧ t = s ∨
        s.findUnion? (signatureOf style blocks) = none ∧ name ∉ s.unionNames ∧
          t.globals = s.globals ∧ t.unions = s.unions ++ [(signatureOf style blocks, name)] ∧
          t.scope = s.scope ++ [⟨name, blocks⟩]) := by
  obtain ⟨hkeys, hcase⟩ := unionName_ok h
  have hkeyed : (signatureOf style blocks).Keyed := by
    intro entry he
    have hk := hkeys entry.1 (List.mem_map_of_mem he)
    obtain ⟨block, hb, rfl⟩ := List.mem_map.1 he
    exact memberKey_of_usable (hu block hb) hk
  refine ⟨hkeyed, hcase.imp id ?_⟩
  rintro ⟨hnone, base, -, rfl, rfl⟩
  exact ⟨hnone, Naming.unique_not_mem base s.unionNames s.counter, rfl, rfl, rfl⟩

/-- Between two states the unions of the first meetings are added, every meeting has the name of its
union, and the global fields that are completed are left with the unions first met in them. Meetings are
in scopes of the trace or of global fields that it builds. -/
structure Unites (style : Style) (own : Scope → Prop) (s : State) (ms : List Meeting) (t : State) : Prop where
  unions : t.unions = s.unions ++ (firstsFrom style s.signatures ms).map (Meeting.entry style)
  sound : UnionsSound s → UnionsSound t
  keyed : ∀ m ∈ ms, (m.signature style).Keyed
  found : ∀ m ∈ ms, t.findUnion? (m.signature style) = some m.name
  grows : Grows s t
  scopes : ∀ m ∈ ms, own m.scope ∨
    ∃ n, m.scope = .globalField n ∧ s.isDeclared n = false ∧ t.isDeclared n = true
  globals : ∀ n d, (n, some d) ∈ t.globals → (n, some d) ∈ s.globals ∨
    s.isDeclared n = false ∧ d.unions = unionsIn (.globalField n) (firstsFrom style s.signatures ms)

theorem Unites.of_eq (hg : t.globals = s.globals) (hu : t.unions = s.unions) : Unites style own s [] t where
  unions := by simp [hu, firstsFrom]
  sound h := ⟨by rw [hu]; exact h.keyed, by rw [State.unionNames, hu]; exact h.nodup⟩
  keyed := by simp
  found := by simp
  grows name h := by rw [State.isDeclared, hg]; exact h
  scopes := by simp
  globals n d h := .inl (hg ▸ h)

theorem Unites.mono (h : Unites style own s ms t) (hown : ∀ scope, own scope → own' scope) :
    Unites style own' s ms t where
  unions := h.unions
  sound := h.sound
  keyed := h.keyed
  found := h.found
  grows := h.grows
  scopes m hm := (h.scopes m hm).imp_left (hown _)
  globals := h.globals

theorem Unites.signatures (h : Unites style own s ms t) :
    t.signatures =
      s.signatures ++ (firstsFrom style s.signatures ms).map (Meeting.signature style) := by
  rw [State.signatures, h.unions, List.map_append, List.map_map]
  rfl

theorem Unites.firsts_append (h : Unites style own s ms t) (ms' : List Meeting) :
    firstsFrom style s.signatures (ms ++ ms') =
      firstsFrom style s.signatures ms ++ firstsFrom style t.signatures ms' := by
  rw [firstsFrom_append, h.signatures]

theorem isDeclared_of_mem {d : Option Declaration} (h : (name, d) ∈ s.globals) :
    s.isDeclared name = true := isDeclared_iff.2 (List.mem_map_of_mem h)

/-- A meeting is in no global field that is declared already, save in one of the trace itself. -/
theorem Unites.scope_ne (h : Unites style own s ms t) (hown : ¬ own (.globalField name))
    (hd : s.isDeclared name = true ∨ t.isDeclared name = false) :
    ∀ m ∈ ms, m.scope ≠ .globalField name := by
  intro m hm hscope
  rcases h.scopes m hm with hin | ⟨n, hn, hs, ht⟩
  · exact hown (hscope ▸ hin)
  · obtain rfl := Scope.globalField.inj (hscope.symm.trans hn)
    rcases hd with hd | hd
    · rw [hs] at hd
      cases hd
    · rw [ht] at hd
      cases hd

theorem Unites.append (h : Unites style own s ms t) (h' : Unites style own t ms' u)
    (hown : ∀ n, own (.globalField n) → s.isDeclared n = true) : Unites style own s (ms ++ ms') u := by
  have hfirsts := h.firsts_append ms'
  have hnot : ∀ n, s.isDeclared n = false → ¬ own (.globalField n) := by
    intro n hs hn
    rw [hown n hn] at hs
    cases hs
  refine ⟨?_, fun hs => h'.sound (h.sound hs), ?_, ?_, fun n hn => h'.grows n (h.grows n hn), ?_, ?_⟩
  · rw [h'.unions, h.unions, hfirsts, List.map_append, List.append_assoc]
  · exact List.forall_mem_append.2 ⟨h.keyed, h'.keyed⟩
  · refine List.forall_mem_append.2 ⟨fun m hm => ?_, h'.found⟩
    exact findUnion?_of_append (h.found m hm) h'.unions
  · refine List.forall_mem_append.2 ⟨fun m hm => ?_, fun m hm => ?_⟩
    · exact (h.scopes m hm).imp_right fun ⟨n, hn, hs, ht⟩ => ⟨n, hn, hs, h'.grows n ht⟩
    · refine (h'.scopes m hm).imp_right fun ⟨n, hn, ht, hu⟩ => ⟨n, hn, ?_, hu⟩
      exact Bool.eq_false_iff.2 fun hs => by rw [h.grows n hs] at ht; cases ht
  · -- A field that the first part completes is no scope of the second, nor the other way round.
    intro n d hd
    rw [hfirsts, unionsIn_append]
    rcases h'.globals n d hd with hd | ⟨ht, hunions⟩
    · refine (h.globals n d hd).imp_right fun ⟨hs, hunions⟩ => ⟨hs, ?_⟩
      have hnone := h'.scope_ne (hnot n hs) (.inl (isDeclared_of_mem hd))
      rw [unionsIn_firsts_eq_nil hnone, List.append_nil, hunions]
    · have hs : s.isDeclared n = false :=
        Bool.eq_false_iff.2 fun hs => by rw [h.grows n hs] at ht; cases ht
      refine .inr ⟨hs, ?_⟩
      rw [unionsIn_firsts_eq_nil (h.scope_ne (hnot n hs) (.inr ht)), List.nil_append, hunions]

theorem Unites.meet {uid : Json} {blocks : Blocks}
    (hu : ∀ block ∈ blocks, Naming.isUsable block.1 = .ok true)
    (h : unionName style uid blocks s = (.ok name, t)) :
    Unites style (· = scope) s [⟨scope, blocks, name⟩] t ∧
      t.scope = s.scope ++ unionsIn scope (firstsFrom style s.signatures [⟨scope, blocks, name⟩]) := by
  obtain ⟨hkeyed, hcase⟩ := unionName_meets hu h
  have hany := any_same_eq s (signatureOf style blocks)
  rcases hcase with ⟨hfind, rfl⟩ | ⟨hfind, hfresh, hglobals, hunions, hscope⟩
  · have hfirsts : firstsFrom style t.signatures [⟨scope, blocks, name⟩] = [] := by
      rw [hfind] at hany
      exact if_pos hany
    rw [hfirsts]
    refine ⟨⟨?_, id, ?_, ?_, fun _ hn => hn, ?_, fun n d hd => .inl hd⟩, ?_⟩
    · rw [hfirsts, List.map_nil, List.append_nil]
    · simpa [Meeting.signature] using hkeyed
    · simpa [Meeting.signature] using hfind
    · simp
    · simp [unionsIn]
  · have hfirsts : firstsFrom style s.signatures [⟨scope, blocks, name⟩] = [⟨scope, blocks, name⟩] := by
      rw [hfind] at hany
      exact if_neg (by simp [Meeting.signature, hany])
    rw [hfirsts]
    refine ⟨⟨?_, fun hs => ⟨?_, ?_⟩, ?_, ?_, ?_, ?_, fun n d hd => .inl (hglobals ▸ hd)⟩, ?_⟩
    · rw [hfirsts, hunions]
      rfl
    · rw [hunions]
      exact List.forall_mem_append.2 ⟨hs.keyed, by simpa using hkeyed⟩
    · rw [State.unionNames, hunions, List.map_append]
      exact List.nodup_append.2 ⟨hs.nodup, by simp, by
        intro a ha b hb hab
        rw [hab, List.mem_singleton.1 hb] at ha
        exact hfresh ha⟩
    · simpa [Meeting.signature] using hkeyed
    · rw [List.forall_mem_singleton]
      exact findUnion?_of_join hfind hunions (Signature.same_refl hkeyed)
    · intro n hn
      rw [State.isDeclared, hglobals]
      exact hn
    · simp
    · rw [hscope]
      simp [unionsIn, Meeting.union]

theorem Unites.built {i : Interface} (hd : s.isDeclared name = false)
    (h : Unites style (· = .globalField name) (s.opened name) ms t)
    (hscope : t.scope = unionsIn (.globalField name) (firstsFrom style s.signatures ms)) :
    Unites style own s ms (t.closed s.scope name ⟨t.scope, i⟩) where
  unions := h.unions
  sound hs := by
    have ht := h.sound ⟨hs.keyed, hs.nodup⟩
    exact ⟨ht.keyed, ht.nodup⟩
  keyed := h.keyed
  found := h.found
  grows n hn := by
    rw [isDeclared_closed, h.grows n (grows_opened s name n hn), Bool.or_true]
  scopes m hm := by
    refine .inr ?_
    rcases h.scopes m hm with hin | ⟨n, hn, hs, ht⟩
    · exact ⟨name, hin, hd, by simp⟩
    · rw [isDeclared_opened, Bool.or_eq_false_iff] at hs
      exact ⟨n, hn, hs.2, by simp [ht]⟩
  globals n d hmem := by
    rcases Table.mem_put hmem with ⟨rfl, heq⟩ | hmem
    · cases heq
      exact .inr ⟨hd, hscope⟩
    · rcases h.globals n d hmem with hmem | ⟨hs, hunions⟩
      · rcases Table.mem_put hmem with ⟨-, heq⟩ | hmem
        · cases heq
        · exact .inl hmem
      · rw [isDeclared_opened, Bool.or_eq_false_iff] at hs
        exact .inr ⟨hs.2, hunions⟩

/-- A visit that comes through adds the unions that it is the first to meet, and leaves the record in visit
with those that were first met in it. -/
theorem Trace.unites {whole : Bool} (h : Trace input scope s steps whole t) (hw : whole = true)
    (hown : ∀ n, scope = .globalField n → s.isDeclared n = true) :
    Unites input.style (· = scope) s (meetings steps) t ∧
      t.scope = s.scope ++ unionsIn scope (firstsFrom input.style s.signatures (meetings steps)) := by
  induction h with
  | quiet hk => exact ⟨.of_eq hk.globals hk.unions, hk.scope.trans (List.append_nil _).symm⟩
  | stopped | fault => cases hw
  | @append scope s steps mid steps' _ _ ht _ ih ih' =>
    obtain ⟨hu, hscope⟩ := ih rfl hown
    obtain ⟨hu', hscope'⟩ := ih' hw fun n hn => hu.grows n (hown n hn)
    rw [meetings_append]
    refine ⟨hu.append hu' fun n hn => hown n hn.symm, ?_⟩
    rw [hscope', hscope, hu.firsts_append, unionsIn_append, List.append_assoc]
  | refer => exact ⟨.of_eq rfl rfl, (List.append_nil _).symm⟩
  | union hu hn => exact Unites.meet hu hn
  | @built scope name origin description s steps members t hd hv _ ih =>
    obtain ⟨hu, hscope⟩ := ih rfl fun n hn => by
      cases hn
      simp
    have hinside : t.scope =
        unionsIn (.globalField name) (firstsFrom input.style s.signatures (meetings steps)) := hscope
    have hbuilt : ∀ own, Unites input.style own s (meetings steps)
        (t.closed s.scope name ⟨t.scope, ⟨name, description, false, members⟩⟩) :=
      fun own => .built hd hu hinside
    -- Inside, all meetings are in global fields that were undeclared before, so none is in `scope`.
    have hne : ∀ m ∈ meetings steps, m.scope ≠ scope := by
      intro m hm heq
      obtain ⟨n, hn, hs, -⟩ := ((hbuilt fun _ => False).scopes m hm).resolve_left id
      rw [hown n (heq ▸ hn)] at hs
      cases hs
    rw [meetings_build]
    refine ⟨hbuilt _, ?_⟩
    rw [unionsIn_firsts_eq_nil hne, List.append_nil]
    rfl

theorem Visits.unites_declare {origin : Origin} {description : Json} {result : Except Fault Unit}
    (h : Visits input scope (.declare name origin description) s steps result t) (hr : result = .ok ()) :
    Unites input.style own s (meetings steps) t := by
  cases h with
  | declare_known => exact .of_eq rfl rfl
  | declare_fault => cases hr
  | declare_built hd hv =>
    obtain ⟨hu, hscope⟩ := hv.trace.unites rfl fun n hn => by
      cases hn
      simp
    exact .built hd hu hscope

def ContentTypes (position count : Nat) (scope : Scope) : Prop :=
  ∃ i, i < count ∧ scope = .contentType (position + i)

theorem not_contentTypes {position count : Nat} (n : String) :
    ContentTypes position count (.globalField n) → s.isDeclared n = true := by
  rintro ⟨i, -, h⟩
  cases h

theorem Unites.contentType_ne (h : Unites style own s ms t) {i : Nat} (hown : ¬ own (.contentType i)) :
    ∀ m ∈ ms, m.scope ≠ .contentType i := by
  intro m hm hscope
  rcases h.scopes m hm with hin | ⟨n, hn, -⟩
  · exact hown (hscope ▸ hin)
  · rw [hscope] at hn
    cases hn

variable {position : Nat} {records : List Record} {result : Except Fault (List Declaration)}
  {ds : List Declaration}

/-- The content types from a position on are left with the unions first met in them. -/
def LeavesUnions (style : Style) (position : Nat) (s : State) (ms : List Meeting)
    (ds : List Declaration) : Prop :=
  ∀ i d, ds[i]? = some d →
    d.unions = unionsIn (.contentType (position + i)) (firstsFrom style s.signatures ms)

theorem LeavesUnions.append (h : Unites style own s ms t) (hown : ∀ i, ¬ own (.contentType (position + i)))
    (hds : LeavesUnions style position t ms' ds) : LeavesUnions style position s (ms ++ ms') ds := by
  intro i d hd
  rw [hds i d hd, h.firsts_append, unionsIn_append, unionsIn_firsts_eq_nil (h.contentType_ne (hown i)),
    List.nil_append]

theorem LeavesUnions.cons {d : Declaration} (h : Unites style (· = .contentType position) s ms t)
    (hd : d.unions = unionsIn (.contentType position) (firstsFrom style s.signatures ms))
    (h' : Unites style (ContentTypes (position + 1) ds.length) t ms' u)
    (hds : LeavesUnions style (position + 1) t ms' ds) :
    LeavesUnions style position s (ms ++ ms') (d :: ds) := by
  intro i d' hd'
  rw [h.firsts_append, unionsIn_append]
  cases i with
  | zero =>
    obtain rfl := Option.some.inj hd'
    have hne : ∀ m ∈ ms', m.scope ≠ .contentType (position + 0) := by
      refine h'.contentType_ne ?_
      rintro ⟨i, -, hi⟩
      have hi := Scope.contentType.inj hi
      omega
    rw [unionsIn_firsts_eq_nil hne, List.append_nil]
    exact hd
  | succ i =>
    have hne : ∀ m ∈ ms, m.scope ≠ .contentType (position + (i + 1)) := by
      refine h.contentType_ne fun hi => ?_
      have hi := Scope.contentType.inj hi
      omega
    have hi : position + (i + 1) = position + 1 + i := by omega
    rw [unionsIn_firsts_eq_nil hne, List.nil_append, hi]
    exact hds i d' hd'

theorem recordName_unites {record : Record} {uid : String}
    (h : recordName input record s = (.ok (uid, name), t)) : Unites style own s [] t := by
  cases recordName_ok h <;> exact .of_eq rfl rfl

/-- The pass adds the unions that it is the first to meet, and leaves each content type with those that
were first met in it. -/
theorem Passes.unites (h : Passes input position records s steps result t) (hr : result = .ok ds) :
    Unites input.style (ContentTypes position ds.length) s (meetings steps) t ∧
      LeavesUnions input.style position s (meetings steps) ds := by
  induction h generalizing ds with
  | nil =>
    cases hr
    exact ⟨.of_eq rfl rfl, fun i d hd => by cases hd⟩
  | name_fault | global_fault | contentType_fault => cases hr
  | @bare _ _ _ s _ _ mid _ _ _ _ hn _ _ ih =>
    obtain ⟨hu, hds⟩ := ih hr
    have hfirst : Unites input.style (fun _ => False) s [] mid := recordName_unites hn
    exact ⟨(hfirst.mono fun _ => False.elim).append hu not_contentTypes, .append hfirst (fun _ => id) hds⟩
  | @global position _ _ s _ _ mid steps mid' steps' _ _ _ hn _ hv _ ih =>
    obtain ⟨hu, hds⟩ := ih hr
    have hfirst : Unites input.style (fun _ => False) s (meetings steps) mid' :=
      (recordName_unites hn).append (hv.unites_declare rfl) fun _ => False.elim
    rw [meetings_append]
    exact ⟨(hfirst.mono fun _ => False.elim).append hu not_contentTypes, .append hfirst (fun _ => id) hds⟩
  | @contentType position _ _ s uid name mid steps _ mid' _ _ _ _ hn hv _ ih =>
    obtain ⟨rest, rfl, rfl⟩ := ok_of_map hr
    obtain ⟨hu, hds⟩ := ih rfl
    obtain ⟨hin, hscope⟩ := hv.trace.unites rfl fun n hn => by cases hn
    have hown : ∀ n, (Scope.globalField n) = .contentType position → s.isDeclared n = true := by
      intro n hn
      cases hn
    have henter : Unites input.style (· = .contentType position) s [] (mid.entered name uid) :=
      (recordName_unites hn).append (.of_eq rfl rfl) hown
    have hfirst : Unites input.style (· = .contentType position) s (meetings steps) (mid'.left mid) := by
      have hleave : Unites input.style (· = .contentType position) mid' [] (mid'.left mid) :=
        .of_eq rfl rfl
      have hleft := (henter.append hin hown).append hleave hown
      rwa [List.append_nil] at hleft
    have hsig : (mid.entered name uid).signatures = s.signatures := by
      cases recordName_ok hn <;> rfl
    rw [hsig] at hscope
    rw [meetings_append]
    refine ⟨?_, .cons hfirst hscope hu hds⟩
    refine (hfirst.mono ?_).append (hu.mono ?_) not_contentTypes
    · rintro _ rfl
      exact ⟨0, Nat.succ_pos _, rfl⟩
    · rintro _ ⟨i, hi, rfl⟩
      exact ⟨i + 1, Nat.succ_lt_succ hi, congrArg _ (by omega)⟩

/-- Meetings in scopes of a list are those of the first scope, those of the second, and so on. -/
theorem perm_unionsIn {scopes : List Scope} (hnodup : scopes.Nodup) (h : ∀ m ∈ ms, m.scope ∈ scopes) :
    (scopes.flatMap fun scope => unionsIn scope ms).Perm (ms.map Meeting.union) := by
  induction scopes generalizing ms with
  | nil =>
    have hnil : ms = [] := List.eq_nil_iff_forall_not_mem.2 fun m hm => by cases h m hm
    rw [hnil]
    exact .refl _
  | cons scope rest ih =>
    obtain ⟨hscope, hrest⟩ := List.nodup_cons.1 hnodup
    have hothers : ∀ m ∈ ms.filter (fun m => !decide (m.scope = scope)), m.scope ∈ rest := by
      intro m hm
      obtain ⟨hm, hne⟩ := List.mem_filter.1 hm
      exact (List.mem_cons.1 (h m hm)).resolve_left (by simpa using hne)
    -- The scopes are distinct, so the later ones do not see the meetings of the first.
    have hkeep : (rest.flatMap fun scope' => unionsIn scope' ms) = rest.flatMap fun scope' =>
        unionsIn scope' (ms.filter fun m => !decide (m.scope = scope)) := by
      refine List.flatMap_congr fun scope' hs => ?_
      rw [unionsIn, unionsIn, List.filter_filter]
      refine congrArg _ (List.filter_congr fun m _ => ?_)
      by_cases hm : m.scope = scope'
      · have hne : m.scope ≠ scope := fun heq => hscope (heq ▸ hm ▸ hs)
        simp [hm, hm ▸ hne]
      · simp [hm]
    rw [List.flatMap_cons, hkeep]
    refine ((List.Perm.refl _).append (ih hrest hothers)).trans ?_
    rw [unionsIn, ← List.map_append]
    exact (List.filter_append_perm (fun m : Meeting => decide (m.scope = scope)) ms).map _

theorem firsts_names_nodup (h : Unites style own s ms t) (hs : s.unions = []) :
    ((firstsFrom style [] ms).map Meeting.name).Nodup := by
  have hsound : UnionsSound s := ⟨by simp [hs], by simp [State.unionNames, hs]⟩
  have hnodup := (h.sound hsound).nodup
  rw [State.unionNames, h.unions, State.signatures, hs, List.nil_append, List.map_map] at hnodup
  exact hnodup

theorem exists_first (h : Unites style own s ms t) (hs : s.unions = []) {m : Meeting} (hm : m ∈ ms) :
    ∃ first ∈ firstsFrom style [] ms, first.name = m.name ∧
      (first.signature style).same (m.signature style) = true := by
  obtain ⟨entry, he, hsame, hname⟩ := findUnion?_eq_some (h.found m hm)
  rw [h.unions, State.signatures, hs, List.nil_append] at he
  obtain ⟨first, hfirst, rfl⟩ := List.mem_map.1 he
  exact ⟨first, hfirst, hname, hsame⟩

def Output.scopes (o : Output) : List Scope :=
  o.globals.map (fun d => .globalField d.main.name) ++ (List.range o.contentTypes.length).map .contentType

theorem Output.scopes_nodup {o : Output} (h : (o.globals.map fun d => d.main.name).Nodup) :
    o.scopes.Nodup := by
  refine List.nodup_append.2 ⟨?_, ?_, ?_⟩
  · have hscopes := h.map (f := Scope.globalField) fun _ _ => Scope.globalField.inj
    rwa [List.map_map] at hscopes
  · exact List.nodup_range.map fun _ _ => Scope.contentType.inj
  · intro scope hg scope' hc heq
    obtain ⟨d, -, rfl⟩ := List.mem_map.1 hg
    obtain ⟨i, -, rfl⟩ := List.mem_map.1 hc
    cases heq

theorem Output.flatMap_unions {o : Output}
    (hglobals : ∀ d ∈ o.globals, d.unions = unionsIn (.globalField d.main.name) ms)
    (htypes : ∀ i d, o.contentTypes[i]? = some d → d.unions = unionsIn (.contentType i) ms) :
    (o.globals ++ o.contentTypes).flatMap Declaration.unions =
      o.scopes.flatMap fun scope => unionsIn scope ms := by
  have hmap : o.contentTypes.map Declaration.unions =
      (List.range o.contentTypes.length).map fun i => unionsIn (.contentType i) ms := by
    refine List.ext_getElem? fun i => ?_
    rw [List.getElem?_map, List.getElem?_map]
    cases hd : o.contentTypes[i]? with
    | none =>
      have hlength := List.getElem?_eq_none_iff.1 hd
      rw [List.getElem?_eq_none (by simpa using hlength)]
      rfl
    | some d =>
      obtain ⟨hi, -⟩ := List.getElem?_eq_some_iff.1 hd
      rw [List.getElem?_range hi]
      exact congrArg some (htypes i d hd)
  calc
    (o.globals ++ o.contentTypes).flatMap Declaration.unions
      = o.globals.flatMap Declaration.unions ++ o.contentTypes.flatMap Declaration.unions :=
        List.flatMap_append
    _ = (o.globals.flatMap fun d => unionsIn (.globalField d.main.name) ms) ++
          (List.range o.contentTypes.length).flatMap fun i => unionsIn (.contentType i) ms := by
        rw [List.flatMap_congr hglobals, List.flatMap_def, List.flatMap_def, hmap, ← List.flatMap_def,
          ← List.flatMap_def]
    _ = o.scopes.flatMap fun scope => unionsIn scope ms := by
        rw [Output.scopes, List.flatMap_append, List.flatMap_map, List.flatMap_map]

theorem Output.text_mem_parts {o : Output} {d : Declaration} (h : d ∈ o.globals ++ o.contentTypes) (style : Style) :
    d.text style ∈ o.parts style := by
  rw [Output.parts, List.append_assoc, ← List.map_append]
  exact List.mem_append_right _ (List.mem_map_of_mem h)

/-- A field of blocks that has a member has the fallback for its type if it keeps no blocks, and else the
name of the union that it meets with those that it keeps. -/
theorem Visits.met {path : Json} {attrs : Attributes} {schema? : Option (List Field)} {blocks : List Block}
    {result : Except Fault (Option Member)} {member : Option Member}
    (h : Visits input scope (.field path ⟨attrs, schema?, blocks⟩) s steps result t)
    (ho : Opens attrs .blocks) (hr : result = .ok member) :
    ∃ kept steps' mid, Visits input scope (.blocks (joinPath path attrs.uid) blocks) s steps' (.ok kept) mid ∧
      (kept = [] ∧ repeatedMember attrs .fallback = .ok member ∨
        kept ≠ [] ∧ ∃ name, ⟨scope, kept, name⟩ ∈ meetings steps ∧
          repeatedMember attrs (.declared name) = .ok member) := by
  cases h with
  | field_fault hu | field_unusable hu =>
    have heq := ho.usable.symm.trans hu
    cases heq
  | field_flat _ hv =>
    rw [flatType?, ho.untyped, ho.kind_eq] at hv
    cases hv
  | field_group ho' | field_target_fault ho' | field_global ho' =>
    have heq := ho.kind_eq.symm.trans ho'.kind_eq
    cases heq
  | field_blocks_fault => cases hr
  | field_no_blocks _ hv => exact ⟨[], _, _, hv, .inl ⟨rfl, hr⟩⟩
  | field_union_fault => cases hr
  | field_union _ hv hne =>
    refine ⟨_, _, _, hv, .inr ⟨hne, _, ?_, hr⟩⟩
    rw [meetings_append]
    exact List.mem_append_right _ (List.mem_singleton_self _)

/-- What a run leaves of its meetings: the declarations of its output have the unions of the first
meetings in their scopes. -/
theorem run_leaves {o : Output} {result : Except Fault (List Declaration)} (hs : start input = .ok s)
    (hr : runFrom input s = (.ok o, t)) (hp : Passes input 0 input.records s steps result u) :
    Unites input.style (ContentTypes 0 o.contentTypes.length) s (meetings steps) u ∧
      (o.globals.map fun d => d.main.name).Nodup ∧
      (∀ d ∈ o.globals, d.unions = unionsIn (.globalField d.main.name) (firsts input.style steps)) ∧
      (∀ i d, o.contentTypes[i]? = some d →
        d.unions = unionsIn (.contentType i) (firsts input.style steps)) ∧
      ((o.globals ++ o.contentTypes).flatMap Declaration.unions).Perm
        ((firsts input.style steps).map Meeting.union) := by
  obtain ⟨hentries, -⟩ := run_built hs hr hp
  obtain ⟨steps₀, u₀, hp₀, -, rfl, -⟩ := runFrom_ok hr
  obtain ⟨rfl, rfl⟩ := hp.unique hp₀
  obtain ⟨richTextUsed, rfl⟩ := start_eq hs
  obtain ⟨hunites, hleaves⟩ := hp.unites rfl
  have hglobals : ∀ d ∈ o.globals,
      d.unions = unionsIn (.globalField d.main.name) (firsts input.style steps) := by
    intro d hd
    have hmem : (d.main.name, some d) ∈ u.globals := by
      rw [show u.globals = o.globals.map entryOf from hentries]
      exact List.mem_map_of_mem hd
    exact ((hunites.globals _ _ hmem).resolve_left (by simp)).2
  have htypes : ∀ i d, o.contentTypes[i]? = some d →
      d.unions = unionsIn (.contentType i) (firsts input.style steps) := by
    intro i d hd
    rw [hleaves i d hd, Nat.zero_add]
    rfl
  have hnames : Table.names u.globals = o.globals.map fun d => d.main.name := names_of_entries hentries
  have hnodup : (o.globals.map fun d => d.main.name).Nodup := by
    rw [← hnames, hp.adds.names]
    exact hp.adds.nodup
  have hscopes : ∀ m ∈ firsts input.style steps, m.scope ∈ o.scopes := by
    intro m hm
    refine List.mem_append.2 ?_
    rcases hunites.scopes m (mem_of_mem_firstsFrom hm) with ⟨i, hi, hscope⟩ | ⟨n, hscope, -, hn⟩
    · rw [Nat.zero_add] at hscope
      exact .inr (List.mem_map.2 ⟨i, List.mem_range.2 hi, hscope.symm⟩)
    · rw [isDeclared_iff, hnames] at hn
      obtain ⟨d, hd, rfl⟩ := List.mem_map.1 hn
      exact .inl (List.mem_map.2 ⟨d, hd, hscope.symm⟩)
  refine ⟨hunites, hnodup, hglobals, htypes, ?_⟩
  rw [Output.flatMap_unions hglobals htypes]
  exact perm_unionsIn (Output.scopes_nodup hnodup) hscopes

/-- In a run that gives an output, two fields of blocks come to the same union exactly if their blocks have
the same uids and texts in the same order. Every union that is met is declared once, in the declaration
of the global field or content type where blocks like these were first met, before the interface of that
declaration, and the output declares no other unions. The text of each declaration is one of the parts of
the code, and in it the text of each of its unions introduces the union's name. -/
theorem run_declares_unions {o : Output} (hs : start input = .ok s) (hr : runFrom input s = (.ok o, t)) :
    (∃ steps u, Passes input 0 input.records s steps (.ok o.contentTypes) u) ∧
      ∀ steps result u, Passes input 0 input.records s steps result u →
        (∀ m ∈ meetings steps, ∀ m' ∈ meetings steps,
          (m.name = m'.name ↔ (m.signature input.style).same (m'.signature input.style) = true) ∧
          ((m.signature input.style).Textual → (m'.signature input.style).Textual →
            (m.name = m'.name ↔ m.signature input.style = m'.signature input.style))) ∧
        (∀ m ∈ meetings steps, ∃ first ∈ firsts input.style steps, first.name = m.name ∧
          (first.signature input.style).same (m.signature input.style) = true) ∧
        ((firsts input.style steps).map Meeting.name).Nodup ∧
        (∀ d ∈ o.globals, d.unions = unionsIn (.globalField d.main.name) (firsts input.style steps)) ∧
        (∀ i d, o.contentTypes[i]? = some d →
          d.unions = unionsIn (.contentType i) (firsts input.style steps)) ∧
        (∀ d ∈ o.globals ++ o.contentTypes, d.text input.style ∈ o.parts input.style ∧
          d.text input.style =
            joinParts (d.unions.map (BlockUnion.text input.style) ++ [d.main.text input.style]) ∧
          (∀ union ∈ d.unions, Introduces (union.text input.style) union.name) ∧
          Introduces (d.main.text input.style) d.main.name) ∧
        ((o.globals ++ o.contentTypes).flatMap Declaration.unions).Perm
          ((firsts input.style steps).map Meeting.union) := by
  obtain ⟨steps₀, u₀, hp₀, -⟩ := runFrom_ok hr
  refine ⟨⟨steps₀, u₀, hp₀⟩, fun steps result u hp => ?_⟩
  obtain ⟨hunites, -, hglobals, htypes, hperm⟩ := run_leaves hs hr hp
  obtain ⟨richTextUsed, rfl⟩ := start_eq hs
  have hsound : UnionsSound u := hunites.sound ⟨by simp, by simp [State.unionNames]⟩
  refine ⟨fun m hm m' hm' => ?_, fun m hm => exists_first hunites rfl hm, firsts_names_nodup hunites rfl,
    hglobals, htypes, fun d hd => ⟨Output.text_mem_parts hd _, rfl, fun union _ => union.introduces _,
      d.main.introduces _⟩, hperm⟩
  have hname := name_eq_iff_same hsound (hunites.keyed m hm) (hunites.keyed m' hm')
    (hunites.found m hm) (hunites.found m' hm')
  exact ⟨hname, fun ht ht' => hname.trans (Signature.same_iff_eq_of_textual ht ht')⟩

/-- A content type with two fields of the same blocks, one of them in a group, and a global field with blocks
of its own. -/
def sharedBlocks : Input :=
  let title : Field := ⟨{ uid := .text "title", kind := .text, tag := "text" }, none, []⟩
  let heroes : List Block := [⟨.text "hero", .null, .null, some [title]⟩]
  let banners : List Block := [⟨.text "banner", .null, .null, some [title]⟩]
  let field (uid : String) (blocks : List Block) : Field :=
    ⟨{ uid := .text uid, kind := .blocks, tag := "blocks" }, none, blocks⟩
  let seo : Field := ⟨{ uid := .text "seo", kind := .globalField, tag := "global_field" },
    some [field "parts" banners], []⟩
  let body : Field := ⟨{ uid := .text "body", kind := .group, tag := "group" },
    some [field "parts" heroes], []⟩
  ⟨{}, [⟨.text "page", .null, .null, some [field "sections" heroes, seo, body], false⟩]⟩

theorem run_declares_sharedBlocks :
    start sharedBlocks = .ok {} ∧
      ∃ o t steps, runFrom sharedBlocks {} = (.ok o, t) ∧
        ((firsts sharedBlocks.style steps).map Meeting.name).Nodup ∧
        (∀ d ∈ o.globals ++ o.contentTypes, d.text sharedBlocks.style ∈ o.parts sharedBlocks.style ∧
          ∀ union ∈ d.unions, Introduces (union.text sharedBlocks.style) union.name) ∧
        ((o.globals ++ o.contentTypes).flatMap Declaration.unions).Perm
          ((firsts sharedBlocks.style steps).map Meeting.union) := by
  have hstart : start sharedBlocks = .ok {} := by rfl
  have hok : (runFrom sharedBlocks {}).1.isOk = true := by decide +kernel
  rcases hr : runFrom sharedBlocks {} with ⟨e | o, t⟩
  · rw [hr] at hok
    cases hok
  · obtain ⟨⟨steps, u, hp⟩, hall⟩ := run_declares_unions hstart hr
    obtain ⟨-, -, hnodup, -, -, htexts, hperm⟩ := hall steps _ u hp
    exact ⟨hstart, o, t, steps, rfl, hnodup, fun d hd => ⟨(htexts d hd).1, (htexts d hd).2.2.1⟩, hperm⟩

end SchemaDecl.Generation

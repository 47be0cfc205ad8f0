import SchemaDecl.Proofs.Generation.Equations

/-!
# Signatures of unions

A block that is kept has a uid that can name a member and serve as a key: a text, `null`, or one of the
zeros. On such values the sameness of signatures is an equivalence, since it compares forms.
-/

namespace SchemaDecl

/-- The form by which a uid is told from others as a key: all zeros have one. -/
def Json.keyForm : Json → Json
  | .text s => .text s
  | .null => .null
  | _ => .int 0

/-- The uid of a block that is kept. -/
inductive MemberKey : Json → Prop
  | text (s : String) : MemberKey (.text s)
  | null : MemberKey .null
  | false : MemberKey (.bool false)
  | zero : MemberKey (.int 0)
  | floatZero (negative : Bool) (exponent : Int) : MemberKey (.float (.finite negative 0 exponent))

theorem memberKey_of_usable {uid : Json} (hu : Naming.isUsable uid = .ok true) (hk : uid.isKey = true) :
    MemberKey uid := by
  cases uid with
  | text s => exact .text s
  | null => exact .null
  | list items => cases hk
  | object entries => cases hk
  | bool b =>
    cases b with
    | false => exact .false
    | true => simp [Naming.isUsable, Json.truthy] at hu
  | int i =>
    by_cases hi : i = 0
    · subst hi
      exact .zero
    · simp [Naming.isUsable, Json.truthy, hi] at hu
  | float x =>
    cases x with
    | finite negative m e =>
      by_cases hm : m = 0
      · subst hm
        exact .floatZero negative e
      · simp [Naming.isUsable, Json.truthy, Binary64.isNonzero, hm] at hu
    | infinite negative => simp [Naming.isUsable, Json.truthy, Binary64.isNonzero] at hu
    | nan => simp [Naming.isUsable, Json.truthy, Binary64.isNonzero] at hu

theorem eqInt_zero (negative : Bool) (exponent : Int) :
    (Binary64.finite negative 0 exponent).eqInt 0 = true := by
  unfold Binary64.eqInt Binary64.ratio
  by_cases he : 0 ≤ exponent <;> simp [he, Binary64.scale]

theorem sameKey_iff {a b : Json} (ha : MemberKey a) (hb : MemberKey b) :
    a.sameKey b = true ↔ a.keyForm = b.keyForm := by
  cases ha <;> cases hb <;>
    simp [Json.sameKey, Json.keyForm, Json.asInt?, eqInt_zero, Binary64.sameValue, Binary64.isNonzero]

namespace Generation.Signature

def Keyed (sig : Signature) : Prop := ∀ entry ∈ sig, MemberKey entry.1

def form (sig : Signature) : Signature := sig.map fun (uid, text) => (uid.keyForm, text)

theorem same_cons (x y : Json × String) (a b : Signature) :
    same (x :: a) (y :: b) = (x.1.sameKey y.1 && decide (x.2 = y.2) && same a b) := by
  simp only [same, List.length_cons, List.zip_cons_cons, List.all_cons, Nat.add_right_cancel_iff]
  cases decide (a.length = b.length) <;> simp

theorem same_iff {a b : Signature} (ha : a.Keyed) (hb : b.Keyed) :
    a.same b = true ↔ a.form = b.form := by
  induction a generalizing b with
  | nil => cases b <;> simp [same, form]
  | cons x a ih =>
    cases b with
    | nil => simp [same, form]
    | cons y b =>
      obtain ⟨hx, ha⟩ := List.forall_mem_cons.1 ha
      obtain ⟨hy, hb⟩ := List.forall_mem_cons.1 hb
      rw [same_cons, Bool.and_eq_true, Bool.and_eq_true, decide_eq_true_eq, sameKey_iff hx hy, ih ha hb]
      simp [form]

theorem same_refl {a : Signature} (ha : a.Keyed) : a.same a = true := (same_iff ha ha).2 rfl

theorem same_comm {a b : Signature} (ha : a.Keyed) (hb : b.Keyed) (h : a.same b = true) :
    b.same a = true := (same_iff hb ha).2 ((same_iff ha hb).1 h).symm

theorem same_trans {a b c : Signature} (ha : a.Keyed) (hb : b.Keyed) (hc : c.Keyed)
    (h : a.same b = true) (h' : b.same c = true) : a.same c = true :=
  (same_iff ha hc).2 (((same_iff ha hb).1 h).trans ((same_iff hb hc).1 h'))

def Textual (sig : Signature) : Prop := ∀ entry ∈ sig, ∃ s, entry.1 = .text s

theorem same_iff_eq_of_textual {a b : Signature} (ha : a.Textual) (hb : b.Textual) :
    a.same b = true ↔ a = b := by
  have hform : ∀ {c : Signature}, c.Textual → c.Keyed ∧ c.form = c := by
    intro c hc
    refine ⟨fun entry he => ?_, ?_⟩
    · obtain ⟨s, hs⟩ := hc entry he
      rw [hs]
      exact .text s
    · calc
        c.form = c.map id := List.map_congr_left fun entry he => by
          obtain ⟨s, hs⟩ := hc entry he
          simp only [hs, Json.keyForm]
          rw [← hs, id]
        _ = c := List.map_id c
  rw [same_iff (hform ha).1 (hform hb).1, (hform ha).2, (hform hb).2]

end Generation.Signature

end SchemaDecl

import Mathlib.Data.List.Nodup
import SchemaDecl.Proofs.Naming.Fresh
import SchemaDecl.Proofs.Naming.Heads

/-!
# Requests for free names

The search for a free name has no bound of its own: it goes on to the next number as long as the name in hand is
taken. It ends all the same, and no number that it has used up is used for a later request, whatever names are taken
then. If the answers are taken from then on, no two of them are equal.
-/

namespace SchemaDecl.Naming

/-- The search for a name that is not taken, from the name in hand and the next number to the numbers that it uses up
and the name that it ends with. -/
inductive Search (base : String) (taken : List String) : String → Nat → List Nat → String → Prop
  | free {name : String} {n : Nat} (h : name ∉ taken) : Search base taken name n [] name
  | next {name answer : String} {n : Nat} {numbers : List Nat} (h : name ∈ taken)
      (hrest : Search base taken (numbered base n) (n + 1) numbers answer) :
      Search base taken name n (n :: numbers) answer

structure Request where
  uid : String
  taken : List String

/-- An answered request, with the next number before it and the next number after it. -/
structure Grant where
  base : String
  taken : List String
  name : String
  counter : Nat
  counterAfter : Nat

def Request.grant (lead : String) (counter : Nat) (request : Request) : Grant :=
  let base := declare lead request.uid
  let answer := unique base request.taken counter
  ⟨base, request.taken, answer.1, counter, answer.2⟩

/-- An answer is the plain name, or the plain name with the first number that makes a free one. -/
inductive Grant.Found : Grant → Prop
  | plain {base : String} {taken : List String} {n : Nat} (h : base ∉ taken) : Found ⟨base, taken, base, n, n⟩
  | numbered {base : String} {taken : List String} {n m : Nat} (h : base ∈ taken)
      (hbelow : ∀ k, n ≤ k → k < n + m → numbered base k ∈ taken) (hfree : numbered base (n + m) ∉ taken) :
      Found ⟨base, taken, numbered base (n + m), n, n + m + 1⟩

/-- The requests answered one after another by one allocator. -/
def grants (lead : String) (counter : Nat) : List Request → List Grant
  | [] => []
  | request :: rest =>
    request.grant lead counter :: grants lead (request.grant lead counter).counterAfter rest

def Grant.numbers (g : Grant) : List Nat := List.range' g.counter (g.counterAfter - g.counter)

variable {base name answer lead : String} {taken : List String} {n m counter : Nat} {numbers : List Nat}
  {g : Grant} {request : Request} {requests : List Request}

theorem Search.eq {answer' : String} {numbers' : List Nat} (h : Search base taken name n numbers answer)
    (h' : Search base taken name n numbers' answer') : numbers' = numbers ∧ answer' = answer := by
  induction h generalizing numbers' answer' with
  | free hfree =>
    cases h' with
    | free => exact ⟨rfl, rfl⟩
    | next htaken _ => exact absurd htaken hfree
  | next htaken _ ih =>
    cases h' with
    | free hfree => exact absurd htaken hfree
    | next _ hrest =>
      obtain ⟨rfl, rfl⟩ := ih hrest
      exact ⟨rfl, rfl⟩

/-- A search goes through the numbers of taken names to the first that makes a free one. -/
theorem search_numbered (hname : name ∈ taken) (hbelow : ∀ k, n ≤ k → k < n + m → numbered base k ∈ taken)
    (hfree : numbered base (n + m) ∉ taken) :
    Search base taken name n (List.range' n (m + 1)) (numbered base (n + m)) := by
  induction m generalizing name n with
  | zero => exact .next hname (.free hfree)
  | succ m ih =>
    rw [List.range'_succ]
    refine .next hname ?_
    have hshift : n + (m + 1) = n + 1 + m := by omega
    rw [hshift] at hfree hbelow ⊢
    exact ih (hbelow n (Nat.le_refl n) (by omega)) (fun k hk hlt => hbelow k (by omega) hlt) hfree

theorem found_grant (lead : String) (counter : Nat) (request : Request) : (request.grant lead counter).Found := by
  rw [Request.grant]
  generalize declare lead request.uid = base
  by_cases h : base ∈ request.taken
  · obtain ⟨k, hk, heq, hbelow⟩ := firstFree_numbered base request.taken request.taken.length counter
    obtain ⟨m, rfl⟩ := Nat.exists_eq_add_of_le hk
    have hfree := firstFree_not_mem base request.taken counter
    rw [heq] at hfree
    rw [unique, if_pos h, heq]
    exact .numbered h hbelow hfree
  · rw [unique, if_neg h]
    exact .plain h

namespace Grant.Found

theorem search (h : g.Found) : Search g.base g.taken g.base g.counter g.numbers g.name := by
  cases h with
  | plain h =>
    rw [numbers, Nat.sub_self]
    exact .free h
  | @numbered base taken n m h hbelow hfree =>
    have hcount : n + m + 1 - n = m + 1 := by omega
    rw [numbers, hcount]
    exact search_numbered h hbelow hfree

theorem not_mem (h : g.Found) : g.name ∉ g.taken := by
  cases h with
  | plain h => exact h
  | numbered _ _ hfree => exact hfree

theorem counter_le (h : g.Found) : g.counter ≤ g.counterAfter := by
  cases h with
  | plain => exact Nat.le_refl _
  | @numbered base taken n m => exact Nat.le_add_right_of_le (Nat.le_add_right n m)

theorem name_eq (h : g.Found) :
    if g.base ∈ g.taken then ∃ n ∈ g.numbers, g.name = Naming.numbered g.base n else g.name = g.base := by
  cases h with
  | plain h => rw [if_neg h]
  | @numbered base taken n m h =>
    rw [if_pos h]
    refine ⟨n + m, ?_, rfl⟩
    rw [numbers, List.mem_range'_1]
    dsimp only
    omega

end Grant.Found

theorem found_of_mem_grants (h : g ∈ grants lead counter requests) : g.Found := by
  induction requests generalizing counter with
  | nil => cases h
  | cons request rest ih =>
    rcases List.mem_cons.1 h with rfl | h
    · exact found_grant lead counter request
    · exact ih h

theorem le_counter_of_mem_grants (h : g ∈ grants lead counter requests) : counter ≤ g.counter := by
  induction requests generalizing counter with
  | nil => cases h
  | cons request rest ih =>
    rcases List.mem_cons.1 h with rfl | h
    · exact Nat.le_refl counter
    · exact Nat.le_trans (found_grant lead counter request).counter_le (ih h)

theorem grants_pairwise (lead : String) (counter : Nat) (requests : List Request) :
    (grants lead counter requests).Pairwise fun earlier later => earlier.counterAfter ≤ later.counter := by
  induction requests generalizing counter with
  | nil => exact .nil
  | cons request rest ih =>
    exact List.pairwise_cons.2 ⟨fun _ hlater => le_counter_of_mem_grants hlater, ih _⟩

theorem numbers_disjoint {earlier later : Grant} (h : earlier.counterAfter ≤ later.counter) :
    ∀ n ∈ later.numbers, n ∉ earlier.numbers := by
  intro n hlater hearlier
  rw [Grant.numbers, List.mem_range'_1] at hlater hearlier
  omega

/-- Whatever names are taken and whatever number is next, the search for a name ends, and in one way only. The name
that it ends with is not taken: it is the plain name if that one is free, and else the plain name with a number that
the search has used up. The next number never goes back, and what numbers a request has used up no later one uses.
So the answers are distinct if each of them is taken in all later requests. -/
theorem grants_fresh (lead : String) (counter : Nat) (requests : List Request) :
    (∀ g ∈ grants lead counter requests,
      (∀ numbers name, Search g.base g.taken g.base g.counter numbers name ↔
        numbers = g.numbers ∧ name = g.name) ∧
      g.name ∉ g.taken ∧
      (if g.base ∈ g.taken then ∃ n ∈ g.numbers, g.name = numbered g.base n else g.name = g.base) ∧
      g.counter ≤ g.counterAfter) ∧
    ((grants lead counter requests).Pairwise fun earlier later =>
      earlier.counterAfter ≤ later.counter ∧ ∀ n ∈ later.numbers, n ∉ earlier.numbers) ∧
    (((grants lead counter requests).Pairwise fun earlier later => earlier.name ∈ later.taken) →
      ((grants lead counter requests).map Grant.name).Nodup) := by
  refine ⟨fun g hg => ?_, (grants_pairwise lead counter requests).imp fun h => ⟨h, numbers_disjoint h⟩, fun h => ?_⟩
  · have hfound := found_of_mem_grants hg
    refine ⟨fun numbers name => ⟨hfound.search.eq, ?_⟩, hfound.not_mem, hfound.name_eq, hfound.counter_le⟩
    rintro ⟨rfl, rfl⟩
    exact hfound.search
  · refine List.pairwise_map.2 (h.imp_of_mem fun {earlier later} _ hlater htaken heq => ?_)
    exact (found_of_mem_grants hlater).not_mem (heq ▸ htaken)

/-- Requests for plain names that are taken, one of which looks like an earlier answer. -/
def sectionRequests : List Request :=
  [⟨"sections", []⟩, ⟨"sections", ["Sections"]⟩, ⟨"sections_1", ["Sections", "Sections1"]⟩,
   ⟨"sections", ["Sections", "Sections1", "Sections12"]⟩]

theorem grants_fresh_sections :
    (grants "" 1 sectionRequests).map Grant.name = ["Sections", "Sections1", "Sections12", "Sections3"] ∧
    ((grants "" 1 sectionRequests).Pairwise fun earlier later => earlier.name ∈ later.taken) ∧
    ((grants "" 1 sectionRequests).map Grant.name).Nodup :=
  ⟨by decide +kernel, by decide +kernel, (grants_fresh "" 1 sectionRequests).2.2 (by decide +kernel)⟩

end SchemaDecl.Naming

import Mathlib.Algebra.BigOperators.Group.Finset.Piecewise
import Mathlib.Algebra.Order.BigOperators.Group.Finset

set_option autoImplicit false

/-!
# Journals

A journal is a list of entries, the oldest first, each with the party that made it. Every party sees
its own entries (`of`).

* `of_append`, `of_entries_self`, `of_entries_ne`, `of_mono`: how the entries of a party grow;
* **`sum_filterMap`**: a total over the journal is the sum of the totals of the parties, so that
  `sum_nonneg` lifts an inequality from the parties to the journal.
-/

namespace Journal

variable {ι α M : Type*} [DecidableEq ι] {i k : ι} {j p : List (ι × α)}

/-- The entries of one party. -/
def of (j : List (ι × α)) (i : ι) : List α :=
  j.filterMap fun e => if e.1 = i then some e.2 else none

/-- The parties that have made an entry. -/
def parties (j : List (ι × α)) : Finset ι := (j.map Prod.fst).toFinset

theorem of_append (j p : List (ι × α)) (i : ι) : of (j ++ p) i = of j i ++ of p i :=
  List.filterMap_append

theorem of_cons (e : ι × α) (j : List (ι × α)) (i : ι) :
    of (e :: j) i = if e.1 = i then e.2 :: of j i else of j i := by
  unfold of
  by_cases h : e.1 = i <;> simp [h]

theorem of_entries_self (i : ι) (as : List α) : of (as.map fun a => (i, a)) i = as := by
  induction as with
  | nil => rfl
  | cons a as ih => rw [List.map_cons, of_cons, if_pos rfl, ih]

theorem of_entries_ne (h : i ≠ k) (as : List α) : of (as.map fun a => (i, a)) k = [] := by
  induction as with
  | nil => rfl
  | cons a as ih => rw [List.map_cons, of_cons, if_neg h, ih]

/-- An earlier journal has earlier entries of every party. -/
theorem of_mono (h : p <+: j) (i : ι) : of p i <+: of j i := h.filterMap _

theorem mem_parties : i ∈ parties j ↔ of j i ≠ [] := by
  induction j with
  | nil => simp [parties, of]
  | cons e j ih =>
      have hp : i ∈ parties (e :: j) ↔ i = e.1 ∨ i ∈ parties j := by simp [parties]
      rw [hp, of_cons, ih]
      by_cases h : e.1 = i
      · simp [h]
      · simp [h, Ne.symm h]

section Sums

variable [AddCommMonoid M] (f : α → Option M)

/-- **A total, party by party.** -/
theorem sum_filterMap (j : List (ι × α)) :
    ((j.map Prod.snd).filterMap f).sum = ∑ i ∈ parties j, ((of j i).filterMap f).sum := by
  have hall : ∀ S : Finset ι, parties j ⊆ S →
      ((j.map Prod.snd).filterMap f).sum = ∑ i ∈ S, ((of j i).filterMap f).sum := by
    intro S
    induction j with
    | nil => simp [of]
    | cons e j ih =>
        intro hS
        have he : e.1 ∈ S := hS (by simp [parties])
        have hj : parties j ⊆ S := by
          intro i hi
          refine hS ?_
          simp only [parties, List.map_cons, List.toFinset_cons, Finset.mem_insert]
          exact .inr hi
        -- the new entry counts for its own party only
        have hone : ∀ i, ((of (e :: j) i).filterMap f).sum =
            (if e.1 = i then (f e.2).getD 0 else 0) + ((of j i).filterMap f).sum := by
          intro i
          rw [of_cons]
          by_cases h : e.1 = i
          · cases hf : f e.2 <;> simp [h, hf]
          · simp [h]
        rw [Finset.sum_congr rfl fun i _ => hone i, Finset.sum_add_distrib, Finset.sum_ite_eq,
          if_pos he, ← ih hj]
        cases hf : f e.2 <;> simp [hf]
  exact hall _ subset_rfl

/-- What holds of every party's total adds up. -/
theorem sum_nonneg [PartialOrder M] [IsOrderedAddMonoid M]
    (h : ∀ i, 0 ≤ ((of j i).filterMap f).sum) : 0 ≤ ((j.map Prod.snd).filterMap f).sum := by
  rw [sum_filterMap]
  exact Finset.sum_nonneg fun i _ => h i

end Sums

end Journal

import Mathlib.Data.List.Nodup
import Mathlib.Data.List.Perm.Subperm
import Mathlib.Data.List.Range

set_option autoImplicit false

/-!
# Objects behind pointers

A heap hands out pointers in order; a pointer that was freed is never handed out again, so that a stale
pointer can be told from a new one.

* `alloc`, `modify`, `free`, `retain`: the operations, with what `get` finds after each of them;
* `find`: the first object that meets a predicate;
* `count`, **`count_le`**: how many objects meet a predicate, bounded by a list that holds them;
  `count_alloc`, `count_free`: how their number changes.
-/

structure Heap (α : Type*) where
  allocated : ℕ
  get : ℕ → Option α
  fresh : ∀ p, allocated ≤ p → get p = none

namespace Heap

variable {α : Type*} {h : Heap α} {a : α} {p q : ℕ} {f : α → α} {keep P : α → Bool}

def empty : Heap α where
  allocated := 0
  get _ := none
  fresh _ _ := rfl

/-- A new object; its pointer is `h.allocated`. -/
def alloc (h : Heap α) (a : α) : Heap α where
  allocated := h.allocated + 1
  get q := if q = h.allocated then some a else h.get q
  fresh q hq := by
    rw [if_neg (by omega)]
    exact h.fresh q (by omega)

def modify (h : Heap α) (p : ℕ) (f : α → α) : Heap α where
  allocated := h.allocated
  get q := if q = p then (h.get q).map f else h.get q
  fresh q hq := by
    rw [h.fresh q hq]
    exact ite_self none

def free (h : Heap α) (p : ℕ) : Heap α where
  allocated := h.allocated
  get q := if q = p then none else h.get q
  fresh q hq := by
    rw [h.fresh q hq]
    exact ite_self none

/-- Free every object that is not to be kept. -/
def retain (h : Heap α) (keep : α → Bool) : Heap α where
  allocated := h.allocated
  get q := (h.get q).filter keep
  fresh q hq := by
    rw [h.fresh q hq]
    rfl

/-- The objects that meet a predicate. -/
def select (h : Heap α) (P : α → Bool) : List ℕ := (List.range h.allocated).filter fun q => (h.get q).any P

def find (h : Heap α) (P : α → Bool) : Option ℕ :=
  (List.range h.allocated).find? fun q => (h.get q).any P

def count (h : Heap α) (P : α → Bool) : ℕ := (h.select P).length

theorem lt_allocated (hp : h.get p = some a) : p < h.allocated := by
  by_contra hle
  rw [h.fresh p (by omega)] at hp
  cases hp

theorem ne_allocated (hp : h.get p = some a) : p ≠ h.allocated := (lt_allocated hp).ne

@[simp] theorem get_allocated (h : Heap α) : h.get h.allocated = none := h.fresh _ (le_refl _)

theorem get_alloc (h : Heap α) (a : α) (q : ℕ) :
    (h.alloc a).get q = if q = h.allocated then some a else h.get q := rfl

@[simp] theorem get_alloc_self (h : Heap α) (a : α) : (h.alloc a).get h.allocated = some a := if_pos rfl

theorem get_alloc_of_some (hp : h.get p = some a) (b : α) : (h.alloc b).get p = some a := by
  rw [get_alloc, if_neg (ne_allocated hp), hp]

theorem get_modify (h : Heap α) (p : ℕ) (f : α → α) (q : ℕ) :
    (h.modify p f).get q = if q = p then (h.get q).map f else h.get q := rfl

@[simp] theorem get_modify_self (h : Heap α) (p : ℕ) (f : α → α) :
    (h.modify p f).get p = (h.get p).map f := if_pos rfl

theorem get_free (h : Heap α) (p q : ℕ) : (h.free p).get q = if q = p then none else h.get q := rfl

theorem get_retain (h : Heap α) (keep : α → Bool) (q : ℕ) :
    (h.retain keep).get q = (h.get q).filter keep := rfl

theorem get_alloc_eq_some {b : α} :
    (h.alloc a).get q = some b ↔ q = h.allocated ∧ a = b ∨ h.get q = some b := by
  rw [get_alloc]
  by_cases hq : q = h.allocated
  · simp [hq]
  · simp [hq]

theorem get_modify_eq_some {b : α} :
    (h.modify p f).get q = some b ↔
      (q = p ∧ ∃ a, h.get p = some a ∧ f a = b) ∨ q ≠ p ∧ h.get q = some b := by
  rw [get_modify]
  by_cases hq : q = p
  · simp [hq, Option.map_eq_some_iff]
  · simp [hq]

theorem get_free_eq_some : (h.free p).get q = some a ↔ q ≠ p ∧ h.get q = some a := by
  rw [get_free]
  by_cases hq : q = p
  · simp [hq]
  · simp [hq]

theorem get_retain_eq_some : (h.retain keep).get q = some a ↔ h.get q = some a ∧ keep a = true := by
  rw [get_retain, Option.filter_eq_some_iff]

/-! ## Searching -/

theorem mem_select : p ∈ h.select P ↔ ∃ a, h.get p = some a ∧ P a = true := by
  unfold select
  rw [List.mem_filter, List.mem_range, Option.any_eq_true]
  constructor
  · rintro ⟨-, a, ha, hP⟩
    exact ⟨a, ha, hP⟩
  · rintro ⟨a, ha, hP⟩
    exact ⟨lt_allocated ha, a, ha, hP⟩

theorem of_find_eq_some (hf : h.find P = some p) : ∃ a, h.get p = some a ∧ P a = true := by
  have hany : (h.get p).any P = true := List.find?_some (p := fun q => (h.get q).any P) hf
  exact (Option.any_eq_true _ _).mp hany

theorem not_of_find_eq_none (hf : h.find P = none) (hp : h.get p = some a) : P a = false := by
  have hnone := List.find?_eq_none.mp hf p (List.mem_range.mpr (lt_allocated hp))
  rw [hp] at hnone
  exact (Bool.not_eq_true _).mp hnone

/-- **A list that holds every object bounds their number.** -/
theorem count_le {l : List ℕ} (hl : ∀ p a, h.get p = some a → P a = true → p ∈ l) :
    h.count P ≤ l.length := by
  have hnodup : (h.select P).Nodup := List.nodup_range.filter _
  refine (List.Nodup.subperm hnodup fun p hp => ?_).length_le
  obtain ⟨a, ha, hP⟩ := mem_select.mp hp
  exact hl p a ha hP

theorem count_alloc (h : Heap α) (a : α) (P : α → Bool) :
    (h.alloc a).count P = h.count P + if P a then 1 else 0 := by
  have hold : (List.range h.allocated).filter (fun q => ((h.alloc a).get q).any P) = h.select P := by
    refine List.filter_congr fun q hq => ?_
    rw [get_alloc, if_neg (List.mem_range.mp hq).ne]
  have hnew : (h.alloc a).select P =
      h.select P ++ if P a then [h.allocated] else [] := by
    unfold select at hold ⊢
    rw [show (h.alloc a).allocated = h.allocated + 1 from rfl, List.range_succ, List.filter_append, hold]
    cases hP : P a <;> simp [hP]
  unfold count
  rw [hnew, List.length_append]
  split <;> rfl

theorem count_free (hp : h.get p = some a) (hP : P a = true) : (h.free p).count P + 1 = h.count P := by
  have hnodup : (h.select P).Nodup := List.nodup_range.filter _
  have hselect : (h.free p).select P = (h.select P).erase p := by
    rw [hnodup.erase_eq_filter]
    unfold select
    rw [List.filter_filter]
    refine List.filter_congr fun q _ => ?_
    rw [get_free]
    by_cases hq : q = p <;> simp [hq]
  have hmem : p ∈ h.select P := mem_select.mpr ⟨a, hp, hP⟩
  unfold count
  rw [hselect, List.length_erase_of_mem hmem]
  exact Nat.succ_pred_eq_of_pos (List.length_pos_of_mem hmem)

end Heap

import Mathlib.Data.List.Nodup
import Mathlib.Logic.Function.Basic

set_option autoImplicit false

/-!
# Pools of recycled queues

A pool hands out queues under numbers. A queue is idle in the pool, or held, or gone; a number
that was handed out as new is never handed out as new again.

`Sound P held` is what the users of a pool rely on when `held i` is the queue of user `i`: idle
queues are empty, and no queue is idle and held, or held twice. Each operation keeps it:

* `Sound.take`, `Sound.create`: a user without a queue gets an idle one or a new one, and finds it
  empty;
* `Sound.put`: a user gives an **empty** queue back;
* `Sound.forget`: a user's queue is dropped, whatever it holds;
* `Sound.write`: a user changes the content of its own queue;
* `Sound.discard`: the pool drops an idle queue.
-/

/-- The idle queues, the next unused number and the content of every queue. -/
structure Pool (β : Type*) where
  idle : List ℕ := []
  next : ℕ := 0
  content : ℕ → List β := fun _ => []

namespace Pool

variable {β ι : Type*}

/-- Hand out the `k`-th idle queue, if there is one. -/
def take (P : Pool β) (k : ℕ) : Option (ℕ × Pool β) :=
  (P.idle[k]?).map fun p => (p, { P with idle := P.idle.eraseIdx k })

/-- Hand out a new empty queue. -/
def create (P : Pool β) : ℕ × Pool β :=
  (P.next, { P with next := P.next + 1, content := Function.update P.content P.next [] })

/-- Take a queue back for later use. -/
def put (P : Pool β) (p : ℕ) : Pool β := { P with idle := p :: P.idle }

/-- Drop the `k`-th idle queue. -/
def discard (P : Pool β) (k : ℕ) : Pool β := { P with idle := P.idle.eraseIdx k }

/-- Replace the content of queue `p`. -/
def write (P : Pool β) (p : ℕ) (bs : List β) : Pool β :=
  { P with content := Function.update P.content p bs }

@[simp] theorem write_content (P : Pool β) (p : ℕ) (bs : List β) :
    (P.write p bs).content = Function.update P.content p bs := rfl

theorem take_eq_some {P P' : Pool β} {k p : ℕ} (h : P.take k = some (p, P')) :
    P.idle[k]? = some p ∧ P' = P.discard k := by
  unfold take at h
  cases hk : P.idle[k]? with
  | none =>
      rw [hk] at h
      cases h
  | some q =>
      rw [hk] at h
      cases h
      exact ⟨rfl, rfl⟩

/-- **What the users of a pool rely on.** -/
structure Sound (P : Pool β) (held : ι → Option ℕ) : Prop where
  idle_nodup : P.idle.Nodup
  idle_empty : ∀ p ∈ P.idle, P.content p = []
  idle_lt : ∀ p ∈ P.idle, p < P.next
  held_lt : ∀ i p, held i = some p → p < P.next
  held_busy : ∀ i p, held i = some p → p ∉ P.idle
  held_inj : ∀ i j p, held i = some p → held j = some p → i = j

theorem sound_empty : Sound ({} : Pool β) (fun _ : ι => none) where
  idle_nodup := List.nodup_nil
  idle_empty := by simp
  idle_lt := by simp
  held_lt := by simp
  held_busy := by simp
  held_inj := by simp

namespace Sound

variable {P : Pool β} {held : ι → Option ℕ}

/-- Dropping idle queues concerns nobody. -/
theorem discard (h : Sound P held) (k : ℕ) : Sound (P.discard k) held where
  idle_nodup := h.idle_nodup.sublist (List.eraseIdx_sublist ..)
  idle_empty := fun p hp => h.idle_empty p (List.mem_of_mem_eraseIdx hp)
  idle_lt := fun p hp => h.idle_lt p (List.mem_of_mem_eraseIdx hp)
  held_lt := h.held_lt
  held_busy := fun i p hi hp => h.held_busy i p hi (List.mem_of_mem_eraseIdx hp)
  held_inj := h.held_inj

theorem write (h : Sound P held) {i : ι} {p : ℕ} (hi : held i = some p) (bs : List β) :
    Sound (P.write p bs) held where
  idle_nodup := h.idle_nodup
  idle_empty := fun q hq => by
    have hne : q ≠ p := fun e => h.held_busy i p hi (e ▸ hq)
    rw [write_content, Function.update_of_ne hne]
    exact h.idle_empty q hq
  idle_lt := h.idle_lt
  held_lt := h.held_lt
  held_busy := h.held_busy
  held_inj := h.held_inj

variable [DecidableEq ι]

/-- A user that holds nothing may be given a queue that is neither idle nor held. -/
theorem hold (h : Sound P held) (i : ι) {p : ℕ} (hlt : p < P.next) (hidle : p ∉ P.idle)
    (hfree : ∀ j, held j ≠ some p) : Sound P (Function.update held i (some p)) where
  idle_nodup := h.idle_nodup
  idle_empty := h.idle_empty
  idle_lt := h.idle_lt
  held_lt := fun j q hj => by
    by_cases hij : j = i
    · subst hij
      rw [Function.update_self] at hj
      exact Option.some.inj hj ▸ hlt
    · rw [Function.update_of_ne hij] at hj
      exact h.held_lt j q hj
  held_busy := fun j q hj => by
    by_cases hij : j = i
    · subst hij
      rw [Function.update_self] at hj
      exact Option.some.inj hj ▸ hidle
    · rw [Function.update_of_ne hij] at hj
      exact h.held_busy j q hj
  held_inj := fun j k q hj hk => by
    by_cases hji : j = i <;> by_cases hki : k = i
    · rw [hji, hki]
    · subst hji
      rw [Function.update_self] at hj
      rw [Function.update_of_ne hki] at hk
      exact absurd (hk.trans hj.symm) (hfree k)
    · subst hki
      rw [Function.update_self] at hk
      rw [Function.update_of_ne hji] at hj
      exact absurd (hj.trans hk.symm) (hfree j)
    · rw [Function.update_of_ne hji] at hj
      rw [Function.update_of_ne hki] at hk
      exact h.held_inj j k q hj hk

/-- A queue that is given up stays out of the pool. -/
theorem forget (h : Sound P held) (i : ι) : Sound P (Function.update held i none) := by
  have hup : ∀ {j q}, Function.update held i none j = some q → held j = some q := by
    intro j q hj
    by_cases hij : j = i
    · subst hij
      rw [Function.update_self] at hj
      cases hj
    · rwa [Function.update_of_ne hij] at hj
  exact
    { idle_nodup := h.idle_nodup
      idle_empty := h.idle_empty
      idle_lt := h.idle_lt
      held_lt := fun j q hj => h.held_lt j q (hup hj)
      held_busy := fun j q hj => h.held_busy j q (hup hj)
      held_inj := fun j k q hj hk => h.held_inj j k q (hup hj) (hup hk) }

/-- **An idle queue is handed out empty.** -/
theorem take (h : Sound P held) (i : ι) {k p : ℕ} {P' : Pool β} (ht : P.take k = some (p, P')) :
    Sound P' (Function.update held i (some p)) ∧ P'.content p = [] := by
  obtain ⟨hk, rfl⟩ := take_eq_some ht
  have hmem : p ∈ P.idle := List.mem_of_getElem? hk
  refine ⟨(h.discard k).hold i (h.idle_lt p hmem) ?_ ?_, h.idle_empty p hmem⟩
  · intro hp
    obtain ⟨j, hjk, hj⟩ := List.mem_eraseIdx_iff_getElem?.mp hp
    exact hjk ((List.getElem?_inj (List.getElem?_eq_some_iff.mp hj).1 h.idle_nodup).mp
      (hj.trans hk.symm))
  · intro j hj
    exact h.held_busy j p hj hmem

/-- **A new queue is handed out empty.** -/
theorem create (h : Sound P held) (i : ι) :
    Sound P.create.2 (Function.update held i (some P.create.1)) ∧
      P.create.2.content P.create.1 = [] := by
  have hgrow : Sound P.create.2 held :=
    { idle_nodup := h.idle_nodup
      idle_empty := fun q hq => by
        have hne : q ≠ P.next := Nat.ne_of_lt (h.idle_lt q hq)
        change Function.update P.content P.next [] q = []
        rw [Function.update_of_ne hne]
        exact h.idle_empty q hq
      idle_lt := fun q hq => Nat.lt_succ_of_lt (h.idle_lt q hq)
      held_lt := fun j q hj => Nat.lt_succ_of_lt (h.held_lt j q hj)
      held_busy := h.held_busy
      held_inj := h.held_inj }
  refine ⟨hgrow.hold i (Nat.lt_succ_self _) ?_ ?_, Function.update_self ..⟩
  · intro hq
    exact absurd (h.idle_lt _ hq) (Nat.lt_irrefl _)
  · intro j hj
    exact absurd (h.held_lt j _ hj) (Nat.lt_irrefl _)

/-- **Only an empty queue may be given back.** -/
theorem put (h : Sound P held) {i : ι} {p : ℕ} (hi : held i = some p) (hempty : P.content p = []) :
    Sound (P.put p) (Function.update held i none) := by
  have hf := h.forget i
  exact
    { idle_nodup := List.nodup_cons.mpr ⟨h.held_busy i p hi, h.idle_nodup⟩
      idle_empty := fun q hq => by
        rcases List.mem_cons.mp hq with rfl | hq
        · exact hempty
        · exact h.idle_empty q hq
      idle_lt := fun q hq => by
        rcases List.mem_cons.mp hq with rfl | hq
        · exact h.held_lt i q hi
        · exact h.idle_lt q hq
      held_lt := hf.held_lt
      held_busy := fun j q hj hq => by
        rcases List.mem_cons.mp hq with rfl | hq
        · by_cases hji : j = i
          · subst hji
            rw [Function.update_self] at hj
            cases hj
          · rw [Function.update_of_ne hji] at hj
            exact hji (h.held_inj j i q hj hi)
        · exact hf.held_busy j q hj hq
      held_inj := hf.held_inj }

end Sound

end Pool

import Mathlib.Data.List.Count
import Mathlib.Logic.Function.Basic

set_option autoImplicit false

/-!
# Callbacks that can be cancelled

Requesters ask for work that is done elsewhere. A call is answered at once, or it becomes a ticket: later
the work is done, the requester is called back, and the ticket is freed. A requester remembers the call
that it waits for. If it is destroyed before the answer, it cancels the call: the work is taken out of
its queue and the ticket freed, or, if the work has begun, a cancelled ticket stays until it is done.
Some requesters are there for one answer (`once`) and are destroyed by it.

* `Step`: what can happen;
* `Life`, `Fate`: the entries of the log about one call, and about one requester;
* `Inv`, **`inv_step`**: the log tells of every ticket and of every requester what it should, and a
  requester waits for a call exactly if its ticket is not cancelled;
* **`Inv.callbacks_le_one`**, **`Inv.callbacks_eq_one`**, **`Inv.freed`**, **`Inv.ticket_iff`**,
  **`Inv.not_destroyed`**, **`Inv.served_iff`**: what follows for the log.
-/

namespace Callbacks

/-- The entries of the log. `cancel` notes whether the work was still in the queue. -/
inductive Entry (ρ : Type*) where
  | submit (call : ℕ) (r : ρ)
  | cancel (call : ℕ) (dequeued : Bool)
  | done (call : ℕ)
  | callback (call : ℕ) (r : ρ)
  | free (call : ℕ)
  | destroy (r : ρ)
  deriving DecidableEq, Repr

inductive Standing where
  | unborn
  | alive
  | dead
  deriving DecidableEq, Repr

structure Ticket (ρ : Type*) where
  requester : ρ
  canceled : Bool
  deriving DecidableEq, Repr

@[ext]
structure State (ρ : Type*) where
  standing : ρ → Standing
  waits : ρ → Option ℕ
  tickets : ℕ → Option (Ticket ρ)
  log : List (Entry ρ)

section Entries

variable {ρ : Type*}

def Entry.call : Entry ρ → Option ℕ
  | .submit call _ | .cancel call _ | .done call | .callback call _ | .free call => some call
  | .destroy _ => none

def Entry.requester : Entry ρ → Option ρ
  | .submit _ r | .callback _ r | .destroy r => some r
  | _ => none

end Entries

/-! ## The entries about one thing -/

section Words

variable {α κ σ : Type*} [DecidableEq κ] {key : α → Option κ} {k : κ} {l l' : List α} {e : α}

/-- The entries about `k`. -/
def word (key : α → Option κ) (l : List α) (k : κ) : List α := l.filter fun e => key e = some k

theorem word_append (key : α → Option κ) (l l' : List α) (k : κ) :
    word key (l ++ l') k = word key l k ++ word key l' k := List.filter_append ..

@[simp] theorem word_nil (key : α → Option κ) (k : κ) : word key [] k = [] := rfl

@[simp] theorem word_cons (key : α → Option κ) (e : α) (l : List α) (k : κ) :
    word key (e :: l) k = if key e = some k then e :: word key l k else word key l k := by
  unfold word
  rw [List.filter_cons]
  simp only [decide_eq_true_iff]

theorem mem_word : e ∈ word key l k ↔ e ∈ l ∧ key e = some k := by
  unfold word
  rw [List.mem_filter, decide_eq_true_iff]

theorem word_of_ne {j : κ} (hl : ∀ e ∈ l, key e = none ∨ key e = some k) (hj : j ≠ k) :
    word key l j = [] := by
  refine List.filter_eq_nil_iff.mpr fun e he => ?_
  rcases hl e he with h | h <;> simp [h, Ne.symm hj]

/-- **New entries about one thing.** What is said about the others stays as it is. -/
theorem word_update {P : κ → σ → List α → Prop} {st st' : κ → σ}
    (h : ∀ j, P j (st j) (word key l j)) (hl : ∀ e ∈ l', key e = none ∨ key e = some k)
    (hst : ∀ j, j ≠ k → st' j = st j) (hk : P k (st' k) (word key l k ++ word key l' k)) (j : κ) :
    P j (st' j) (word key (l ++ l') j) := by
  rw [word_append]
  by_cases hj : j = k
  · subst hj
    exact hk
  · rw [hst j hj, word_of_ne hl hj, List.append_nil]
    exact h j

/-- A count sees only the entries about `k`. -/
theorem countP_word {p : α → Bool} (hp : ∀ e, p e = true → key e = some k) :
    l.countP p = (word key l k).countP p := by
  unfold word
  rw [List.countP_filter]
  refine List.countP_congr fun e _ => ?_
  simp only [Bool.and_eq_true, decide_eq_true_iff]
  exact ⟨fun h => ⟨h, hp e h⟩, fun h => h.1⟩

end Words

variable {ρ : Type*} {once : ρ → Prop} {call : ℕ} {r : ρ} {last dequeued : Bool}

/-- The entries about a call, from its beginning on, with what its ticket is after them. -/
inductive Life (call : ℕ) : Option (Ticket ρ) → List (Entry ρ) → Prop
  | unasked : Life call none []
  | answered (r : ρ) : Life call none [.callback call r]
  | pending (r : ρ) : Life call (some ⟨r, false⟩) [.submit call r]
  | canceled (r : ρ) : Life call (some ⟨r, true⟩) [.submit call r, .cancel call false]
  | dequeued (r : ρ) : Life call none [.submit call r, .cancel call true, .free call]
  | done (r : ρ) : Life call none [.submit call r, .done call, .callback call r, .free call]
  | ignored (r : ρ) :
      Life call none [.submit call r, .cancel call false, .done call, .free call]

/-- The entries about a requester: none after its destruction, and if it is there for one answer, the
callback right before it. -/
inductive Fate (once : ρ → Prop) (r : ρ) : Standing → List (Entry ρ) → Prop
  | unborn : Fate once r .unborn []
  | alive {w : List (Entry ρ)} (hd : .destroy r ∉ w) (ho : once r → ∀ call, .callback call r ∉ w) :
      Fate once r .alive w
  | dead {w : List (Entry ρ)} (hd : .destroy r ∉ w) (ho : ¬ once r) :
      Fate once r .dead (w ++ [.destroy r])
  | served {w : List (Entry ρ)} (hd : .destroy r ∉ w) (call : ℕ) (hw : ∀ call, .callback call r ∉ w) :
      Fate once r .dead (w ++ [.callback call r, .destroy r])

theorem Life.of_nil {t : Option (Ticket ρ)} (h : Life call t []) : t = none := by
  cases h
  rfl

theorem Life.of_pending {w : List (Entry ρ)} (h : Life call (some ⟨r, false⟩) w) :
    w = [.submit call r] := by
  cases h
  rfl

theorem Life.of_canceled {w : List (Entry ρ)} (h : Life call (some ⟨r, true⟩) w) :
    w = [.submit call r, .cancel call false] := by
  cases h
  rfl

theorem Fate.of_unborn {w : List (Entry ρ)} (h : Fate once r .unborn w) : w = [] := by
  cases h
  rfl

theorem Fate.of_alive {w : List (Entry ρ)} (h : Fate once r .alive w) :
    .destroy r ∉ w ∧ (once r → ∀ call, .callback call r ∉ w) := by
  cases h with
  | alive hd ho => exact ⟨hd, ho⟩

/-- The entry of a destruction, if it happens. -/
def ending (r : ρ) (last : Bool) : List (Entry ρ) := if last then [.destroy r] else []

/-- An answer, which may destroy the requester. -/
theorem Fate.answer {w : List (Entry ρ)} (h : Fate once r .alive w) (call : ℕ)
    (ho : once r → last = true) :
    Fate once r (if last then .dead else .alive) (w ++ .callback call r :: ending r last) := by
  obtain ⟨hd, hw⟩ := h.of_alive
  have hd' : .destroy r ∉ w ++ [.callback call r] := by simp [hd]
  cases last with
  | false => exact .alive hd' fun h => nomatch ho h
  | true =>
      by_cases hr : once r
      · exact .served hd call (hw hr)
      · have hdead := Fate.dead hd' hr
        rw [List.append_assoc] at hdead
        exact hdead

/-! ## What can happen -/

section Steps

variable [DecidableEq ρ] {a a' : State ρ}

/-- The entries of a cancellation. -/
def cancelling (call : ℕ) (dequeued : Bool) : List (Entry ρ) :=
  .cancel call dequeued :: if dequeued then [.free call] else []

/-- The requesters after an answer to `r`, which may be its `last`. -/
def State.ends (a : State ρ) (r : ρ) (last : Bool) : ρ → Standing :=
  if last then Function.update a.standing r .dead else a.standing

/-- What can happen. A ticket is called back whatever has become of its requester. -/
inductive Step (once : ρ → Prop) (a : State ρ) : State ρ → Prop
  | create {r : ρ} (hr : a.standing r = .unborn) :
      Step once a { a with standing := Function.update a.standing r .alive }
  | submit {r : ρ} (hr : a.standing r = .alive) (hw : a.waits r = none) {call : ℕ}
      (hc : word Entry.call a.log call = []) :
      Step once a
        { a with
          waits := Function.update a.waits r (some call)
          tickets := Function.update a.tickets call (some ⟨r, false⟩)
          log := a.log ++ [.submit call r] }
  | answer {r : ρ} (hr : a.standing r = .alive) (hw : a.waits r = none) {call : ℕ}
      (hc : word Entry.call a.log call = []) {last : Bool} (ho : once r → last = true) :
      Step once a
        { a with standing := a.ends r last, log := a.log ++ .callback call r :: ending r last }
  | destroy {r : ρ} (hr : a.standing r = .alive) (hw : a.waits r = none) (ho : ¬ once r) :
      Step once a
        { a with standing := Function.update a.standing r .dead, log := a.log ++ [.destroy r] }
  | cancel {r : ρ} {call : ℕ} (hw : a.waits r = some call) (ho : ¬ once r) {dequeued : Bool} :
      Step once a
        { standing := Function.update a.standing r .dead
          waits := Function.update a.waits r none
          tickets := Function.update a.tickets call (if dequeued then none else some ⟨r, true⟩)
          log := a.log ++ (cancelling call dequeued ++ [.destroy r]) }
  | ignore {r : ρ} {call : ℕ} (ht : a.tickets call = some ⟨r, true⟩) :
      Step once a
        { a with
          tickets := Function.update a.tickets call none
          log := a.log ++ [.done call, .free call] }
  | done {r : ρ} {call : ℕ} (ht : a.tickets call = some ⟨r, false⟩) {last : Bool}
      (ho : once r → last = true) :
      Step once a
        { standing := a.ends r last
          waits := Function.update a.waits r none
          tickets := Function.update a.tickets call none
          log := a.log ++ ([.done call, .callback call r] ++ ending r last ++ [.free call]) }

/-- **What holds between the steps.** -/
structure Inv (once : ρ → Prop) (a : State ρ) : Prop where
  life : ∀ call, Life call (a.tickets call) (word Entry.call a.log call)
  fate : ∀ r, Fate once r (a.standing r) (word Entry.requester a.log r)
  waits : ∀ r call, a.waits r = some call ↔ a.tickets call = some ⟨r, false⟩
  alive : ∀ r call, a.waits r = some call → a.standing r = .alive


/-- Nobody waits any more for a call whose ticket is gone or cancelled. -/
theorem Inv.waits_drop (h : Inv once a) (hw : a.waits r = some call) {t : Option (Ticket ρ)}
    (ht : ∀ r', t ≠ some ⟨r', false⟩) (r' : ρ) (call' : ℕ) :
    Function.update a.waits r none r' = some call' ↔
      Function.update a.tickets call t call' = some ⟨r', false⟩ := by
  have hticket := (h.waits r call).mp hw
  by_cases hr : r' = r
  · subst hr
    rw [Function.update_self]
    refine iff_of_false nofun fun hc => ?_
    by_cases hcall : call' = call
    · subst hcall
      rw [Function.update_self] at hc
      exact ht r' hc
    · rw [Function.update_of_ne hcall, ← h.waits, hw] at hc
      exact hcall (Option.some.inj hc).symm
  · rw [Function.update_of_ne hr, h.waits]
    by_cases hcall : call' = call
    · subst hcall
      rw [Function.update_self, hticket]
      refine iff_of_false (fun he => hr ?_) (ht r')
      cases he
      rfl
    · rw [Function.update_of_ne hcall]

theorem ends_self (a : State ρ) (r : ρ) (hr : a.standing r = .alive) :
    a.ends r last r = if last then .dead else .alive := by
  unfold State.ends
  cases last with
  | false => exact hr
  | true => exact Function.update_self ..

theorem ends_of_ne (a : State ρ) {r' : ρ} (hr : r' ≠ r) : a.ends r last r' = a.standing r' := by
  unfold State.ends
  cases last with
  | false => rfl
  | true => exact Function.update_of_ne hr ..

/-- A requester begins to wait for a new call. -/
theorem Inv.waits_take (h : Inv once a) (hw : a.waits r = none) (ht : a.tickets call = none) (r' : ρ)
    (call' : ℕ) :
    Function.update a.waits r (some call) r' = some call' ↔
      Function.update a.tickets call (some ⟨r, false⟩) call' = some ⟨r', false⟩ := by
  by_cases hr : r' = r
  · subst hr
    rw [Function.update_self]
    by_cases hcall : call' = call
    · subst hcall
      rw [Function.update_self]
      exact iff_of_true rfl rfl
    · rw [Function.update_of_ne hcall, ← h.waits, hw]
      exact iff_of_false (fun he => hcall (Option.some.inj he).symm) nofun
  · rw [Function.update_of_ne hr, h.waits]
    by_cases hcall : call' = call
    · subst hcall
      rw [Function.update_self, ht]
      refine iff_of_false nofun fun he => hr ?_
      cases he
      rfl
    · rw [Function.update_of_ne hcall]

/-- Who waits is alive, also after `r`, which does not wait, has changed. -/
theorem Inv.alive_update (h : Inv once a) {waits : ρ → Option ℕ} {standing : ρ → Standing}
    (hr : waits r = none) (hw : ∀ r', r' ≠ r → waits r' = a.waits r')
    (hs : ∀ r', r' ≠ r → standing r' = a.standing r') (r' : ρ) (call : ℕ)
    (hc : waits r' = some call) : standing r' = .alive := by
  have hne : r' ≠ r := by
    rintro rfl
    rw [hr] at hc
    cases hc
  rw [hs r' hne]
  rw [hw r' hne] at hc
  exact h.alive r' call hc

section Kept

variable (h : Inv once a) (hs : Step once a a')

include h hs

theorem Inv.life_step (call : ℕ) : Life call (a'.tickets call) (word Entry.call a'.log call) := by
  have hsame : ∀ {call : ℕ} {t : Option (Ticket ρ)} call', call' ≠ call →
      Function.update a.tickets call t call' = a.tickets call' :=
    fun call' hne => Function.update_of_ne hne ..
  cases hs with
  | create => exact h.life call
  | @submit r hr hw call₀ hc =>
      refine word_update h.life (by simp [Entry.call]) hsame ?_ call
      simp only [Function.update_self, hc]
      simpa [Entry.call] using Life.pending r
  | @answer r hr hw call₀ hc last ho =>
      have hlife := h.life call₀
      rw [hc] at hlife
      refine word_update h.life (k := call₀) ?_ (fun _ _ => rfl) ?_ call
      · cases last <;> simp [ending, Entry.call]
      · rw [hlife.of_nil, hc]
        cases last <;> simpa [ending, Entry.call] using Life.answered r
  | destroy =>
      rw [word_append]
      simpa [Entry.call] using h.life call
  | @cancel r call₀ hw ho dequeued =>
      have hlife := h.life call₀
      rw [(h.waits r call₀).mp hw] at hlife
      refine word_update h.life (k := call₀) ?_ hsame ?_ call
      · cases dequeued <;> simp [cancelling, Entry.call]
      · simp only [Function.update_self, hlife.of_pending]
        cases dequeued with
        | false => simpa [cancelling, Entry.call] using Life.canceled r
        | true => simpa [cancelling, Entry.call] using Life.dequeued r
  | @ignore r call₀ ht =>
      have hlife := h.life call₀
      rw [ht] at hlife
      refine word_update h.life (by simp [Entry.call]) hsame ?_ call
      simp only [Function.update_self, hlife.of_canceled]
      simpa [Entry.call] using Life.ignored r
  | @done r call₀ ht last ho =>
      have hlife := h.life call₀
      rw [ht] at hlife
      refine word_update h.life (k := call₀) ?_ hsame ?_ call
      · cases last <;> simp [ending, Entry.call]
      · simp only [Function.update_self, hlife.of_pending]
        cases last <;> simpa [ending, Entry.call] using Life.done r

theorem Inv.fate_step (r : ρ) : Fate once r (a'.standing r) (word Entry.requester a'.log r) := by
  have halive : ∀ {r}, a.standing r = .alive → Fate once r .alive (word Entry.requester a.log r) :=
    fun {r} hr => hr ▸ h.fate r
  have hsame : ∀ {r₀ : ρ} {st : Standing} r', r' ≠ r₀ →
      Function.update a.standing r₀ st r' = a.standing r' :=
    fun r' hne => Function.update_of_ne hne ..
  cases hs with
  | @create r₀ hr =>
      have hunborn := h.fate r₀
      rw [hr] at hunborn
      by_cases hne : r = r₀
      · subst hne
        simp only [Function.update_self, hunborn.of_unborn]
        exact .alive nofun fun _ _ => nofun
      · simp only [hsame r hne]
        exact h.fate r
  | @submit r₀ hr hw call hc =>
      obtain ⟨hd, ho⟩ := (halive hr).of_alive
      refine word_update h.fate (k := r₀) (by simp [Entry.requester]) (fun _ _ => rfl) ?_ r
      rw [hr]
      exact .alive (by simp [Entry.requester, hd]) fun h => by simp [Entry.requester, ho h]
  | @answer r₀ hr hw call hc last ho =>
      have hanswer := (halive hr).answer call ho
      refine word_update h.fate (k := r₀) ?_ (fun _ hne => ends_of_ne a hne) ?_ r
      · cases last <;> simp [ending, Entry.requester]
      · simp only [ends_self a r₀ hr]
        cases last <;> simpa [ending, Entry.requester] using hanswer
  | @destroy r₀ hr hw ho =>
      refine word_update h.fate (by simp [Entry.requester]) hsame ?_ r
      simp only [Function.update_self]
      simpa [Entry.requester] using Fate.dead (halive hr).of_alive.1 ho
  | @cancel r₀ call hw ho dequeued =>
      have hdead := Fate.dead (halive (h.alive r₀ call hw)).of_alive.1 ho
      refine word_update h.fate (k := r₀) ?_ hsame ?_ r
      · cases dequeued <;> simp [cancelling, Entry.requester]
      · simp only [Function.update_self]
        cases dequeued <;> simpa [cancelling, Entry.requester] using hdead
  | ignore =>
      rw [word_append]
      simpa [Entry.requester] using h.fate r
  | @done r₀ call ht last ho =>
      have hr := h.alive r₀ call ((h.waits r₀ call).mpr ht)
      have hanswer := (halive hr).answer call ho
      refine word_update h.fate (k := r₀) ?_ (fun _ hne => ends_of_ne a hne) ?_ r
      · cases last <;> simp [ending, Entry.requester]
      · simp only [ends_self a r₀ hr]
        cases last <;> simpa [ending, Entry.requester] using hanswer

theorem Inv.waits_step (r : ρ) (call : ℕ) :
    a'.waits r = some call ↔ a'.tickets call = some ⟨r, false⟩ := by
  cases hs with
  | create | answer | destroy => exact h.waits r call
  | @submit r₀ hr hw call₀ hc =>
      have hlife := h.life call₀
      rw [hc] at hlife
      exact h.waits_take hw hlife.of_nil r call
  | @cancel r₀ call₀ hw ho dequeued =>
      refine h.waits_drop hw (fun r' ht => ?_) r call
      cases dequeued <;> simp at ht
  | @ignore r₀ call₀ ht =>
      refine (h.waits r call).trans ?_
      simp only
      by_cases hcall : call = call₀
      · subst hcall
        rw [ht, Function.update_self]
        exact iff_of_false nofun nofun
      · rw [Function.update_of_ne hcall]
  | @done r₀ call₀ ht last ho =>
      refine h.waits_drop ((h.waits r₀ call₀).mpr ht) (fun r' ht' => ?_) r call
      cases ht'

theorem Inv.alive_step (r : ρ) (call : ℕ) (hc : a'.waits r = some call) : a'.standing r = .alive := by
  have hsame : ∀ {β : Type _} {f : ρ → β} {r₀ : ρ} {b : β} r', r' ≠ r₀ →
      Function.update f r₀ b r' = f r' := fun r' hne => Function.update_of_ne hne ..
  cases hs with
  | @create r₀ hr =>
      have hnone : a.waits r₀ = none := by
        cases hw : a.waits r₀ with
        | none => rfl
        | some call => exact nomatch hr.symm.trans (h.alive r₀ call hw)
      exact h.alive_update hnone (fun _ _ => rfl) hsame r call hc
  | @submit r₀ hr hw call₀ hc₀ =>
      by_cases hne : r = r₀
      · exact hne ▸ hr
      · exact h.alive r call ((hsame r hne).symm.trans hc)
  | @answer r₀ hr hw call₀ hc₀ last ho =>
      exact h.alive_update hw (fun _ _ => rfl) (fun _ hne => ends_of_ne a hne) r call hc
  | @destroy r₀ hr hw ho => exact h.alive_update hw (fun _ _ => rfl) hsame r call hc
  | cancel => exact h.alive_update (Function.update_self ..) hsame hsame r call hc
  | ignore => exact h.alive r call hc
  | done =>
      exact h.alive_update (Function.update_self ..) hsame (fun _ hne => ends_of_ne a hne) r call hc

/-- **Every step keeps the invariant.** -/
theorem inv_step : Inv once a' :=
  ⟨h.life_step hs, h.fate_step hs, h.waits_step hs, h.alive_step hs⟩

end Kept

end Steps

/-! ## What the log says -/

/-- This is a callback for the call. -/
def Entry.calls (call : ℕ) : Entry ρ → Bool
  | .callback call' _ => call' == call
  | _ => false

/-- How often a call was called back. -/
def callbacks (log : List (Entry ρ)) (call : ℕ) : ℕ := log.countP (Entry.calls call)

section Call

variable {t : Option (Ticket ρ)} {w log : List (Entry ρ)} {e : Entry ρ}

theorem callbacks_word (log : List (Entry ρ)) (call : ℕ) :
    callbacks log call = callbacks (word Entry.call log call) call := by
  refine countP_word fun e he => ?_
  cases e with
  | callback call' r => exact congrArg some (beq_iff_eq.mp he)
  | submit | cancel | done | free | destroy => cases he

/-- An entry about the call, in the log or among the entries about it. -/
theorem mem_word_call (he : e.call = some call) : e ∈ word Entry.call log call ↔ e ∈ log := by
  rw [mem_word]
  exact ⟨fun h => h.1, fun h => ⟨h, he⟩⟩

theorem Life.callbacks_le_one (h : Life call t w) : callbacks w call ≤ 1 := by
  cases h <;> simp [callbacks, Entry.calls]

theorem Life.callbacks_eq_one (h : Life call t w) (hd : .done call ∈ w)
    (hc : ∀ dequeued, .cancel call dequeued ∉ w) : callbacks w call = 1 := by
  cases h with
  | done => simp [callbacks, Entry.calls]
  | canceled | dequeued | ignored => simp at hc
  | unasked | answered | pending => simp at hd

/-- A callback goes to the requester that has asked. -/
theorem Life.callback_submit {r' : ρ} (h : Life call t w) (hs : .submit call r ∈ w)
    (hc : .callback call r' ∈ w) : r' = r := by
  cases h with
  | done => simp_all
  | unasked | answered => simp at hs
  | pending | canceled | dequeued | ignored => simp at hc

theorem Life.freed [DecidableEq ρ] (h : Life call t w) :
    (w.count (.free call) = 1 ↔ .done call ∈ w ∨ .cancel call true ∈ w) ∧ w.count (.free call) ≤ 1 ∧
      ¬ (.done call ∈ w ∧ .cancel call true ∈ w) := by
  cases h <;> simp

theorem Life.ticket_iff (h : Life call t w) :
    t.isSome = true ↔ (∃ r, .submit call r ∈ w) ∧ .free call ∉ w := by
  cases h <;> simp

end Call

section Requester

variable {st : Standing} {w log : List (Entry ρ)}

theorem Fate.count_destroy [DecidableEq ρ] (h : Fate once r st w) : w.count (.destroy r) ≤ 1 := by
  cases h with
  | unborn => simp
  | alive hd => simp [List.count_eq_zero_of_not_mem hd]
  | dead hd => simp [List.count_eq_zero_of_not_mem hd]
  | served hd => simp [List.count_eq_zero_of_not_mem hd]

/-- The destruction is the last entry about a requester. -/
theorem Fate.not_destroyed (h : Fate once r st w) : .destroy r ∉ w.dropLast := by
  cases h with
  | unborn => simp
  | alive hd => exact fun hm => hd (List.dropLast_subset _ hm)
  | dead hd =>
      rw [List.dropLast_concat]
      exact hd
  | @served w hd call hw =>
      have hlast : w ++ [.callback call r, .destroy r] = (w ++ [.callback call r]) ++ [.destroy r] := by
        simp
      rw [hlast, List.dropLast_concat]
      simp [hd]

/-- A requester that is there for one answer is destroyed exactly if it has been called back. -/
theorem Fate.served_iff (h : Fate once r st w) (ho : once r) :
    .destroy r ∈ w ↔ ∃ call, .callback call r ∈ w := by
  cases h with
  | unborn => simp
  | alive hd hw => simp [hd, hw ho]
  | dead hd hn => exact (hn ho).elim
  | served hd call hw => simp

end Requester

section Log

variable [DecidableEq ρ] {a : State ρ} (h : Inv once a)

include h

/-- **A call is called back at most once.** -/
theorem Inv.callbacks_le_one (call : ℕ) : callbacks a.log call ≤ 1 := by
  rw [callbacks_word]
  exact (h.life call).callbacks_le_one

/-- **A call whose work is done is called back, unless it was cancelled.** -/
theorem Inv.callbacks_eq_one (hd : .done call ∈ a.log) (hc : ∀ dequeued, .cancel call dequeued ∉ a.log) :
    callbacks a.log call = 1 := by
  rw [callbacks_word]
  exact (h.life call).callbacks_eq_one ((mem_word_call rfl).mpr hd) fun dequeued hm =>
    hc dequeued ((mem_word_call rfl).mp hm)

theorem Inv.callback_submit {r' : ρ} (hs : .submit call r ∈ a.log) (hc : .callback call r' ∈ a.log) :
    r' = r :=
  (h.life call).callback_submit ((mem_word_call rfl).mpr hs) ((mem_word_call rfl).mpr hc)

/-- **A ticket is freed once, by the end of its work or by a cancellation before it has begun.** -/
theorem Inv.freed (call : ℕ) :
    (a.log.count (.free call) = 1 ↔ .done call ∈ a.log ∨ .cancel call true ∈ a.log) ∧
      a.log.count (.free call) ≤ 1 ∧ ¬ (.done call ∈ a.log ∧ .cancel call true ∈ a.log) := by
  have hcount : a.log.count (.free call) = (word Entry.call a.log call).count (.free call) := by
    refine countP_word fun e he => ?_
    rw [beq_iff_eq.mp he]
    rfl
  have hfreed := (h.life call).freed
  rw [mem_word_call rfl, mem_word_call rfl] at hfreed
  rw [hcount]
  exact hfreed

/-- **A ticket is there as long as it was not freed.** -/
theorem Inv.ticket_iff (call : ℕ) :
    (a.tickets call).isSome = true ↔ (∃ r, .submit call r ∈ a.log) ∧ .free call ∉ a.log := by
  rw [(h.life call).ticket_iff, mem_word_call rfl]
  exact and_congr_left' (exists_congr fun r => mem_word_call rfl)

/-- **No requester is called back after its destruction.** -/
theorem Inv.not_destroyed {pre post : List (Entry ρ)} (hlog : a.log = pre ++ .callback call r :: post) :
    .destroy r ∉ pre := by
  have hfate := (h.fate r).not_destroyed
  have hr : (Entry.callback call r).requester = some r := rfl
  rw [hlog, word_append, word_cons, if_pos hr, List.dropLast_append_cons] at hfate
  intro hm
  exact hfate (List.mem_append_left _ (mem_word.mpr ⟨hm, rfl⟩))

theorem Inv.count_destroy (r : ρ) : a.log.count (.destroy r) ≤ 1 := by
  have hcount : a.log.count (.destroy r) = (word Entry.requester a.log r).count (.destroy r) := by
    refine countP_word fun e he => ?_
    rw [beq_iff_eq.mp he]
    rfl
  rw [hcount]
  exact (h.fate r).count_destroy

/-- **A requester that is there for one answer is destroyed exactly if it has been called back.** -/
theorem Inv.served_iff (ho : once r) : .destroy r ∈ a.log ↔ ∃ call, .callback call r ∈ a.log := by
  have hserved := (h.fate r).served_iff ho
  simp only [mem_word, Entry.requester, and_true] at hserved
  exact hserved

end Log

end Callbacks

import Mathlib.Algebra.Order.BigOperators.Group.List
import UoLogin.Accounting.Model

set_option autoImplicit false

/-!
# The delay of a client

Every charge of a client that its token bucket does not cover makes it wait longer, and it is forgiven
step by step, or at once when a minute has passed since the last such charge.

* `Penalty`: the part of a record that matters here; no other call on the record changes it
  (`penalty_recordAfter`);
* `Penalty.Sound`, **`sound_charges`**: what holds after charges at non-decreasing times;
* **`Penalty.Worse.charges`**: of two clients that are charged at the same times, the one that
  overdraws more often waits longer;
* **`tarpit_delay`**: both, for records.
-/

namespace UoLogin

/-- A call on a record. -/
inductive RecordCall where
  | updateTokenBucket (now : ℕ) (overdrawn : Bool)
  | setKnocked
  | addConnection (i : ℕ)
  | removeConnection (now i : ℕ)
  deriving DecidableEq, Repr

/-- The record after a call, in a map with the tarpit. -/
def RecordCall.apply (r : PerClientAccounting) : RecordCall → PerClientAccounting
  | .updateTokenBucket now overdrawn => r.updateTokenBucket true now overdrawn
  | .setKnocked => r.setKnocked
  | .addConnection i => r.addConnection i
  | .removeConnection now i => r.removeConnection now i

/-- The time of a charge, and whether it overdraws the bucket. -/
def RecordCall.charge : RecordCall → Option (ℕ × Bool)
  | .updateTokenBucket now overdrawn => some (now, overdrawn)
  | _ => none

/-- The record of a new client after some calls. -/
def recordAfter (address : BitVec 64) (calls : List RecordCall) : PerClientAccounting :=
  calls.foldl RecordCall.apply { address := address }

/-! ## Penalties -/

structure Penalty where
  delay : ℕ := 0
  tarpitUntil : ℕ := 0

def PerClientAccounting.penalty (r : PerClientAccounting) : Penalty := ⟨r.delay, r.tarpitUntil⟩

namespace Penalty

open PerClientAccounting (tarpitFor maxDelay delayStep)

variable {p p₁ p₂ : Penalty} {now : ℕ}

/-- A charge. -/
def charge (p : Penalty) (call : ℕ × Bool) : Penalty :=
  if call.2 = true then
    ⟨if p.delay < maxDelay then p.delay + delayStep else p.delay, call.1 + tarpitFor⟩
  else if call.1 < p.tarpitUntil then
    ⟨if delayStep < p.delay then p.delay - delayStep else p.delay, p.tarpitUntil⟩
  else ⟨0, p.tarpitUntil⟩

/-- What holds after charges up to the time `now`. -/
structure Sound (now : ℕ) (p : Penalty) : Prop where
  multiple : delayStep ∣ p.delay
  bounded : p.delay ≤ maxDelay
  deadline : p.tarpitUntil ≤ now + tarpitFor
  waits : now < p.tarpitUntil → delayStep ≤ p.delay

theorem sound_new : Sound 0 {} where
  multiple := dvd_zero _
  bounded := Nat.zero_le _
  deadline := Nat.zero_le _
  waits := fun h => (Nat.lt_irrefl 0 h).elim

theorem Sound.mono (h : Sound now p) {later : ℕ} (hle : now ≤ later) : Sound later p where
  multiple := h.multiple
  bounded := h.bounded
  deadline := h.deadline.trans (Nat.add_le_add_right hle _)
  waits := fun hlt => h.waits (hle.trans_lt hlt)

theorem delayStep_eq : delayStep = 100000000 := rfl

theorem maxDelay_eq : maxDelay = 60000000000 := rfl

@[simp] theorem charge_overdrawn (p : Penalty) (now : ℕ) : p.charge (now, true) =
    ⟨if p.delay < maxDelay then p.delay + delayStep else p.delay, now + tarpitFor⟩ := by
  simp [Penalty.charge]

theorem charge_before (h : now < p.tarpitUntil) : p.charge (now, false) =
    ⟨if delayStep < p.delay then p.delay - delayStep else p.delay, p.tarpitUntil⟩ := by
  simp [Penalty.charge, h]

theorem charge_after (h : p.tarpitUntil ≤ now) : p.charge (now, false) = ⟨0, p.tarpitUntil⟩ := by
  simp [Penalty.charge, Nat.not_lt.mpr h]

/-- One more step: the maximum is a whole number of steps. -/
theorem raise_le {d : ℕ} (hmultiple : delayStep ∣ d) (hbounded : d ≤ maxDelay) :
    delayStep ∣ (if d < maxDelay then d + delayStep else d) ∧
      (if d < maxDelay then d + delayStep else d) ≤ maxDelay ∧
      delayStep ≤ (if d < maxDelay then d + delayStep else d) ∧
      d ≤ (if d < maxDelay then d + delayStep else d) := by
  rw [delayStep_eq] at hmultiple
  split_ifs with h <;> simp only [delayStep_eq, maxDelay_eq] at h hbounded ⊢ <;> omega

/-- One step less, but not the last one. -/
theorem lower_le {d : ℕ} (hmultiple : delayStep ∣ d) :
    delayStep ∣ (if delayStep < d then d - delayStep else d) ∧
      (if delayStep < d then d - delayStep else d) ≤ d ∧
      (delayStep ≤ d → delayStep ≤ (if delayStep < d then d - delayStep else d)) := by
  rw [delayStep_eq] at hmultiple
  split_ifs with h <;> simp only [delayStep_eq] at h ⊢ <;> omega

/-- **A charge keeps the penalty sound.** -/
theorem Sound.charge (h : Sound now p) (overdrawn : Bool) :
    Sound now (p.charge (now, overdrawn)) := by
  obtain ⟨hmultiple, hbounded, hdeadline, hwaits⟩ := h
  cases overdrawn with
  | true =>
      obtain ⟨hdvd, hmax, hstep, -⟩ := raise_le hmultiple hbounded
      rw [charge_overdrawn]
      exact ⟨hdvd, hmax, le_refl _, fun _ => hstep⟩
  | false =>
      obtain ⟨hdvd, hle, hstep⟩ := lower_le hmultiple
      by_cases hlt : now < p.tarpitUntil
      · rw [charge_before hlt]
        exact ⟨hdvd, hle.trans hbounded, hdeadline, fun _ => hstep (hwaits hlt)⟩
      · rw [charge_after (Nat.not_lt.mp hlt)]
        exact ⟨dvd_zero _, Nat.zero_le _, hdeadline, fun h => (hlt h).elim⟩

/-- **The penalty after charges at non-decreasing times.** -/
theorem sound_charges {calls : List (ℕ × Bool)} (hsorted : calls.Pairwise fun a b => a.1 ≤ b.1)
    (hle : ∀ call ∈ calls, call.1 ≤ now) : Sound now (calls.foldl Penalty.charge {}) := by
  induction calls using List.reverseRecOn generalizing now with
  | nil => exact sound_new.mono (Nat.zero_le _)
  | append_singleton calls call ih =>
      obtain ⟨hcalls, -, hlast⟩ := List.pairwise_append.mp hsorted
      rw [List.foldl_append]
      have hbefore : Sound call.1 (calls.foldl Penalty.charge {}) :=
        ih hcalls fun c hc => hlast c hc call (List.mem_singleton_self call)
      exact (hbefore.charge call.2).mono (hle call (by simp))

/-- The delay is cleared by nothing but a charge that the bucket covers, after the deadline. -/
theorem charge_clears (h : Sound now p) {overdrawn : Bool}
    (hz : (p.charge (now, overdrawn)).delay = 0) : overdrawn = false ∧ p.tarpitUntil ≤ now := by
  have hpos : 0 < delayStep := by decide
  cases overdrawn with
  | true =>
      rw [charge_overdrawn] at hz
      have hstep := (raise_le h.multiple h.bounded).2.2.1
      simp only at hz
      omega
  | false =>
      refine ⟨rfl, Nat.not_lt.mp fun hlt => ?_⟩
      rw [charge_before hlt] at hz
      have hstep := (lower_le h.multiple).2.2 (h.waits hlt)
      simp only at hz
      omega

/-! ## Two clients -/

/-- The first client waits at least as long as the second. -/
structure Worse (p₁ p₂ : Penalty) : Prop where
  delay : p₂.delay ≤ p₁.delay
  tarpitUntil : p₂.tarpitUntil ≤ p₁.tarpitUntil

/-- Both are raised: who is at the maximum already is not overtaken. -/
theorem raise_mono {d₁ d₂ : ℕ} (h : d₂ ≤ d₁) (h₁ : d₁ ≤ maxDelay) (h₂ : delayStep ∣ d₂) :
    (if d₂ < maxDelay then d₂ + delayStep else d₂) ≤
      (if d₁ < maxDelay then d₁ + delayStep else d₁) := by
  rw [delayStep_eq] at h₂
  rw [maxDelay_eq] at h₁
  split_ifs with h₂' h₁' h₁' <;>
    simp only [delayStep_eq, maxDelay_eq] at h₁' h₂' ⊢ <;> omega

/-- Both are lowered: who keeps the last step has no less than who had two. -/
theorem lower_mono {d₁ d₂ : ℕ} (h : d₂ ≤ d₁) (h₁ : delayStep ∣ d₁) :
    (if delayStep < d₂ then d₂ - delayStep else d₂) ≤
      (if delayStep < d₁ then d₁ - delayStep else d₁) := by
  rw [delayStep_eq] at h₁
  split_ifs with h₂' h₁' h₁' <;> simp only [delayStep_eq] at h₁' h₂' ⊢ <;> omega

/-- **Who overdraws more waits longer.** -/
theorem Worse.charge (h : Worse p₁ p₂) (h₁ : Sound now p₁) (h₂ : Sound now p₂) {o₁ o₂ : Bool}
    (ho : o₂ = true → o₁ = true) : Worse (p₁.charge (now, o₁)) (p₂.charge (now, o₂)) := by
  cases o₁ with
  | true =>
      have hraise := (raise_le h₁.multiple h₁.bounded).2.2.2
      cases o₂ with
      | true =>
          simp only [charge_overdrawn]
          exact ⟨raise_mono h.delay h₁.bounded h₂.multiple, le_refl _⟩
      | false =>
          rw [charge_overdrawn]
          by_cases hlt : now < p₂.tarpitUntil
          · rw [charge_before hlt]
            exact ⟨((lower_le h₂.multiple).2.1.trans h.delay).trans hraise, h₂.deadline⟩
          · rw [charge_after (Nat.not_lt.mp hlt)]
            exact ⟨Nat.zero_le _, h₂.deadline⟩
  | false =>
      have ho₂ : o₂ = false := by
        cases o₂ with
        | true => exact (ho rfl).symm
        | false => rfl
      rw [ho₂]
      by_cases hlt : now < p₂.tarpitUntil
      · rw [charge_before hlt, charge_before (hlt.trans_le h.tarpitUntil)]
        exact ⟨lower_mono h.delay h₁.multiple, h.tarpitUntil⟩
      · rw [charge_after (Nat.not_lt.mp hlt)]
        have huntil : (p₁.charge (now, false)).tarpitUntil = p₁.tarpitUntil := by
          by_cases h' : now < p₁.tarpitUntil
          · rw [charge_before h']
          · rw [charge_after (Nat.not_lt.mp h')]
        exact ⟨Nat.zero_le _, huntil ▸ h.tarpitUntil⟩

/-- Two charges at the same time; the first one overdraws if the second one does. -/
def Overdraws (a b : ℕ × Bool) : Prop := a.1 = b.1 ∧ (b.2 = true → a.2 = true)

/-- **Who overdraws more often waits longer**, after any number of charges. -/
theorem Worse.charges {l₁ l₂ : List (ℕ × Bool)} (hl : List.Forall₂ Overdraws l₁ l₂)
    (h : Worse p₁ p₂) (h₁ : Sound now p₁) (h₂ : Sound now p₂) (hle : ∀ call ∈ l₁, now ≤ call.1)
    (hsorted : l₁.Pairwise fun a b => a.1 ≤ b.1) :
    Worse (l₁.foldl Penalty.charge p₁) (l₂.foldl Penalty.charge p₂) := by
  induction hl generalizing p₁ p₂ now with
  | nil => exact h
  | @cons a b as bs hab _ ih =>
      obtain ⟨hfirst, hrest⟩ := List.pairwise_cons.mp hsorted
      obtain ⟨htime, hover⟩ := hab
      have hnow : now ≤ a.1 := hle a List.mem_cons_self
      have ha : a = (a.1, a.2) := rfl
      have hb : b = (a.1, b.2) := Prod.ext htime.symm rfl
      rw [List.foldl_cons, List.foldl_cons, ha, hb]
      exact ih (h.charge (h₁.mono hnow) (h₂.mono hnow) hover) ((h₁.mono hnow).charge a.2)
        ((h₂.mono hnow).charge b.2) hfirst hrest

end Penalty

/-! ## Records -/

namespace PerClientAccounting

/-- A call changes the penalty as a charge does, or not at all. -/
theorem penalty_apply (r : PerClientAccounting) (call : RecordCall) :
    (call.apply r).penalty = (call.charge.toList).foldl Penalty.charge r.penalty := by
  cases call with
  | updateTokenBucket now overdrawn =>
      cases overdrawn with
      | true => simp [RecordCall.apply, RecordCall.charge, updateTokenBucket, penalty]
      | false =>
          by_cases h : now < r.tarpitUntil
          · simp [RecordCall.apply, RecordCall.charge, updateTokenBucket, penalty, Penalty.charge, h]
          · simp [RecordCall.apply, RecordCall.charge, updateTokenBucket, penalty, Penalty.charge, h]
  | setKnocked => rfl
  | addConnection i => rfl
  | removeConnection now i => rfl

end PerClientAccounting

/-- The charges among some calls. -/
def chargesOf (calls : List RecordCall) : List (ℕ × Bool) := calls.filterMap RecordCall.charge

theorem recordAfter_append (address : BitVec 64) (calls : List RecordCall) (call : RecordCall) :
    recordAfter address (calls ++ [call]) = call.apply (recordAfter address calls) := by
  simp [recordAfter]

/-- **The penalty of a record is that of its charges.** -/
theorem penalty_recordAfter (address : BitVec 64) (calls : List RecordCall) :
    (recordAfter address calls).penalty = (chargesOf calls).foldl Penalty.charge {} := by
  induction calls using List.reverseRecOn with
  | nil => rfl
  | append_singleton calls call ih =>
      rw [recordAfter_append, PerClientAccounting.penalty_apply, ih, chargesOf, chargesOf,
        List.filterMap_append, List.foldl_append]
      cases hcharge : call.charge <;> simp [hcharge]

theorem chargesOf_append (calls others : List RecordCall) :
    chargesOf (calls ++ others) = chargesOf calls ++ chargesOf others :=
  List.filterMap_append

section Sorted

variable {calls : List RecordCall} (hsorted : (chargesOf calls).Pairwise fun a b => a.1 ≤ b.1)

include hsorted

theorem sorted_of_append {before after : List RecordCall} (h : calls = before ++ after) :
    (chargesOf before).Pairwise fun a b => a.1 ≤ b.1 := by
  rw [h, chargesOf_append] at hsorted
  exact (List.pairwise_append.mp hsorted).1

/-- The record is sound when it is charged. -/
theorem sound_before (address : BitVec 64) {before after : List RecordCall} {now : ℕ}
    {overdrawn : Bool} (h : calls = before ++ .updateTokenBucket now overdrawn :: after) :
    Penalty.Sound now (recordAfter address before).penalty := by
  rw [penalty_recordAfter]
  rw [h, chargesOf_append] at hsorted
  obtain ⟨hbefore, -, hle⟩ := List.pairwise_append.mp hsorted
  refine Penalty.sound_charges hbefore fun call hcall => ?_
  exact hle call hcall (now, overdrawn) (by simp [chargesOf, RecordCall.charge])

/-- The record is sound at some time after the last charge. -/
theorem exists_sound (address : BitVec 64) :
    ∃ now, Penalty.Sound now (recordAfter address calls).penalty := by
  refine ⟨((chargesOf calls).map Prod.fst).sum, ?_⟩
  rw [penalty_recordAfter]
  exact Penalty.sound_charges hsorted fun call hcall =>
    List.le_sum_of_mem (List.mem_map_of_mem hcall)

end Sorted

theorem penalty_charged (address : BitVec 64) (calls : List RecordCall) (now : ℕ)
    (overdrawn : Bool) : (recordAfter address (calls ++ [.updateTokenBucket now overdrawn])).penalty =
      (recordAfter address calls).penalty.charge (now, overdrawn) := by
  rw [recordAfter_append, PerClientAccounting.penalty_apply]
  rfl

/-- **The delay of a client.** For calls on the record of a new client, with charges at non-decreasing
times: after every call, the delay is a multiple of 100 ms and at most a minute; after a charge, it is
at least 100 ms while the time is before `tarpit_until`, only a charge that does not overdraw the
bucket, at or after `tarpit_until`, clears it, and one that does takes the knock back. And a client
which overdraws whenever another one does, with charges at the same times, never has the smaller
delay or the earlier `tarpit_until`. -/
theorem tarpit_delay (address : BitVec 64) (calls : List RecordCall)
    (hsorted : (chargesOf calls).Pairwise fun a b => a.1 ≤ b.1) :
    (∀ before after call, calls = before ++ call :: after →
      100000000 ∣ (recordAfter address (before ++ [call])).delay ∧
      (recordAfter address (before ++ [call])).delay ≤ 60000000000 ∧
      ∀ now overdrawn, call = .updateTokenBucket now overdrawn →
        (now < (recordAfter address (before ++ [call])).tarpitUntil →
          100000000 ≤ (recordAfter address (before ++ [call])).delay) ∧
        ((recordAfter address before).delay ≠ 0 →
          (recordAfter address (before ++ [call])).delay = 0 →
          overdrawn = false ∧ (recordAfter address before).tarpitUntil ≤ now) ∧
        (overdrawn = true → (recordAfter address (before ++ [call])).knocked = false)) ∧
    ∀ address' others before before',
      List.Forall₂ Penalty.Overdraws (chargesOf calls) (chargesOf others) →
      before <+: calls → before' <+: others →
      (chargesOf before).length = (chargesOf before').length →
      (recordAfter address' before').delay ≤ (recordAfter address before).delay ∧
        (recordAfter address' before').tarpitUntil ≤ (recordAfter address before).tarpitUntil := by
  refine ⟨?_, ?_⟩
  · intro before after call hcalls
    have hcall : calls = (before ++ [call]) ++ after := by simp [hcalls]
    obtain ⟨later, hsound⟩ := exists_sound (sorted_of_append hsorted hcall) address
    refine ⟨hsound.multiple, hsound.bounded, ?_⟩
    rintro now overdrawn rfl
    have hbefore := sound_before hsorted address hcalls
    have hcharged := penalty_charged address before now overdrawn
    have hafter := hbefore.charge overdrawn
    rw [← hcharged] at hafter
    refine ⟨hafter.waits, fun _ hz => ?_, ?_⟩
    · exact Penalty.charge_clears hbefore (hcharged ▸ hz)
    · rintro rfl
      rw [recordAfter_append]
      rfl
  · rintro address' others before before' hcharges ⟨after, rfl⟩ ⟨after', rfl⟩ hlength
    -- as many charges: the first ones of both clients correspond to each other
    have htake := List.forall₂_take (chargesOf before).length hcharges
    rw [chargesOf_append, chargesOf_append, List.take_left, hlength, List.take_left] at htake
    have hsound : Penalty.Sound 0 {} := Penalty.sound_new
    have hworse := Penalty.Worse.charges htake ⟨le_refl _, le_refl _⟩ hsound hsound
      (fun _ _ => Nat.zero_le _) (sorted_of_append hsorted rfl)
    rw [← penalty_recordAfter address, ← penalty_recordAfter address'] at hworse
    exact ⟨hworse.delay, hworse.tarpitUntil⟩

/-- A client that overdraws twice, and one that does it once. -/
theorem tarpit_delay_of_sample :
    (chargesOf [.updateTokenBucket 1 true, .setKnocked, .updateTokenBucket 2 true]).Pairwise
        (fun a b => a.1 ≤ b.1) ∧
      (recordAfter 2 [.updateTokenBucket 1 false, .updateTokenBucket 2 true]).delay ≤
        (recordAfter 1 [.updateTokenBucket 1 true, .setKnocked, .updateTokenBucket 2 true]).delay ∧
      (recordAfter 1 [.updateTokenBucket 1 true, .setKnocked, .updateTokenBucket 2 true]).knocked =
        false := by
  have hsorted : (chargesOf [.updateTokenBucket 1 true, .setKnocked,
      .updateTokenBucket 2 true]).Pairwise fun a b => a.1 ≤ b.1 := by decide
  have h := tarpit_delay 1 _ hsorted
  refine ⟨hsorted, ?_, ?_⟩
  · refine (h.2 2 [.updateTokenBucket 1 false, .updateTokenBucket 2 true] _ _
      (.cons ⟨rfl, ?_⟩ (.cons ⟨rfl, ?_⟩ .nil)) List.prefix_rfl List.prefix_rfl rfl).1
    · decide
    · decide
  · exact ((h.1 [.updateTokenBucket 1 true, .setKnocked] [] _ rfl).2.2 2 true rfl).2.2 rfl

end UoLogin

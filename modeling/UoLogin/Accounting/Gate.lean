import UoLogin.Accounting.Limits
import UoLogin.Lib.History

set_option autoImplicit false

/-!
# The knock gate

With a knock listener, a client has to knock before it connects. Its record remembers the knock until
the client is over its limit or the record is disposed.

* `Standing address log`: a knock from this address was accepted and has not been forfeited since, as the
  journal tells;
* **`remembers_run`**: in every reachable state a knock is standing exactly if a record remembers it;
* **`knock_gate`**: `OnAccept` creates an object for an accounted client only if its knock is standing
  after the charge, and counts a missing knock otherwise.
-/

namespace UoLogin.Accounts

open History

/-! ## The journal -/

/-- A knock from this address was accepted. -/
def Knocks (address : BitVec 64) (e : RecordEntry) : Prop :=
  e.address = some address ∧ e.event = .setKnocked

/-- The knock is void: the record is disposed, or overdrawn. -/
def Forfeits (address : BitVec 64) (e : RecordEntry) : Prop :=
  e.address = some address ∧ (e.event = .dispose ∨ ∃ size, e.event = .updateTokenBucket size true)

/-- A knock from this address was accepted, and is not void. -/
def Standing (address : BitVec 64) (log : List RecordEntry) : Prop :=
  Since (Knocks address) (Forfeits address) log

/-- A record of this address remembers a knock. -/
def KnockedAt (H : Heap PerClientAccounting) (address : BitVec 64) : Prop :=
  ∃ p r, H.get p = some r ∧ r.address = address ∧ r.knocked = true

section Heaps

variable {H : Heap PerClientAccounting} {p : ℕ} {address : BitVec 64}
  {f : PerClientAccounting → PerClientAccounting}

theorem knockedAt_modify (ha : ∀ r, (f r).address = r.address) (hk : ∀ r, (f r).knocked = r.knocked) :
    KnockedAt (H.modify p f) address ↔ KnockedAt H address := by
  constructor
  · rintro ⟨q, r', hr', rfl, hknocked⟩
    rcases Heap.get_modify_eq_some.mp hr' with ⟨rfl, r, hr, rfl⟩ | ⟨-, hr⟩
    · exact ⟨q, r, hr, (ha r).symm, (hk r).symm.trans hknocked⟩
    · exact ⟨q, r', hr, rfl, hknocked⟩
  · rintro ⟨q, r, hr, rfl, hknocked⟩
    by_cases hq : q = p
    · subst hq
      exact ⟨q, f r, Heap.get_modify_eq_some.mpr (.inl ⟨rfl, r, hr, rfl⟩), ha r, (hk r).trans hknocked⟩
    · exact ⟨q, r, Heap.get_modify_eq_some.mpr (.inr ⟨hq, hr⟩), rfl, hknocked⟩

/-- The flag of one record is set. -/
theorem knockedAt_modify_set (ha : ∀ r, (f r).address = r.address) (hk : ∀ r, (f r).knocked = true) :
    KnockedAt (H.modify p f) address ↔ addressOf H p = some address ∨ KnockedAt H address := by
  constructor
  · rintro ⟨q, r', hr', rfl, hknocked⟩
    rcases Heap.get_modify_eq_some.mp hr' with ⟨rfl, r, hr, rfl⟩ | ⟨-, hr⟩
    · exact .inl ((addressOf_of_get hr).trans (congrArg some (ha r).symm))
    · exact .inr ⟨q, r', hr, rfl, hknocked⟩
  · rintro (hp | ⟨q, r, hr, rfl, hknocked⟩)
    · obtain ⟨r, hr, rfl⟩ := Option.map_eq_some_iff.mp hp
      exact ⟨p, f r, Heap.get_modify_eq_some.mpr (.inl ⟨rfl, r, hr, rfl⟩), ha r, hk r⟩
    · by_cases hq : q = p
      · subst hq
        exact ⟨q, f r, Heap.get_modify_eq_some.mpr (.inl ⟨rfl, r, hr, rfl⟩), ha r, hk r⟩
      · exact ⟨q, r, Heap.get_modify_eq_some.mpr (.inr ⟨hq, hr⟩), rfl, hknocked⟩

/-- The flag of one record is reset; there is no other record of this address. -/
theorem knockedAt_modify_reset
    (hunique : ∀ p q a, addressOf H p = some a → addressOf H q = some a → p = q)
    (hk : ∀ r, (f r).knocked = false) :
    KnockedAt (H.modify p f) address ↔ KnockedAt H address ∧ addressOf H p ≠ some address := by
  constructor
  · rintro ⟨q, r', hr', rfl, hknocked⟩
    rcases Heap.get_modify_eq_some.mp hr' with ⟨rfl, r, hr, rfl⟩ | ⟨hne, hr⟩
    · cases (hk r).symm.trans hknocked
    · refine ⟨⟨q, r', hr, rfl, hknocked⟩, fun hp => ?_⟩
      exact hne (hunique q p _ (addressOf_of_get hr) hp)
  · rintro ⟨⟨q, r, hr, rfl, hknocked⟩, hne⟩
    have hq : q ≠ p := by
      rintro rfl
      exact hne (addressOf_of_get hr)
    exact ⟨q, r, Heap.get_modify_eq_some.mpr (.inr ⟨hq, hr⟩), rfl, hknocked⟩

theorem knockedAt_insert {a : BitVec 64} :
    KnockedAt (H.alloc { address := a }) address ↔ KnockedAt H address := by
  constructor
  · rintro ⟨q, r, hr, rfl, hknocked⟩
    rcases Heap.get_alloc_eq_some.mp hr with ⟨-, rfl⟩ | hr
    · cases hknocked
    · exact ⟨q, r, hr, rfl, hknocked⟩
  · rintro ⟨q, r, hr, rfl, hknocked⟩
    exact ⟨q, r, Heap.get_alloc_of_some hr _, rfl, hknocked⟩

theorem knockedAt_retain {keep : PerClientAccounting → Bool}
    (hunique : ∀ p q a, addressOf H p = some a → addressOf H q = some a → p = q) :
    KnockedAt (H.retain keep) address ↔
      KnockedAt H address ∧ ∀ p r, H.get p = some r → keep r = false → r.address ≠ address := by
  constructor
  · rintro ⟨q, r, hr, rfl, hknocked⟩
    obtain ⟨hr, hkeep⟩ := Heap.get_retain_eq_some.mp hr
    refine ⟨⟨q, r, hr, rfl, hknocked⟩, fun p r' hr' hdrop ha => ?_⟩
    have hpq := hunique p q r.address ((addressOf_of_get hr').trans (congrArg some ha)) (addressOf_of_get hr)
    subst hpq
    cases hr.symm.trans hr'
    rw [hkeep] at hdrop
    cases hdrop
  · rintro ⟨⟨q, r, hr, rfl, hknocked⟩, hdropped⟩
    refine ⟨q, r, Heap.get_retain_eq_some.mpr ⟨hr, ?_⟩, rfl, hknocked⟩
    by_contra hkeep
    exact hdropped q r hr ((Bool.not_eq_true _).mp hkeep) rfl

end Heaps

/-! ## What the entries of a change say -/

section Journal

variable {s : Accounts} {p i : ℕ} {c : Client} {address : BitVec 64} {log es : List RecordEntry}

theorem not_standing_nil : ¬ Standing address [] := not_since_nil

theorem standing_charge {time : ℕ} {a : Option (BitVec 64)} {size : ℕ} {overdrawn : Bool} :
    Standing address (log ++ [⟨time, p, a, .updateTokenBucket size overdrawn⟩]) ↔
      Standing address log ∧ (overdrawn = true → a ≠ some address) := by
  unfold Standing
  rw [since_snoc]
  cases overdrawn <;> simp [Knocks, Forfeits]

theorem standing_knock {time : ℕ} {a : Option (BitVec 64)} :
    Standing address (log ++ [⟨time, p, a, .setKnocked⟩]) ↔ a = some address ∨ Standing address log := by
  unfold Standing
  rw [since_snoc]
  simp [Knocks, Forfeits]

theorem standing_removal {time : ℕ} {a : Option (BitVec 64)} :
    Standing address (log ++ [⟨time, p, a, .removeConnection i⟩]) ↔ Standing address log := by
  unfold Standing
  rw [since_snoc]
  simp [Knocks, Forfeits]

theorem standing_disposals (hes : ∀ e ∈ es, e.event = .dispose) :
    Standing address (log ++ es) ↔ Standing address log ∧ ∀ e ∈ es, e.address ≠ some address := by
  have hknocks : ∀ e ∈ es, ¬ Knocks address e := by
    rintro e he ⟨-, hevent⟩
    cases (hes e he).symm.trans hevent
  unfold Standing
  rw [since_append hknocks]
  refine and_congr_right fun _ => forall₂_congr fun e he => ?_
  unfold Forfeits
  simp [hes e he]

end Journal

/-! ## The gate -/

section Gate

variable {setup : AccountSetup} {inputs : List Input} {s s' s₁ : Accounts} {p i : ℕ} {c : Client}
  {peer : SocketAddress} {overdrawn : Bool}

/-- The records remember the knocks that are standing. -/
def Remembers (s : Accounts) : Prop :=
  ∀ address, KnockedAt s.accounting.records address ↔ Standing address s.log

theorem Remembers.destroy (h : Remembers s) (i : ℕ) (c : Client) : Remembers (s.destroy i c) := by
  intro address
  cases hper : c.perClient with
  | none =>
      rw [records_destroy_none hper, log_destroy_none hper]
      exact h address
  | some p =>
      rw [records_destroy_some hper, log_destroy_some hper, standing_removal, ← h address]
      exact knockedAt_modify (fun _ => rfl) fun _ => rfl

theorem Remembers.create (h : Remembers s) (c : Client) : Remembers (s.create c) := by
  intro address
  refine Iff.trans ?_ (h address)
  cases hper : c.perClient with
  | none => rw [records_create_none hper]
  | some p =>
      rw [records_create_some hper]
      exact knockedAt_modify (fun _ => rfl) fun _ => rfl

theorem Remembers.updateTokenBucket (h : Remembers s) (hl : IsLinked setup s) (p size : ℕ)
    (overdrawn : Bool) : Remembers (s.updateTokenBucket p size overdrawn) := by
  intro address
  refine Iff.trans ?_ standing_charge.symm
  rw [← h address, records_updateTokenBucket]
  by_cases ho : (s.accounting.tarpit && overdrawn) = true
  · simp only [ho, forall_const]
    exact knockedAt_modify_reset hl.unique fun r => by simp [ho]
  · simp only [ho, Bool.false_eq_true, false_implies, and_true]
    exact knockedAt_modify (fun r => by simp) fun r => by simp [ho]

theorem Change.remembers (h : Change setup s s') (hl : IsLinked setup s) (hs : Remembers s) :
    Remembers s' := by
  cases h with
  | tick | metrics | requests | refuse => exact hs
  | insert address hzero hnew => exact fun address => knockedAt_insert.trans (hs address)
  | charge p size overdrawn => exact hs.updateTokenBucket hl p size overdrawn
  | knock p =>
      intro address
      refine Iff.trans ?_ standing_knock.symm
      rw [← hs address]
      exact knockedAt_modify_set (fun _ => rfl) fun _ => rfl
  | enlist c hsocket hc => exact Remembers.create (s := s.take) hs c
  | promote i c hc =>
      have hcreate : Remembers ((s.releaseSocket i).addConnection c.perClient c.socket c.peerAddress) :=
        Remembers.create (s := s.releaseSocket i) hs _
      exact hcreate.destroy i _
  | destroy i c hc => exact hs.destroy i c
  | cleanup =>
      intro address
      unfold onCleanupTimer
      rw [records_onCleanupTimer, knockedAt_retain hl.unique, standing_disposals, ← hs address]
      · refine and_congr_right fun _ => ?_
        simp only [List.forall_mem_map, Heap.mem_select]
        constructor
        · rintro hdropped p ⟨r, hr, hexpired⟩ ha
          obtain ⟨r', hr', ha⟩ := Option.map_eq_some_iff.mp ha
          cases hr.symm.trans hr'
          exact hdropped p r hr (by rw [hexpired]; rfl) ha
        · intro hdisposed p r hr hexpired ha
          refine hdisposed p ⟨r, hr, by simpa using hexpired⟩ ?_
          exact (addressOf_of_get hr).trans (congrArg some ha)
      · simp

theorem remembers_run (h : Run setup inputs s) : IsLinked setup s ∧ Remembers s := by
  refine invariant_of_change (I := fun s => IsLinked setup s ∧ Remembers s)
    (fun _ _ hs hc => ⟨hc.linked hs.1, hc.remembers hs.1 hs.2⟩) ⟨Linked.empty, fun address => ?_⟩ h
  refine iff_of_false ?_ not_standing_nil
  rintro ⟨p, r, hr, -⟩
  cases hr

/-- The pointer that `Get` returned leads to the only record of the address. -/
theorem hasKnocked_iff (hl : IsLinked setup s) {address : BitVec 64}
    (hp : addressOf s.accounting.records p = some address) :
    s.hasKnocked p = true ↔ KnockedAt s.accounting.records address := by
  unfold hasKnocked
  rw [Option.any_eq_true]
  constructor
  · rintro ⟨r, hr, hknocked⟩
    exact ⟨p, r, hr, Option.some.inj ((addressOf_of_get hr).symm.trans hp), hknocked⟩
  · rintro ⟨q, r, hr, rfl, hknocked⟩
    have hqp := hl.unique q p r.address (addressOf_of_get hr) hp
    subst hqp
    exact ⟨r, hr, hknocked⟩

/-- After the charge of an accepted connection, the record tells whether the knock is standing. -/
theorem hasKnocked_charged (h : Run setup inputs s) (hget : Gets setup peer s (some p, s₁)) :
    (s₁.updateTokenBucket p 1 overdrawn).hasKnocked p = true ↔
      Standing (peer.toInteger setup.address) s.log ∧ overdrawn = false := by
  obtain ⟨hl, hrem⟩ := remembers_run h
  have hchanges : Changes setup s (s₁.updateTokenBucket p 1 overdrawn) :=
    hget.changes.1.tail (.charge p 1 overdrawn)
  obtain ⟨hl', hrem'⟩ := Changes.keeps (I := fun s => IsLinked setup s ∧ Remembers s)
    (fun _ _ hs hc => ⟨hc.linked hs.1, hc.remembers hs.1 hs.2⟩) hchanges ⟨hl, hrem⟩
  have haddress := hget.addressOf_eq
  have haddress' : addressOf (s₁.updateTokenBucket p 1 overdrawn).accounting.records p =
      some (peer.toInteger setup.address) := by
    rw [records_updateTokenBucket, addressOf_modify fun r => by simp]
    exact haddress
  obtain ⟨hlog, -, -, -, hconfig⟩ := hget.frame
  have htarpit : s₁.accounting.tarpit = true :=
    congrArg Prod.snd (hconfig.trans (bounded_run h).config)
  rw [hasKnocked_iff hl' haddress', hrem', ← hlog]
  refine standing_charge.trans (and_congr_right fun _ => ?_)
  have hmap : (s₁.record p).map (·.address) = some (peer.toInteger setup.address) := haddress
  rw [htarpit, hmap]
  cases overdrawn <;> simp

end Gate

end UoLogin.Accounts

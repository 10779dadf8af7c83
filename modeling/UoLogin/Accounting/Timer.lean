import UoLogin.Accounting.Limits

set_option autoImplicit false

/-!
# The cleanup timer

A timer disposes the records that have no connections and have expired. It is armed when the last
connection of a client goes, and by the cleanup itself for the records that it keeps; nothing else arms
it.

* `Idle Q q`: what holds of every record without connections, except perhaps the record `q`, on which a
  handler is at work;
* `Armed`: the timer is pending if there is a record without connections;
* **`timer_pending_iff`**: `Armed` holds in every state of a run, exactly if every record is created by a
  handler that connects it, or while the timer is pending;
* `datagram_strands_record`: a datagram does neither.
-/

namespace UoLogin.Accounts

variable {setup : AccountSetup} {inputs : List Input} {s s' s₁ : Accounts} {p i : ℕ} {c : Client}
  {peer : SocketAddress} {overdrawn : Bool}

/-! ## Idle records -/

section Idle

variable {Q : List RecordEntry → Option ℕ → ℕ → PerClientAccounting → Prop} {q : Option ℕ}

/-- What holds of every record without connections, except perhaps one. -/
def Idle (Q : List RecordEntry → Option ℕ → ℕ → PerClientAccounting → Prop) (q : Option ℕ)
    (s : Accounts) : Prop :=
  ∀ p r, s.record p = some r → some p ≠ q → r.connections = [] → Q s.log s.accounting.cleanupTimer p r

theorem Idle.weaken (h : Idle Q none s) (q : Option ℕ) : Idle Q q s :=
  fun p r hr _ hc => h p r hr nofun hc

theorem Idle.close (h : Idle Q (some p) s) (hp : ∀ r, s.record p = some r → r.connections ≠ []) :
    Idle Q none s := by
  intro p' r hr _ hc
  refine h p' r hr (fun heq => ?_) hc
  cases heq
  exact hp r hr hc

/-- A call on the record `p` that leaves its list alone. -/
theorem Idle.touch {f : PerClientAccounting → PerClientAccounting} (h : Idle Q q s)
    (hrecords : s'.accounting.records = s.accounting.records.modify p f)
    (htimer : s'.accounting.cleanupTimer = s.accounting.cleanupTimer)
    (hf : ∀ r, (f r).connections = r.connections)
    (hother : ∀ p' r, p' ≠ p → Q s.log s.accounting.cleanupTimer p' r →
      Q s'.log s.accounting.cleanupTimer p' r)
    (hself : some p ≠ q → ∀ r, s.record p = some r → r.connections = [] →
      Q s.log s.accounting.cleanupTimer p r → Q s'.log s.accounting.cleanupTimer p (f r)) : Idle Q q s' := by
  intro p' r' hr' hne hc
  unfold record at hr'
  rw [hrecords] at hr'
  rw [htimer]
  rcases Heap.get_modify_eq_some.mp hr' with ⟨rfl, r, hr, rfl⟩ | ⟨hp', hr⟩
  · rw [hf] at hc
    exact hself hne r hr hc (h p' r hr hne hc)
  · exact hother p' r' hp' (h p' r' hr hne hc)

/-- A record with a new connection is not idle. -/
theorem Idle.create (h : Idle Q c.perClient s) : Idle Q none (s.create c) := by
  intro p r hr _ hc
  have htimer : (s.create c).accounting.cleanupTimer = s.accounting.cleanupTimer := by
    unfold Accounts.create
    cases c.perClient <;> rfl
  rw [htimer]
  unfold record at hr
  cases hper : c.perClient with
  | none =>
      rw [records_create_none hper] at hr
      exact h p r hr (by rw [hper]; exact nofun) hc
  | some p₀ =>
      rw [records_create_some hper] at hr
      rcases Heap.get_modify_eq_some.mp hr with ⟨rfl, r₀, -, rfl⟩ | ⟨hne, hr⟩
      · simp [PerClientAccounting.addConnection] at hc
      · refine h p r hr (fun heq => ?_) hc
        rw [hper] at heq
        exact hne (Option.some.inj heq)

theorem connections_ne_nil_of_check {r : PerClientAccounting} {maxConnections : ℕ}
    (h : r.check maxConnections = false) : r.connections ≠ [] := by
  intro hnil
  simp [PerClientAccounting.check, hnil] at h

/-- Only a missing knock leaves the record of an accepted client without connections. -/
theorem Decides.idle (hd : Decides setup p peer s s') (h : Idle Q (some p) s)
    (hmissing : setup.requireKnock = true → Idle Q none s) : Idle Q none s' := by
  cases hd with
  | missingKnock hknock hk => exact hmissing hknock
  | tooMany hk hc =>
      have hclose : Idle Q none s := by
        refine h.close fun r hr => ?_
        unfold check at hc
        rw [hr] at hc
        exact connections_ne_nil_of_check hc
      exact hclose
  | delayed hk hc hd => exact Idle.create (c := ⟨_, _, _, some p⟩) h
  | connected hk hc => exact Idle.create (c := ⟨_, _, _, some p⟩) h

end Idle

/-! ## The timer -/

/-- The timer is pending. -/
def Pending (_ : List RecordEntry) (timer : Option ℕ) (_ : ℕ) (_ : PerClientAccounting) : Prop :=
  timer.isSome = true

/-- The timer is pending if there is a record without connections. -/
def Armed (s : Accounts) : Prop :=
  ∀ p r, s.record p = some r → r.connections = [] → s.accounting.cleanupTimer.isSome = true

theorem armed_iff : Armed s ↔ Idle Pending none s :=
  ⟨fun h p r hr _ hc => h p r hr hc, fun h p r hr hc => h p r hr nofun hc⟩

/-- The client has a record, or needs none. -/
def Known (setup : AccountSetup) (s : Accounts) (peer : SocketAddress) : Prop :=
  peer.toInteger setup.address = 0 ∨
    ∃ p r, s.record p = some r ∧ r.address = peer.toInteger setup.address

/-- A handler that may create a record connects it, or the timer is pending. -/
def Arms (setup : AccountSetup) (s : Accounts) : Input → Prop
  | .accept peer _ =>
    setup.requireKnock = true → Known setup s peer ∨ s.accounting.cleanupTimer.isSome = true
  | .datagram _ peer _ _ => Known setup s peer ∨ s.accounting.cleanupTimer.isSome = true
  | .knockAnswer k _ _ => ∀ knock, s.requests.get k = some knock →
      Known setup s knock.address ∨ s.accounting.cleanupTimer.isSome = true
  | _ => True

theorem idle_pending_touch {q : Option ℕ} {f : PerClientAccounting → PerClientAccounting}
    (h : Idle Pending q s) (hrecords : s'.accounting.records = s.accounting.records.modify p f)
    (htimer : s'.accounting.cleanupTimer = s.accounting.cleanupTimer)
    (hf : ∀ r, (f r).connections = r.connections) : Idle Pending q s' :=
  h.touch hrecords htimer hf (fun _ _ _ h => h) fun _ _ _ _ h => h

theorem idle_pending_charge {q : Option ℕ} (h : Idle Pending q s) (p size : ℕ) (overdrawn : Bool) :
    Idle Pending q (s.updateTokenBucket p size overdrawn) :=
  idle_pending_touch h (records_updateTokenBucket s p size overdrawn) rfl fun r => by simp

theorem idle_pending_performs {q : Option ℕ} (acts : List KnockAct) (h : Idle Pending q s) :
    Idle Pending q (acts.foldl (perform p overdrawn) s) := by
  induction acts generalizing s with
  | nil => exact h
  | cons act acts ih =>
      refine ih ?_
      cases act with
      | updateTokenBucket size => exact idle_pending_charge h p size overdrawn
      | setKnocked => exact idle_pending_touch h (p := p) rfl rfl fun _ => rfl
      | malformedKnocks | rejectedKnocks | acceptedKnocks | nftAddElement | delete => exact h

/-- A new record is not connected yet. -/
theorem Gets.idle_pending (hget : Gets setup peer s (some p, s₁)) (h : Idle Pending none s) :
    Idle Pending (some p) s₁ ∧
      (Known setup s peer ∨ s.accounting.cleanupTimer.isSome = true → Idle Pending none s₁) := by
  cases hget with
  | found hzero hr ha => exact ⟨h.weaken _, fun _ => h⟩
  | inserted hzero hnew =>
      refine ⟨fun p' r hr hne hc => ?_, fun hknown => ?_⟩
      · rcases Heap.get_alloc_eq_some.mp hr with ⟨rfl, -⟩ | hr
        · exact (hne rfl).elim
        · exact h p' r hr nofun hc
      · rcases hknown with (h0 | ⟨p', r, hr, ha⟩) | htimer
        · exact (hzero h0).elim
        · exact (hnew p' r hr ha).elim
        · exact fun _ _ _ _ _ => htimer

theorem isSome_scheduleCleanup (m : ClientAccountingMap) (now : ℕ) :
    (m.scheduleCleanup now).cleanupTimer.isSome = true := by
  unfold ClientAccountingMap.scheduleCleanup
  by_cases h : m.cleanupTimer.isNone = true
  · rw [if_pos h]
    rfl
  · rw [if_neg h]
    simpa [Option.isSome_iff_ne_none] using h

/-- The last connection of a client arms the timer. -/
theorem Armed.destroy (h : Armed s) (i : ℕ) (c : Client) : Armed (s.destroy i c) := by
  cases hper : c.perClient with
  | none =>
      have hsame : (s.destroy i c).accounting = s.accounting := by
        unfold Accounts.destroy Accounts.removeConnection
        rw [hper]
        cases c.socket <;> rfl
      unfold Armed record
      rw [hsame]
      exact h
  | some p =>
      have hremoved : (s.destroy i c).accounting = s.accounting.removeConnection s.now p i := by
        unfold Accounts.destroy Accounts.removeConnection
        rw [hper]
        cases c.socket <;> rfl
      intro q r hr hc
      unfold record at hr
      rw [hremoved] at hr ⊢
      unfold ClientAccountingMap.removeConnection at hr ⊢
      dsimp only at hr ⊢
      by_cases hempty : ((s.accounting.modify p (·.removeConnection s.now i)).records.get p).any
          (·.connections.isEmpty) = true
      · rw [if_pos hempty]
        exact isSome_scheduleCleanup _ _
      · rw [if_neg hempty] at hr ⊢
        rcases Heap.get_modify_eq_some.mp hr with ⟨rfl, -⟩ | ⟨-, hr'⟩
        · rw [hr] at hempty
          exact (hempty (List.isEmpty_iff.mpr hc)).elim
        · exact h q r hr' hc

/-- The cleanup comes back for the records that it leaves without connections. -/
theorem armed_onCleanupTimer (s : Accounts) : Armed s.onCleanupTimer := by
  intro p r hr hc
  unfold record onCleanupTimer at hr
  rw [records_onCleanupTimer] at hr
  obtain ⟨hr, hkept⟩ := Heap.get_retain_eq_some.mp hr
  have hwaiting : r.waiting s.now = true := by
    simp only [PerClientAccounting.expired, PerClientAccounting.waiting, hc, List.isEmpty_nil,
      Bool.true_and, Bool.not_not] at hkept ⊢
    exact hkept
  have hreschedule : (s.accounting.records.find (·.waiting s.now)).isSome = true := by
    by_contra hnone
    have hfind := Option.not_isSome_iff_eq_none.mp hnone
    rw [Heap.not_of_find_eq_none hfind hr] at hwaiting
    cases hwaiting
  unfold onCleanupTimer ClientAccountingMap.onCleanupTimer
  dsimp only
  rw [if_pos hreschedule]
  exact isSome_scheduleCleanup _ _

theorem Armed.onAccept (h : Armed s) (harms : Arms setup s (.accept peer overdrawn)) :
    Armed (s.onAccept setup peer overdrawn) := by
  have haccepts := onAccept_accepts setup peer overdrawn s
  generalize s.onAccept setup peer overdrawn = s' at haccepts
  rw [armed_iff] at h ⊢
  cases haccepts with
  | unaccounted hzero => exact Idle.create (c := ⟨_, _, _, none⟩) h
  | accounted hget hdecides =>
      obtain ⟨hexcept, hall⟩ := hget.idle_pending h
      refine hdecides.idle (idle_pending_charge hexcept _ 1 overdrawn) fun hknock => ?_
      exact idle_pending_charge (hall (harms hknock)) _ 1 overdrawn

theorem Armed.onDatagram (h : Armed s) (nftSet : Option (List UInt8)) (payload : List UInt8)
    (overdrawn : Bool) (harms : Known setup s peer ∨ s.accounting.cleanupTimer.isSome = true) :
    Armed (s.onDatagram setup nftSet peer payload overdrawn) := by
  have hget := getClientAccounting_gets setup peer s
  rw [armed_iff] at h ⊢
  unfold Accounts.onDatagram
  generalize s.getClientAccounting setup peer = res at hget
  obtain ⟨_ | p, s₁⟩ := res
  · cases hget
    exact h
  · have h₁ := (hget.idle_pending h).2 harms
    dsimp only
    cases onUdpDatagram setup.util true payload with
    | handled acts => exact idle_pending_performs acts h₁
    | request => exact h₁

theorem Armed.onKnockAnswer (h : Armed s) (k : ℕ) (knock : PendingKnock) (result overdrawn : Bool)
    (harms : Known setup s knock.address ∨ s.accounting.cleanupTimer.isSome = true) :
    Armed (s.onKnockAnswer setup k knock result overdrawn) := by
  have hget := getClientAccounting_gets setup knock.address s
  rw [armed_iff] at h ⊢
  unfold Accounts.onKnockAnswer
  generalize s.getClientAccounting setup knock.address = res at hget
  obtain ⟨_ | p, s₁⟩ := res
  · cases hget
    exact h
  · dsimp only
    generalize Request.onCheckCredentials _ true result = acts
    have h₁ : Idle Pending none (acts.foldl (perform p overdrawn) s₁) :=
      idle_pending_performs acts ((hget.idle_pending h).2 harms)
    split
    · exact h₁
    · exact h₁

theorem Armed.charge (h : Armed s) (c : Client) (size : ℕ) (overdrawn : Bool) :
    Armed (s.charge c size overdrawn) := by
  rw [armed_iff] at h ⊢
  unfold Accounts.charge
  cases c.perClient with
  | none => exact h
  | some p => exact idle_pending_charge h p size overdrawn

theorem Armed.onTimer (h : Armed s) (i : ℕ) (c : Client) : Armed (s.onTimer i c) := by
  have hcreate : Armed ((s.releaseSocket i).addConnection c.perClient c.socket c.peerAddress) := by
    rw [armed_iff] at h ⊢
    exact Idle.create (s := s.releaseSocket i) (Idle.weaken (s := s.releaseSocket i) h _)
  exact hcreate.destroy i _

/-- A step that arms the timer where it has to. -/
theorem Armed.step {input : Input} (h : Armed s) (harms : Arms setup s input)
    (hstep : step setup s input = some s') : Armed s' := by
  cases step_cases hstep with
  | tick => exact h
  | accept peer overdrawn => exact h.onAccept harms
  | timer hc => exact h.onTimer _ _
  | socketReady overdrawn hc => exact (h.charge _ 4 overdrawn).destroy _ _
  | charge size overdrawn hc => exact h.charge _ size overdrawn
  | destroy hc => exact h.destroy _ _
  | datagram peer payload overdrawn => exact h.onDatagram _ payload overdrawn harms
  | knockAnswer result overdrawn hk => exact h.onKnockAnswer _ _ result overdrawn (harms _ hk)
  | cleanup => exact armed_onCleanupTimer s

/-! ### Records that are stranded -/

/-- A record without connections, and no timer. -/
def Stranded (s : Accounts) (p : ℕ) : Prop :=
  (∃ r, s.record p = some r ∧ r.connections = []) ∧ s.accounting.cleanupTimer = none

theorem Stranded.not_armed (h : Stranded s p) : ¬ Armed s := by
  obtain ⟨⟨r, hr, hc⟩, htimer⟩ := h
  intro harmed
  have hsome := harmed p r hr hc
  rw [htimer] at hsome
  cases hsome

theorem Stranded.charge (h : Stranded s p) (size : ℕ) (overdrawn : Bool) :
    Stranded (s.updateTokenBucket p size overdrawn) p := by
  obtain ⟨⟨r, hr, hc⟩, htimer⟩ := h
  refine ⟨⟨r.updateTokenBucket s.accounting.tarpit s.now overdrawn, ?_, ?_⟩, htimer⟩
  · rw [record_updateTokenBucket, hr]
    rfl
  · rw [PerClientAccounting.connections_updateTokenBucket]
    exact hc

theorem Stranded.performs (acts : List KnockAct) (h : Stranded s p) :
    Stranded (acts.foldl (perform p overdrawn) s) p := by
  induction acts generalizing s with
  | nil => exact h
  | cons act acts ih =>
      refine ih ?_
      cases act with
      | updateTokenBucket size => exact h.charge size overdrawn
      | setKnocked =>
          obtain ⟨⟨r, hr, hc⟩, htimer⟩ := h
          refine ⟨⟨r.setKnocked, ?_, hc⟩, htimer⟩
          exact (record_setKnocked s p).trans (by rw [hr]; rfl)
      | malformedKnocks | rejectedKnocks | acceptedKnocks | nftAddElement | delete => exact h

/-- The record of an unknown client is new. -/
theorem Gets.inserted_of_not_known {res : Option ℕ × Accounts} (hget : Gets setup peer s res)
    (hknown : ¬ Known setup s peer) :
    res = (some s.accounting.records.allocated, s.insert (peer.toInteger setup.address)) := by
  cases hget with
  | unaccounted hzero => exact (hknown (.inl hzero)).elim
  | found hzero hr ha => exact (hknown (.inr ⟨_, _, hr, ha⟩)).elim
  | inserted => rfl

theorem stranded_insert (htimer : s.accounting.cleanupTimer = none) (address : BitVec 64) :
    Stranded (s.insert address) s.accounting.records.allocated :=
  ⟨⟨_, record_insert_allocated address s, rfl⟩, htimer⟩

theorem stranded_onAccept (hknock : setup.requireKnock = true) (hknown : ¬ Known setup s peer)
    (htimer : s.accounting.cleanupTimer = none) (overdrawn : Bool) :
    ∃ p, Stranded (s.onAccept setup peer overdrawn) p := by
  have haccepts := onAccept_accepts setup peer overdrawn s
  generalize s.onAccept setup peer overdrawn = s' at haccepts
  cases haccepts with
  | unaccounted hzero => exact (hknown (.inl hzero)).elim
  | @accounted p s₁ _ hget hdecides =>
      cases hget.inserted_of_not_known hknown
      have hcharged := (stranded_insert htimer (peer.toInteger setup.address)).charge 1 overdrawn
      -- a new client has not knocked
      have hunknocked : ((s.insert (peer.toInteger setup.address)).updateTokenBucket
          s.accounting.records.allocated 1 overdrawn).hasKnocked s.accounting.records.allocated = false := by
        unfold hasKnocked
        rw [record_updateTokenBucket, record_insert_allocated]
        simp
      cases hdecides with
      | missingKnock => exact ⟨_, hcharged⟩
      | tooMany hk | delayed hk | connected hk =>
          cases hunknocked.symm.trans (hk hknock)

theorem stranded_onDatagram (hknown : ¬ Known setup s peer) (htimer : s.accounting.cleanupTimer = none)
    (nftSet : Option (List UInt8)) (payload : List UInt8) (overdrawn : Bool) :
    ∃ p, Stranded (s.onDatagram setup nftSet peer payload overdrawn) p := by
  have hget := (getClientAccounting_gets setup peer s).inserted_of_not_known hknown
  have hinsert := stranded_insert htimer (peer.toInteger setup.address)
  refine ⟨s.accounting.records.allocated, ?_⟩
  unfold onDatagram
  rw [hget]
  dsimp only
  cases onUdpDatagram setup.util true payload with
  | handled acts => exact hinsert.performs acts
  | request => exact hinsert

theorem stranded_onKnockAnswer {knock : PendingKnock} (hknown : ¬ Known setup s knock.address)
    (htimer : s.accounting.cleanupTimer = none) (k : ℕ) (result overdrawn : Bool) :
    ∃ p, Stranded (s.onKnockAnswer setup k knock result overdrawn) p := by
  have hget := (getClientAccounting_gets setup knock.address s).inserted_of_not_known hknown
  refine ⟨s.accounting.records.allocated, ?_⟩
  unfold onKnockAnswer
  rw [hget]
  dsimp only
  generalize Request.onCheckCredentials _ true result = acts
  have hinsert : Stranded (acts.foldl (perform s.accounting.records.allocated overdrawn)
      (s.insert (knock.address.toInteger setup.address))) s.accounting.records.allocated :=
    (stranded_insert htimer _).performs acts
  split
  · exact hinsert
  · exact hinsert

/-- A step that does not arm the timer where it has to. -/
theorem arms_of_armed {input : Input} (hstep : step setup s input = some s') (h' : Armed s') :
    Arms setup s input := by
  -- an unknown client and no timer
  have hcontra : ∀ peer, (¬ Known setup s peer → s.accounting.cleanupTimer = none → ∃ p, Stranded s' p) →
      Known setup s peer ∨ s.accounting.cleanupTimer.isSome = true := by
    intro peer hstrands
    by_contra hnot
    obtain ⟨hknown, htimer⟩ := not_or.mp hnot
    obtain ⟨p, hp⟩ := hstrands hknown (Option.not_isSome_iff_eq_none.mp htimer)
    exact hp.not_armed h'
  cases step_cases hstep with
  | accept peer overdrawn =>
      exact fun hknock => hcontra peer fun hknown htimer => stranded_onAccept hknock hknown htimer overdrawn
  | datagram peer payload overdrawn =>
      exact hcontra peer fun hknown htimer => stranded_onDatagram hknown htimer _ payload overdrawn
  | @knockAnswer k knock result overdrawn hk =>
      intro knock' hk'
      cases hk.symm.trans hk'
      exact hcontra _ fun hknown htimer => stranded_onKnockAnswer hknown htimer k result overdrawn
  | tick | timer | socketReady | charge | destroy | cleanup => trivial

/-- **The timer is pending in every state of a run with a record without connections, exactly if every
new record is connected at once or finds the timer pending.** -/
theorem timer_pending_iff (h : Run setup inputs s) :
    (∀ pre t, pre <+: inputs → Run setup pre t → Armed t) ↔
      Machine.Along (step setup) (Arms setup) new inputs := by
  refine Machine.invariant_iff_along (R := fun _ => True) trivial (fun _ _ _ _ _ => trivial) ?_
    (fun t input t' _ ht hstep => ⟨arms_of_armed hstep, fun harms => ht.step harms hstep⟩) h
  intro p r hr
  cases hr

/-- The daemon without a knock listener: a client connects and goes. -/
theorem timer_pending_of_sample :
    ∃ s, Run { sampleAccountSetup with knockListeners := [] } [.accept samplePeer false, .destroy 0] s ∧
      (s.record 0).map (·.connections) = some [] ∧
      ∀ pre t, pre <+: [.accept samplePeer false, .destroy 0] →
        Run { sampleAccountSetup with knockListeners := [] } pre t → Armed t := by
  obtain ⟨s, hrun, hidle⟩ :
      ∃ s, Run { sampleAccountSetup with knockListeners := [] } [.accept samplePeer false, .destroy 0] s ∧
        (s.record 0).map (·.connections) = some [] := ⟨_, rfl, by decide⟩
  refine ⟨s, hrun, hidle, (timer_pending_iff hrun).mpr ⟨?_, fun _ _ => ⟨trivial, fun _ _ => trivial⟩⟩⟩
  intro hknock
  cases hknock

/-- **A datagram leaves a record behind.** -/
theorem datagram_strands_record :
    ∃ s, Run sampleAccountSetup [.tick (minutes 1), .datagram 0 samplePeer [] false] s ∧
      (s.record 0).map (·.connections) = some [] ∧ s.accounting.cleanupTimer = none ∧ ¬ Armed s := by
  obtain ⟨s, hrun, hidle, htimer⟩ :
      ∃ s, Run sampleAccountSetup [.tick (minutes 1), .datagram 0 samplePeer [] false] s ∧
        (s.record 0).map (·.connections) = some [] ∧ s.accounting.cleanupTimer = none :=
    ⟨_, rfl, by decide, rfl⟩
  obtain ⟨r, hr, hc⟩ := Option.map_eq_some_iff.mp hidle
  exact ⟨s, hrun, hidle, htimer, Stranded.not_armed ⟨⟨r, hr, hc⟩, htimer⟩⟩

end UoLogin.Accounts

import UoLogin.Accounting.Model
import Mathlib.Logic.Relation

set_option autoImplicit false

/-!
# What a handler changes

Every handler of the accounting is a sequence of changes, which `Change` lists with what holds when they
are made. An accepted socket is closed or handed to an object in one change, and a `DelayedConnection`
becomes a `Connection` in one change: nothing else finds the socket in between.

* `Gets`, `Accepts`: the results of `GetClientAccounting` and of `OnAccept`;
* `step_cases`, **`step_changes`**: what each input does, as a sequence of changes;
* `invariant_of_change`: what every change keeps holds after every run.
-/

namespace UoLogin

namespace PerClientAccounting

variable (tarpit overdrawn : Bool) (now : ℕ) (r : PerClientAccounting)

@[simp] theorem address_updateTokenBucket :
    (r.updateTokenBucket tarpit now overdrawn).address = r.address := by
  unfold updateTokenBucket
  repeat' split
  all_goals rfl

@[simp] theorem connections_updateTokenBucket :
    (r.updateTokenBucket tarpit now overdrawn).connections = r.connections := by
  unfold updateTokenBucket
  repeat' split
  all_goals rfl

@[simp] theorem knocked_updateTokenBucket :
    (r.updateTokenBucket tarpit now overdrawn).knocked = (r.knocked && !(tarpit && overdrawn)) := by
  unfold updateTokenBucket
  cases tarpit <;> cases overdrawn <;> simp
  split <;> rfl

end PerClientAccounting

namespace Accounts

variable {setup : AccountSetup} {s s' s₁ : Accounts} {peer : SocketAddress} {overdrawn : Bool} {p i : ℕ}
  {r : PerClientAccounting}

/-- A new record in the map. -/
def insert (address : BitVec 64) (s : Accounts) : Accounts :=
  { s with accounting :=
      { s.accounting with records := s.accounting.records.alloc { address := address } } }

/-- The record that a new object is registered in, if its address is accounted. -/
def Registrable (setup : AccountSetup) (s : Accounts) (c : Client) : Prop :=
  match c.perClient with
  | some p => ∃ r, s.record p = some r ∧ r.address = c.peerAddress.toInteger setup.address ∧
      r.check s.accounting.maxConnections = true
  | none => c.peerAddress.toInteger setup.address = 0

/-- One change of the state. -/
inductive Change (setup : AccountSetup) (s : Accounts) : Accounts → Prop
  | tick (duration : ℕ) : Change setup s { s with now := s.now + duration }
  | insert (address : BitVec 64) (hzero : address ≠ 0)
      (hnew : ∀ q r, s.record q = some r → r.address ≠ address) : Change setup s (s.insert address)
  | charge (p size : ℕ) (overdrawn : Bool) : Change setup s (s.updateTokenBucket p size overdrawn)
  | knock (p : ℕ) : Change setup s (s.setKnocked p)
  | metrics (f : AccountMetrics → AccountMetrics) : Change setup s (s.setMetrics f)
  | requests (requests : Heap PendingKnock) : Change setup s { s with requests := requests }
  | refuse : Change setup s (s.take.close s.accepted)
  | enlist (c : Client) (hsocket : c.socket = some s.accepted) (hc : Registrable setup s c) :
      Change setup s (s.take.create c)
  | promote (i : ℕ) (c : Client) (hc : s.clients.get i = some c) : Change setup s (s.onTimer i c)
  | destroy (i : ℕ) (c : Client) (hc : s.clients.get i = some c) : Change setup s (s.destroy i c)
  | cleanup : Change setup s s.onCleanupTimer

/-- A sequence of changes. -/
abbrev Changes (setup : AccountSetup) : Accounts → Accounts → Prop :=
  Relation.ReflTransGen (Change setup)

/-- How `GetClientAccounting` ends. -/
inductive Gets (setup : AccountSetup) (peer : SocketAddress) (s : Accounts) : Option ℕ × Accounts → Prop
  | unaccounted (hzero : peer.toInteger setup.address = 0) : Gets setup peer s (none, s)
  | found {p : ℕ} {r : PerClientAccounting} (hzero : peer.toInteger setup.address ≠ 0)
      (hr : s.record p = some r) (ha : r.address = peer.toInteger setup.address) :
      Gets setup peer s (some p, s)
  | inserted (hzero : peer.toInteger setup.address ≠ 0)
      (hnew : ∀ q r, s.record q = some r → r.address ≠ peer.toInteger setup.address) :
      Gets setup peer s (some s.accounting.records.allocated, s.insert (peer.toInteger setup.address))

theorem getClientAccounting_gets (setup : AccountSetup) (peer : SocketAddress) (s : Accounts) :
    Gets setup peer s (s.getClientAccounting setup peer) := by
  unfold getClientAccounting ClientAccountingMap.get
  by_cases hzero : peer.toInteger setup.address = 0
  · simp only [hzero, if_true]
    exact .unaccounted hzero
  · simp only [hzero, if_false]
    cases hf : s.accounting.records.find fun r => r.address == peer.toInteger setup.address with
    | some p =>
        obtain ⟨r, hr, ha⟩ := Heap.of_find_eq_some hf
        exact .found hzero hr (beq_iff_eq.mp ha)
    | none =>
        refine .inserted hzero fun q r hr ha => ?_
        have hne := Heap.not_of_find_eq_none hf hr
        simp [ha] at hne

@[simp] theorem record_insert_allocated (address : BitVec 64) (s : Accounts) :
    (s.insert address).record s.accounting.records.allocated = some { address := address } :=
  Heap.get_alloc_self _ _

/-- The record that is found or inserted. -/
theorem Gets.changes (h : Gets setup peer s (some p, s₁)) :
    Changes setup s s₁ ∧ (∃ r, s₁.record p = some r ∧ r.address = peer.toInteger setup.address) ∧
      s₁.accepted = s.accepted := by
  cases h with
  | found hzero hr ha => exact ⟨.refl, ⟨_, hr, ha⟩, rfl⟩
  | inserted hzero hnew =>
      exact ⟨.single (.insert _ hzero hnew), ⟨_, record_insert_allocated _ s, rfl⟩, rfl⟩

/-- The rest of the state is as before. -/
theorem Gets.frame {res : Option ℕ × Accounts} (h : Gets setup peer s res) :
    res.2.log = s.log ∧ res.2.now = s.now ∧ res.2.clients = s.clients ∧ res.2.metrics = s.metrics ∧
      res.2.accounting.config = s.accounting.config := by
  cases h with
  | unaccounted | found | inserted => exact ⟨rfl, rfl, rfl, rfl, rfl⟩

/-! ## Accepting -/

/-- How `OnAccept` ends for an accounted client, after the charge. -/
inductive Decides (setup : AccountSetup) (p : ℕ) (peer : SocketAddress) (s : Accounts) : Accounts → Prop
  | missingKnock (hknock : setup.requireKnock = true) (hk : s.hasKnocked p = false) :
      Decides setup p peer s
        ((s.setMetrics fun m => { m with missingKnocks := m.missingKnocks + 1 }).take.close s.accepted)
  | tooMany (hk : setup.requireKnock = true → s.hasKnocked p = true) (hc : s.check p = false) :
      Decides setup p peer s (s.take.close s.accepted)
  | delayed (hk : setup.requireKnock = true → s.hasKnocked p = true) (hc : s.check p = true)
      (hd : 0 < s.getDelay p) :
      Decides setup p peer s
        ((s.setMetrics fun m => { m with delayedConnections := m.delayedConnections + 1 }).take.create
          { kind := .delayed (s.now + s.getDelay p), peerAddress := peer, socket := some s.accepted,
            perClient := some p })
  | connected (hk : setup.requireKnock = true → s.hasKnocked p = true) (hc : s.check p = true) :
      Decides setup p peer s (s.take.create
        { kind := .connection, peerAddress := peer, socket := some s.accepted, perClient := some p })

/-- `OnAccept`. -/
inductive Accepts (setup : AccountSetup) (peer : SocketAddress) (overdrawn : Bool) (s : Accounts) :
    Accounts → Prop
  | unaccounted (hzero : peer.toInteger setup.address = 0) :
      Accepts setup peer overdrawn s (s.take.create
        { kind := .connection, peerAddress := peer, socket := some s.accepted, perClient := none })
  | accounted {p : ℕ} {s₁ s' : Accounts} (hget : Gets setup peer s (some p, s₁))
      (hdecides : Decides setup p peer (s₁.updateTokenBucket p 1 overdrawn) s') :
      Accepts setup peer overdrawn s s'

theorem decideAccounted_decides (setup : AccountSetup) (p : ℕ) (peer : SocketAddress) (s : Accounts) :
    Decides setup p peer s (s.take.decideAccounted setup p s.accepted peer) := by
  have hknocked : s.take.hasKnocked p = s.hasKnocked p := rfl
  have hcheck : s.take.check p = s.check p := rfl
  have hdelay : s.take.getDelay p = s.getDelay p := rfl
  unfold decideAccounted
  rw [hknocked, hcheck, hdelay]
  by_cases hk : setup.requireKnock = true ∧ s.hasKnocked p = false
  · rw [if_pos hk]
    exact .missingKnock hk.1 hk.2
  · have hk' : setup.requireKnock = true → s.hasKnocked p = true := by
      intro hr
      exact (Bool.not_eq_false _).mp fun hf => hk ⟨hr, hf⟩
    rw [if_neg hk]
    by_cases hc : s.check p = false
    · rw [if_pos hc]
      exact .tooMany hk' hc
    · rw [if_neg hc]
      by_cases hd : 0 < s.getDelay p
      · rw [if_pos hd]
        exact .delayed hk' ((Bool.not_eq_false _).mp hc) hd
      · rw [if_neg hd]
        exact .connected hk' ((Bool.not_eq_false _).mp hc)

theorem onAccept_accepts (setup : AccountSetup) (peer : SocketAddress) (overdrawn : Bool) (s : Accounts) :
    Accepts setup peer overdrawn s (s.onAccept setup peer overdrawn) := by
  -- the number of accepted sockets is not read in between
  have htake : s.take.getClientAccounting setup peer =
      ((s.getClientAccounting setup peer).1, (s.getClientAccounting setup peer).2.take) := rfl
  have hget := getClientAccounting_gets setup peer s
  unfold onAccept
  rw [htake]
  generalize hres : s.getClientAccounting setup peer = res at hget
  obtain ⟨_ | p, s₁⟩ := res
  · cases hget with
    | unaccounted hzero => exact .unaccounted hzero
  · have haccepted : s₁.accepted = s.accepted := congrArg (fun res => res.2.accepted) hres.symm
    refine .accounted hget ?_
    rw [← haccepted]
    exact decideAccounted_decides setup p peer (s₁.updateTokenBucket p 1 overdrawn)

theorem records_updateTokenBucket (s : Accounts) (p size : ℕ) (overdrawn : Bool) :
    (s.updateTokenBucket p size overdrawn).accounting.records =
      s.accounting.records.modify p (·.updateTokenBucket s.accounting.tarpit s.now overdrawn) := rfl

@[simp] theorem record_updateTokenBucket (s : Accounts) (p size : ℕ) (overdrawn : Bool) :
    (s.updateTokenBucket p size overdrawn).record p =
      (s.record p).map (·.updateTokenBucket s.accounting.tarpit s.now overdrawn) :=
  Heap.get_modify_self _ _ _

@[simp] theorem record_setKnocked (s : Accounts) (p : ℕ) :
    (s.setKnocked p).record p = (s.record p).map (·.setKnocked) :=
  Heap.get_modify_self _ _ _

/-- The pointer of a record that passes the check. -/
theorem exists_record_of_check (hc : s.check p = true) :
    ∃ r, s.record p = some r ∧ r.check s.accounting.maxConnections = true :=
  (Option.any_eq_true _ _).mp hc

theorem Decides.changes (h : Decides setup p peer s s')
    (hr : ∃ r, s.record p = some r ∧ r.address = peer.toInteger setup.address) : Changes setup s s' := by
  have hregistrable : s.check p = true → ∀ kind socket,
      Registrable setup s { kind := kind, peerAddress := peer, socket := socket, perClient := some p } := by
    intro hc kind socket
    obtain ⟨r, hr, ha⟩ := hr
    obtain ⟨r', hr', hcheck⟩ := exists_record_of_check hc
    cases hr.symm.trans hr'
    exact ⟨r, hr, ha, hcheck⟩
  cases h with
  | missingKnock hknock hk => exact .tail (.single (.metrics _)) .refuse
  | tooMany hk hc => exact .single .refuse
  | delayed hk hc hd => exact .tail (.single (.metrics _)) (.enlist _ rfl (hregistrable hc _ _))
  | connected hk hc => exact .single (.enlist _ rfl (hregistrable hc _ _))

theorem Accepts.changes (h : Accepts setup peer overdrawn s s') : Changes setup s s' := by
  cases h with
  | unaccounted hzero => exact .single (.enlist _ rfl hzero)
  | accounted hget hdecides =>
      obtain ⟨hchanges, ⟨r, hr, ha⟩, -⟩ := hget.changes
      refine (hchanges.tail (.charge _ 1 overdrawn)).trans (hdecides.changes ?_)
      rw [record_updateTokenBucket, hr]
      exact ⟨_, rfl, (PerClientAccounting.address_updateTokenBucket _ _ _ r).trans ha⟩

/-! ## Knocks -/

theorem perform_changes (setup : AccountSetup) (p : ℕ) (overdrawn : Bool) (act : KnockAct) (s : Accounts) :
    Changes setup s (perform p overdrawn s act) := by
  cases act with
  | updateTokenBucket size => exact .single (.charge p size overdrawn)
  | setKnocked => exact .single (.knock p)
  | malformedKnocks => exact .single (.metrics fun m => { m with malformedKnocks := m.malformedKnocks + 1 })
  | rejectedKnocks => exact .single (.metrics fun m => { m with rejectedKnocks := m.rejectedKnocks + 1 })
  | acceptedKnocks => exact .single (.metrics fun m => { m with acceptedKnocks := m.acceptedKnocks + 1 })
  | nftAddElement | delete => exact .refl

theorem performs_changes (setup : AccountSetup) (p : ℕ) (overdrawn : Bool) (acts : List KnockAct)
    (s : Accounts) : Changes setup s (acts.foldl (perform p overdrawn) s) := by
  induction acts generalizing s with
  | nil => exact .refl
  | cons act acts ih => exact (perform_changes setup p overdrawn act s).trans (ih _)

theorem onDatagram_changes (setup : AccountSetup) (nftSet : Option (List UInt8)) (peer : SocketAddress)
    (payload : List UInt8) (overdrawn : Bool) (s : Accounts) :
    Changes setup s (s.onDatagram setup nftSet peer payload overdrawn) := by
  have hget := getClientAccounting_gets setup peer s
  unfold onDatagram
  generalize s.getClientAccounting setup peer = res at hget
  obtain ⟨_ | p, s₁⟩ := res
  · cases hget
    exact .refl
  · refine hget.changes.1.trans ?_
    dsimp only
    cases onUdpDatagram setup.util true payload with
    | handled acts => exact performs_changes setup p overdrawn acts s₁
    | request => exact .single (.requests _)

theorem onKnockAnswer_changes (setup : AccountSetup) (k : ℕ) (knock : PendingKnock)
    (result overdrawn : Bool) (s : Accounts) :
    Changes setup s (s.onKnockAnswer setup k knock result overdrawn) := by
  have hget := getClientAccounting_gets setup knock.address s
  unfold onKnockAnswer
  generalize s.getClientAccounting setup knock.address = res at hget
  obtain ⟨_ | p, s₁⟩ := res
  · cases hget
    exact .refl
  · dsimp only
    generalize Request.onCheckCredentials _ true result = acts
    have hacts := hget.changes.1.trans (performs_changes setup p overdrawn acts s₁)
    split
    · exact hacts.tail (.requests _)
    · exact hacts

/-! ## Steps -/

theorem charge_changes (setup : AccountSetup) (c : Client) (size : ℕ) (overdrawn : Bool) (s : Accounts) :
    Changes setup s (s.charge c size overdrawn) := by
  unfold charge
  cases c.perClient with
  | none => exact .refl
  | some p => exact .single (.charge p size overdrawn)

@[simp] theorem clients_charge (c : Client) (size : ℕ) (overdrawn : Bool) (s : Accounts) :
    (s.charge c size overdrawn).clients = s.clients := by
  unfold charge
  cases c.perClient <;> rfl

/-- What each input does, and when. -/
inductive Steps (setup : AccountSetup) (s : Accounts) : Input → Accounts → Prop
  | tick (duration : ℕ) : Steps setup s (.tick duration) { s with now := s.now + duration }
  | accept (peer : SocketAddress) (overdrawn : Bool) :
      Steps setup s (.accept peer overdrawn) (s.onAccept setup peer overdrawn)
  | timer {i : ℕ} {c : Client} {timer : ℕ} (hc : s.clients.get i = some c)
      (hkind : c.kind = .delayed timer) (hdue : timer ≤ s.now) : Steps setup s (.timer i) (s.onTimer i c)
  | socketReady {i : ℕ} {c : Client} (overdrawn : Bool) (hc : s.clients.get i = some c)
      (hkind : c.kind ≠ .connection) :
      Steps setup s (.socketReady i overdrawn) (s.onSocketReady i c overdrawn)
  | charge {i : ℕ} {c : Client} (size : ℕ) (overdrawn : Bool) (hc : s.clients.get i = some c)
      (hkind : c.kind = .connection) :
      Steps setup s (.charge i size overdrawn) (s.charge c size overdrawn)
  | destroy {i : ℕ} {c : Client} (hc : s.clients.get i = some c) (hkind : c.kind = .connection) :
      Steps setup s (.destroy i) (s.destroy i c)
  | datagram {listener : ℕ} {nftSet : Option (List UInt8)} (peer : SocketAddress) (payload : List UInt8)
      (overdrawn : Bool) (hl : setup.knockListeners[listener]? = some nftSet) :
      Steps setup s (.datagram listener peer payload overdrawn)
        (s.onDatagram setup nftSet peer payload overdrawn)
  | knockAnswer {k : ℕ} {knock : PendingKnock} (result overdrawn : Bool)
      (hk : s.requests.get k = some knock) :
      Steps setup s (.knockAnswer k result overdrawn) (s.onKnockAnswer setup k knock result overdrawn)
  | cleanup {due : ℕ} (htimer : s.accounting.cleanupTimer = some due) (hdue : due ≤ s.now) :
      Steps setup s .cleanup s.onCleanupTimer

theorem step_cases {input : Input} (h : step setup s input = some s') : Steps setup s input s' := by
  cases input with
  | tick duration =>
      cases h
      exact .tick duration
  | accept peer overdrawn =>
      cases h
      exact .accept peer overdrawn
  | timer i =>
      simp only [step] at h
      split at h
      · rename_i c hc
        split at h
        · rename_i timer hkind
          split at h
          · cases h
            exact .timer hc hkind ‹_›
          · cases h
        · cases h
      · cases h
  | socketReady i overdrawn =>
      simp only [step] at h
      split at h
      · rename_i c hc
        split at h
        · cases h
          exact .socketReady overdrawn hc ‹_›
        · cases h
      · cases h
  | charge i size overdrawn =>
      simp only [step] at h
      split at h
      · rename_i c hc
        split at h
        · cases h
          exact .charge size overdrawn hc ‹_›
        · cases h
      · cases h
  | destroy i =>
      simp only [step] at h
      split at h
      · rename_i c hc
        split at h
        · cases h
          exact .destroy hc ‹_›
        · cases h
      · cases h
  | datagram listener peer payload overdrawn =>
      obtain ⟨nftSet, hl, rfl⟩ := Option.map_eq_some_iff.mp h
      exact .datagram peer payload overdrawn hl
  | knockAnswer k result overdrawn =>
      obtain ⟨knock, hk, rfl⟩ := Option.map_eq_some_iff.mp h
      exact .knockAnswer result overdrawn hk
  | cleanup =>
      simp only [step] at h
      split at h
      · rename_i due htimer
        split at h
        · cases h
          exact .cleanup htimer ‹_›
        · cases h
      · cases h

/-- **A step is a sequence of changes.** -/
theorem step_changes {input : Input} (h : step setup s input = some s') : Changes setup s s' := by
  cases step_cases h with
  | tick duration => exact .single (.tick duration)
  | accept peer overdrawn => exact (onAccept_accepts setup peer overdrawn s).changes
  | timer hc => exact .single (.promote _ _ hc)
  | @socketReady i c overdrawn hc =>
      refine (charge_changes setup c 4 overdrawn s).tail (.destroy i c ?_)
      rw [clients_charge]
      exact hc
  | charge size overdrawn hc => exact charge_changes setup _ size overdrawn s
  | destroy hc => exact .single (.destroy _ _ hc)
  | datagram peer payload overdrawn => exact onDatagram_changes setup _ peer payload overdrawn s
  | knockAnswer result overdrawn hk => exact onKnockAnswer_changes setup _ _ result overdrawn s
  | cleanup => exact .single .cleanup

theorem Changes.keeps {I : Accounts → Prop} (hchange : ∀ s s', I s → Change setup s s' → I s')
    (h : Changes setup s s') (hs : I s) : I s' := by
  induction h with
  | refl => exact hs
  | tail _ hlast ih => exact hchange _ _ ih hlast

/-- **What every change keeps holds after every run.** -/
theorem invariant_of_change {I : Accounts → Prop} (hchange : ∀ s s', I s → Change setup s s' → I s')
    (hnew : I new) {inputs : List Input} (h : Run setup inputs s) : I s :=
  Machine.invariant (fun _ _ _ hI hstep => (step_changes hstep).keeps hchange hI) hnew h

end Accounts

end UoLogin

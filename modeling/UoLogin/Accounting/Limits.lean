import UoLogin.Accounting.Changes
import UoLogin.Lib.Backlinks

set_option autoImplicit false

/-!
# The limit of connections per client

* `Linked`: the records and the clients agree: there is one record per address, and a client is in the
  list of the record that it points to;
* `Bounded`: no list is longer than `max_connections`;
* `Owned`: an accepted socket belongs to one client or was closed;
* **`limits_hold`**: all of this in every reachable state, so that no more than 16 clients of one address
  are there.
-/

namespace UoLogin

namespace Accounts

/-! ## Records and clients -/

/-- The address of the record behind a pointer. -/
def addressOf (H : Heap PerClientAccounting) (p : ℕ) : Option (BitVec 64) := (H.get p).map (·.address)

/-- The records `H` and the clients `K` agree. A client without a record has an address that is not
accounted. -/
structure Linked (util : AddressUtil) (H : Heap PerClientAccounting) (K : Heap Client) : Prop where
  backlinks : Backlinks PerClientAccounting.connections Client.perClient H K
  unique : ∀ p q a, addressOf H p = some a → addressOf H q = some a → p = q
  nonzero : ∀ p, addressOf H p ≠ some 0
  registered : ∀ i c, K.get i = some c →
    c.perClient.elim (some 0) (addressOf H) = some (c.peerAddress.toInteger util)

section Heaps

variable {util : AddressUtil} {H : Heap PerClientAccounting} {K : Heap Client} {p i : ℕ} {c : Client}
  {r : PerClientAccounting} {f : PerClientAccounting → PerClientAccounting}

theorem addressOf_of_get (hp : H.get p = some r) : addressOf H p = some r.address := by
  unfold addressOf
  rw [hp]
  rfl

theorem addressOf_modify (hf : ∀ r, (f r).address = r.address) : addressOf (H.modify p f) = addressOf H := by
  funext q
  unfold addressOf
  rw [Heap.get_modify]
  split
  · rw [Option.map_map]
    congr 1
    exact funext hf
  · rfl

theorem addressOf_alloc {a b : BitVec 64} {q : ℕ} :
    addressOf (H.alloc { address := a }) q = some b ↔ q = H.allocated ∧ a = b ∨ addressOf H q = some b := by
  unfold addressOf
  rw [Heap.get_alloc]
  by_cases hq : q = H.allocated
  · simp [hq]
  · simp [hq]

theorem addressOf_retain {keep : PerClientAccounting → Bool} {a : BitVec 64}
    (h : addressOf (H.retain keep) p = some a) : addressOf H p = some a := by
  obtain ⟨r, hr, rfl⟩ := Option.map_eq_some_iff.mp h
  exact addressOf_of_get (Heap.get_retain_eq_some.mp hr).1

namespace Linked

theorem empty : Linked util Heap.empty Heap.empty where
  backlinks := Backlinks.empty
  unique _ _ _ h := by cases h
  nonzero _ h := by cases h
  registered _ _ h := by cases h

theorem insert (h : Linked util H K) {address : BitVec 64} (hzero : address ≠ 0)
    (hnew : ∀ q r, H.get q = some r → r.address ≠ address) :
    Linked util (H.alloc { address := address }) K where
  backlinks := h.backlinks.insert rfl
  unique p q a hp hq := by
    have hold : ∀ q, addressOf H q ≠ some address := by
      intro q hq
      obtain ⟨r, hr, ha⟩ := Option.map_eq_some_iff.mp hq
      exact hnew q r hr ha
    rcases addressOf_alloc.mp hp with ⟨rfl, rfl⟩ | hp <;>
      rcases addressOf_alloc.mp hq with ⟨rfl, ha⟩ | hq
    · rfl
    · exact (hold q hq).elim
    · subst ha
      exact (hold p hp).elim
    · exact h.unique p q a hp hq
  nonzero p hp := by
    rcases addressOf_alloc.mp hp with ⟨rfl, rfl⟩ | hp
    · exact hzero rfl
    · exact h.nonzero p hp
  registered i c hi := by
    have hc := h.registered i c hi
    cases hper : c.perClient with
    | none => rwa [hper] at hc
    | some p =>
        rw [hper] at hc
        exact addressOf_alloc.mpr (.inr hc)

/-- A change of a record, which keeps its address, together with a change of the clients. -/
theorem modify {K' : Heap Client} (h : Linked util H K) (hf : ∀ r, (f r).address = r.address)
    (hb : Backlinks PerClientAccounting.connections Client.perClient (H.modify p f) K')
    (hK : ∀ i c, K'.get i = some c →
      c.perClient.elim (some 0) (addressOf H) = some (c.peerAddress.toInteger util)) :
    Linked util (H.modify p f) K' where
  backlinks := hb
  unique := by
    rw [addressOf_modify hf]
    exact h.unique
  nonzero := by
    rw [addressOf_modify hf]
    exact h.nonzero
  registered := by
    rw [addressOf_modify hf]
    exact hK

theorem touch (h : Linked util H K) (p : ℕ) (hf : ∀ r, (f r).address = r.address)
    (hc : ∀ r, (f r).connections = r.connections) : Linked util (H.modify p f) K :=
  h.modify hf (h.backlinks.modify p hc) h.registered

theorem alloc (h : Linked util H K) (hper : c.perClient = none)
    (hzero : c.peerAddress.toInteger util = 0) : Linked util H (K.alloc c) where
  backlinks := h.backlinks.alloc hper
  unique := h.unique
  nonzero := h.nonzero
  registered i c' hi := by
    rcases Heap.get_alloc_eq_some.mp hi with ⟨-, rfl⟩ | hi
    · rw [hper, hzero]
      rfl
    · exact h.registered i c' hi

theorem register (h : Linked util H K) (hper : c.perClient = some p)
    (ha : addressOf H p = some (c.peerAddress.toInteger util)) :
    Linked util (H.modify p (·.addConnection K.allocated)) (K.alloc c) := by
  obtain ⟨r, hr, -⟩ := Option.map_eq_some_iff.mp ha
  refine h.modify (fun _ => rfl) (h.backlinks.register hr hper fun _ => rfl) fun i c' hi => ?_
  rcases Heap.get_alloc_eq_some.mp hi with ⟨-, rfl⟩ | hi
  · rw [hper]
    exact ha
  · exact h.registered i c' hi

theorem free (h : Linked util H K) (hi : K.get i = some c) (hper : c.perClient = none) :
    Linked util H (K.free i) where
  backlinks := h.backlinks.free hi hper
  unique := h.unique
  nonzero := h.nonzero
  registered j c' hj := h.registered j c' (Heap.get_free_eq_some.mp hj).2

theorem unregister (h : Linked util H K) (hi : K.get i = some c) (hper : c.perClient = some p)
    (now : ℕ) : Linked util (H.modify p (·.removeConnection now i)) (K.free i) := by
  refine h.modify (fun _ => rfl) (h.backlinks.unregister hi hper fun _ => rfl) fun j c' hj => ?_
  exact h.registered j c' (Heap.get_free_eq_some.mp hj).2

theorem release (h : Linked util H K) (i : ℕ) :
    Linked util H (K.modify i fun c => { c with socket := none }) where
  backlinks := h.backlinks.modifyMember i fun _ => rfl
  unique := h.unique
  nonzero := h.nonzero
  registered j c hj := by
    rcases Heap.get_modify_eq_some.mp hj with ⟨rfl, c, hc, rfl⟩ | ⟨-, hj⟩
    · exact h.registered j c hc
    · exact h.registered j c hj

theorem retain (h : Linked util H K) {keep : PerClientAccounting → Bool}
    (hkeep : ∀ r, keep r = false → r.connections = []) : Linked util (H.retain keep) K where
  backlinks := h.backlinks.retain hkeep
  unique p q a hp hq := h.unique p q a (addressOf_retain hp) (addressOf_retain hq)
  nonzero p hp := h.nonzero p (addressOf_retain hp)
  registered i c hi := by
    have hc := h.registered i c hi
    cases hper : c.perClient with
    | none => rwa [hper] at hc
    | some p =>
        rw [hper] at hc
        obtain ⟨r, hr⟩ := (h.backlinks.retain hkeep).valid i c p hi hper
        have hr' := addressOf_of_get (Heap.get_retain_eq_some.mp hr).1
        exact (addressOf_of_get hr).trans (hr'.symm.trans hc)

end Linked

end Heaps

/-! ## What the operations do to the heaps -/

section Operations

variable {s : Accounts} {p i : ℕ} {c : Client}

@[simp] theorem records_scheduleCleanup (m : ClientAccountingMap) (now : ℕ) :
    (m.scheduleCleanup now).records = m.records := by
  unfold ClientAccountingMap.scheduleCleanup
  split <;> rfl

@[simp] theorem config_scheduleCleanup (m : ClientAccountingMap) (now : ℕ) :
    (m.scheduleCleanup now).config = m.config := by
  unfold ClientAccountingMap.scheduleCleanup
  split <;> rfl

@[simp] theorem records_removeConnection (m : ClientAccountingMap) (now p i : ℕ) :
    (m.removeConnection now p i).records = m.records.modify p (·.removeConnection now i) := by
  unfold ClientAccountingMap.removeConnection
  dsimp only
  split
  · exact records_scheduleCleanup _ now
  · rfl

@[simp] theorem config_removeConnection (m : ClientAccountingMap) (now p i : ℕ) :
    (m.removeConnection now p i).config = m.config := by
  unfold ClientAccountingMap.removeConnection
  dsimp only
  split
  · exact config_scheduleCleanup _ now
  · rfl

@[simp] theorem records_onCleanupTimer (m : ClientAccountingMap) (now : ℕ) :
    (m.onCleanupTimer now).records = m.records.retain fun r => !r.expired now := by
  unfold ClientAccountingMap.onCleanupTimer
  dsimp only
  split
  · exact records_scheduleCleanup _ now
  · rfl

@[simp] theorem config_onCleanupTimer (m : ClientAccountingMap) (now : ℕ) :
    (m.onCleanupTimer now).config = m.config := by
  unfold ClientAccountingMap.onCleanupTimer
  dsimp only
  split
  · exact config_scheduleCleanup _ now
  · rfl

@[simp] theorem clients_destroy (s : Accounts) (i : ℕ) (c : Client) :
    (s.destroy i c).clients = s.clients.free i := by
  unfold destroy removeConnection
  cases c.socket <;> cases c.perClient <;> rfl

theorem records_create_some (hper : c.perClient = some p) :
    (s.create c).accounting.records =
      s.accounting.records.modify p (·.addConnection s.clients.allocated) := by
  unfold create
  rw [hper]
  rfl

theorem records_create_none (hper : c.perClient = none) :
    (s.create c).accounting.records = s.accounting.records := by
  unfold create
  rw [hper]

theorem records_destroy_some (hper : c.perClient = some p) :
    (s.destroy i c).accounting.records = s.accounting.records.modify p (·.removeConnection s.now i) := by
  unfold destroy removeConnection
  rw [hper]
  cases c.socket <;> exact records_removeConnection _ _ _ _

theorem records_destroy_none (hper : c.perClient = none) :
    (s.destroy i c).accounting.records = s.accounting.records := by
  unfold destroy removeConnection
  rw [hper]
  cases c.socket <;> rfl

theorem log_destroy_some (hper : c.perClient = some p) :
    (s.destroy i c).log =
      s.log ++ [⟨s.now, p, addressOf s.accounting.records p, .removeConnection i⟩] := by
  unfold destroy removeConnection
  rw [hper]
  cases c.socket <;> rfl

theorem log_destroy_none (hper : c.perClient = none) : (s.destroy i c).log = s.log := by
  unfold destroy removeConnection
  rw [hper]
  cases c.socket <;> rfl

@[simp] theorem now_destroy (s : Accounts) (i : ℕ) (c : Client) : (s.destroy i c).now = s.now := by
  unfold destroy removeConnection
  cases c.socket <;> cases c.perClient <;> rfl

theorem records_onTimer_some (hper : c.perClient = some p) :
    (s.onTimer i c).accounting.records =
      (s.accounting.records.modify p (·.addConnection s.clients.allocated)).modify p
        (·.removeConnection s.now i) := by
  have hcreate : ((s.releaseSocket i).addConnection c.perClient c.socket c.peerAddress).accounting.records =
      s.accounting.records.modify p (·.addConnection s.clients.allocated) :=
    records_create_some hper
  rw [← hcreate]
  exact records_destroy_some hper

theorem records_onTimer_none (hper : c.perClient = none) :
    (s.onTimer i c).accounting.records = s.accounting.records := by
  have hcreate : ((s.releaseSocket i).addConnection c.perClient c.socket c.peerAddress).accounting.records =
      s.accounting.records := records_create_none hper
  rw [← hcreate]
  exact records_destroy_none hper

@[simp] theorem config_create (s : Accounts) (c : Client) :
    (s.create c).accounting.config = s.accounting.config := by
  unfold create
  cases c.perClient <;> rfl

@[simp] theorem config_destroy (s : Accounts) (i : ℕ) (c : Client) :
    (s.destroy i c).accounting.config = s.accounting.config := by
  unfold destroy removeConnection
  cases c.perClient with
  | none => cases c.socket <;> rfl
  | some p => cases c.socket <;> exact config_removeConnection _ _ _ _

end Operations

/-! ## Changes -/

section Changes

variable {setup : AccountSetup} {s s' s₁ : Accounts} {p i : ℕ} {c : Client} {peer : SocketAddress}

/-- The records and the clients of a state agree. -/
abbrev IsLinked (setup : AccountSetup) (s : Accounts) : Prop :=
  Linked setup.address s.accounting.records s.clients

theorem IsLinked.create (h : IsLinked setup s)
    (hc : c.perClient.elim (some 0) (addressOf s.accounting.records) =
      some (c.peerAddress.toInteger setup.address)) : IsLinked setup (s.create c) := by
  unfold IsLinked
  cases hper : c.perClient with
  | none =>
      rw [hper] at hc
      rw [records_create_none hper]
      exact Linked.alloc h hper (Option.some.inj hc).symm
  | some p =>
      rw [hper] at hc
      rw [records_create_some hper]
      exact Linked.register h hper hc

theorem IsLinked.destroy (h : IsLinked setup s) {c' : Client} (hi : s.clients.get i = some c')
    (hper' : c'.perClient = c.perClient) : IsLinked setup (s.destroy i c) := by
  unfold IsLinked
  rw [clients_destroy]
  cases hper : c.perClient with
  | none =>
      rw [records_destroy_none hper]
      exact Linked.free h hi (hper'.trans hper)
  | some p =>
      rw [records_destroy_some hper]
      exact Linked.unregister h hi (hper'.trans hper) s.now

theorem IsLinked.onTimer (h : IsLinked setup s) (hi : s.clients.get i = some c) :
    IsLinked setup (s.onTimer i c) := by
  have hrelease : IsLinked setup (s.releaseSocket i) := Linked.release h i
  have hcreate : IsLinked setup ((s.releaseSocket i).addConnection c.perClient c.socket c.peerAddress) :=
    hrelease.create (Linked.registered h i c hi)
  have hdelayed : (s.releaseSocket i).clients.get i = some { c with socket := none } :=
    Heap.get_modify_eq_some.mpr (.inl ⟨rfl, c, hi, rfl⟩)
  exact hcreate.destroy (Heap.get_alloc_of_some hdelayed _) rfl

theorem Registrable.elim (h : Registrable setup s c) :
    c.perClient.elim (some 0) (addressOf s.accounting.records) =
      some (c.peerAddress.toInteger setup.address) := by
  unfold Registrable at h
  cases hper : c.perClient with
  | none =>
      rw [hper] at h
      exact congrArg some h.symm
  | some p =>
      rw [hper] at h
      obtain ⟨r, hr, ha, -⟩ := h
      exact (addressOf_of_get hr).trans (congrArg some ha)

theorem connections_eq_nil_of_expired {now : ℕ} {r : PerClientAccounting} (h : (!r.expired now) = false) :
    r.connections = [] := by
  simp only [PerClientAccounting.expired, Bool.not_eq_false', Bool.and_eq_true, List.isEmpty_iff] at h
  exact h.1

theorem Change.linked (h : Change setup s s') (hs : IsLinked setup s) : IsLinked setup s' := by
  cases h with
  | tick | metrics | requests | refuse => exact hs
  | insert address hzero hnew => exact Linked.insert hs hzero hnew
  | charge p size overdrawn => exact Linked.touch hs p (fun r => by simp) fun r => by simp
  | knock p => exact Linked.touch hs p (fun _ => rfl) fun _ => rfl
  | enlist c hsocket hc => exact IsLinked.create (s := s.take) hs hc.elim
  | promote i c hc => exact hs.onTimer hc
  | destroy i c hc => exact hs.destroy hc rfl
  | cleanup =>
      unfold IsLinked onCleanupTimer
      rw [records_onCleanupTimer]
      exact Linked.retain hs fun r => connections_eq_nil_of_expired

/-- `Get` returns the record with the number of the address. -/
theorem Gets.addressOf_eq (h : Gets setup peer s (some p, s₁)) :
    addressOf s₁.accounting.records p = some (peer.toInteger setup.address) := by
  obtain ⟨-, ⟨r, hr, ha⟩, -⟩ := h.changes
  exact (addressOf_of_get hr).trans (congrArg some ha)

theorem isLinked_run {inputs : List Input} (h : Run setup inputs s) : IsLinked setup s :=
  invariant_of_change (fun _ _ hs hc => hc.linked hs) Linked.empty h

/-! ### The limit -/

/-- The lists of connections are not longer than `max_connections`. -/
structure Bounded (s : Accounts) : Prop where
  config : s.accounting.config = (16, true)
  length_le : ∀ p r, s.record p = some r → r.connections.length ≤ 16

/-- A change that leaves the records alone, or shortens the lists. -/
theorem Bounded.of_le (hs : Bounded s) (hconfig : s'.accounting.config = s.accounting.config)
    (hle : ∀ p r', s'.record p = some r' →
      ∃ r, s.record p = some r ∧ r'.connections.length ≤ r.connections.length) : Bounded s' where
  config := hconfig.trans hs.config
  length_le p r' hr' := by
    obtain ⟨r, hr, hlen⟩ := hle p r' hr'
    exact hlen.trans (hs.length_le p r hr)

theorem Bounded.modify (hs : Bounded s) (hconfig : s'.accounting.config = s.accounting.config)
    {f : PerClientAccounting → PerClientAccounting}
    (hrecords : s'.accounting.records = s.accounting.records.modify p f)
    (hf : ∀ r, s.record p = some r → (f r).connections.length ≤ r.connections.length) : Bounded s' := by
  refine hs.of_le hconfig fun q r' hr' => ?_
  unfold record at hr'
  rw [hrecords] at hr'
  rcases Heap.get_modify_eq_some.mp hr' with ⟨rfl, r, hr, rfl⟩ | ⟨-, hr'⟩
  · exact ⟨r, hr, hf r hr⟩
  · exact ⟨r', hr', le_refl _⟩

theorem Bounded.create (hs : Bounded s) (hc : Registrable setup s c) : Bounded (s.create c) where
  config := (config_create s c).trans hs.config
  length_le q r' hr' := by
    unfold Registrable at hc
    unfold record at hr'
    cases hper : c.perClient with
    | none =>
        rw [records_create_none hper] at hr'
        exact hs.length_le q r' hr'
    | some p =>
        rw [hper] at hc
        obtain ⟨r, hr, -, hcheck⟩ := hc
        rw [records_create_some hper] at hr'
        rcases Heap.get_modify_eq_some.mp hr' with ⟨rfl, r₁, hr₁, rfl⟩ | ⟨-, hr'⟩
        · cases hr.symm.trans hr₁
          have hmax : s.accounting.maxConnections = 16 := congrArg Prod.fst hs.config
          simp only [PerClientAccounting.check, hmax, Bool.or_eq_true, beq_iff_eq, decide_eq_true_eq] at hcheck
          simp only [PerClientAccounting.addConnection, List.length_append, List.length_singleton]
          omega
        · exact hs.length_le q r' hr'

theorem Bounded.destroy (hs : Bounded s) (i : ℕ) (c : Client) : Bounded (s.destroy i c) := by
  have hconfig := config_destroy s i c
  cases hper : c.perClient with
  | none =>
      refine hs.of_le hconfig fun p r hr => ⟨r, ?_, le_refl _⟩
      unfold record at hr
      rwa [records_destroy_none hper] at hr
  | some p => exact hs.modify hconfig (records_destroy_some hper) fun r _ => List.length_erase_le

/-- The new connection is registered before the delayed one goes. -/
theorem Bounded.onTimer (hs : Bounded s) (hl : IsLinked setup s) (hi : s.clients.get i = some c) :
    Bounded (s.onTimer i c) := by
  have hconfig : (s.onTimer i c).accounting.config = s.accounting.config :=
    (config_destroy _ i _).trans (config_create _ _)
  cases hper : c.perClient with
  | none =>
      refine hs.of_le hconfig fun p r hr => ⟨r, ?_, le_refl _⟩
      unfold record at hr
      rwa [records_onTimer_none hper] at hr
  | some p =>
      refine hs.of_le hconfig fun q r' hr' => ?_
      unfold record at hr'
      rw [records_onTimer_some hper] at hr'
      rcases Heap.get_modify_eq_some.mp hr' with ⟨rfl, r₁, hr₁, rfl⟩ | ⟨hne, hr'⟩
      · rcases Heap.get_modify_eq_some.mp hr₁ with ⟨-, r, hr, rfl⟩ | ⟨hne, -⟩
        · have hmem : i ∈ r.connections := (hl.backlinks.links q r hr i).mpr ⟨c, hi, hper⟩
          refine ⟨r, hr, ?_⟩
          change ((r.connections ++ [s.clients.allocated]).erase i).length ≤ _
          rw [List.erase_append_left _ hmem, List.length_append, List.length_erase_of_mem hmem,
            List.length_singleton]
          have hpos := List.length_pos_of_mem hmem
          omega
        · exact (hne rfl).elim
      · rcases Heap.get_modify_eq_some.mp hr' with ⟨rfl, -⟩ | ⟨-, hr'⟩
        · exact (hne rfl).elim
        · exact ⟨r', hr', le_refl _⟩

theorem Change.bounded (h : Change setup s s') (hl : IsLinked setup s) (hs : Bounded s) : Bounded s' := by
  cases h with
  | tick | metrics | requests | refuse => exact ⟨hs.config, hs.length_le⟩
  | insert address hzero hnew =>
      refine ⟨hs.config, fun p r hr => ?_⟩
      rcases Heap.get_alloc_eq_some.mp hr with ⟨-, rfl⟩ | hr
      · exact Nat.zero_le 16
      · exact hs.length_le p r hr
  | charge p size overdrawn => exact hs.modify (p := p) rfl rfl fun r _ => by simp
  | knock p => exact hs.modify (p := p) rfl rfl fun r _ => le_refl _
  | enlist c hsocket hc => exact Bounded.create (s := s.take) ⟨hs.config, hs.length_le⟩ hc
  | promote i c hc => exact hs.onTimer hl hc
  | destroy i c hc => exact hs.destroy i c
  | cleanup =>
      refine hs.of_le (config_onCleanupTimer _ _) fun p r hr => ⟨r, ?_, le_refl _⟩
      unfold record onCleanupTimer at hr
      rw [records_onCleanupTimer] at hr
      exact (Heap.get_retain_eq_some.mp hr).1

theorem bounded_run {inputs : List Input} (h : Run setup inputs s) : Bounded s := by
  have hboth : IsLinked setup s ∧ Bounded s := by
    refine invariant_of_change (I := fun s => IsLinked setup s ∧ Bounded s)
      (fun _ _ hs hc => ⟨hc.linked hs.1, hc.bounded hs.1 hs.2⟩) ?_ h
    exact ⟨Linked.empty, rfl, fun p r hr => by cases hr⟩
  exact hboth.2

/-! ### The sockets -/

/-- The client `i` owns the socket `fd`. -/
def Holds (K : Heap Client) (i fd : ℕ) : Prop := ∃ c, K.get i = some c ∧ c.socket = some fd

/-- Every accepted socket belongs to exactly one client, or was closed, once. -/
structure Owned (s : Accounts) : Prop where
  held : ∀ i fd, Holds s.clients i fd → fd < s.accepted ∧ fd ∉ s.closed
  once : ∀ i j fd, Holds s.clients i fd → Holds s.clients j fd → i = j
  somewhere : ∀ fd < s.accepted, fd ∈ s.closed ∨ ∃ i, Holds s.clients i fd
  closed_lt : ∀ fd ∈ s.closed, fd < s.accepted
  closed_nodup : s.closed.Nodup

theorem nodup_concat {fds : List ℕ} {fd : ℕ} (h : fds.Nodup) (hfd : fd ∉ fds) : (fds ++ [fd]).Nodup := by
  refine List.nodup_append.mpr ⟨h, List.nodup_singleton fd, ?_⟩
  rintro x hx y hy rfl
  exact hfd (List.mem_singleton.mp hy ▸ hx)

theorem Owned.refuse (h : Owned s) : Owned (s.take.close s.accepted) where
  held i fd hi := by
    obtain ⟨hlt, hclosed⟩ := h.held i fd hi
    refine ⟨Nat.lt_succ_of_lt hlt, fun hmem => ?_⟩
    rcases List.mem_append.mp hmem with hmem | hmem
    · exact hclosed hmem
    · rw [List.mem_singleton.mp hmem] at hlt
      exact lt_irrefl _ hlt
  once := h.once
  somewhere fd hfd := by
    rcases Nat.lt_succ_iff_lt_or_eq.mp hfd with hfd | rfl
    · exact (h.somewhere fd hfd).imp_left (List.mem_append_left _)
    · exact .inl (List.mem_append_right _ (List.mem_singleton_self _))
  closed_lt fd hfd := by
    rcases List.mem_append.mp hfd with hfd | hfd
    · exact Nat.lt_succ_of_lt (h.closed_lt fd hfd)
    · rw [List.mem_singleton.mp hfd]
      exact Nat.lt_succ_self _
  closed_nodup := nodup_concat h.closed_nodup fun hmem => lt_irrefl _ (h.closed_lt _ hmem)

theorem holds_alloc {K : Heap Client} {fd : ℕ} :
    Holds (K.alloc c) i fd ↔ i = K.allocated ∧ c.socket = some fd ∨ Holds K i fd := by
  constructor
  · rintro ⟨c', hc', hsocket⟩
    rcases Heap.get_alloc_eq_some.mp hc' with ⟨rfl, rfl⟩ | hc'
    · exact .inl ⟨rfl, hsocket⟩
    · exact .inr ⟨c', hc', hsocket⟩
  · rintro (⟨rfl, hsocket⟩ | ⟨c', hc', hsocket⟩)
    · exact ⟨c, Heap.get_alloc_self K c, hsocket⟩
    · exact ⟨c', Heap.get_alloc_of_some hc' c, hsocket⟩

theorem holds_free {K : Heap Client} {j fd : ℕ} : Holds (K.free i) j fd ↔ j ≠ i ∧ Holds K j fd := by
  constructor
  · rintro ⟨c', hc', hsocket⟩
    obtain ⟨hne, hc'⟩ := Heap.get_free_eq_some.mp hc'
    exact ⟨hne, c', hc', hsocket⟩
  · rintro ⟨hne, c', hc', hsocket⟩
    exact ⟨c', Heap.get_free_eq_some.mpr ⟨hne, hc'⟩, hsocket⟩

theorem Owned.enlist (h : Owned s) (hsocket : c.socket = some s.accepted) : Owned (s.take.create c) where
  held i fd hi := by
    rcases holds_alloc.mp hi with ⟨-, hfd⟩ | hi
    · cases hsocket.symm.trans hfd
      exact ⟨Nat.lt_succ_self _, fun hmem => lt_irrefl _ (h.closed_lt _ hmem)⟩
    · exact ⟨Nat.lt_succ_of_lt (h.held i fd hi).1, (h.held i fd hi).2⟩
  once i j fd hi hj := by
    rcases holds_alloc.mp hi with ⟨rfl, hfd⟩ | hi <;> rcases holds_alloc.mp hj with ⟨rfl, hfd'⟩ | hj
    · rfl
    · cases hsocket.symm.trans hfd
      exact (lt_irrefl _ (h.held j _ hj).1).elim
    · cases hsocket.symm.trans hfd'
      exact (lt_irrefl _ (h.held i _ hi).1).elim
    · exact h.once i j fd hi hj
  somewhere fd hfd := by
    rcases Nat.lt_succ_iff_lt_or_eq.mp hfd with hfd | rfl
    · refine (h.somewhere fd hfd).imp_right ?_
      rintro ⟨i, hi⟩
      exact ⟨i, holds_alloc.mpr (.inr hi)⟩
    · exact .inr ⟨_, holds_alloc.mpr (.inl ⟨rfl, hsocket⟩)⟩
  closed_lt fd hfd := Nat.lt_succ_of_lt (h.closed_lt fd hfd)
  closed_nodup := h.closed_nodup

@[simp] theorem closed_destroy (s : Accounts) (i : ℕ) (c : Client) :
    (s.destroy i c).closed = s.closed ++ c.socket.toList := by
  unfold destroy removeConnection
  cases c.socket <;> cases c.perClient <;> simp [close, note]

@[simp] theorem accepted_destroy (s : Accounts) (i : ℕ) (c : Client) :
    (s.destroy i c).accepted = s.accepted := by
  unfold destroy removeConnection
  cases c.socket <;> cases c.perClient <;> rfl

theorem Owned.destroy (h : Owned s) (hi : s.clients.get i = some c) : Owned (s.destroy i c) := by
  have hclosed : ∀ fd, fd ∈ (s.destroy i c).closed ↔ fd ∈ s.closed ∨ Holds s.clients i fd := by
    intro fd
    rw [closed_destroy, List.mem_append, Option.mem_toList]
    refine or_congr_right ⟨fun hfd => ⟨c, hi, hfd⟩, ?_⟩
    rintro ⟨c', hc', hfd⟩
    cases hi.symm.trans hc'
    exact hfd
  constructor
  · intro j fd hj
    rw [clients_destroy] at hj
    obtain ⟨hne, hj⟩ := holds_free.mp hj
    rw [accepted_destroy, hclosed]
    refine ⟨(h.held j fd hj).1, ?_⟩
    rintro (hmem | hheld)
    · exact (h.held j fd hj).2 hmem
    · exact hne (h.once j i fd hj hheld)
  · intro j k fd hj hk
    rw [clients_destroy] at hj hk
    exact h.once j k fd (holds_free.mp hj).2 (holds_free.mp hk).2
  · intro fd hfd
    rw [accepted_destroy] at hfd
    rw [hclosed, clients_destroy]
    rcases h.somewhere fd hfd with hmem | ⟨j, hj⟩
    · exact .inl (.inl hmem)
    · by_cases hji : j = i
      · subst hji
        exact .inl (.inr hj)
      · exact .inr ⟨j, holds_free.mpr ⟨hji, hj⟩⟩
  · intro fd hfd
    rw [accepted_destroy]
    rcases (hclosed fd).mp hfd with hmem | hheld
    · exact h.closed_lt fd hmem
    · exact (h.held i fd hheld).1
  · rw [closed_destroy]
    cases hsocket : c.socket with
    | none => simpa using h.closed_nodup
    | some fd => exact nodup_concat h.closed_nodup (h.held i fd ⟨c, hi, hsocket⟩).2

/-- The new connection has the socket of the delayed one. -/
theorem holds_onTimer (hi : s.clients.get i = some c) {j fd : ℕ} :
    Holds (s.onTimer i c).clients j fd ↔
      j = s.clients.allocated ∧ Holds s.clients i fd ∨ j ≠ i ∧ Holds s.clients j fd := by
  have hclients : (s.onTimer i c).clients =
      ((s.releaseSocket i).clients.alloc ⟨.connection, c.peerAddress, c.socket, c.perClient⟩).free i :=
    clients_destroy _ i _
  have hheld : Holds s.clients i fd ↔ c.socket = some fd := by
    constructor
    · rintro ⟨c', hc', hfd⟩
      cases hi.symm.trans hc'
      exact hfd
    · exact fun hfd => ⟨c, hi, hfd⟩
  have hreleased : j ≠ i → (Holds (s.releaseSocket i).clients j fd ↔ Holds s.clients j fd) := by
    intro hne
    unfold Holds releaseSocket
    rw [Heap.get_modify, if_neg hne]
  rw [hclients, holds_free, holds_alloc, hheld]
  constructor
  · rintro ⟨hne, ⟨rfl, hfd⟩ | hj⟩
    · exact .inl ⟨rfl, hfd⟩
    · exact .inr ⟨hne, (hreleased hne).mp hj⟩
  · rintro (⟨rfl, hfd⟩ | ⟨hne, hj⟩)
    · exact ⟨(Heap.ne_allocated hi).symm, .inl ⟨rfl, hfd⟩⟩
    · exact ⟨hne, .inr ((hreleased hne).mpr hj)⟩

theorem Owned.onTimer (h : Owned s) (hi : s.clients.get i = some c) : Owned (s.onTimer i c) := by
  have hclosed : (s.onTimer i c).closed = s.closed :=
    (closed_destroy _ i _).trans (List.append_nil _)
  have haccepted : (s.onTimer i c).accepted = s.accepted := accepted_destroy _ i _
  constructor
  · intro j fd hj
    rw [haccepted, hclosed]
    rcases (holds_onTimer hi).mp hj with ⟨-, hheld⟩ | ⟨-, hj⟩
    · exact h.held i fd hheld
    · exact h.held j fd hj
  · intro j k fd hj hk
    rcases (holds_onTimer hi).mp hj with ⟨rfl, hj'⟩ | ⟨hne, hj'⟩ <;>
      rcases (holds_onTimer hi).mp hk with ⟨rfl, hk'⟩ | ⟨hne', hk'⟩
    · rfl
    · exact (hne' (h.once k i fd hk' hj')).elim
    · exact (hne (h.once j i fd hj' hk')).elim
    · exact h.once j k fd hj' hk'
  · intro fd hfd
    rw [haccepted] at hfd
    rw [hclosed]
    refine (h.somewhere fd hfd).imp_right ?_
    rintro ⟨j, hj⟩
    by_cases hji : j = i
    · subst hji
      exact ⟨_, (holds_onTimer hi).mpr (.inl ⟨rfl, hj⟩)⟩
    · exact ⟨j, (holds_onTimer hi).mpr (.inr ⟨hji, hj⟩)⟩
  · rw [hclosed, haccepted]
    exact h.closed_lt
  · rw [hclosed]
    exact h.closed_nodup

theorem Change.owned (h : Change setup s s') (hs : Owned s) : Owned s' := by
  cases h with
  | tick | insert | charge | knock | metrics | requests | cleanup =>
      exact ⟨hs.held, hs.once, hs.somewhere, hs.closed_lt, hs.closed_nodup⟩
  | refuse => exact hs.refuse
  | enlist c hsocket hc => exact hs.enlist hsocket
  | promote i c hc => exact hs.onTimer hc
  | destroy i c hc => exact hs.destroy hc

theorem owned_run {inputs : List Input} (h : Run setup inputs s) : Owned s := by
  refine invariant_of_change (fun _ _ hs hc => hc.owned hs) ⟨?_, ?_, ?_, ?_, List.nodup_nil⟩ h
  · rintro i fd ⟨c, hc, -⟩
    cases hc
  · rintro i j fd ⟨c, hc, -⟩
    cases hc
  · intro fd hfd
    cases hfd
  · intro fd hfd
    cases hfd

end Changes

/-! ## Reachable states -/

/-- What holds of the accounting between two handlers. -/
structure Limits (setup : AccountSetup) (s : Accounts) : Prop where
  /-- There is at most one record per address. -/
  one_record : ∀ p q r r', s.record p = some r → s.record q = some r' → r.address = r'.address → p = q
  /-- A client points to the record, still in the map, whose list it is in. -/
  per_client : ∀ i c p, s.clients.get i = some c →
    (c.perClient = some p ↔ ∃ r, s.record p = some r ∧ i ∈ r.connections)
  /-- The lists hold clients that exist, once. -/
  connections : ∀ p r, s.record p = some r →
    r.connections.Nodup ∧ ∀ i ∈ r.connections, ∃ c, s.clients.get i = some c
  /-- A record that the cleanup disposes has no clients. -/
  disposed : ∀ p r, s.record p = some r → s.onCleanupTimer.record p = none →
    ∀ i c, s.clients.get i = some c → c.perClient ≠ some p
  /-- A socket belongs to exactly one client, or was closed. -/
  sockets : ∀ fd < s.accepted,
    (fd ∉ s.closed ∧ ∃! i, Holds s.clients i fd) ∨ s.closed.count fd = 1 ∧ ∀ i, ¬ Holds s.clients i fd
  /-- The delayed and the other connections of one address. -/
  at_most : ∀ address ≠ 0,
    s.clients.count (fun c => c.peerAddress.toInteger setup.address == address) ≤ 16

theorem IsLinked.count_le {setup : AccountSetup} {s : Accounts} (hl : IsLinked setup s) (hb : Bounded s)
    {address : BitVec 64} (hzero : address ≠ 0) :
    s.clients.count (fun c => c.peerAddress.toInteger setup.address == address) ≤ 16 := by
  -- a client of this address is in the list of the record of this address
  have hin : ∀ i c, s.clients.get i = some c → c.peerAddress.toInteger setup.address = address →
      ∃ p r, s.record p = some r ∧ r.address = address ∧ i ∈ r.connections := by
    intro i c hi ha
    have hreg := hl.registered i c hi
    rw [ha] at hreg
    cases hper : c.perClient with
    | none =>
        rw [hper] at hreg
        exact (hzero (Option.some.inj hreg).symm).elim
    | some p =>
        rw [hper] at hreg
        obtain ⟨r, hr, har⟩ := Option.map_eq_some_iff.mp hreg
        exact ⟨p, r, hr, har, (hl.backlinks.links p r hr i).mpr ⟨c, hi, hper⟩⟩
  by_cases hsome : ∃ p r, s.record p = some r ∧ r.address = address
  · obtain ⟨p, r, hr, har⟩ := hsome
    refine (Heap.count_le fun i c hi hc => ?_).trans (hb.length_le p r hr)
    obtain ⟨q, r', hr', har', hmem⟩ := hin i c hi (beq_iff_eq.mp hc)
    have hqp : q = p := hl.unique q p address ((addressOf_of_get hr').trans (congrArg some har'))
      ((addressOf_of_get hr).trans (congrArg some har))
    subst hqp
    cases hr.symm.trans hr'
    exact hmem
  · refine (Heap.count_le (l := []) fun i c hi hc => ?_).trans (Nat.zero_le 16)
    obtain ⟨p, r, hr, har, -⟩ := hin i c hi (beq_iff_eq.mp hc)
    exact (hsome ⟨p, r, hr, har⟩).elim

/-- **The accounting is consistent, and no client has more than 16 connections.** -/
theorem limits_hold {setup : AccountSetup} {inputs : List Input} {s : Accounts} (h : Run setup inputs s) :
    Limits setup s := by
  have hl := isLinked_run h
  have hb := bounded_run h
  have ho := owned_run h
  constructor
  · intro p q r r' hr hr' ha
    exact hl.unique p q r'.address ((addressOf_of_get hr).trans (congrArg some ha)) (addressOf_of_get hr')
  · intro i c p hi
    constructor
    · intro hper
      obtain ⟨r, hr⟩ := hl.backlinks.valid i c p hi hper
      exact ⟨r, hr, (hl.backlinks.links p r hr i).mpr ⟨c, hi, hper⟩⟩
    · rintro ⟨r, hr, hmem⟩
      obtain ⟨c', hc', hper⟩ := (hl.backlinks.links p r hr i).mp hmem
      cases hi.symm.trans hc'
      exact hper
  · intro p r hr
    refine ⟨hl.backlinks.nodup p r hr, fun i hmem => ?_⟩
    obtain ⟨c, hc, -⟩ := (hl.backlinks.links p r hr i).mp hmem
    exact ⟨c, hc⟩
  · intro p r hr hgone i c hi hper
    have hafter : IsLinked setup s.onCleanupTimer := Change.linked .cleanup hl
    obtain ⟨r', hr'⟩ := hafter.backlinks.valid i c p hi hper
    cases hgone.symm.trans hr'
  · intro fd hfd
    by_cases hclosed : fd ∈ s.closed
    · refine .inr ⟨List.count_eq_one_of_mem ho.closed_nodup hclosed, fun i hi => ?_⟩
      exact (ho.held i fd hi).2 hclosed
    · obtain ⟨i, hi⟩ := (ho.somewhere fd hfd).resolve_left hclosed
      exact .inl ⟨hclosed, i, hi, fun j hj => ho.once j i fd hj hi⟩
  · intro address hzero
    exact hl.count_le hb hzero

/-! ## A sample run -/

/-- A knock listener, on a little-endian machine. -/
def sampleAccountSetup : AccountSetup where
  address := .littleEndian
  util := .ascii
  knockListeners := [none]
  hostToString _ := [49, 48, 46, 48, 46, 48, 46, 49]

/-- `10.0.0.1`. -/
def samplePeer : SocketAddress := .inet 0x0a000001 40000

/-- A client that knocks, is charged too much, knocks again and has to wait. -/
def sampleInputs : List Input :=
  [.tick (minutes 1), .datagram 0 samplePeer sampleAccountLogin false, .knockAnswer 0 true false,
    .accept samplePeer false, .charge 0 10 true, .datagram 0 samplePeer sampleAccountLogin false,
    .knockAnswer 1 true false, .accept samplePeer false, .tick (milliseconds 100), .timer 1]

theorem limits_of_sample :
    ∃ s, Run sampleAccountSetup sampleInputs s ∧ (s.record 0).map (·.connections) = some [0, 2] ∧
      Limits sampleAccountSetup s := by
  obtain ⟨s, hrun, hconnections⟩ :
      ∃ s, Run sampleAccountSetup sampleInputs s ∧ (s.record 0).map (·.connections) = some [0, 2] :=
    ⟨_, rfl, by decide⟩
  exact ⟨s, hrun, hconnections, limits_hold hrun⟩

end Accounts

end UoLogin

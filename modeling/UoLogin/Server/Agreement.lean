import UoLogin.Server.Effects

set_option autoImplicit false

/-!
# The parts agree

Each object of the daemon is known to several parts: a `Connection` is in the list of its listener, in the
list of its record, and may have a job; a knock has a request. Nothing of this is ever out of step.

* `Matches`: the connection and the client of one number;
* `Agrees`: what holds of the whole daemon between two inputs;
* **`Agrees.follow`**: a callback of a connection finds its client, and leaves the parts in agreement;
* `Kept`: what a handler leaves; `Agrees.onEvent`: so does a callback by the library.
-/

namespace UoLogin

open Connection

namespace Accounts

variable {setup : AccountSetup} {s s' : Accounts}

/-- What the accounting keeps by itself. -/
structure Books (setup : AccountSetup) (s : Accounts) : Prop where
  linked : IsLinked setup s
  bounded : Bounded s
  owned : Owned s
  remembers : Remembers s

theorem Changes.books (h : Changes setup s s') (hs : Books setup s) : Books setup s' :=
  h.keeps (fun _ _ hs hc => ⟨hc.linked hs.linked, hc.bounded hs.linked hs.bounded, hc.owned hs.owned,
    hc.remembers hs.linked hs.remembers⟩) hs

/-- Some inputs lead from one state to the other. -/
def Reaches (setup : AccountSetup) (s s' : Accounts) : Prop :=
  ∃ inputs, Machine.run (step setup) s inputs = some s'

theorem Reaches.refl : Reaches setup s s := ⟨[], rfl⟩

theorem Reaches.trans {s₁ : Accounts} (h : Reaches setup s s₁) (h' : Reaches setup s₁ s') :
    Reaches setup s s' := by
  obtain ⟨inputs, hrun⟩ := h
  obtain ⟨inputs', hrun'⟩ := h'
  refine ⟨inputs ++ inputs', ?_⟩
  rw [Machine.run_append, hrun]
  exact hrun'

theorem reaches_step {input : Input} (hs : step setup s input = some s') : Reaches setup s s' := by
  refine ⟨[input], ?_⟩
  rw [Machine.run_cons, hs]
  rfl

theorem Reaches.changes (h : Reaches setup s s') : Changes setup s s' := by
  obtain ⟨inputs, hrun⟩ := h
  exact Machine.invariant (I := Changes setup s) (fun _ _ _ hI hs => hI.trans (step_changes hs)) .refl hrun

theorem Reaches.books (h : Reaches setup s s') (hs : Books setup s) : Books setup s' := h.changes.books hs

theorem books_new : Books setup new where
  linked := isLinked_run (show Run setup [] new from rfl)
  bounded := bounded_run (show Run setup [] new from rfl)
  owned := owned_run (show Run setup [] new from rfl)
  remembers := (remembers_run (show Run setup [] new from rfl)).2

end Accounts

namespace Server

variable {setup : ServerSetup} {s s' : Server}

/-- The connection of a client: for an accounted one, it is charged for the address. -/
def clientPeer (setup : ServerSetup) (k : Client) : List UInt8 × Option UInt64 :=
  (setup.daemon.hostToString k.peerAddress,
    k.perClient.map fun _ => UInt64.ofBitVec (k.peerAddress.toInteger setup.daemon.address))

/-- A live connection has its client, a delayed client has no connection yet, and there are no other
clients. -/
inductive Matches (setup : ServerSetup) : Slot → Option Client → Prop
  | live {c : Connection} {k : Client} (hkind : k.kind = .connection)
      (hpeer : c.peer = clientPeer setup k) : Matches setup (.live c) (some k)
  | delayed {k : Client} {timer : ℕ} (hkind : k.kind = .delayed timer) : Matches setup .vacant (some k)
  | vacant : Matches setup .vacant none
  | gone {c : Connection} : Matches setup (.gone c) none

/-- The list holds the delayed clients, each once. -/
structure Waiting (K : Heap Client) (l : List ℕ) : Prop where
  nodup : l.Nodup
  mem_iff : ∀ i, i ∈ l ↔ ∃ k timer, K.get i = some k ∧ k.kind = .delayed timer

/-- **What holds of the whole daemon between two inputs.** -/
structure Agrees (setup : ServerSetup) (s : Server) : Prop where
  books : Accounts.Books setup.accounts s.accounts
  coherent : s.daemon.Coherent setup.daemon
  counted : Metered.Inv setup.daemon.setup s.metered
  requests : s.accounts.requests = s.daemon.requests
  matched : ∀ id, Matches setup (s.daemon.inst.conns id) (s.accounts.clients.get id)
  fresh : ∀ id, s.accounts.clients.allocated ≤ id → s.daemon.inst.conns id = .vacant
  waiting : Waiting s.accounts.clients s.delayedConnections

theorem tellAccounts_eq {input : Accounts.Input} {accounts : Accounts}
    (hs : s.accounts.step setup.accounts input = some accounts) :
    s.tellAccounts setup input = some { s with accounts := accounts } := by
  unfold tellAccounts
  rw [hs]
  rfl

theorem tellDaemon_eq {input : Daemon.Input} {daemon : Daemon}
    (hs : s.daemon.step setup.daemon input = some daemon) :
    s.tellDaemon setup input = some { s with daemon := daemon } := by
  unfold tellDaemon
  rw [hs]
  rfl

theorem running_iff :
    s.running = true ↔ s.daemon.inst.crashed = none ∧ s.daemon.checker.crashed = none := by
  simp [running]

theorem agrees_new (d : Database) : Agrees setup { daemon := { checker := { database := d } } } where
  books := Accounts.books_new
  coherent := Daemon.coherent_new d
  counted := Metered.inv_empty
  requests := rfl
  matched := fun _ => .vacant
  fresh := fun _ _ => rfl
  waiting := ⟨List.nodup_nil, fun i => ⟨fun hi => (by cases hi), fun ⟨_, _, hk, _⟩ => (by cases hk)⟩⟩

/-- The client of a live connection. -/
theorem Agrees.client (h : Agrees setup s) {id : ℕ} {c : Connection}
    (hc : s.daemon.inst.conns id = .live c) :
    ∃ k, s.accounts.clients.get id = some k ∧ k.kind = .connection ∧ c.peer = clientPeer setup k := by
  have hm := h.matched id
  rw [hc] at hm
  generalize hk : s.accounts.clients.get id = k at hm
  cases hm with
  | live hkind hpeer => exact ⟨_, rfl, hkind, hpeer⟩

/-- The connection of a client. -/
theorem Agrees.connection (h : Agrees setup s) {id : ℕ} {k : Client}
    (hk : s.accounts.clients.get id = some k) (hkind : k.kind = .connection) :
    ∃ c, s.daemon.inst.conns id = .live c ∧ c.peer = clientPeer setup k := by
  have hm := h.matched id
  rw [hk] at hm
  generalize s.daemon.inst.conns id = slot at hm
  cases hm with
  | live hkind' hpeer => exact ⟨_, rfl, hpeer⟩
  | delayed hkind' => cases hkind.symm.trans hkind'

/-! ## Handlers of one part -/

/-- The accounting changes by itself. -/
theorem Agrees.ofAccounts (h : Agrees setup s) {accounts : Accounts}
    (hreach : Accounts.Reaches setup.accounts s.accounts accounts)
    (hshared : Accounts.Shared s.accounts accounts) : Agrees setup { s with accounts := accounts } where
  books := hreach.books h.books
  coherent := h.coherent
  counted := h.counted
  requests := hshared.requests.trans h.requests
  matched := hshared.clients ▸ h.matched
  fresh := hshared.clients ▸ h.fresh
  waiting := hshared.clients ▸ h.waiting

/-- The charges of a connection reach its record. -/
theorem charges_spec (setup : ServerSetup) {id : ℕ} (sizes : List ℕ) (overdrawn : List Bool) {k : Client}
    (hk : s.accounts.clients.get id = some k) (hkind : k.kind = .connection) :
    ∃ accounts, s.charges setup id sizes overdrawn = some { s with accounts := accounts } ∧
      Accounts.Shared s.accounts accounts ∧ Accounts.Quiet s.accounts accounts ∧
      Accounts.Reaches setup.accounts s.accounts accounts := by
  induction sizes generalizing s overdrawn with
  | nil => exact ⟨s.accounts, rfl, .refl _, .refl _, .refl⟩
  | cons size sizes ih =>
      have hshared := Accounts.shared_charge k size (overdrawn.headD false) s.accounts
      have hs : s.accounts.step setup.accounts (.charge id size (overdrawn.headD false)) =
          some (s.accounts.charge k size (overdrawn.headD false)) := by
        simp only [Accounts.step, hk, hkind, if_true]
      obtain ⟨accounts, he, hshared', hquiet, hreach⟩ :=
        ih (s := { s with accounts := s.accounts.charge k size (overdrawn.headD false) })
          overdrawn.tail ((congrArg (Heap.get · id) hshared.clients).trans hk)
      refine ⟨accounts, ?_, hshared.trans hshared', (Accounts.quiet_charge ..).trans hquiet, ?_⟩
      · rw [charges, tellAccounts_eq hs]
        exact he
      · exact (Accounts.reaches_step hs).trans hreach

/-- The connection of a number has changed, as the counters know. -/
structure Moved (setup : ServerSetup) (s : Server) (id : ℕ) (slot : Slot) (daemon : Daemon) : Prop where
  conns : daemon.inst.conns = Function.update s.daemon.inst.conns id slot
  requests : daemon.requests = s.daemon.requests
  coherent : daemon.Coherent setup.daemon
  counted : Metered.Inv setup.daemon.setup
    (s.metered.follow id daemon.inst (s.metered.relink id daemon.inst))

theorem Moved.slot_eq {id : ℕ} {slot : Slot} {daemon : Daemon} (h : Moved setup s id slot daemon) :
    daemon.inst.conns id = slot := by
  rw [h.conns, Function.update_self]

theorem Moved.other {id j : ℕ} {slot : Slot} {daemon : Daemon} (h : Moved setup s id slot daemon)
    (hj : j ≠ id) : daemon.inst.conns j = s.daemon.inst.conns j := by
  rw [h.conns, Function.update_of_ne hj]

theorem Moved.relink_live {id : ℕ} {c : Connection} {daemon : Daemon}
    (h : Moved setup s id (.live c) daemon) : s.metered.relink id daemon.inst = s.connections := by
  unfold Metered.relink
  rw [h.slot_eq]
  rfl

theorem Moved.relink_gone {id : ℕ} {c : Connection} {daemon : Daemon}
    (h : Moved setup s id (.gone c) daemon) :
    s.metered.relink id daemon.inst = s.connections.erase id := by
  unfold Metered.relink
  rw [h.slot_eq]
  rfl

/-- What a handler of a connection leaves of the lists. -/
structure Followed (setup : ServerSetup) (s : Server) (id : ℕ) (daemon : Daemon) (s' : Server) : Prop where
  agrees : Agrees setup s'
  daemon_eq : s'.daemon = daemon
  connections : s'.connections = s.metered.relink id daemon.inst
  delayedConnections : s'.delayedConnections = s.delayedConnections
  stopping : s'.stopping = s.stopping
  quiet : Accounts.Quiet s.accounts s'.accounts
  reaches : Accounts.Reaches setup.accounts s.accounts s'.accounts

/-- A connection that is still there keeps its client. -/
theorem follow_live {old : Daemon} {id : ℕ} {overdrawn : List Bool} {charged : Server} {c : Connection}
    (hc : (s.note id (s.acts old id)).charges setup id ((s.acts old id).filterMap Act.tokens) overdrawn =
      some charged) (hslot : charged.daemon.inst.conns id = .live c) :
    Server.follow setup old id overdrawn s = some charged := by
  unfold Server.follow
  simp only [hc, Option.bind_some, hslot]

/-- One that is gone takes its client with it. -/
theorem follow_gone {old : Daemon} {id : ℕ} {overdrawn : List Bool} {charged : Server} {c : Connection}
    (hc : (s.note id (s.acts old id)).charges setup id ((s.acts old id).filterMap Act.tokens) overdrawn =
      some charged) (hslot : charged.daemon.inst.conns id = .gone c) :
    Server.follow setup old id overdrawn s = (charged.tellAccounts setup (.destroy id)).map fun s =>
      { s with connections := s.connections.erase id } := by
  unfold Server.follow
  simp only [hc, Option.bind_some, hslot]

/-- **A callback of a connection finds its client**, and the client goes with the connection. -/
theorem Agrees.follow (h : Agrees setup s) {id : ℕ} {c : Connection} {slot : Slot} {daemon : Daemon}
    (hc : s.daemon.inst.conns id = .live c) (hm : Moved setup s id slot daemon)
    (hslot : (∃ c', slot = .live c' ∧ c'.peer = c.peer) ∨ ∃ c', slot = .gone c')
    (overdrawn : List Bool) :
    ∃ s', Server.follow setup s.daemon id overdrawn { s with daemon := daemon } = some s' ∧
      Followed setup s id daemon s' := by
  obtain ⟨k, hk, hkind, hpeer⟩ := h.client hc
  let next : Server := { s with daemon := daemon }
  let acts := next.acts s.daemon id
  obtain ⟨accounts, he, hshared, hquiet, hreach⟩ := charges_spec setup
    (s := next.note id acts) (acts.filterMap Act.tokens) overdrawn hk hkind
  have hget : accounts.clients.get id = some k := (congrArg (Heap.get · id) hshared.clients).trans hk
  rcases hslot with ⟨c', rfl, hpeer'⟩ | ⟨c', rfl⟩
  · have hfollow : Server.follow setup s.daemon id overdrawn next = _ := follow_live he hm.slot_eq
    refine ⟨_, hfollow, ⟨hreach.books h.books, hm.coherent, ?_, ?_, fun j => ?_, fun j hj => ?_, ?_⟩,
      rfl, hm.relink_live.symm, rfl, rfl, hquiet, hreach⟩
    · have hcounted := hm.counted
      rw [hm.relink_live] at hcounted
      exact hcounted
    · exact (hshared.requests.trans h.requests).trans hm.requests.symm
    · change Matches setup (daemon.inst.conns j) (accounts.clients.get j)
      by_cases hj : j = id
      · subst hj
        rw [hm.slot_eq, hget]
        exact .live hkind (hpeer'.trans hpeer)
      · rw [hm.other hj, hshared.clients]
        exact h.matched j
    · have hj : s.accounts.clients.allocated ≤ j := hshared.clients ▸ hj
      have hne : j ≠ id := (Heap.lt_allocated hk).trans_le hj |>.ne'
      exact (hm.other hne).trans (h.fresh j hj)
    · exact hshared.clients ▸ h.waiting
  · have hdestroy : accounts.step setup.accounts (.destroy id) = some (accounts.destroy id k) := by
      simp only [Accounts.step, hget, hkind, if_true]
    have hfollow : Server.follow setup s.daemon id overdrawn next = _ := follow_gone he hm.slot_eq
    rw [tellAccounts_eq (by exact hdestroy)] at hfollow
    have hclients : (accounts.destroy id k).clients = s.accounts.clients.free id :=
      (Accounts.clients_destroy ..).trans (congrArg (Heap.free · id) hshared.clients)
    have hall : Accounts.Reaches setup.accounts s.accounts (accounts.destroy id k) :=
      hreach.trans (Accounts.reaches_step hdestroy)
    refine ⟨_, hfollow, ⟨hall.books h.books, hm.coherent, ?_, ?_, fun j => ?_, fun j hj => ?_, ?_, ?_⟩,
      rfl, hm.relink_gone.symm, rfl, rfl, hquiet.trans (Accounts.quiet_destroy ..), hall⟩
    · have hcounted := hm.counted
      rw [hm.relink_gone] at hcounted
      exact hcounted
    · exact ((Accounts.requests_destroy ..).trans (hshared.requests.trans h.requests)).trans
        hm.requests.symm
    · change Matches setup (daemon.inst.conns j) ((accounts.destroy id k).clients.get j)
      rw [hclients, Heap.get_free]
      by_cases hj : j = id
      · subst hj
        rw [hm.slot_eq, if_pos rfl]
        exact .gone
      · rw [hm.other hj, if_neg hj]
        exact h.matched j
    · have hj : s.accounts.clients.allocated ≤ j := by
        change (accounts.destroy id k).clients.allocated ≤ j at hj
        rw [hclients] at hj
        exact hj
      have hne : j ≠ id := (Heap.lt_allocated hk).trans_le hj |>.ne'
      exact (hm.other hne).trans (h.fresh j hj)
    · exact h.waiting.nodup
    · intro i
      change i ∈ s.delayedConnections ↔ ∃ k' timer, (accounts.destroy id k).clients.get i = some k' ∧ _
      rw [hclients, h.waiting.mem_iff]
      refine exists₂_congr fun k' timer => and_congr_left fun hkind' => ?_
      rw [Heap.get_free_eq_some]
      refine ⟨fun hi => ⟨?_, hi⟩, fun hi => hi.2⟩
      rintro rfl
      cases hk.symm.trans hi
      cases hkind.symm.trans hkind'

/-- A callback of the library moves its connection. -/
theorem Agrees.moved_called (h : Agrees setup s) (hinst : s.daemon.inst.crashed = none)
    {daemon : Daemon} {id : ℕ} {c c' : Connection} {e : Event} {ans : Answers}
    {stock : PipeStock UInt8} {r : Result} (hc : s.daemon.inst.conns id = .live c)
    (hd : dispatch setup.daemon.setup s.daemon.inst.stock c ans e = some (stock, r))
    (hr : r = .alive c' ∨ r = .destroyed c') (he : daemon.inst = s.daemon.inst.settle id stock r)
    (hrequests : daemon.requests = s.daemon.requests) (hcoherent : daemon.Coherent setup.daemon) :
    ∃ slot, Moved setup s id slot daemon ∧
      ((∃ c', slot = .live c' ∧ c'.peer = c.peer) ∨ ∃ c', slot = .gone c') := by
  have hpeer := (dispatch_called ((h.coherent.good hinst).live hc) hd).peer
  have hstep : Metered.step setup.daemon.setup s.metered (.event id e ans) =
      some (s.metered.follow id daemon.inst (s.metered.relink id daemon.inst)) := by
    have hs : Instance.step setup.daemon.setup s.daemon.inst (.event id e ans) = some daemon.inst := by
      simp only [Instance.step, hinst, hc, hd, he]
      rfl
    unfold Metered.step
    rw [show s.metered.inst = s.daemon.inst from rfl, hs]
    rfl
  rcases hr with rfl | rfl
  · refine ⟨.live c', ⟨congrArg Instance.conns he, hrequests, hcoherent, ?_⟩, .inl ⟨c', rfl, hpeer⟩⟩
    exact Metered.inv_step h.counted hstep ((congrArg Instance.crashed he).trans hinst)
  · refine ⟨.gone (c'.destructor stock).2, ⟨congrArg Instance.conns he, hrequests, hcoherent, ?_⟩,
      .inr ⟨_, rfl⟩⟩
    exact Metered.inv_step h.counted hstep ((congrArg Instance.crashed he).trans hinst)

/-- So does its destructor. -/
theorem Agrees.moved_destroyed (h : Agrees setup s) (hinst : s.daemon.inst.crashed = none)
    {daemon : Daemon} {id : ℕ} {c : Connection} (hc : s.daemon.inst.conns id = .live c)
    (he : daemon.inst = s.daemon.inst.settle id s.daemon.inst.stock (.destroyed c))
    (hrequests : daemon.requests = s.daemon.requests) (hcoherent : daemon.Coherent setup.daemon) :
    Moved setup s id (.gone (c.destructor s.daemon.inst.stock).2) daemon := by
  have hconns : daemon.inst.conns = Function.update s.daemon.inst.conns id
      (.gone (c.destructor s.daemon.inst.stock).2) := congrArg Instance.conns he
  refine ⟨hconns, hrequests, hcoherent, ?_⟩
  have hdispose : s.metered.dispose id =
      s.metered.follow id daemon.inst (s.metered.relink id daemon.inst) := by
    unfold Metered.dispose Metered.relink
    rw [show s.metered.inst = s.daemon.inst from rfl, hc, hconns, Function.update_self, he]
  rw [← hdispose]
  exact h.counted.dispose hinst id

/-- The process has ended inside a handler, which has changed no connection. -/
theorem follow_crashed {daemon : Daemon} {id : ℕ} {c : Connection}
    (hconns : daemon.inst.conns = s.daemon.inst.conns) (hc : s.daemon.inst.conns id = .live c)
    (overdrawn : List Bool) :
    Server.follow setup s.daemon id overdrawn { s with daemon := daemon } =
      some { s with daemon := daemon } := by
  have hacts : Server.acts s.daemon id { s with daemon := daemon } = [] := by
    change (daemon.inst.conns id).log.drop _ = []
    rw [hconns, List.drop_length]
  unfold Server.follow
  rw [hacts]
  simp [note, charges, hconns, hc]

/-! ## Callbacks of connections -/

/-- Why a knock is accepted: a job has verified its credentials, or there is no database. -/
inductive Granted (setup : ServerSetup) (s : Server) : Input → Daemon → PendingKnock → Prop
  | done {call k : ℕ} {ans : Answers} {overdrawn : List Bool} {job : Job} {knock : PendingKnock}
      {daemon : Daemon} (hj : s.daemon.checker.jobs call = some job)
      (hr : s.daemon.callbacks call = some (.knock k)) (hn : job.canceled = false)
      (hstate : job.state = .finished true) (hk : s.daemon.requests.get k = some knock) :
      Granted setup s (.done call ans overdrawn) daemon knock
  | datagram {listener : ℕ} {nftSet : Option (List UInt8)} {peer : SocketAddress} {payload : List UInt8}
      {reload : ReloadAnswers} {overdrawn : Bool} {username password : List UInt8} {daemon : Daemon}
      (hl : setup.knockListeners[listener]? = some nftSet)
      (hs : s.daemon.step setup.daemon (.datagram nftSet peer payload reload) = some daemon)
      (hd : onUdpDatagram setup.daemon.verifier.util (setup.daemon.accounted peer) payload =
        .request username password) (hch : s.daemon.checked reload = .calledBack) :
      Granted setup s (.datagram listener peer payload reload overdrawn) daemon ⟨nftSet, peer⟩

/-- An input makes the daemon handle a datagram or a result only if it is one, and destroy a connection only
if it is the shutdown. -/
def Tells (setup : ServerSetup) (input : Input) : Daemon.Input → Prop
  | .datagram nftSet peer payload reload => ∃ listener overdrawn,
    setup.knockListeners[listener]? = some nftSet ∧
      input = .datagram listener peer payload reload overdrawn
  | .done call ans => ∃ overdrawn, input = .done call ans overdrawn
  | .destroy _ => input = .shutdown
  | _ => True

/-- The knocks in the journal of the accounting are granted, and all knocks are counted. -/
structure Recorded (setup : ServerSetup) (s : Server) (input : Input) (s' : Server) : Prop where
  knocks : ∀ e ∈ s'.accounts.knocks, e ∈ s.accounts.knocks ∨
    ∃ knock, Granted setup s input s'.daemon knock ∧
      e.address = some (knock.address.toInteger setup.daemon.address)
  booked : Accounts.Booked (knockActs setup s input) s.accounts s'.accounts

/-- What an input leaves: the parts agree, unless it has ended the process; the accounting has changed as
it does, and the daemon has run. -/
structure Kept (setup : ServerSetup) (s : Server) (input : Input) (s' : Server) : Prop where
  agrees : s'.running = true → Agrees setup s'
  accounts : input ≠ .shutdown → Accounts.Reaches setup.accounts s.accounts s'.accounts
  daemon : ∃ inputs, Machine.run (Daemon.step setup.daemon) s.daemon inputs = some s'.daemon ∧
    ∀ input' ∈ inputs, Tells setup input input'
  recorded : Recorded setup s input s'
  stopping : input ≠ .shutdown → s'.stopping = s.stopping

theorem Recorded.quiet {input : Input} (h : Accounts.Quiet s.accounts s'.accounts)
    (hacts : knockActs setup s input = []) : Recorded setup s input s' where
  knocks := fun _ he => .inl (h.knocks ▸ he)
  booked := hacts ▸ h.booked

/-- A run of one input. -/
theorem run_single {input : Input} {input' : Daemon.Input} {daemon : Daemon}
    (hs : s.daemon.step setup.daemon input' = some daemon) (ht : Tells setup input input') :
    ∃ inputs, Machine.run (Daemon.step setup.daemon) s.daemon inputs = some daemon ∧
      ∀ input' ∈ inputs, Tells setup input input' := by
  refine ⟨[input'], ?_, fun _ hm => List.mem_singleton.mp hm ▸ ht⟩
  rw [Machine.run_cons, hs]
  rfl

theorem run_nil (input : Input) : ∃ inputs,
    Machine.run (Daemon.step setup.daemon) s.daemon inputs = some s.daemon ∧
      ∀ input' ∈ inputs, Tells setup input input' :=
  ⟨[], rfl, fun _ hm => by cases hm⟩

theorem Followed.kept {id : ℕ} {input : Input} {input' : Daemon.Input} {daemon : Daemon}
    (h : Followed setup s id daemon s') (hs : s.daemon.step setup.daemon input' = some daemon)
    (ht : Tells setup input input') (hacts : knockActs setup s input = []) : Kept setup s input s' where
  agrees := fun _ => h.agrees
  accounts := fun _ => h.reaches
  daemon := h.daemon_eq.symm ▸ run_single hs ht
  recorded := .quiet h.quiet hacts
  stopping := fun _ => h.stopping

/-- The end of the process leaves nothing to agree on. -/
theorem kept_crashed {input : Input} {input' : Daemon.Input} {daemon : Daemon} {inst : Instance}
    {why : Stop} (hs : s.daemon.step setup.daemon input' = some daemon) (ht : Tells setup input input')
    (hinst : daemon.inst = { inst with crashed := some why }) (hacts : knockActs setup s input = []) :
    Kept setup s input { s with daemon := daemon } where
  agrees := fun hrun => by
    have hrun : daemon.inst.crashed = none := (running_iff.mp hrun).1
    rw [hinst] at hrun
    cases hrun
  accounts := fun _ => .refl
  daemon := run_single hs ht
  recorded := .quiet (.refl _) hacts
  stopping := fun _ => rfl

theorem Agrees.onEvent (h : Agrees setup s) {id : ℕ} {e : Event} {ans : Answers}
    {reload : ReloadAnswers} {daemon : Daemon} (overdrawn : List Bool)
    (hs : s.daemon.step setup.daemon (.event id e ans reload) = some daemon) :
    ∃ s', s.onEvent setup id e ans reload overdrawn = some s' ∧
      Kept setup s (.event id e ans reload overdrawn) s' := by
  obtain ⟨hinst, hchecker, hmoves⟩ := Daemon.step_moves h.coherent hs
  have hcoherent := Daemon.coherent_step h.coherent hs
  have htell : s.onEvent setup id e ans reload overdrawn =
      Server.follow setup s.daemon id overdrawn { s with daemon := daemon } := by
    unfold Server.onEvent
    rw [tellDaemon_eq hs, Option.bind_some]
  rw [htell]
  generalize hi : daemon.inst = inst at hmoves
  cases hmoves with
  | called hcause hc hd hr =>
      cases hcause with
      | event he =>
          have hrequests : daemon.requests = s.daemon.requests :=
            Daemon.requests_event (Daemon.event_of_step hinst hchecker hc he hs)
          obtain ⟨slot, hmoved, hslot⟩ := h.moved_called hinst hc hd hr hi hrequests hcoherent
          obtain ⟨s', hs', hfollowed⟩ := h.follow hc hmoved hslot overdrawn
          exact ⟨s', hs', hfollowed.kept hs trivial rfl⟩
  | crashed hcause hc hd =>
      cases hcause with
      | event he =>
          have hconns : daemon.inst.conns = s.daemon.inst.conns := by rw [hi]
          exact ⟨_, follow_crashed hconns hc overdrawn, kept_crashed hs trivial hi rfl⟩

end Server

end UoLogin

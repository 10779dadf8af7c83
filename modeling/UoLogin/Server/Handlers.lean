import UoLogin.Server.Agreement

set_option autoImplicit false

/-!
# Every handler finds what it needs

A handler of one part refers to objects of the others: a timer to its client, a callback to the client of
its connection, an answer to its request. They are all there, so that each handler goes through.

* `Agrees.beside`: the handlers that change no connection;
* **`Agrees.addConnection`**: a client that was registered gets its connection;
* **`Agrees.onAccept`**, **`Agrees.onTimer`**, **`Agrees.onSocketReady`**, **`Agrees.onDatagram`**,
  **`Agrees.onDone`**: the handlers of the listeners and of the workers' results.
-/

namespace UoLogin

open Connection

namespace Server

variable {setup : ServerSetup} {s s' : Server}

/-! ## Handlers beside the connections -/

/-- The accounting and the daemon change, but no client and no connection does. -/
theorem Agrees.beside (h : Agrees setup s) {accounts : Accounts} {daemon : Daemon}
    (hreach : Accounts.Reaches setup.accounts s.accounts accounts)
    (hclients : accounts.clients = s.accounts.clients) (hinst : daemon.inst = s.daemon.inst)
    (hrequests : accounts.requests = daemon.requests) (hcoherent : daemon.Coherent setup.daemon) :
    Agrees setup { s with accounts := accounts, daemon := daemon } where
  books := hreach.books h.books
  coherent := hcoherent
  counted := by
    have hmetered : ({ s with accounts := accounts, daemon := daemon } : Server).metered = s.metered := by
      simp [metered, hinst]
    exact hmetered ▸ h.counted
  requests := hrequests
  matched := hclients ▸ hinst ▸ h.matched
  fresh := hclients ▸ hinst ▸ h.fresh
  waiting := hclients ▸ h.waiting

/-- What a worker does. -/
theorem Agrees.work (h : Agrees setup s) {input : Input} {input' : Daemon.Input} {daemon : Daemon}
    (hs : s.daemon.step setup.daemon input' = some daemon) (ht : Tells setup input input')
    (hinst : daemon.inst = s.daemon.inst) (hrequests : daemon.requests = s.daemon.requests)
    (hacts : knockActs setup s input = []) :
    ∃ s', s.tellDaemon setup input' = some s' ∧ Kept setup s input s' := by
  refine ⟨{ s with daemon := daemon }, tellDaemon_eq hs, fun _ => ?_, fun _ => .refl, run_single hs ht,
    .quiet (.refl _) hacts, fun _ => rfl⟩
  exact h.beside .refl rfl hinst (h.requests.trans hrequests.symm) (Daemon.coherent_step h.coherent hs)

/-- What only concerns the accounting. -/
theorem Agrees.tell (h : Agrees setup s) (input : Input) {input' : Accounts.Input} {accounts : Accounts}
    (hs : s.accounts.step setup.accounts input' = some accounts)
    (hshared : Accounts.Shared s.accounts accounts) (hquiet : Accounts.Quiet s.accounts accounts)
    (hacts : knockActs setup s input = []) :
    ∃ s', s.tellAccounts setup input' = some s' ∧ Kept setup s input s' := by
  have hreach := Accounts.reaches_step hs
  exact ⟨{ s with accounts := accounts }, tellAccounts_eq hs, fun _ => h.ofAccounts hreach hshared,
    fun _ => hreach, run_nil input, .quiet hquiet hacts, fun _ => rfl⟩

/-- An input of the connections only. -/
theorem eq_of_stepInstance {d d' : Daemon} {input : UoLogin.Input}
    (hs : d.stepInstance setup.daemon input = some d') :
    d' = { d with inst := d'.inst } ∧ Instance.step setup.daemon.setup d.inst input = some d'.inst := by
  obtain ⟨inst, hi, rfl⟩ := Option.map_eq_some_iff.mp hs
  exact ⟨rfl, hi⟩

/-- The stock discards a pipe. -/
theorem Agrees.discard (h : Agrees setup s) {k : ℕ} {daemon : Daemon}
    (hs : s.daemon.step setup.daemon (.discard k) = some daemon) :
    ∃ s', s.tellDaemon setup (.discard k) = some s' ∧ Kept setup s (.discard k) s' := by
  obtain ⟨hinst, hchecker, hmoves⟩ := Daemon.step_moves h.coherent hs
  have hcoherent := Daemon.coherent_step h.coherent hs
  refine ⟨{ s with daemon := daemon }, tellDaemon_eq hs, fun _ => ?_, fun _ => .refl,
    run_single hs trivial, .quiet (.refl _) rfl, fun _ => rfl⟩
  simp only [Daemon.step, hinst, hchecker] at hs
  obtain ⟨hdaemon, hinput⟩ := eq_of_stepInstance hs
  generalize hi : daemon.inst = inst at hmoves
  cases hmoves with
  | called hcause | crashed hcause => cases hcause
  | discard =>
      have hconns : daemon.inst.conns = s.daemon.inst.conns := by rw [hi]
      have hstep : Metered.step setup.daemon.setup s.metered (.discard k) =
          some ({ s with daemon := daemon } : Server).metered := by
        unfold Metered.step
        rw [show s.metered.inst = s.daemon.inst from rfl, hinput]
        rfl
      have hcrashed : daemon.inst.crashed = none := by
        rw [hi]
        exact hinst
      refine ⟨h.books, hcoherent, Metered.inv_step h.counted hstep hcrashed, ?_, ?_, ?_, h.waiting⟩
      · rw [hdaemon]
        exact h.requests
      · exact hconns ▸ h.matched
      · exact hconns ▸ h.fresh

/-! ## Connections -/

/-- Bytes arrive. -/
theorem Agrees.arrive (h : Agrees setup s) {id : ℕ} {side : Side} {bytes : List UInt8} {daemon : Daemon}
    (hs : s.daemon.step setup.daemon (.arrive id side bytes) = some daemon) :
    ∃ s', s.tellDaemon setup (.arrive id side bytes) = some s' ∧
      Kept setup s (.arrive id side bytes) s' := by
  obtain ⟨hinst, hchecker, hmoves⟩ := Daemon.step_moves h.coherent hs
  have hcoherent := Daemon.coherent_step h.coherent hs
  refine ⟨{ s with daemon := daemon }, tellDaemon_eq hs, fun _ => ?_, fun _ => .refl,
    run_single hs trivial, .quiet (.refl _) rfl, fun _ => rfl⟩
  simp only [Daemon.step, hinst, hchecker] at hs
  obtain ⟨hdaemon, hinput⟩ := eq_of_stepInstance hs
  generalize hi : daemon.inst = inst at hmoves
  cases hmoves with
  | called hcause | crashed hcause => cases hcause
  | @arrive _ _ _ c hc =>
      have hconns : daemon.inst.conns =
          Function.update s.daemon.inst.conns id (.live (c.arrive side bytes)) := by rw [hi]; rfl
      have hstep : Metered.step setup.daemon.setup s.metered (.arrive id side bytes) =
          some (s.metered.follow id daemon.inst s.connections) := by
        unfold Metered.step
        rw [show s.metered.inst = s.daemon.inst from rfl, hinput]
        rfl
      have hmetered : s.metered.follow id daemon.inst s.connections =
          ({ s with daemon := daemon } : Server).metered := by
        have hlog : (daemon.inst.conns id).log = (s.daemon.inst.conns id).log := by
          rw [hconns, Function.update_self, hc]
          cases side <;> rfl
        simp [Metered.follow, metered, hlog]
      have hcounted := Metered.inv_step h.counted hstep (by
        change daemon.inst.crashed = none
        rw [hi]
        exact hinst)
      refine ⟨h.books, hcoherent, hmetered ▸ hcounted, ?_, fun j => ?_, fun j hj => ?_, h.waiting⟩
      · rw [hdaemon]
        exact h.requests
      · change Matches setup (daemon.inst.conns j) (s.accounts.clients.get j)
        rw [hconns]
        by_cases hj : j = id
        · subst hj
          obtain ⟨k, hk, hkind, hpeer⟩ := h.client hc
          rw [Function.update_self, hk]
          exact .live hkind ((peer_arrive c side bytes).trans hpeer)
        · rw [Function.update_of_ne hj]
          exact h.matched j
      · change daemon.inst.conns j = .vacant
        have hvacant := h.fresh j hj
        have hne : j ≠ id := by
          rintro rfl
          cases hc.symm.trans hvacant
        rw [hconns, Function.update_of_ne hne]
        exact hvacant

/-- The record of a client has its address. -/
theorem peer_of_books {accounts : Accounts} (hbooks : accounts.Books setup.accounts) {i : ℕ} {c : Client}
    (hc : accounts.clients.get i = some c) :
    ((setup.daemon.hostToString c.peerAddress,
      (c.perClient.bind accounts.record).map fun r => UInt64.ofBitVec r.address) :
        List UInt8 × Option UInt64) = clientPeer setup c := by
  have hregistered := hbooks.linked.registered i c hc
  unfold clientPeer
  congr 1
  cases hper : c.perClient with
  | none => rfl
  | some p =>
      rw [hper] at hregistered
      obtain ⟨r, hr, ha⟩ := Option.map_eq_some_iff.mp hregistered
      have hr : accounts.record p = some r := hr
      simp only [Option.bind_some, hr, Option.map_some, ha]
      rfl

/-- **A client that was registered gets its connection.** -/
theorem Agrees.addConnection (h : Agrees setup s) (hrunning : s.running = true) {accounts : Accounts}
    (hreach : Accounts.Reaches setup.accounts s.accounts accounts)
    (hrequests : accounts.requests = s.accounts.requests)
    (hquiet : Accounts.Quiet s.accounts accounts) {c : Client}
    (hc : accounts.clients.get s.accounts.clients.allocated = some c) (hkind : c.kind = .connection)
    (hothers : ∀ j, j ≠ s.accounts.clients.allocated →
      Matches setup (s.daemon.inst.conns j) (accounts.clients.get j))
    (hallocated : accounts.clients.allocated = s.accounts.clients.allocated + 1) {l : List ℕ}
    (hwaiting : Waiting accounts.clients l) {input : Input} (hacts : knockActs setup s input = []) :
    ∃ s', Server.addConnection setup s.accounts.clients.allocated c { s with accounts := accounts } =
        some s' ∧ s'.delayedConnections = s.delayedConnections ∧
      Kept setup s input { s' with delayedConnections := l } := by
  obtain ⟨hinst, hchecker⟩ := running_iff.mp hrunning
  have hbooks := hreach.books h.books
  have hvacant := h.fresh _ (le_refl s.accounts.clients.allocated)
  have hpeer := peer_of_books hbooks hc
  generalize hi : s.accounts.clients.allocated = i at hc hothers hallocated hvacant ⊢
  generalize hper : (c.perClient.bind accounts.record).map (fun r => UInt64.ofBitVec r.address) = perClient
    at hpeer
  let live : Slot := .live (new (setup.daemon.hostToString c.peerAddress) perClient)
  let inst := s.daemon.inst.setConn s.daemon.inst.stock i live
  have hinput : Instance.step setup.daemon.setup s.daemon.inst
      (.accept i (setup.daemon.hostToString c.peerAddress) perClient) = some inst := by
    simp only [Instance.step, hinst, hvacant, inst, live]
  have hs : s.daemon.step setup.daemon (.accept i (setup.daemon.hostToString c.peerAddress) perClient) =
      some { s.daemon with inst := inst } := by
    simp only [Daemon.step, hinst, hchecker, Daemon.stepInstance, hinput, Option.map_some]
  let next : Server := { s with accounts := accounts, daemon := { s.daemon with inst := inst } }
  refine ⟨{ next.note i (next.acts s.daemon i) with connections := i :: s.connections }, ?_, rfl,
    fun _ => ?_, fun _ => hreach, run_single hs trivial,
    .quiet hquiet hacts, fun _ => rfl⟩
  · unfold Server.addConnection
    dsimp only
    rw [hper, tellDaemon_eq (by exact hs)]
    rfl
  have hconns : inst.conns = Function.update s.daemon.inst.conns i live := rfl
  have hstep : Metered.step setup.daemon.setup s.metered
      (.accept i (setup.daemon.hostToString c.peerAddress) perClient) =
        some (s.metered.follow i inst (i :: s.connections)) := by
    unfold Metered.step
    rw [show s.metered.inst = s.daemon.inst from rfl, hinput]
    rfl
  refine ⟨hbooks, Daemon.coherent_step h.coherent hs, Metered.inv_step h.counted hstep hinst,
    hrequests.trans h.requests, fun j => ?_, fun j hj => ?_, hwaiting⟩
  · change Matches setup (inst.conns j) (accounts.clients.get j)
    rw [hconns]
    by_cases hj : j = i
    · subst hj
      rw [Function.update_self, hc]
      exact .live hkind hpeer
    · rw [Function.update_of_ne hj]
      exact hothers j hj
  · have hj : accounts.clients.allocated ≤ j := hj
    have hne : j ≠ i := by omega
    change inst.conns j = .vacant
    rw [hconns, Function.update_of_ne hne]
    exact h.fresh j (by omega)

/-! ## New clients -/

theorem Waiting.alloc_delayed {K : Heap Client} {l : List ℕ} (h : Waiting K l) {c : Client} {timer : ℕ}
    (hkind : c.kind = .delayed timer) : Waiting (K.alloc c) (l ++ [K.allocated]) := by
  have hnot : K.allocated ∉ l := by
    intro hmem
    obtain ⟨k, _, hk, -⟩ := (h.mem_iff _).mp hmem
    exact Heap.ne_allocated hk rfl
  refine ⟨List.nodup_append.mpr ⟨h.nodup, List.nodup_singleton _, ?_⟩, fun i => ?_⟩
  · rintro a ha b hb rfl
    exact hnot (List.mem_singleton.mp hb ▸ ha)
  · rw [List.mem_append, List.mem_singleton, h.mem_iff]
    constructor
    · rintro (⟨k, timer', hk, hkind'⟩ | rfl)
      · exact ⟨k, timer', Heap.get_alloc_of_some hk c, hkind'⟩
      · exact ⟨c, timer, Heap.get_alloc_self .., hkind⟩
    · rintro ⟨k, timer', hk, hkind'⟩
      rcases Heap.get_alloc_eq_some.mp hk with ⟨rfl, -⟩ | hk
      · exact .inr rfl
      · exact .inl ⟨k, timer', hk, hkind'⟩

theorem Waiting.alloc_connection {K : Heap Client} {l : List ℕ} (h : Waiting K l) {c : Client}
    (hkind : c.kind = .connection) : Waiting (K.alloc c) l := by
  refine ⟨h.nodup, fun i => (h.mem_iff i).trans ⟨?_, ?_⟩⟩
  · rintro ⟨k, timer, hk, hkind'⟩
    exact ⟨k, timer, Heap.get_alloc_of_some hk c, hkind'⟩
  · rintro ⟨k, timer, hk, hkind'⟩
    rcases Heap.get_alloc_eq_some.mp hk with ⟨-, rfl⟩ | hk
    · cases hkind.symm.trans hkind'
    · exact ⟨k, timer, hk, hkind'⟩

theorem Waiting.free_delayed {K : Heap Client} {l : List ℕ} (h : Waiting K l) (i : ℕ) :
    Waiting (K.free i) (l.erase i) := by
  refine ⟨h.nodup.erase i, fun j => ?_⟩
  rw [List.Nodup.mem_erase_iff h.nodup, h.mem_iff]
  constructor
  · rintro ⟨hj, k, timer, hk, hkind⟩
    exact ⟨k, timer, Heap.get_free_eq_some.mpr ⟨hj, hk⟩, hkind⟩
  · rintro ⟨k, timer, hk, hkind⟩
    obtain ⟨hj, hk⟩ := Heap.get_free_eq_some.mp hk
    exact ⟨hj, k, timer, hk, hkind⟩

/-- **`OnAccept` goes through.** -/
theorem Agrees.onAccept (h : Agrees setup s) (hrunning : s.running = true) (peer : SocketAddress)
    (overdrawn : Bool) : ∃ s', s.onAccept setup peer overdrawn = some s' ∧
      Kept setup s (.accept peer overdrawn) s' := by
  have haccepts := Accounts.onAccept_accepts setup.accounts peer overdrawn s.accounts
  have hreach : Accounts.Reaches setup.accounts s.accounts
      (s.accounts.onAccept setup.accounts peer overdrawn) :=
    Accounts.reaches_step (show s.accounts.step setup.accounts (.accept peer overdrawn) = some _ from rfl)
  have hquiet := haccepts.quiet
  obtain ⟨hrequests, hclients⟩ := haccepts.shared
  have hunfold : s.onAccept setup peer overdrawn =
      register setup s.accounts.clients.allocated
        { s with accounts := s.accounts.onAccept setup.accounts peer overdrawn } := rfl
  rw [hunfold]
  generalize s.accounts.onAccept setup.accounts peer overdrawn = accounts at hreach hquiet hrequests hclients
  unfold register
  rcases hclients with hclients | ⟨c, -, hclients⟩
  · -- the client was refused
    refine ⟨{ s with accounts := accounts }, ?_,
      fun _ => h.ofAccounts hreach ⟨hclients, hrequests⟩, fun _ => hreach, run_nil _,
      .quiet hquiet rfl, fun _ => rfl⟩
    simp only [hclients, Heap.get_allocated]
  have hget : accounts.clients.get s.accounts.clients.allocated = some c := by
    rw [hclients]
    exact Heap.get_alloc_self ..
  have hothers : ∀ j, j ≠ s.accounts.clients.allocated →
      Matches setup (s.daemon.inst.conns j) (accounts.clients.get j) := by
    intro j hj
    rw [hclients, Heap.get_alloc, if_neg hj]
    exact h.matched j
  simp only [hget]
  cases hkind : c.kind with
  | connection =>
      obtain ⟨s', hs', hlist, hkept⟩ := h.addConnection hrunning hreach hrequests hquiet hget hkind
        hothers (by rw [hclients]; rfl) (hclients ▸ h.waiting.alloc_connection hkind)
        (show knockActs setup s (.accept peer overdrawn) = [] from rfl)
      refine ⟨s', hs', ?_⟩
      rw [← hlist] at hkept
      exact hkept
  | delayed timer =>
      refine ⟨_, rfl, fun _ => ?_, fun _ => hreach, run_nil _, .quiet hquiet rfl, fun _ => rfl⟩
      refine ⟨hreach.books h.books, h.coherent, h.counted, hrequests.trans h.requests, fun j => ?_,
        fun j hj => ?_, hclients ▸ h.waiting.alloc_delayed hkind⟩
      · by_cases hj : j = s.accounts.clients.allocated
        · subst hj
          change Matches setup (s.daemon.inst.conns _) (accounts.clients.get _)
          rw [h.fresh _ (le_refl _), hget]
          exact .delayed hkind
        · exact hothers j hj
      · have hj : accounts.clients.allocated ≤ j := hj
        rw [hclients] at hj
        exact h.fresh j ((Nat.le_succ _).trans hj)

/-- A delayed client has no connection yet. -/
theorem Agrees.vacant (h : Agrees setup s) {i : ℕ} {c : Client} (hc : s.accounts.clients.get i = some c)
    (hkind : c.kind ≠ .connection) : s.daemon.inst.conns i = .vacant := by
  have hm := h.matched i
  rw [hc] at hm
  generalize s.daemon.inst.conns i = slot at hm
  cases hm with
  | live hkind' => exact (hkind hkind').elim
  | delayed => rfl

/-- **`DelayedConnection::OnTimer` goes through.** -/
theorem Agrees.onTimer (h : Agrees setup s) (hrunning : s.running = true) {i : ℕ} {accounts : Accounts}
    (hs : s.accounts.step setup.accounts (.timer i) = some accounts) :
    ∃ s', s.onTimer setup i = some s' ∧ Kept setup s (.timer i) s' := by
  have hreach := Accounts.reaches_step hs
  obtain ⟨c, hc, hkind, rfl⟩ : ∃ c, s.accounts.clients.get i = some c ∧ c.kind ≠ .connection ∧
      s.accounts.onTimer i c = accounts := by
    cases Accounts.step_cases hs with
    | timer hc hkind => exact ⟨_, hc, fun he => (by cases he.symm.trans hkind), rfl⟩
  have hne := Heap.ne_allocated hc
  have hclients := Accounts.onTimer_clients s.accounts i c
  have hget : (s.accounts.onTimer i c).clients.get s.accounts.clients.allocated =
      some ⟨.connection, c.peerAddress, c.socket, c.perClient⟩ := by
    rw [hclients]
    exact Heap.get_free_eq_some.mpr ⟨hne.symm, Heap.get_alloc_self ..⟩
  have hvacant := h.vacant hc hkind
  -- the delayed client is gone, and a connection has taken its place
  have hothers : ∀ j, j ≠ s.accounts.clients.allocated →
      Matches setup (s.daemon.inst.conns j) ((s.accounts.onTimer i c).clients.get j) := by
    intro j hj
    rw [hclients, Heap.get_free]
    by_cases hji : j = i
    · rw [if_pos hji, hji, hvacant]
      exact .vacant
    · rw [if_neg hji, Heap.get_alloc, if_neg (by exact hj), Heap.get_modify, if_neg hji]
      exact h.matched j
  have hwaiting : Waiting (s.accounts.onTimer i c).clients (s.delayedConnections.erase i) := by
    rw [hclients]
    refine Waiting.free_delayed (Waiting.alloc_connection ?_ rfl) i
    refine ⟨h.waiting.nodup, fun j => (h.waiting.mem_iff j).trans ⟨?_, ?_⟩⟩
    · rintro ⟨k, timer, hk, hkind'⟩
      by_cases hji : j = i
      · subst hji
        refine ⟨{ k with socket := none }, timer, ?_, hkind'⟩
        rw [Heap.get_modify_self, hk]
        rfl
      · exact ⟨k, timer, Heap.get_modify_eq_some.mpr (.inr ⟨hji, hk⟩), hkind'⟩
    · rintro ⟨k, timer, hk, hkind'⟩
      rcases Heap.get_modify_eq_some.mp hk with ⟨rfl, k', hk', rfl⟩ | ⟨-, hk⟩
      · exact ⟨k', timer, hk', hkind'⟩
      · exact ⟨k, timer, hk, hkind'⟩
  obtain ⟨s', hs', hlist, hkept⟩ := h.addConnection hrunning hreach (Accounts.onTimer_requests ..)
    (Accounts.quiet_onTimer ..) hget rfl hothers (by rw [hclients]; rfl) hwaiting
    (show knockActs setup s (.timer i) = [] from rfl)
  refine ⟨{ s' with delayedConnections := s'.delayedConnections.erase i }, ?_, hlist ▸ hkept⟩
  unfold Server.onTimer
  rw [tellAccounts_eq hs, Option.bind_some]
  unfold register
  simp only [hget, hs', Option.map_some]

/-- **`DelayedConnection::OnSocketReady` goes through.** -/
theorem Agrees.onSocketReady (h : Agrees setup s) {i : ℕ} {overdrawn : Bool} {accounts : Accounts}
    (hs : s.accounts.step setup.accounts (.socketReady i overdrawn) = some accounts) :
    ∃ s', s.onSocketReady setup i overdrawn = some s' ∧ Kept setup s (.socketReady i overdrawn) s' := by
  have hreach := Accounts.reaches_step hs
  obtain ⟨c, hc, hkind, rfl⟩ : ∃ c, s.accounts.clients.get i = some c ∧ c.kind ≠ .connection ∧
      s.accounts.onSocketReady i c overdrawn = accounts := by
    cases Accounts.step_cases hs with
    | socketReady overdrawn hc hkind => exact ⟨_, hc, hkind, rfl⟩
  have hshared := Accounts.shared_charge c 4 overdrawn s.accounts
  have hclients : (s.accounts.onSocketReady i c overdrawn).clients = s.accounts.clients.free i :=
    (Accounts.clients_destroy ..).trans (congrArg (Heap.free · i) hshared.clients)
  refine ⟨{ s with
      accounts := s.accounts.onSocketReady i c overdrawn
      delayedConnections := s.delayedConnections.erase i }, ?_, fun _ => ?_, fun _ => hreach, run_nil _,
    .quiet (Accounts.quiet_onSocketReady ..) rfl, fun _ => rfl⟩
  · unfold Server.onSocketReady
    rw [tellAccounts_eq hs]
    rfl
  refine ⟨hreach.books h.books, h.coherent, h.counted, ?_, fun j => ?_, fun j hj => ?_,
    hclients ▸ h.waiting.free_delayed i⟩
  · exact ((Accounts.requests_destroy ..).trans hshared.requests).trans h.requests
  · change Matches setup (s.daemon.inst.conns j) ((s.accounts.onSocketReady i c overdrawn).clients.get j)
    rw [hclients, Heap.get_free]
    by_cases hj : j = i
    · rw [if_pos hj, hj, h.vacant hc hkind]
      exact .vacant
    · rw [if_neg hj]
      exact h.matched j
  · have hj : (s.accounts.onSocketReady i c overdrawn).clients.allocated ≤ j := hj
    rw [hclients] at hj
    exact h.fresh j hj

/-! ## Knocks -/

/-- The request of a knock is in the accounting, and its address is accounted. -/
theorem Agrees.pending (h : Agrees setup s) {k : ℕ} {knock : PendingKnock}
    (hk : s.daemon.requests.get k = some knock) :
    s.accounts.requests.get k = some knock ∧ knock.address.toInteger setup.accounts.address ≠ 0 :=
  ⟨(congrArg (Heap.get · k) h.requests).trans hk, bne_iff_ne.mp (h.coherent.accounted k knock hk)⟩

theorem answer_of_accounted {knock : PendingKnock} (h : setup.daemon.accounted knock.address = true)
    (result : Bool) : answer setup knock result =
      Request.onCheckCredentials ⟨knock.nftSet, setup.daemon.hostToString knock.address⟩ true result := by
  rw [answer, h]

/-- A datagram that is not answered at once. -/
theorem onDatagram_told {listener : ℕ} {nftSet : Option (List UInt8)}
    (hl : setup.knockListeners[listener]? = some nftSet) {peer : SocketAddress} {payload : List UInt8}
    {reload : ReloadAnswers} {overdrawn : Bool} {accounts : Accounts} {daemon : Daemon}
    (htell : s.accounts.step setup.accounts (.datagram listener peer payload overdrawn) = some accounts)
    (hs : s.daemon.step setup.daemon (.datagram nftSet peer payload reload) = some daemon)
    (hno : (∃ acts, onUdpDatagram setup.daemon.verifier.util (setup.daemon.accounted peer) payload =
      .handled acts) ∨ s.daemon.checked reload ≠ .calledBack) :
    s.onDatagram setup listener peer payload reload overdrawn =
      some { s with accounts := accounts, daemon := daemon } := by
  unfold Server.onDatagram
  rw [hl, Option.bind_some, tellAccounts_eq htell, Option.bind_some, tellDaemon_eq (by exact hs),
    Option.bind_some]
  rcases hno with ⟨acts, hd⟩ | hch
  · rw [hd]
  · cases onUdpDatagram setup.daemon.verifier.util (setup.daemon.accounted peer) payload with
    | handled => rfl
    | request =>
        cases hc : s.daemon.checked reload with
        | throws | queued => rfl
        | calledBack => exact absurd hc hch

/-- A datagram that is: there is no database. -/
theorem onDatagram_calledBack {listener : ℕ} {nftSet : Option (List UInt8)}
    (hl : setup.knockListeners[listener]? = some nftSet) {peer : SocketAddress} {payload : List UInt8}
    {reload : ReloadAnswers} {overdrawn : Bool} {accounts : Accounts} {daemon : Daemon}
    (htell : s.accounts.step setup.accounts (.datagram listener peer payload overdrawn) = some accounts)
    (hs : s.daemon.step setup.daemon (.datagram nftSet peer payload reload) = some daemon)
    {username password : List UInt8}
    (hd : onUdpDatagram setup.daemon.verifier.util (setup.daemon.accounted peer) payload =
      .request username password) (hch : s.daemon.checked reload = .calledBack) :
    s.onDatagram setup listener peer payload reload overdrawn =
      ({ s with accounts := accounts, daemon := daemon } : Server).tellAccounts setup
        (.knockAnswer s.daemon.requests.allocated true overdrawn) := by
  unfold Server.onDatagram
  rw [hl, Option.bind_some, tellAccounts_eq htell, Option.bind_some, tellDaemon_eq (by exact hs),
    Option.bind_some, hd, hch]

/-- **`OnUdpDatagram` goes through.** -/
theorem Agrees.onDatagram (h : Agrees setup s) (hrunning : s.running = true) {listener : ℕ}
    {nftSet : Option (List UInt8)} (hl : setup.knockListeners[listener]? = some nftSet)
    (peer : SocketAddress) (payload : List UInt8) (reload : ReloadAnswers) (overdrawn : Bool) :
    ∃ s', s.onDatagram setup listener peer payload reload overdrawn = some s' ∧
      Kept setup s (.datagram listener peer payload reload overdrawn) s' := by
  obtain ⟨hinst, hchecker⟩ := running_iff.mp hrunning
  have hs : s.daemon.step setup.daemon (.datagram nftSet peer payload reload) =
      some (s.daemon.onDatagram setup.daemon nftSet peer payload reload) := by
    simp only [Daemon.step, hinst, hchecker]
  have htell : s.accounts.step setup.accounts (.datagram listener peer payload overdrawn) =
      some (s.accounts.onDatagram setup.accounts nftSet peer payload overdrawn) := by
    change (setup.knockListeners[listener]?).map _ = _
    rw [hl]
    rfl
  have hreach := Accounts.reaches_step htell
  obtain ⟨hclients, hrequests⟩ :=
    Accounts.onDatagram_shared setup.accounts nftSet peer payload overdrawn s.accounts
  have hrequests' := Daemon.requests_onDatagram setup.daemon nftSet peer payload reload s.daemon
  have hinst' := Daemon.inst_onDatagram setup.daemon nftSet peer payload reload s.daemon
  have hcoherent := Daemon.coherent_step h.coherent hs
  have hknocks :=
    Accounts.knocks_onDatagram setup.accounts nftSet peer payload overdrawn s.accounts
  have hbooked :=
    Accounts.booked_onDatagram setup.accounts nftSet peer payload overdrawn s.accounts
  have htells : Tells setup (.datagram listener peer payload reload overdrawn)
      (.datagram nftSet peer payload reload) := ⟨listener, overdrawn, hl, rfl⟩
  cases hd : onUdpDatagram setup.daemon.verifier.util (setup.daemon.accounted peer) payload with
  | handled acts =>
      have hd' : onUdpDatagram setup.accounts.util (peer.toInteger setup.accounts.address != 0) payload =
        .handled acts := hd
      have hacts : knockActs setup s (.datagram listener peer payload reload overdrawn) = acts := by
        simp only [knockActs, hl, hd]
      rw [hd'] at hrequests hbooked
      rw [hd] at hrequests'
      refine ⟨_, onDatagram_told hl htell hs (.inl ⟨acts, hd⟩), fun _ => ?_, fun _ => hreach,
        run_single hs htells, ⟨fun e he => .inl (hknocks e he), hacts ▸ hbooked⟩, fun _ => rfl⟩
      exact h.beside hreach hclients hinst' (hrequests.trans (h.requests.trans hrequests'.symm)) hcoherent
  | request username password =>
      have hd' : onUdpDatagram setup.accounts.util (peer.toInteger setup.accounts.address != 0) payload =
        .request username password := hd
      rw [hd'] at hrequests hbooked
      rw [hd] at hrequests'
      cases hch : s.daemon.checked reload with
      | throws | queued =>
          rw [hch] at hrequests'
          have hno : s.daemon.checked reload ≠ .calledBack := by simp [hch]
          have hacts : knockActs setup s (.datagram listener peer payload reload overdrawn) = [] := by
            simp only [knockActs, hl, hd, hch]
          refine ⟨_, onDatagram_told hl htell hs (.inr hno), fun _ => ?_, fun _ => hreach,
            run_single hs htells, ⟨fun e he => .inl (hknocks e he), hacts ▸ hbooked⟩, fun _ => rfl⟩
          refine h.beside hreach hclients hinst' ?_ hcoherent
          rw [hrequests, hrequests', h.requests]
      | calledBack =>
          rw [hch] at hrequests'
          have haccounted : setup.daemon.accounted peer = true := by
            by_contra hn
            rw [(Bool.not_eq_true _).mp hn] at hd
            cases hd
          have hzero : (⟨nftSet, peer⟩ : PendingKnock).address.toInteger setup.accounts.address ≠ 0 :=
            bne_iff_ne.mp haccounted
          obtain ⟨hclients₂, hrequests₂⟩ := Accounts.onKnockAnswer_shared hzero s.daemon.requests.allocated true overdrawn
            (s.accounts.onDatagram setup.accounts nftSet peer payload overdrawn)
          let answered := (s.accounts.onDatagram setup.accounts nftSet peer payload overdrawn).onKnockAnswer
            setup.accounts s.daemon.requests.allocated ⟨nftSet, peer⟩ true overdrawn
          have hanswer : (s.accounts.onDatagram setup.accounts nftSet peer payload overdrawn).step
              setup.accounts (.knockAnswer s.daemon.requests.allocated true overdrawn) = some answered := by
            simp only [Accounts.step, hrequests, h.requests, Heap.get_alloc_self, Option.map_some, answered]
          have hall := hreach.trans (Accounts.reaches_step hanswer)
          have hacts : knockActs setup s (.datagram listener peer payload reload overdrawn) =
              answer setup ⟨nftSet, peer⟩ true := by
            simp only [knockActs, hl, hd, hch]
          rw [answer_of_accounted (by exact haccounted)] at hacts
          refine ⟨{ s with
              accounts := answered
              daemon := s.daemon.onDatagram setup.daemon nftSet peer payload reload }, ?_, fun _ => ?_,
            fun _ => hall, run_single hs htells, ⟨fun e he => ?_, hacts ▸ ?_⟩, fun _ => rfl⟩
          · rw [onDatagram_calledBack hl htell hs hd hch]
            exact tellAccounts_eq hanswer
          · refine h.beside hall (hclients₂.trans hclients) hinst' ?_ hcoherent
            rw [hrequests₂, hrequests, hrequests', h.requests]
          · rcases Accounts.knocks_onKnockAnswer he with he | ⟨-, ha⟩
            · exact .inl (hknocks e he)
            · exact .inr ⟨_, .datagram hl hs hd hch, ha⟩
          · have hall := hbooked.trans (Accounts.booked_onKnockAnswer hzero s.daemon.requests.allocated
              true overdrawn (s.accounts.onDatagram setup.accounts nftSet peer payload overdrawn))
            exact hall

theorem done_of_step {d d' : Daemon} {call : ℕ} {ans : Answers}
    (hs : d.step setup.daemon (.done call ans) = some d') :
    ∃ job result, d.checker.jobs call = some job ∧ job.state = .finished result ∧
      d.done setup.daemon call job result ans = d' := by
  unfold Daemon.step at hs
  split at hs
  · simp only at hs
    split at hs
    · rename_i job hj
      split at hs
      · rename_i result hstate
        exact ⟨job, result, hj, hstate, Option.some.inj hs⟩
      · cases hs
    · cases hs
  · cases hs

/-- `Done()` of a job that was cancelled. -/
theorem onDone_canceled {call : ℕ} {job : Job} (hj : s.daemon.checker.jobs call = some job)
    {ans : Answers} {overdrawn : List Bool} {daemon : Daemon}
    (hs : s.daemon.step setup.daemon (.done call ans) = some daemon) (hn : job.canceled = true) :
    s.onDone setup call ans overdrawn = some { s with daemon := daemon } := by
  unfold Server.onDone
  rw [hj, Option.bind_some, tellDaemon_eq hs, Option.bind_some, if_pos hn]

/-- That of a job for a connection. -/
theorem onDone_connection {call id : ℕ} {job : Job} (hj : s.daemon.checker.jobs call = some job)
    {ans : Answers} {overdrawn : List Bool} {daemon : Daemon}
    (hs : s.daemon.step setup.daemon (.done call ans) = some daemon) (hn : job.canceled = false)
    (hr : s.daemon.callbacks call = some (.connection id)) :
    s.onDone setup call ans overdrawn =
      Server.follow setup s.daemon id overdrawn { s with daemon := daemon } := by
  unfold Server.onDone
  simp only [hj, Option.bind_some, tellDaemon_eq hs, hn, Bool.false_eq_true, if_false, hr]

/-- That of a job for a knock. -/
theorem onDone_knock {call k : ℕ} {job : Job} (hj : s.daemon.checker.jobs call = some job)
    {ans : Answers} {overdrawn : List Bool} {daemon : Daemon}
    (hs : s.daemon.step setup.daemon (.done call ans) = some daemon) (hn : job.canceled = false)
    (hr : s.daemon.callbacks call = some (.knock k)) {result : Bool} (hstate : job.state = .finished result) :
    s.onDone setup call ans overdrawn =
      ({ s with daemon := daemon } : Server).tellAccounts setup
        (.knockAnswer k result (overdrawn.headD false)) := by
  unfold Server.onDone
  simp only [hj, Option.bind_some, tellDaemon_eq hs, hn, Bool.false_eq_true, if_false, hr, hstate]

/-- **`Done()` goes through**, whoever is called back. -/
theorem Agrees.onDone (h : Agrees setup s) {call : ℕ} {ans : Answers} {daemon : Daemon}
    (overdrawn : List Bool) (hs : s.daemon.step setup.daemon (.done call ans) = some daemon) :
    ∃ s', s.onDone setup call ans overdrawn = some s' ∧ Kept setup s (.done call ans overdrawn) s' := by
  obtain ⟨hinst, hchecker, hmoves⟩ := Daemon.step_moves h.coherent hs
  have hcoherent := Daemon.coherent_step h.coherent hs
  obtain ⟨job, result, hj, hstate, hdone⟩ := done_of_step hs
  have htells : Tells setup (.done call ans overdrawn) (.done call ans) := ⟨overdrawn, rfl⟩
  obtain ⟨r, hr, -⟩ := h.coherent.ticket hj
  have hrequests := h.coherent.requests_done hj result ans
  rw [hdone, hr] at hrequests
  cases hn : job.canceled with
  | true =>
      rw [if_pos hn] at hrequests
      have hsame : daemon.inst = s.daemon.inst := by
        generalize daemon.inst = inst at hmoves
        cases hmoves with
        | called hcause | crashed hcause =>
            cases hcause with
            | done hj' _ hn' =>
                cases hj.symm.trans hj'
                cases hn.symm.trans hn'
        | done => rfl
      have hacts : knockActs setup s (.done call ans overdrawn) = [] := by
        cases r <;> simp only [knockActs, hj, hr, hn]
      exact ⟨_, onDone_canceled hj hs hn, fun _ => h.beside .refl rfl hsame (h.requests.trans hrequests.symm) hcoherent,
        fun _ => .refl, run_single hs htells, .quiet (.refl _) hacts, fun _ => rfl⟩
  | false =>
      simp only [hn, Bool.false_eq_true, if_false] at hrequests
      cases r with
      | connection id =>
          have hacts : knockActs setup s (.done call ans overdrawn) = [] := by
            simp only [knockActs, hj, hr]
          rw [onDone_connection hj hs hn hr]
          simp only at hrequests
          generalize hi : daemon.inst = inst at hmoves
          cases hmoves with
          | called hcause hc hd hresult =>
              cases hcause with
              | done _ hr' =>
                  cases hr.symm.trans hr'
                  obtain ⟨slot, hmoved, hslot⟩ := h.moved_called hinst hc hd hresult hi hrequests hcoherent
                  obtain ⟨s', hs', hfollowed⟩ := h.follow hc hmoved hslot overdrawn
                  exact ⟨s', hs', hfollowed.kept hs htells hacts⟩
          | crashed hcause hc hd =>
              cases hcause with
              | done _ hr' =>
                  cases hr.symm.trans hr'
                  have hconns : daemon.inst.conns = s.daemon.inst.conns := by rw [hi]
                  exact ⟨_, follow_crashed hconns hc overdrawn, kept_crashed hs htells hi hacts⟩
          | done hj' hother =>
              rcases hother with hcanceled | ⟨k, hknock⟩
              · cases hj.symm.trans hj'
                cases hn.symm.trans hcanceled
              · cases hr.symm.trans hknock
      | knock k =>
          rw [onDone_knock hj hs hn hr hstate]
          simp only at hrequests
          obtain ⟨knock, hk⟩ := h.coherent.pending hj hr hn
          obtain ⟨hk', hzero⟩ := h.pending hk
          have hsame : daemon.inst = s.daemon.inst := by
            generalize daemon.inst = inst at hmoves
            cases hmoves with
            | called hcause | crashed hcause =>
                cases hcause with
                | done _ hr' => cases hr.symm.trans hr'
            | done => rfl
          obtain ⟨hclients, hfreed⟩ := Accounts.onKnockAnswer_shared hzero k result
            (overdrawn.headD false) s.accounts
          have hanswer : s.accounts.step setup.accounts (.knockAnswer k result (overdrawn.headD false)) =
              some (s.accounts.onKnockAnswer setup.accounts k knock result (overdrawn.headD false)) := by
            simp only [Accounts.step, hk', Option.map_some]
          have hreach := Accounts.reaches_step hanswer
          have hacts : knockActs setup s (.done call ans overdrawn) = answer setup knock result := by
            simp only [knockActs, hj, hr, hn, hstate, hk]
          rw [answer_of_accounted (h.coherent.accounted k knock hk)] at hacts
          refine ⟨{ s with
              accounts := s.accounts.onKnockAnswer setup.accounts k knock result (overdrawn.headD false)
              daemon := daemon }, ?_, fun _ => ?_, fun _ => hreach, run_single hs htells,
            ⟨fun e he => ?_, hacts ▸ Accounts.booked_onKnockAnswer hzero ..⟩, fun _ => rfl⟩
          · exact tellAccounts_eq hanswer
          · exact h.beside hreach hclients hsame (by rw [hfreed, hrequests, h.requests]) hcoherent
          · rcases Accounts.knocks_onKnockAnswer he with he | ⟨rfl, ha⟩
            · exact .inl he
            · exact .inr ⟨knock, .done hj hr hn hstate hk, ha⟩

end Server

end UoLogin

import UoLogin.Server.Shutdown

set_option autoImplicit false

/-!
# Runs of the whole daemon

* `Enabled`: what can happen to a daemon, as each part sees it; **`step_isSome_iff`**: what is enabled for
  its part goes through in the whole daemon;
* `agrees_step`, **`agrees_run`**: the parts agree in every state of a running daemon;
* **`shutdown_releases`**: after the shutdown nothing of any client is left, whatever comes then.
-/

namespace UoLogin

open Connection

namespace Server

variable {setup : ServerSetup} {s s' : Server} {d : Database} {inputs : List Input}

/-- The part that an input is for is ready for it. -/
def Enabled (setup : ServerSetup) (s : Server) : Input → Prop
  | .tick _ => True
  | .accept _ _ | .shutdown => s.stopping = false
  | .timer i => (s.accounts.step setup.accounts (.timer i)).isSome = true
  | .socketReady i overdrawn => (s.accounts.step setup.accounts (.socketReady i overdrawn)).isSome = true
  | .cleanup => (s.accounts.step setup.accounts .cleanup).isSome = true
  | .datagram listener _ _ _ _ => s.stopping = false ∧ listener < setup.knockListeners.length
  | .arrive id side bytes => (s.daemon.step setup.daemon (.arrive id side bytes)).isSome = true
  | .discard k => (s.daemon.step setup.daemon (.discard k)).isSome = true
  | .event id e ans reload _ => (s.daemon.step setup.daemon (.event id e ans reload)).isSome = true
  | .start call => (s.daemon.step setup.daemon (.start call)).isSome = true
  | .run call getFails => (s.daemon.step setup.daemon (.run call getFails)).isSome = true
  | .done call ans _ => (s.daemon.step setup.daemon (.done call ans)).isSome = true

theorem running_of_step {input : Input} (hs : step setup s input = some s') : s.running = true := by
  unfold step at hs
  by_contra hn
  rw [if_pos ((Bool.not_eq_true _).mp hn)] at hs
  cases hs

theorem isSome_of_tellDaemon {input : Daemon.Input} (h : (s.tellDaemon setup input).isSome = true) :
    (s.daemon.step setup.daemon input).isSome = true := by
  simpa [tellDaemon] using h

theorem isSome_of_tellAccounts {input : Accounts.Input}
    (h : (s.tellAccounts setup input).isSome = true) :
    (s.accounts.step setup.accounts input).isSome = true := by
  simpa [tellAccounts] using h

theorem enabled_of_step {input : Input} (hs : (step setup s input).isSome = true) :
    Enabled setup s input := by
  unfold Server.step at hs
  split at hs
  · cases hs
  cases input with
  | tick => trivial
  | accept | shutdown =>
      simp only at hs
      split at hs
      · cases hs
      · exact (Bool.not_eq_true _).mp ‹_›
  | datagram listener =>
      simp only at hs
      split at hs
      · cases hs
      · refine ⟨(Bool.not_eq_true _).mp ‹_›, ?_⟩
        by_contra hn
        rw [Server.onDatagram, List.getElem?_eq_none (not_lt.mp hn)] at hs
        cases hs
  | timer i =>
      refine isSome_of_tellAccounts (s := s) ?_
      cases ht : s.tellAccounts setup (.timer i) with
      | none => simp [Server.onTimer, ht] at hs
      | some => rfl
  | socketReady i overdrawn =>
      refine isSome_of_tellAccounts (s := s) ?_
      cases ht : s.tellAccounts setup (.socketReady i overdrawn) with
      | none => simp [Server.onSocketReady, ht] at hs
      | some => rfl
  | cleanup => exact isSome_of_tellAccounts hs
  | arrive | discard | start | run => exact isSome_of_tellDaemon hs
  | event id e ans reload overdrawn =>
      refine isSome_of_tellDaemon (s := s) ?_
      cases ht : s.tellDaemon setup (.event id e ans reload) with
      | none => simp [Server.onEvent, ht] at hs
      | some => rfl
  | done call ans overdrawn =>
      refine isSome_of_tellDaemon (s := s) ?_
      cases ht : s.tellDaemon setup (.done call ans) with
      | none =>
          obtain ⟨s', hs⟩ := Option.isSome_iff_exists.mp hs
          obtain ⟨job, -, hs⟩ := Option.bind_eq_some_iff.mp hs
          rw [ht] at hs
          cases hs
      | some => rfl

theorem daemon_tellAccounts {input : Accounts.Input} (hs : s.tellAccounts setup input = some s') :
    s'.daemon = s.daemon := by
  obtain ⟨accounts, -, rfl⟩ := Option.map_eq_some_iff.mp hs
  rfl

theorem daemon_tellDaemon {input : Daemon.Input} (hs : s.tellDaemon setup input = some s') :
    s.daemon.step setup.daemon input = some s'.daemon := by
  obtain ⟨daemon, hd, rfl⟩ := Option.map_eq_some_iff.mp hs
  exact hd

theorem daemon_datagram {listener : ℕ} {peer : SocketAddress} {payload : List UInt8}
    {reload : ReloadAnswers} {overdrawn : Bool}
    (hs : step setup s (.datagram listener peer payload reload overdrawn) = some s') :
    ∃ nftSet, setup.knockListeners[listener]? = some nftSet ∧
      s.daemon.step setup.daemon (.datagram nftSet peer payload reload) = some s'.daemon := by
  unfold step at hs
  split at hs
  · cases hs
  · simp only at hs
    split at hs
    · cases hs
    · obtain ⟨nftSet, hl, hs⟩ := Option.bind_eq_some_iff.mp hs
      obtain ⟨t, ht, hs⟩ := Option.bind_eq_some_iff.mp hs
      obtain ⟨t', ht', hs⟩ := Option.bind_eq_some_iff.mp hs
      have hdaemon := daemon_tellDaemon ht'
      rw [daemon_tellAccounts ht] at hdaemon
      refine ⟨nftSet, hl, hdaemon.trans (congrArg some ?_)⟩
      split at hs
      · exact (daemon_tellAccounts hs).symm
      · cases hs
        rfl

theorem daemon_charges {id : ℕ} {sizes : List ℕ} {overdrawn : List Bool}
    (hs : s.charges setup id sizes overdrawn = some s') : s'.daemon = s.daemon := by
  induction sizes generalizing s overdrawn with
  | nil =>
      cases hs
      rfl
  | cons size sizes ih =>
      obtain ⟨t, ht, hs⟩ := Option.bind_eq_some_iff.mp hs
      exact (ih hs).trans (daemon_tellAccounts ht)

theorem daemon_follow {old : Daemon} {id : ℕ} {overdrawn : List Bool}
    (hs : Server.follow setup old id overdrawn s = some s') : s'.daemon = s.daemon := by
  obtain ⟨t, ht, hs⟩ := Option.bind_eq_some_iff.mp hs
  have hcharges := daemon_charges ht
  refine Eq.trans ?_ (hcharges.trans rfl)
  split at hs
  · obtain ⟨t', ht', rfl⟩ := Option.map_eq_some_iff.mp hs
    have hdestroy := daemon_tellAccounts ht'
    exact hdestroy
  · cases hs
    rfl

theorem daemon_done {call : ℕ} {ans : Answers} {overdrawn : List Bool}
    (hs : step setup s (.done call ans overdrawn) = some s') :
    s.daemon.step setup.daemon (.done call ans) = some s'.daemon := by
  unfold step at hs
  split at hs
  · cases hs
  · obtain ⟨job, -, hs⟩ := Option.bind_eq_some_iff.mp hs
    obtain ⟨t, ht, hs⟩ := Option.bind_eq_some_iff.mp hs
    refine (daemon_tellDaemon ht).trans (congrArg some ?_)
    split at hs
    · cases hs
      rfl
    · split at hs
      · exact (daemon_follow hs).symm
      · exact (daemon_tellAccounts hs).symm
      · cases hs
        rfl

/-- A worker's step leaves the connections and the requests alone. -/
theorem eq_of_stepChecker {d d' : Daemon} {input : Checker.Input}
    (hs : d.stepChecker setup.daemon input = some d') : d'.inst = d.inst ∧ d'.requests = d.requests := by
  obtain ⟨checker, -, rfl⟩ := Option.map_eq_some_iff.mp hs
  exact ⟨rfl, rfl⟩

/-- **What its part is ready for goes through**, and leaves the parts in agreement. -/
theorem Agrees.step (h : Agrees setup s) (hrunning : s.running = true) {input : Input}
    (he : Enabled setup s input) :
    ∃ s', Server.step setup s input = some s' ∧ Kept setup s input s' := by
  have hgo : ¬ s.running = false := by simp [hrunning]
  obtain ⟨hinst, hchecker⟩ := running_iff.mp hrunning
  unfold Server.step
  rw [if_neg hgo]
  cases input with
  | tick duration =>
      have hs : s.accounts.step setup.accounts (.tick duration) = some _ := rfl
      exact h.tell (.tick duration) hs ⟨rfl, rfl⟩ ⟨rfl, .of_metrics rfl⟩ rfl
  | accept peer overdrawn =>
      simp only [show s.stopping = false from he, Bool.false_eq_true, if_false]
      exact h.onAccept hrunning peer overdrawn
  | timer i =>
      obtain ⟨accounts, hs⟩ := Option.isSome_iff_exists.mp he
      exact h.onTimer hrunning hs
  | socketReady i overdrawn =>
      obtain ⟨accounts, hs⟩ := Option.isSome_iff_exists.mp he
      exact h.onSocketReady hs
  | arrive id side bytes =>
      obtain ⟨daemon, hs⟩ := Option.isSome_iff_exists.mp he
      exact h.arrive hs
  | discard k =>
      obtain ⟨daemon, hs⟩ := Option.isSome_iff_exists.mp he
      exact h.discard hs
  | event id e ans reload overdrawn =>
      obtain ⟨daemon, hs⟩ := Option.isSome_iff_exists.mp he
      exact h.onEvent overdrawn hs
  | datagram listener peer payload reload overdrawn =>
      simp only [show s.stopping = false from he.1, Bool.false_eq_true, if_false]
      exact h.onDatagram hrunning (List.getElem?_eq_getElem he.2) peer payload reload overdrawn
  | start call =>
      obtain ⟨daemon, hs⟩ := Option.isSome_iff_exists.mp he
      have hwork := hs
      simp only [Daemon.step, hinst, hchecker] at hwork
      obtain ⟨hinst', hrequests⟩ := eq_of_stepChecker hwork
      exact h.work hs trivial hinst' hrequests rfl
  | run call getFails =>
      obtain ⟨daemon, hs⟩ := Option.isSome_iff_exists.mp he
      have hwork := hs
      simp only [Daemon.step, hinst, hchecker] at hwork
      obtain ⟨hinst', hrequests⟩ := eq_of_stepChecker hwork
      exact h.work hs trivial hinst' hrequests rfl
  | done call ans overdrawn =>
      obtain ⟨daemon, hs⟩ := Option.isSome_iff_exists.mp he
      exact h.onDone overdrawn hs
  | cleanup =>
      obtain ⟨accounts, hs⟩ := Option.isSome_iff_exists.mp he
      cases Accounts.step_cases hs with
      | cleanup => exact h.tell .cleanup hs ⟨rfl, rfl⟩ (Accounts.quiet_onCleanupTimer _) rfl
  | shutdown =>
      simp only [show s.stopping = false from he, Bool.false_eq_true, if_false]
      obtain ⟨s', hs', hkept, -⟩ := h.onShutdown hrunning
      exact ⟨s', hs', hkept⟩

theorem kept_step {input : Input} (h : s.running = true → Agrees setup s)
    (hs : step setup s input = some s') : Kept setup s input s' := by
  have hrunning := running_of_step hs
  obtain ⟨t, ht, hkept⟩ := (h hrunning).step hrunning (enabled_of_step (Option.isSome_iff_exists.mpr ⟨s', hs⟩))
  cases hs.symm.trans ht
  exact hkept

/-- **The parts agree in every state of a running daemon.** -/
theorem agrees_run (h : Run setup d inputs s) (hrunning : s.running = true) : Agrees setup s :=
  Machine.invariant (I := fun s => s.running = true → Agrees setup s)
    (fun _ _ _ hI hs => (kept_step hI hs).agrees) (fun _ => agrees_new d) h hrunning

/-- A client knocks, connects and logs in, and is connected to the game server. -/
def sampleServer : ServerSetup where
  daemon := Daemon.sampleDaemon
  knockListeners := [none]

def sampleVisit : List Input :=
  [.datagram 0 (.inet 0x0a000001 40000) sampleAccountLogin (Checker.sampleLoads 1) false, .start 0,
    .run 0 false, .done 0 {} [], .accept (.inet 0x0a000001 40001) false,
    .arrive 0 .client Instance.samplePackets,
    .event 0 (.incomingReady { read := true }) { read := .upTo 82 } (Checker.sampleLoads 1) [], .start 1,
    .run 1 false, .done 1 {} []]

/-- The address that a live connection is charged for. -/
def chargedFor (s : Server) (id : ℕ) : Option UInt64 :=
  match s.daemon.inst.conns id with
  | .live c => c.perClient
  | _ => none

/-- **Every part has the same picture.** -/
structure Consistent (setup : ServerSetup) (s : Server) : Prop where
  /-- a live connection has a client with its number and its peer -/
  client : ∀ id c, s.daemon.inst.conns id = .live c → ∃ k, s.accounts.clients.get id = some k ∧
    k.kind = .connection ∧ (c.remoteHost, c.perClient) = clientPeer setup k
  connection : ∀ id k, s.accounts.clients.get id = some k → k.kind = .connection →
    ∃ c, s.daemon.inst.conns id = .live c
  /-- the lists of the listener -/
  linked : s.connections.Nodup ∧ ∀ id, id ∈ s.connections ↔ ∃ c, s.daemon.inst.conns id = .live c
  delayed : s.delayedConnections.Nodup ∧ ∀ id, id ∈ s.delayedConnections ↔
    ∃ k timer, s.accounts.clients.get id = some k ∧ k.kind = .delayed timer
  /-- a connection is in the list of the record of the address that it is charged for -/
  recorded : ∀ id a, s.chargedFor id = some a → a ≠ 0 ∧
    ∃ p r, s.accounts.record p = some r ∧ r.address = a.toBitVec ∧ id ∈ r.connections
  at_most : ∀ a, (s.connections.filter fun id => s.chargedFor id == some a).length ≤ 16
  /-- a knock is pending in the accounting as long as its request is -/
  requests : s.accounts.requests = s.daemon.requests
  gauge : s.metered.metric .clientConnections = s.connections.length

theorem Agrees.charged (h : Agrees setup s) {id : ℕ} {a : UInt64} (ha : s.chargedFor id = some a) :
    ∃ k p, s.accounts.clients.get id = some k ∧ k.perClient = some p ∧
      k.peerAddress.toInteger setup.accounts.address = a.toBitVec := by
  unfold chargedFor at ha
  split at ha
  · rename_i c hc
    obtain ⟨k, hk, -, hpeer⟩ := h.client hc
    have hper : k.perClient.map (fun _ =>
        UInt64.ofBitVec (k.peerAddress.toInteger setup.daemon.address)) = some a :=
      (congrArg Prod.snd hpeer).symm.trans ha
    obtain ⟨p, hp, rfl⟩ := Option.map_eq_some_iff.mp hper
    exact ⟨k, p, hk, hp, rfl⟩
  · cases ha

theorem Agrees.consistent (h : Agrees setup s) : Consistent setup s where
  client := fun id c hc => h.client hc
  connection := fun id k hk hkind => by
    obtain ⟨c, hc, -⟩ := h.connection hk hkind
    exact ⟨c, hc⟩
  linked := ⟨h.counted.nodup, h.counted.linked⟩
  delayed := ⟨h.waiting.nodup, h.waiting.mem_iff⟩
  recorded := fun id a ha => by
    obtain ⟨k, p, hk, hp, hnumber⟩ := h.charged ha
    have hregistered := h.books.linked.registered id k hk
    rw [hp, hnumber] at hregistered
    obtain ⟨r, hr, haddress⟩ := Option.map_eq_some_iff.mp hregistered
    refine ⟨?_, p, r, hr, haddress, (h.books.linked.backlinks.links p r hr id).mpr ⟨k, hk, hp⟩⟩
    rintro rfl
    exact h.books.linked.nonzero p hregistered
  at_most := fun a => by
    by_cases hzero : a.toBitVec = 0
    · refine le_of_eq_of_le (congrArg List.length (List.filter_eq_nil_iff.mpr fun id _ ha => ?_))
        (Nat.zero_le 16)
      obtain ⟨k, p, hk, hp, hnumber⟩ := h.charged (beq_iff_eq.mp ha)
      have hregistered := h.books.linked.registered id k hk
      rw [hp, hnumber, hzero] at hregistered
      exact h.books.linked.nonzero p hregistered
    · refine le_trans ?_ (h.books.linked.count_le h.books.bounded hzero)
      refine (List.Nodup.subperm (h.counted.nodup.filter _) fun id hid => ?_).length_le
      obtain ⟨k, p, hk, -, hnumber⟩ := h.charged (beq_iff_eq.mp (List.mem_filter.mp hid).2)
      exact Heap.mem_select.mpr ⟨k, hk, beq_iff_eq.mpr hnumber⟩
  requests := h.requests
  gauge := h.counted.clientConnections

/-- **The parts have the same picture in every state of a running daemon.** -/
theorem consistent_run (h : Run setup d inputs s) (hrunning : s.running = true) : Consistent setup s :=
  (agrees_run h hrunning).consistent

theorem consistent_of_sample : ∃ s number, Run sampleServer Checker.sampleDatabase sampleVisit s ∧
    s.chargedFor 0 = some number ∧ Consistent sampleServer s := by
  obtain ⟨s, number, h, hrunning, hcharged⟩ : ∃ s number,
      Run sampleServer Checker.sampleDatabase sampleVisit s ∧ s.running = true ∧
        s.chargedFor 0 = some number := ⟨_, _, rfl, rfl, rfl⟩
  exact ⟨s, number, h, hcharged, consistent_run h hrunning⟩

/-! ## After the shutdown -/

/-- Nothing of any client is left. -/
structure Released (s : Server) : Prop where
  clients : ∀ i, s.accounts.clients.get i = none
  connections : ∀ id c, s.daemon.inst.conns id ≠ .live c
  /-- every socket that was accepted is closed, once -/
  sockets : ∀ fd < s.accounts.accepted, s.accounts.closed.count fd = 1
  records : ∀ p r, s.accounts.record p = some r → r.connections = []
  cleanupTimer : s.accounts.accounting.cleanupTimer = none
  gauges : s.metered.metric .clientConnections = 0 ∧ s.metered.metric .serverConnections = 0
  /-- no byte of anybody is in a pipe that waits in the stock -/
  pipes : ∀ p ∈ s.daemon.inst.stock.idle, s.daemon.inst.stock.content p = []
  /-- a job that is still there has nobody to call back, or it is that of a knock -/
  jobs : ∀ call job id, s.daemon.checker.jobs call = some job →
    s.daemon.callbacks call = some (.connection id) → job.canceled = true

theorem Stopped.released (h : Stopped s) (hagrees : Agrees setup s) (hrunning : s.running = true) :
    Released s where
  clients := h.no_client hagrees
  connections := fun _ _ => h.not_live hagrees
  sockets := fun fd hfd => by
    have howned := hagrees.books.owned
    refine List.count_eq_one_of_mem howned.closed_nodup ?_
    refine (howned.somewhere fd hfd).resolve_right ?_
    rintro ⟨i, c, hc, -⟩
    cases (h.no_client hagrees i).symm.trans hc
  records := fun p r hr => by
    refine List.eq_nil_iff_forall_not_mem.mpr fun i hi => ?_
    obtain ⟨c, hc, -⟩ := (hagrees.books.linked.backlinks.links p r hr i).mp hi
    cases (h.no_client hagrees i).symm.trans hc
  cleanupTimer := h.cleanupTimer
  gauges := by
    have hnil : s.metered.connections = [] := h.connections
    refine ⟨?_, ?_⟩
    · rw [hagrees.counted.clientConnections, hnil]
      rfl
    · rw [hagrees.counted.serverConnections, hnil]
      rfl
  pipes := (hagrees.counted.good.pipes (running_iff.mp hrunning).1).pool.idle_empty
  jobs := fun call job id hj hr => by
    by_contra hn
    obtain ⟨c, hc, -⟩ := hagrees.coherent.holder hj hr ((Bool.not_eq_true _).mp hn)
    exact h.not_live hagrees hc

theorem Agrees.shutdown (h : Agrees setup s) (hs : Server.step setup s .shutdown = some s') : Stopped s' := by
  have hrunning := running_of_step hs
  obtain ⟨t, ht, -, hstopped⟩ := h.onShutdown hrunning
  have henabled : Enabled setup s .shutdown := enabled_of_step (Option.isSome_iff_exists.mpr ⟨s', hs⟩)
  have hnot : s.stopping = false := henabled
  simp only [Server.step, hrunning, hnot, Bool.true_eq_false, Bool.false_eq_true, if_false] at hs
  cases ht.symm.trans hs
  exact hstopped

theorem stopped_run (h : Run setup d inputs s) (hrunning : s.running = true) (hstop : s.stopping = true) :
    Stopped s := by
  refine (Machine.invariant (I := fun s => s.running = true →
    Agrees setup s ∧ (s.stopping = true → Stopped s)) (fun s input s' hI hs hrunning => ?_)
    (fun _ => ⟨agrees_new d, fun he => (by cases he)⟩) h hrunning).2 hstop
  obtain ⟨hagrees, hstopped⟩ := hI (running_of_step hs)
  have hkept := kept_step (fun _ => hagrees) hs
  refine ⟨hkept.agrees hrunning, fun hstop => ?_⟩
  by_cases hshutdown : input = .shutdown
  · subst hshutdown
    exact hagrees.shutdown hs
  · exact (hstopped ((hkept.stopping hshutdown).symm.trans hstop)).step hagrees hs

/-- **After the shutdown nothing of any client is left**, whatever the workers still do. -/
theorem shutdown_releases (h : Run setup d inputs s) (hrunning : s.running = true)
    (hstop : s.stopping = true) : Released s :=
  (stopped_run h hrunning hstop).released (agrees_run h hrunning) hrunning

theorem shutdown_releases_of_sample : ∃ s,
    Run sampleServer Checker.sampleDatabase (sampleVisit ++ [Input.shutdown]) s ∧ s.accounts.closed = [0] ∧
      Released s := by
  obtain ⟨s, h, hrunning, hstop, hclosed⟩ : ∃ s,
      Run sampleServer Checker.sampleDatabase (sampleVisit ++ [Input.shutdown]) s ∧ s.running = true ∧
        s.stopping = true ∧ s.accounts.closed = [0] := ⟨_, rfl, rfl, rfl, rfl⟩
  exact ⟨s, h, hclosed, shutdown_releases h hrunning hstop⟩

end Server

end UoLogin

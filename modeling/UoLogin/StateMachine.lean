import UoLogin.Session

set_option autoImplicit false

/-!
# The state machine of a connection

* **`state_machine`**: in every run, what a live connection holds follows from its state, and the
  states it has gone through are the beginning of the way `forward`. The assertions on the state and
  on the fill level never fail.
* **`connect_pending_iff`**: the client's socket is quiet while the connect is pending, and the
  assertion on that in `OnIncomingReady` cannot fail, exactly with a server list. Without one, the
  positive verdict schedules `READ` before the connect; `pipelined_data_aborts` is a client that sends
  one more byte in that window.
-/

namespace UoLogin

/-- The state that an act assigns. -/
def Act.assigned : Act → Option State
  | .state s => some s
  | _ => none

/-- The way through the states after `INITIAL`. -/
def forward (listed : Bool) : List State :=
  if listed then [.checkCredentials, .serverList, .connecting, .sendPlayServer, .ready]
  else [.checkCredentials, .connecting, .ready]

/-- The part of the way that leads to a state. -/
def wayTo (listed : Bool) : State → List State
  | .initial => []
  | .checkCredentials => [.checkCredentials]
  | .serverList => [.checkCredentials, .serverList]
  | .connecting => if listed then [.checkCredentials, .serverList, .connecting]
      else [.checkCredentials, .connecting]
  | .sendPlayServer => [.checkCredentials, .serverList, .connecting, .sendPlayServer]
  | .ready => forward listed

theorem Session.states {setup : Setup} {host packets : List UInt8} {s : State}
    {sent : Side → List UInt8} {t : List Act}
    (h : Session setup host packets s sent t) :
    t.filterMap Act.assigned = wayTo setup.config.listed s := by
  induction h with
  | initial => rfl
  | check hw => rfl
  | serverList hl h ih =>
      rw [List.filterMap_append, ih]
      rfl
  | direct hl h ih =>
      rw [List.filterMap_append, ih, Config.listed_eq_false hl]
      rfl
  | chosen hs h ih =>
      rw [List.filterMap_append, ih, Config.listed_eq_true (List.ne_nil_of_mem hs)]
      rfl
  | sendPlayServer hl h ih =>
      rw [List.filterMap_append, ih, Config.listed_eq_true hl]
      rfl
  | ready hl h ih =>
      rw [List.filterMap_append, ih, Config.listed_eq_false hl]
      rfl
  | played h ih =>
      rw [List.filterMap_append, ih]
      cases h with
      | sendPlayServer hl h =>
          rw [Config.listed_eq_true hl]
          rfl
  | sends hz hd ho h ih | receives hr h ih =>
      rw [List.filterMap_append, ih]
      exact List.append_nil _

/-- What a live connection holds, by its state. -/
structure StateOk (setup : Setup) (c : Connection) : Prop where
  fill : c.initialPacketsFill < 83 ↔ c.state = .initial
  full : c.state ≠ .initial → c.initialPacketsFill = 83
  timeout : c.timeout.isSome ↔ c.state = .initial ∨ c.state = .serverList
  cancelPtr : c.cancelPtr = true → c.state = .checkCredentials
  connect : c.connect.isSome ↔ c.state = .connecting
  outgoing : c.outgoing.defined = true ↔ c.state = .sendPlayServer ∨ c.state = .ready
  listed : c.state = .serverList ∨ c.state = .sendPlayServer → setup.config.serverList ≠ []
  sendPlayServer : c.sendPlayServer = true ↔ setup.config.serverList ≠ [] ∧
    (c.state = .connecting ∨ c.state = .sendPlayServer ∨ c.state = .ready)
  /-- the states so far are the beginning of the way -/
  forward : c.log.filterMap Act.assigned <+: forward setup.config.listed
  /-- and the state is the last of them -/
  last : c.state = (c.log.filterMap Act.assigned).getLastD .initial

theorem wayTo_grows {listed : Bool} {s : State}
    (h : s = .serverList ∨ s = .sendPlayServer → listed = true) :
    wayTo listed s <+: forward listed ∧ s = (wayTo listed s).getLastD .initial := by
  cases s with
  | initial => exact ⟨List.nil_prefix, rfl⟩
  | checkCredentials => cases listed <;> exact ⟨⟨_, rfl⟩, rfl⟩
  | serverList =>
      rw [h (.inl rfl)]
      exact ⟨⟨_, rfl⟩, rfl⟩
  | connecting => cases listed <;> exact ⟨⟨_, rfl⟩, rfl⟩
  | sendPlayServer =>
      rw [h (.inr rfl)]
      exact ⟨⟨_, rfl⟩, rfl⟩
  | ready => cases listed <;> exact ⟨List.prefix_rfl, rfl⟩

namespace Connection

variable {setup : Setup} {c : Connection}

theorem assigned_trace (c : Connection) :
    c.trace.filterMap Act.assigned = c.log.filterMap Act.assigned := by
  unfold trace
  rw [List.filterMap_filter]
  refine List.filterMap_congr fun a _ => ?_
  cases a <;> rfl

theorem Inv.stateOk (hi : Inv setup c) (ht : Traced setup c) : StateOk setup c := by
  have hstates := ht.session.states
  rw [assigned_trace] at hstates
  obtain ⟨hforward, hlast⟩ := wayTo_grows fun h => Config.listed_eq_true (hi.mode h)
  rw [← hstates] at hforward hlast
  have hres := hi.resources
  refine ⟨⟨fun h => ?_, hi.fill⟩, hi.full, ?_, ?_, hi.connect_iff, hi.outgoing_iff, hi.mode, ?_,
    hforward, hlast⟩
  · refine Classical.byContradiction fun hs => ?_
    rw [hi.full hs] at h
    exact absurd h (by decide)
  · rw [show c.timeout.isSome = _ from congrArg Resources.timer hres]
    cases c.state <;> simp [resourcesIn]
  · rw [show c.cancelPtr = _ from congrArg Resources.cancel hres]
    cases c.state <;> simp [resourcesIn]
  · have hlisted : setup.config.serverList ≠ [] ↔ setup.config.listed = true :=
      ⟨Config.listed_eq_true, fun h he => Bool.false_ne_true ((Config.listed_eq_false he).symm.trans h)⟩
    rw [show c.sendPlayServer = _ from congrArg Resources.play hres, hlisted]
    cases c.state <;> simp [resourcesIn]

end Connection

namespace Instance

open Connection

variable {setup : Setup} {inst : Instance} {inputs : List Input}

/-- **The state machine.** In every run, every live connection holds what its state says and has come
to it on the way `forward`; and no assertion on the state or on the fill level has failed: the process
runs, or was ended by an exception of `ReceiveFrom` or by the assertion on the pending connect. -/
theorem state_machine (h : Run setup inputs inst) :
    (∀ id c, inst.conns id = .live c → StateOk setup c) ∧
      ∀ a, inst.crashed = some (.abort a) → a = .incomingConnectPending := by
  refine ⟨fun id c hc => ((good_run h).live hc).stateOk ((sessions_run h).live hc), fun a ha => ?_⟩
  rcases (good_run h).fatal ha with he | ⟨he, -⟩
  · cases he
  · cases he
    rfl

theorem state_machine_of_sample :
    ∃ inst c, Run (sampleSetup []) (sampleCheck ++ sampleReady) inst ∧ inst.conns 0 = .live c ∧
      c.state = .ready ∧ StateOk (sampleSetup []) c := by
  obtain ⟨inst, c, h, hc, hs⟩ : ∃ inst c, Run (sampleSetup []) (sampleCheck ++ sampleReady) inst ∧
      inst.conns 0 = .live c ∧ c.state = .ready := ⟨_, _, rfl, rfl, rfl⟩
  exact ⟨inst, c, h, hc, hs, (state_machine h).1 0 c hc⟩

/-! ## The pending connect -/

/-- While the connect of a connection is pending, its client's socket is only called back when it is
dead, and the assertion on that has not failed. -/
def QuietWhilePending (inst : Instance) : Prop :=
  (∀ id c, inst.conns id = .live c → c.connect.isSome = true →
    c.incoming.read = false ∧ c.incoming.write = false ∧
      ∀ events, c.incoming.dispatches events = true → events.dead = true) ∧
    inst.crashed ≠ some (.abort .incomingConnectPending)

theorem quietWhilePending_of_listed (hl : setup.config.serverList ≠ []) (h : Run setup inputs inst) :
    QuietWhilePending inst := by
  refine ⟨fun id c hc hp => ?_, fun he => ?_⟩
  · have hi := (good_run h).live hc
    have hs := hi.connect_iff.mp hp
    have hflags := hi.flags (fun he => nomatch hs.symm.trans he)
    rw [hs, Config.listed_eq_true hl] at hflags
    have hread : c.incoming.read = false := congrArg Flags.clientRead hflags
    have hwrite : c.incoming.write = false := congrArg Flags.clientWrite hflags
    refine ⟨hread, hwrite, fun events hd => (Bool.not_eq_false _).mp fun hdead => ?_⟩
    rcases dispatches_alive hd hdead with he | he
    · exact nomatch hread.symm.trans (dispatches_read hd he)
    · exact nomatch hwrite.symm.trans (dispatches_write hd he)
  · rcases (good_run h).fatal he with he | ⟨-, he⟩
    · cases he
    · exact hl he

/-- A client whose login packets have arrived. -/
def sampleArrived : Connection := (new [] none).arrive .client samplePackets

/-- The answers that a daemon without a user database gets: all packets at once, and no check. -/
def sampleOpen : Answers := { read := .upTo 82, check := .noDatabase }

/-- A client of a daemon without a user database logs in. -/
def sampleOpenLogin : List Input :=
  [.accept 0 [] none, .arrive 0 .client samplePackets] ++
    [.event 0 (.incomingReady { read := true }) sampleOpen]

theorem sampleArrived_dispatch (hl : setup.config.serverList = []) :
    ∃ c, dispatch setup {} sampleArrived sampleOpen (.incomingReady { read := true }) =
      some ({}, .alive c) ∧ c.connect.isSome = true ∧ c.incoming.read = true := by
  obtain ⟨⟨gameServer, serverList, sendRemoteIp⟩, util⟩ := setup
  cases hl
  -- the only thing that the configuration decides is whether `a` is a username
  have hname : isValidUsername util [0x61] = true := by
    unfold isValidUsername
    simp only [List.isEmpty_cons, Bool.not_false, Bool.true_and, List.all_cons, List.all_nil,
      Bool.and_true]
    exact util.ascii_printable _ (by decide) (by decide)
  have huser : username (sampleArrived.filled samplePackets []).login = [0x61] := by decide +kernel
  have hcmd : ¬ (hasCommand ((sampleArrived.filled samplePackets []).initialPackets.bytes.take
      sizeofSeed) .seed = false ∨
        hasCommand (sampleArrived.filled samplePackets []).login .accountLogin = false) := by
    decide +kernel
  have hvalid : ¬ isValidUsername util (username (sampleArrived.filled samplePackets []).login) =
      false := by
    rw [huser, hname]
    decide
  have hcomplete : ∃ c, (sampleArrived.filled samplePackets []).loginComplete
      ⟨⟨gameServer, [], sendRemoteIp⟩, util⟩ sampleOpen = .alive c ∧ c.connect.isSome = true ∧
        c.incoming.read = true := by
    unfold loginComplete
    change ∃ c, (if hasCommand ((sampleArrived.filled samplePackets []).initialPackets.bytes.take
      sizeofSeed) .seed = false ∨ hasCommand (sampleArrived.filled samplePackets []).login
        .accountLogin = false then _ else if isValidUsername util
          (username (sampleArrived.filled samplePackets []).login) = false then _ else _) = _ ∧ _
    rw [if_neg hcmd, if_neg hvalid]
    exact ⟨_, rfl, rfl, rfl⟩
  obtain ⟨c, hc, hpending, hread⟩ := hcomplete
  refine ⟨c, ?_, hpending, hread⟩
  rw [← hc]
  rfl

/-- Without a server list the login leads to a pending connect, with `READ` scheduled. -/
theorem openLogin_pending (hl : setup.config.serverList = []) :
    ∃ inst c, Run setup sampleOpenLogin inst ∧ inst.conns 0 = .live c ∧ c.connect.isSome = true ∧
      c.incoming.read = true := by
  obtain ⟨c, hd, hpending, hread⟩ := sampleArrived_dispatch hl
  obtain ⟨inst, h, hc, hrunning, hstock⟩ : ∃ inst,
      Run setup [.accept 0 [] none, .arrive 0 .client samplePackets] inst ∧
        inst.conns 0 = .live sampleArrived ∧ inst.crashed = none ∧ inst.stock = {} :=
    ⟨_, rfl, rfl, rfl, rfl⟩
  have hc' : (inst.settle 0 {} (.alive c)).conns 0 = .live c := by
    simp only [settle, setConn, Function.update_self]
  refine ⟨inst.settle 0 {} (.alive c), c, ?_, hc', hpending, hread⟩
  unfold Run sampleOpenLogin
  rw [Machine.run_snoc, show Machine.run (step setup) {} _ = some inst from h]
  simp only [Option.bind_some, step, hrunning, hc, hstock, hd, Option.map_some]

/-- **The client's socket is quiet while the connect is pending exactly with a server list.** -/
theorem connect_pending_iff (setup : Setup) :
    (∀ inputs inst, Run setup inputs inst → QuietWhilePending inst) ↔
      setup.config.serverList ≠ [] := by
  refine ⟨fun h hl => ?_, fun hl inputs inst h => quietWhilePending_of_listed hl h⟩
  obtain ⟨inst, c, hrun, hc, hpending, hread⟩ := openLogin_pending hl
  exact nomatch ((h _ _ hrun).1 0 c hc hpending).1.symm.trans hread

/-- A client that sends one more byte before the connect is finished. -/
def samplePipelined : List Input :=
  [.event 0 (.checkDone true) {}, .arrive 0 .client [0x91],
    .event 0 (.incomingReady { read := true }) {}]

/-- The assertion fails, and the process ends. -/
theorem pipelined_data_aborts :
    ∃ inst, Run (sampleSetup []) (sampleCheck ++ samplePipelined) inst ∧
      inst.crashed = some (.abort .incomingConnectPending) ∧ ¬ QuietWhilePending inst := by
  obtain ⟨inst, h, hcrashed⟩ : ∃ inst, Run (sampleSetup []) (sampleCheck ++ samplePipelined) inst ∧
      inst.crashed = some (.abort .incomingConnectPending) := ⟨_, rfl, rfl⟩
  exact ⟨inst, h, hcrashed, fun hq => hq.2 hcrashed⟩

end Instance

end UoLogin

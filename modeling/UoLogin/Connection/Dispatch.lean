import UoLogin.Connection.Resources

set_option autoImplicit false

/-!
# One callback

`Called` lists everything that a callback can do to a connection in its invariant, with the relation
of the handler that it reaches.

* **`dispatch_called`**: there is nothing else. In particular no assertion of `Connection.cxx` fails,
  other than the one on a pending connect in `OnIncomingReady`, and that one only without a server
  list;
* **`dispatch_inv`**: the callback leaves the invariant.
-/

namespace UoLogin

namespace Connection

variable {setup : Setup} {c c' : Connection} {r : Result} {stock stock' : PipeStock UInt8}
  {ans : Answers}

/-- The callback of a peer's socket. -/
def Event.ready : Side → Events → Event
  | .client => .incomingReady
  | .server => .outgoingReady

/-- The callbacks that end a connection at sight, with the books they leave. -/
inductive Dies (c : Connection) : Event → List Act → Prop
  | initialHangup {events : Events} (hd : events.dead = true) (hs : c.state = .initial) :
      Dies c (.incomingReady events) (c.charge 4)
  | hangup {events : Events} (hd : events.dead = true) (hs : c.state ≠ .initial) :
      Dies c (.incomingReady events) []
  | serverHangup {events : Events} (hd : events.dead = true)
      (hs : c.state = .sendPlayServer ∨ c.state = .ready) :
      Dies c (.outgoingReady events) (c.charge 5)
  | timeout : Dies c .timeout (c.charge 7)
  | connectError (hs : c.state = .connecting) :
      Dies c .connectError [.metric .serverConnectionsFailed 1]

inductive Called (setup : Setup) (stock : PipeStock UInt8) (c : Connection) (ans : Answers) :
    Event → PipeStock UInt8 → Result → Prop
  | dies {e : Event} {timeout connect : Option ℕ} {quiet : List Act} (hq : Quiet quiet)
      (he : Dies c e quiet) :
      Called setup stock c ans e stock
        (.destroyed (((c.setTimeout timeout).setConnect connect).emits quiet))
  | connectPending {events : Events} (hs : c.state = .connecting) (hl : setup.config.serverList = []) :
      Called setup stock c ans (.incomingReady events) stock
        (.crashed (.abort .incomingConnectPending) c)
  | logsIn {events : Events} (hs : c.state = .initial) {r : Result} (h : LogsIn setup c r) :
      Called setup stock c ans (.incomingReady events) stock r
  | plays {events : Events} (hs : c.state = .serverList) {r : Result} (h : Plays setup c r) :
      Called setup stock c ans (.incomingReady events) stock r
  | lists {events : Events} (hs : c.state = .sendPlayServer) {r : Result} (h : Lists c r) :
      Called setup stock c ans (.outgoingReady events) stock r
  | relays {side : Side} {events : Events} (hs : c.state = .ready)
      (hd : (c.event side).dispatches events = true) (hdead : events.dead = false)
      {stock' : PipeStock UInt8} {r : Result} (he : relayReady stock c side events ans = (stock', r))
      (h : Relays c side events ans r) : Called setup stock c ans (Event.ready side events) stock' r
  | establishes (hs : c.state = .connecting) {r : Result}
      (h : Establishes setup (c.setConnect none) r) :
      Called setup stock c ans .connectSuccess stock r
  | judges (hs : c.state = .checkCredentials) {job : List UInt8 × List UInt8} {result : Bool}
      (hj : c.job = some job) {r : Result} (h : Judges setup job.1 (c.setJob none) result r) :
      Called setup stock c ans (.checkDone result) stock r

/-! ## Which callbacks can come -/

section Dispatches

variable {s : SocketEvent} {events : Events}

theorem dispatches_defined (h : s.dispatches events = true) : s.defined = true := by
  unfold SocketEvent.dispatches at h
  simp only [Bool.and_eq_true] at h
  exact h.1.1.1.1

theorem dispatches_read (h : s.dispatches events = true) (he : events.read = true) :
    s.read = true := by
  unfold SocketEvent.dispatches at h
  simp only [Bool.and_eq_true, he, Bool.not_true, Bool.false_or] at h
  exact h.1.1.1.2

theorem dispatches_write (h : s.dispatches events = true) (he : events.write = true) :
    s.write = true := by
  unfold SocketEvent.dispatches at h
  simp only [Bool.and_eq_true, he, Bool.not_true, Bool.false_or] at h
  exact h.1.1.2

/-- A callback that is not about a dead socket has a scheduled flag. -/
theorem dispatches_alive (h : s.dispatches events = true) (hd : events.dead = false) :
    events.read = true ∨ events.write = true := by
  unfold SocketEvent.dispatches at h
  simp only [Bool.and_eq_true, hd, Bool.or_false, Bool.or_eq_true] at h
  exact h.2

end Dispatches

/-- Before `READY` the client's socket is only ever ready for reading. -/
theorem Inv.incoming_read {events : Events} (hi : Inv setup c) (hr : c.state ≠ .ready)
    (h : c.incoming.dispatches events = true) (hd : events.dead = false) :
    events.read = true ∧ (flagsIn setup.config.listed c.state).clientRead = true := by
  have hf := hi.flags hr
  have hw : c.incoming.write = (flagsIn setup.config.listed c.state).clientWrite :=
    congrArg Flags.clientWrite hf
  have hw' : (flagsIn setup.config.listed c.state).clientWrite = false := by cases c.state <;> rfl
  have hread : events.read = true := by
    rcases dispatches_alive h hd with he | he
    · exact he
    · exact nomatch (dispatches_write h he).symm.trans (hw.trans hw')
  exact ⟨hread, (congrArg Flags.clientRead hf).symm.trans (dispatches_read h hread)⟩

theorem Inv.connect_iff (hi : Inv setup c) : c.connect.isSome = true ↔ c.state = .connecting := by
  have hc : c.connect.isSome = (resourcesIn setup.config.listed c.state).connect :=
    congrArg Resources.connect hi.resources
  rw [hc]
  cases c.state <;> simp [resourcesIn]

theorem Inv.job_iff (hi : Inv setup c) : c.job.isSome = true ↔ c.state = .checkCredentials := by
  have hc : c.job.isSome = (resourcesIn setup.config.listed c.state).job :=
    congrArg Resources.job hi.resources
  rw [hc]
  cases c.state <;> simp [resourcesIn]

theorem Inv.outgoing_iff (hi : Inv setup c) :
    c.outgoing.defined = true ↔ c.state = .sendPlayServer ∨ c.state = .ready := by
  have hc : c.outgoing.defined = (resourcesIn setup.config.listed c.state).outgoing :=
    congrArg Resources.outgoing hi.resources
  rw [hc]
  cases c.state <;> simp [resourcesIn]

/-- The relay of a socket that is ready finds the buffers as it needs them. -/
theorem Inv.relayReady (hi : Inv setup c) (hs : c.state = .ready) {side : Side} {events : Events}
    (h : (c.event side).dispatches events = true) (stock : PipeStock UInt8) (ans : Answers) :
    Relays c side events ans (Connection.relayReady stock c side events ans).2 := by
  refine relayReady_relays stock (fun he => ?_) fun he => ?_
  · have hok := hi.relay hs side.into
    have hw : (c.lane side.into).write = true := by
      change (c.event side.into.sink).write = true
      rw [side.sink_into]
      exact dispatches_write h he
    exact ⟨hok.pipe (hok.write.mp hw), hok.write.mp hw⟩
  · have hok := hi.relay hs side.outOf
    refine hok.read ?_
    change (c.event side.outOf.source).read = true
    rw [side.source_outOf]
    exact dispatches_read h he

/-! ## The callbacks -/

theorem updateTokenBucket_dies {size : ℕ} {e : Event} (h : Dies c e (c.charge size))
    (timeout connect : Option ℕ) :
    Called setup stock c ans e stock
      (.destroyed (((c.setTimeout timeout).setConnect connect).updateTokenBucket size)) := by
  rw [updateTokenBucket_eq]
  exact .dies (quiet_charge c size) h

theorem self_dies {e : Event} (h : Dies c e []) : Called setup stock c ans e stock (.destroyed c) := by
  have h' : Called setup stock c ans e stock
      (.destroyed (((c.setTimeout c.timeout).setConnect c.connect).emits [])) := .dies quiet_nil h
  rwa [emits_nil] at h'

theorem Inv.onIncomingReady_called {events : Events} (hi : Inv setup c)
    (stock : PipeStock UInt8) (ans : Answers)
    (hd : c.incoming.dispatches events = true) :
    Called setup stock c ans (.incomingReady events) (c.onIncomingReady setup stock events ans).1
      (c.onIncomingReady setup stock events ans).2 := by
  unfold onIncomingReady
  split
  · rename_i hdead
    split
    · rename_i hs
      exact updateTokenBucket_dies (.initialHangup hdead hs) c.timeout c.connect
    · rename_i hs
      exact self_dies (.hangup hdead hs)
  rename_i hdead
  have hread := fun hr => hi.incoming_read hr hd ((Bool.not_eq_true _).mp hdead)
  split
  · rename_i hc
    have hs := hi.connect_iff.mp hc
    -- the flag can only be scheduled without a server list
    have hflag := (hread (fun he => nomatch hs.symm.trans he)).2
    rw [hs] at hflag
    refine .connectPending hs (Classical.byContradiction fun hl => ?_)
    rw [Config.listed_eq_true hl] at hflag
    cases hflag
  rename_i hc
  split
  · rename_i hs
    have hnr : c.state ≠ .ready := fun he => nomatch hs.symm.trans he
    rw [if_neg ((Bool.not_eq_false _).mpr (hread hnr).1)]
    exact .logsIn hs (receiveLoginPackets_logsIn ans hs (hi.fill hs))
  split
  · rename_i hs
    have hnr : c.state ≠ .ready := fun he => nomatch hs.symm.trans he
    rw [if_neg ((Bool.not_eq_false _).mpr (hread hnr).1)]
    exact .plays hs (receivePlayServer_plays ans hs (hi.mode (.inl hs))
      (hi.full fun he => nomatch hs.symm.trans he))
  rename_i hni hns
  by_cases hr : c.state = .ready
  · have h : (c.event .client).dispatches events = true := hd
    exact .relays hr h ((Bool.not_eq_true _).mp hdead) rfl (hi.relayReady hr h stock ans)
  · -- in the other states no flag of the client's socket is scheduled
    have hflag := (hread hr).2
    have hnc : c.state ≠ .connecting := fun he => hc (hi.connect_iff.mpr he)
    cases hs : c.state with
    | initial => exact (hni hs).elim
    | checkCredentials =>
        rw [hs] at hflag
        cases hflag
    | serverList => exact (hns hs).elim
    | connecting => exact (hnc hs).elim
    | sendPlayServer =>
        rw [hs] at hflag
        cases hflag
    | ready => exact (hr hs).elim

theorem Inv.onOutgoingReady_called {events : Events} (hi : Inv setup c)
    (stock : PipeStock UInt8) (ans : Answers)
    (hd : c.outgoing.dispatches events = true) :
    Called setup stock c ans (.outgoingReady events) (c.onOutgoingReady stock events ans).1
      (c.onOutgoingReady stock events ans).2 := by
  have hs := hi.outgoing_iff.mp (dispatches_defined hd)
  have hin : c.incoming.defined = true := by
    refine (congrArg Resources.incoming hi.resources).trans ?_
    cases c.state <;> rfl
  have hc : ¬ c.connect.isSome = true := by
    rw [hi.connect_iff]
    rcases hs with hs | hs <;> rw [hs] <;> decide
  unfold onOutgoingReady
  rw [if_neg ((Bool.not_eq_false _).mpr hin), if_neg hc]
  split
  · rename_i hdead
    exact updateTokenBucket_dies (.serverHangup hdead hs) c.timeout c.connect
  rename_i hdead
  split
  · rename_i hs
    exact .lists hs (receiveServerList_lists ans)
  · rename_i hns
    have hr := hs.resolve_left hns
    rw [if_neg (not_not.mpr hr)]
    have h : (c.event .server).dispatches events = true := hd
    exact .relays hr h ((Bool.not_eq_true _).mp hdead) rfl (hi.relayReady hr h stock ans)

/-- **What a callback can do.** -/
theorem dispatch_called {e : Event} (hi : Inv setup c)
    (h : dispatch setup stock c ans e = some (stock', r)) :
    Called setup stock c ans e stock' r := by
  cases e with
  | incomingReady events =>
      simp only [dispatch] at h
      split at h
      · rename_i hd
        have hcalled := hi.onIncomingReady_called stock ans hd
        rw [Option.some.inj h] at hcalled
        exact hcalled
      · cases h
  | outgoingReady events =>
      simp only [dispatch] at h
      split at h
      · rename_i hd
        have hcalled := hi.onOutgoingReady_called stock ans hd
        rw [Option.some.inj h] at hcalled
        exact hcalled
      · cases h
  | timeout =>
      simp only [dispatch] at h
      split at h
      · cases h
        exact updateTokenBucket_dies .timeout none c.connect
      · cases h
  | connectSuccess =>
      simp only [dispatch] at h
      split at h
      · rename_i hc
        have hs := hi.connect_iff.mp hc
        cases h
        exact .establishes hs (onSocketConnectSuccess_establishes ans hs
          (hi.full fun he => nomatch hs.symm.trans he))
      · cases h
  | connectError =>
      simp only [dispatch] at h
      split at h
      · rename_i hc
        have hs := hi.connect_iff.mp hc
        rw [onSocketConnectError_eq (c := c.setConnect none) hs] at h
        cases h
        exact Called.dies (quiet_singleton rfl) (.connectError hs)
      · cases h
  | checkDone result =>
      simp only [dispatch] at h
      split at h
      · cases h
      · rename_i job hj
        have hs := hi.job_iff.mp (hj ▸ rfl)
        cases h
        exact .judges hs hj (onCheckCredentials_judges ans _ _ hs
          (hi.full fun he => nomatch hs.symm.trans he))

/-- The only ways in which a callback ends the process: an exception of `ReceiveFrom`, and data of
the client while the connect is pending, which only happens without a server list. -/
def Fatal (setup : Setup) (why : Stop) : Prop :=
  why = .throws ∨ why = .abort .incomingConnectPending ∧ setup.config.serverList = []

/-- The callback reaches the relay, or leaves a connection with the flags that its state begins
with. -/
theorem Called.enters {e : Event} (h : Called setup stock c ans e stock' r) (hi : Inv setup c) :
    (∃ side events, e = Event.ready side events ∧ c.state = .ready ∧
      (c.event side).dispatches events = true ∧ events.dead = false ∧
      Relays c side events ans r) ∨
    r.Satisfies (Entered setup) (fun _ => True) fun why _ => Fatal setup why := by
  have hfatal : Enters setup r →
      r.Satisfies (Entered setup) (fun _ => True) fun why _ => Fatal setup why := by
    intro h
    cases r with
    | alive c => exact h.1
    | destroyed c => trivial
    | crashed why c => exact h.elim
  cases h with
  | dies => exact .inr trivial
  | connectPending hs hl => exact .inr (.inr ⟨rfl, hl⟩)
  | logsIn hs h => exact .inr (hfatal (h.enters hi hs))
  | plays hs h => exact .inr (hfatal (h.enters (hi.mode (.inl hs)) (hi.holds hs nofun nofun)))
  | lists hs h =>
      have hr := h.enters (hi.holds hs nofun nofun)
      cases h with
      | failed => exact .inr trivial
      | played => exact .inr hr
  | relays hs hd hdead he h => exact .inl ⟨_, _, rfl, hs, hd, hdead, h⟩
  | establishes hs h =>
      have hc := hi.holds hs nofun nofun
      refine .inr (hfatal (h.enters ⟨?_, hc.flags, hc.full, splice_of_fields hc.fresh rfl rfl⟩))
      change { c.resources with connect := false } = _
      rw [hc.resources]
      rfl
  | judges hs hj h =>
      have hc := hi.holds hs nofun nofun
      have hres : (c.setJob none).resources = { cancel := true } := by
        change { c.resources with job := false } = _
        rw [hc.resources]
        rfl
      exact .inr (hfatal (h.enters ⟨hres, hc.flags, hc.full, splice_of_fields hc.fresh rfl rfl⟩))

/-- **The invariant is kept.** -/
theorem dispatch_inv {e : Event} (hi : Inv setup c)
    (h : dispatch setup stock c ans e = some (stock', r)) :
    r.Satisfies (Inv setup) (fun _ => True) fun why _ => Fatal setup why := by
  rcases (dispatch_called hi h).enters hi with ⟨side, events, -, hs, hd, -, hr⟩ | hr
  · have hkeeps := hr.keeps hi hs (dispatches_read hd)
    cases r with
    | alive c' => exact hkeeps
    | destroyed c' => trivial
    | crashed why c' => exact .inl hkeeps
  · cases r with
    | alive c' => exact hr.inv
    | destroyed c' => trivial
    | crashed why c' => exact hr

theorem inv_new (remoteHost : List UInt8) (perClient : Option UInt64) :
    Inv setup (new remoteHost perClient) where
  resources := rfl
  mode := by rintro (h | h) <;> cases h
  fill := fun _ => show 0 < initialSize by decide
  full := fun h => (h rfl).elim
  flags := fun _ => rfl
  fresh := fun _ d => by cases d <;> rfl
  relay := nofun

end Connection

end UoLogin

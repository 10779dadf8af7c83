import UoLogin.Metrics
import UoLogin.StateMachine

set_option autoImplicit false

/-!
# Failures of one connection

Two of the functions that a handler calls may throw. The exception of `CheckCredentials` is caught and
costs the client its connection. That of `PipeStock::Create` goes through `Splice::ReceiveFrom` and
leaves the handler, which is `noexcept`: one `pipe()` that fails ends all sessions.

* `Settled`, `Contained`: what a handler may do to the daemon;
* `NeedsPipe`, `DataWhilePending`: the two callbacks that end the process; `dispatch_crashes_iff`:
  there are no others;
* **`failures_contained_iff`**: the failures of every other callback stay inside its connection.
-/

namespace UoLogin

namespace Connection

variable {setup : Setup} {c c' : Connection} {r : Result} {stock stock' : PipeStock UInt8}
  {ans : Answers} {d : Dir} {side : Side} {events : Events}

/-! ## The relay -/

/-- The handler does not return. -/
def Crashes (r : Result) : Prop := ∃ why c', r = .crashed why c'

theorem not_crashes_alive : ¬ Crashes (.alive c) := by
  rintro ⟨why, c', h⟩
  cases h

theorem not_crashes_destroyed : ¬ Crashes (.destroyed c) := by
  rintro ⟨why, c', h⟩
  cases h

theorem Sends.not_crashes {ch : SpliceChoice} (h : Sends c d ch r) : ¬ Crashes r := by
  cases h with
  | drained | blocked => exact not_crashes_alive
  | failed => exact not_crashes_destroyed

/-- The `WRITE` branch goes on if its `splice()` goes through. -/
theorem sendOrDestroy_alive_iff (stock : PipeStock UInt8) {ch : SpliceChoice}
    (hp : (c.splice d).pipe.isSome) (hz : (c.splice d).size ≠ 0) :
    (∃ c', (sendOrDestroy stock c d ch).2 = .alive c') ↔ ch.flows = true := by
  cases hch : ch.flows with
  | false =>
      refine iff_of_false ?_ Bool.false_ne_true
      obtain ⟨sent, hsent, hr⟩ := Splice.sendTo_of_not_flows stock hp hz hch
      rintro ⟨c', h⟩
      simp only [sendOrDestroy, doSpliceSend, splice_emit, hsent, hr] at h
      cases h
  | true =>
      refine iff_of_true ?_ rfl
      have hsends := sendOrDestroy_sends stock d ch hp hz
      generalize (sendOrDestroy stock c d ch).2 = r at hsends ⊢
      cases hsends with
      | drained | blocked => exact ⟨_, rfl⟩
      | failed hno => exact nomatch hno.symm.trans hch

/-- The `READ` branch throws if it needs a pipe and there is none. -/
theorem receiveReady_crashes_iff (stock : PipeStock UInt8) (ans : Answers)
    (hz : (c.splice d).size = 0) :
    Crashes (receiveReady stock c d ans).2 ↔ (c.splice d).pipe = none ∧ ans.getNow = .throws := by
  have hz' : (c.splice d).clearReceived.size = 0 := hz
  have hthrows := Splice.receiveFrom_throws_iff stock (c.inbound d.source).queue ans.getNow ans.receive
    hz'
  change _ ↔ (c.splice d).pipe = none ∧ ans.getNow = .throws at hthrows
  rw [← hthrows]
  unfold receiveReady
  simp only [inbound_emit_setSplice]
  rcases Splice.receiveFrom_cases stock (c.inbound d.source).queue ans.getNow ans.receive hz' with
    h | ⟨got, h, -, -, -, hcases⟩
  · rw [h]
    exact iff_of_true ⟨_, _, rfl⟩ rfl
  · rw [h]
    refine iff_of_false ?_ (fun he => by cases he)
    simp only
    rcases hcases with ⟨hr, hz'', hp, -⟩ | ⟨hr | hr | hr, -, -⟩
    · rw [hr]
      refine (sendOrDestroy_sends got.stock d ans.sendReceived ?_ ?_).not_crashes
      · rw [splice_emit, splice_emit]
        cases d <;> exact hp
      · rw [splice_emit, splice_emit]
        cases d <;> exact hz''
    · rw [hr]
      exact not_crashes_alive
    · rw [hr]
      exact not_crashes_destroyed
    · rw [hr]
      exact not_crashes_destroyed

/-- The socket's handler comes to the `READ` branch, which needs a pipe, and there is none. -/
structure NeedsPipe (c : Connection) (side : Side) (events : Events) (ans : Answers) : Prop where
  ready : c.state = .ready
  alive : events.dead = false
  read : events.read = true
  write : events.write = true → ans.sendReady.flows = true
  pipe : (c.splice side.outOf).pipe = none
  getNow : ans.getNow = .throws

/-- The client's socket is ready for reading while the connect is pending. -/
structure DataWhilePending (c : Connection) (side : Side) (events : Events) : Prop where
  client : side = .client
  alive : events.dead = false
  pending : c.connect.isSome = true

theorem relayReady_crashes_iff (hi : Inv setup c) (hs : c.state = .ready)
    (hd : (c.event side).dispatches events = true) (hdead : events.dead = false)
    (stock : PipeStock UInt8) (ans : Answers) :
    Crashes (relayReady stock c side events ans).2 ↔ NeedsPipe c side events ans := by
  have hread : ∀ stock' {c'}, c'.lane side.outOf = c.lane side.outOf →
      (Crashes (if events.read then receiveReady stock' c' side.outOf ans else (stock', .alive c')).2 ↔
        events.read = true ∧ (c.splice side.outOf).pipe = none ∧ ans.getNow = .throws) := by
    intro stock' c' hlane
    have hsplice : c'.splice side.outOf = c.splice side.outOf := congrArg Lane.splice hlane
    by_cases he : events.read = true
    · have hz : (c.splice side.outOf).size = 0 := by
        refine (hi.relay hs side.outOf).read ?_
        change (c.event side.outOf.source).read = true
        rw [side.source_outOf]
        exact dispatches_read hd he
      rw [if_pos he, receiveReady_crashes_iff stock' ans (by rw [hsplice]; exact hz), hsplice]
      exact (and_iff_right he).symm
    · rw [if_neg he]
      exact iff_of_false not_crashes_alive fun h => he h.1
  unfold relayReady
  by_cases he : events.write = true
  · rw [if_pos he]
    have hok := hi.relay hs side.into
    have hw : (c.lane side.into).write = true := by
      change (c.event side.into.sink).write = true
      rw [side.sink_into]
      exact dispatches_write hd he
    have hz : (c.splice side.into).size ≠ 0 := hok.write.mp hw
    have hp : (c.splice side.into).pipe.isSome := hok.pipe hz
    have hsends := sendOrDestroy_sends stock side.into ans.sendReady hp hz
    have hflows : (∃ c', (sendOrDestroy stock c side.into ans.sendReady).2 = .alive c') ↔
        ans.sendReady.flows = true := sendOrDestroy_alive_iff stock hp hz
    generalize sendOrDestroy stock c side.into ans.sendReady = sent at hsends hflows ⊢
    obtain ⟨stock', r⟩ := sent
    cases r with
    | alive c' =>
        have hyes : ans.sendReady.flows = true := hflows.mp ⟨c', rfl⟩
        refine (hread stock' (hsends.frame.lane _ side.outOf_ne_into)).trans ?_
        exact ⟨fun h => ⟨hs, hdead, h.1, fun _ => hyes, h.2.1, h.2.2⟩,
          fun h => ⟨h.read, h.pipe, h.getNow⟩⟩
    | destroyed c' =>
        refine iff_of_false not_crashes_destroyed fun h => ?_
        obtain ⟨c'', h''⟩ := hflows.mpr (h.write he)
        cases h''
    | crashed why c' => exact (hsends.not_crashes ⟨_, _, rfl⟩).elim
  · rw [if_neg he]
    refine (hread stock rfl).trans ?_
    exact ⟨fun h => ⟨hs, hdead, h.1, fun hw => (he hw).elim, h.2.1, h.2.2⟩,
      fun h => ⟨h.read, h.pipe, h.getNow⟩⟩

/-! ## The handlers -/

theorem ready_eq_incomingReady {events' : Events} (h : Event.ready side events = .incomingReady events') :
    side = .client ∧ events = events' := by
  cases side
  · cases h
    exact ⟨rfl, rfl⟩
  · cases h

theorem ready_eq_outgoingReady {events' : Events} (h : Event.ready side events = .outgoingReady events') :
    side = .server ∧ events = events' := by
  cases side
  · cases h
  · cases h
    exact ⟨rfl, rfl⟩

/-- A client's socket that is dead ends its connection. -/
theorem dispatch_dead (hdead : events.dead = true)
    (h : dispatch setup stock c ans (.incomingReady events) = some (stock', r)) : ¬ Crashes r := by
  simp only [dispatch, onIncomingReady, hdead, if_true] at h
  split at h
  · cases h
    exact not_crashes_destroyed
  · cases h

theorem not_crashes_of_enters {A D : Connection → Prop}
    (h : r.Satisfies A D fun _ _ => False) : ¬ Crashes r := by
  rintro ⟨why, c', rfl⟩
  exact h

/-- **The handlers that do not return.** -/
theorem dispatch_crashes_iff (hi : Inv setup c)
    (h : dispatch setup stock c ans (Event.ready side events) = some (stock', r)) :
    Crashes r ↔ NeedsPipe c side events ans ∨ DataWhilePending c side events := by
  have hpending : ∀ {s}, c.state = s → s ≠ .connecting → ¬ DataWhilePending c side events :=
    fun hs hne hp => hne (hs.symm.trans (hi.connect_iff.mp hp.pending))
  have hneither : ∀ {s}, c.state = s → s ≠ .ready → s ≠ .connecting →
      ¬ (NeedsPipe c side events ans ∨ DataWhilePending c side events) := by
    rintro s hs hready hconnecting (hp | hp)
    · exact hready (hs.symm.trans hp.ready)
    · exact hpending hs hconnecting hp
  have hcalled := dispatch_called hi h
  generalize he : Event.ready side events = e at hcalled
  cases hcalled with
  | dies hq hdies =>
      refine iff_of_false not_crashes_destroyed ?_
      have hdead : events.dead = true := by
        cases hdies with
        | initialHangup hd | hangup hd => exact (ready_eq_incomingReady he).2 ▸ hd
        | serverHangup hd => exact (ready_eq_outgoingReady he).2 ▸ hd
        | timeout | connectError => cases side <;> cases he
      rintro (hp | hp)
      · exact nomatch hp.alive.symm.trans hdead
      · exact nomatch hp.alive.symm.trans hdead
  | connectPending hs hl =>
      obtain ⟨rfl, rfl⟩ := ready_eq_incomingReady he
      refine iff_of_true ⟨_, _, rfl⟩ (.inr ⟨rfl, ?_, hi.connect_iff.mpr hs⟩)
      exact (Bool.not_eq_true _).mp fun hdead => dispatch_dead hdead h ⟨_, _, rfl⟩
  | logsIn hs hlogsIn =>
      exact iff_of_false (not_crashes_of_enters (hlogsIn.enters hi hs)) (hneither hs nofun nofun)
  | plays hs hplays =>
      exact iff_of_false (not_crashes_of_enters (hplays.enters (hi.mode (.inl hs))
        (hi.holds hs nofun nofun))) (hneither hs nofun nofun)
  | lists hs hlists =>
      exact iff_of_false (not_crashes_of_enters (hlists.enters (hi.holds hs nofun nofun)))
        (hneither hs nofun nofun)
  | @relays side' events' hs hd hdead _ _ hrelay hrelays =>
      obtain ⟨rfl, rfl⟩ : side = side' ∧ events = events' := by
        cases side' with
        | client => exact ready_eq_incomingReady he
        | server => exact ready_eq_outgoingReady he
      have hiff := relayReady_crashes_iff hi hs hd hdead stock ans
      rw [hrelay] at hiff
      exact hiff.trans (or_iff_left (hpending hs nofun)).symm
  | establishes | judges => cases side <;> cases he

/-! ## What a handler leaves -/

/-- The connection has brought its gauges down, and at last released its accounting link. -/
structure Settled (c : Connection) : Prop where
  gauges : ∀ m, m.gauge = true → (changes m c.log).sum = 0
  link : c.perClient.isSome = true → c.log.getLast? = some .removeConnection

theorem settled_destructor (h : CountedPast c) (stock : PipeStock UInt8) :
    Settled (c.destructor stock).2 := by
  obtain ⟨g, hg, ho⟩ := h
  refine ⟨fun m hm => ?_, fun hlinked => ?_⟩
  · have hbytes : m.ofBytes = false := by cases m <;> first | rfl | cases hm
    rw [(Metered.gone_destructor hg ho stock).once m hbytes]
    cases hcounts : g.counts m <;> simp [Stage.allChanges, Stage.changes, hm, hcounts]
  · have hlinked : c.perClient.isSome = true := hlinked
    simp [destructor, destructorLog, hlinked]

end Connection

namespace Instance

open Connection

variable {setup : Setup} {inst inst' : Instance} {inputs : List Input}

/-- The handler left the connection alive, or exactly this connection is over. -/
structure Contained (inst inst' : Instance) (id : ℕ) : Prop where
  running : inst'.crashed = none
  others : ∀ j, j ≠ id → inst'.conns j = inst.conns j
  this : (∃ c, inst'.conns id = .live c) ∨ ∃ c, inst'.conns id = .gone c ∧ Settled c

theorem counted_live (h : Run setup inputs inst) {id : ℕ} {c : Connection}
    (hc : inst.conns id = .live c) : CountedLive c := by
  refine (holds_run (L := CountedLive) (G := fun _ => True) counted_new (fun {c} side bytes hc => ?_)
    (fun {stock c ans e stock' r} hi _ _ hc hr => ?_) (fun _ => trivial) h).live hc
  · cases side <;> exact hc.silent rfl fun d => by cases d <;> rfl
  · have hcounted := hr.counted hi hc
    cases r with
    | alive c' => exact hcounted
    | destroyed c' | crashed why c' => trivial

/-- **Failures stay inside the connection**, whatever `CheckCredentials` does, exactly if `ReceiveFrom`
does not miss a pipe and no data of the client comes while its connect is pending. -/
theorem failures_contained_iff (h : Run setup inputs inst) {id : ℕ} {c : Connection}
    (hc : inst.conns id = .live c) (side : Side) (events : Events) (ans : Answers)
    (hs : step setup inst (.event id (Event.ready side events) ans) = some inst') :
    Contained inst inst' id ↔
      ¬ (NeedsPipe c side events ans ∨ DataWhilePending c side events) := by
  obtain ⟨hrunning, hs⟩ := step_cases hs
  generalize he : Event.ready side events = e at hs
  cases hs with
  | @event _ _ _ c₁ hc₁ stock r hd =>
      cases hc.symm.trans hc₁
      rw [← he] at hd
      have hi := (good_run h).live hc
      have hcounted := (dispatch_called hi hd).counted hi (counted_live h hc)
      rw [← dispatch_crashes_iff hi hd]
      cases r with
      | alive c' =>
          refine iff_of_true ⟨hrunning, fun j hj => ?_, .inl ⟨c', ?_⟩⟩ not_crashes_alive
          · simp only [settle, setConn, Function.update_of_ne hj]
          · simp only [settle, setConn, Function.update_self]
      | destroyed c' =>
          refine iff_of_true ⟨hrunning, fun j hj => ?_, .inr ⟨_, ?_, settled_destructor hcounted stock⟩⟩
            not_crashes_destroyed
          · simp only [settle, setConn, Function.update_of_ne hj]
          · simp only [settle, setConn, Function.update_self]
      | crashed why c' =>
          refine iff_of_false (fun hcontained => ?_) (not_not.mpr ⟨_, _, rfl⟩)
          cases hcontained.running

/-- The database throws, which only ends the connection. -/
theorem failures_contained_of_sample :
    ∃ inst inst', Run (sampleSetup []) [.accept 0 [] none, .arrive 0 .client samplePackets] inst ∧
      step (sampleSetup []) inst (.event 0 (.incomingReady { read := true })
        { read := .upTo 82, check := .throws }) = some inst' ∧ Contained inst inst' 0 := by
  obtain ⟨inst, inst', c, h, hc, hs, hinitial⟩ : ∃ inst inst' c,
      Run (sampleSetup []) [.accept 0 [] none, .arrive 0 .client samplePackets] inst ∧
      inst.conns 0 = .live c ∧
      step (sampleSetup []) inst (.event 0 (.incomingReady { read := true })
        { read := .upTo 82, check := .throws }) = some inst' ∧ c.state = .initial :=
    ⟨_, _, _, rfl, rfl, rfl, rfl⟩
  refine ⟨inst, inst', h, hs, (failures_contained_iff h hc .client { read := true } _ hs).mpr ?_⟩
  rintro (hp | hp)
  · exact nomatch hinitial.symm.trans hp.ready
  · exact nomatch hinitial.symm.trans (((good_run h).live hc).connect_iff.mp hp.pending)

/-- A second client has come, and the first one has sent a byte. -/
def sampleSecond : List Input :=
  sampleCheck ++ sampleReady ++ [.accept 1 [] none, .arrive 0 .client [9]]

/-- **There is no pipe for the byte**: the process ends, and with it the session of the second client. -/
theorem failed_pipe_ends_process :
    ∃ inst inst' c, Run (sampleSetup []) sampleSecond inst ∧
      step (sampleSetup []) inst (.event 0 (.incomingReady { read := true }) { getNow := .throws }) =
        some inst' ∧
      inst'.crashed = some .throws ∧ inst'.conns 1 = .live c ∧ ¬ Contained inst inst' 0 := by
  obtain ⟨inst, inst', c, h, hs, hcrashed, hc⟩ : ∃ inst inst' c, Run (sampleSetup []) sampleSecond inst ∧
      step (sampleSetup []) inst (.event 0 (.incomingReady { read := true }) { getNow := .throws }) =
        some inst' ∧
      inst'.crashed = some .throws ∧ inst'.conns 1 = .live c := ⟨_, _, _, rfl, rfl, rfl, rfl⟩
  exact ⟨inst, inst', c, h, hs, hcrashed, hc, fun hd => nomatch hcrashed.symm.trans hd.running⟩

end Instance

end UoLogin

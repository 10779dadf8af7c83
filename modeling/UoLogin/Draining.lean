import UoLogin.Instance

set_option autoImplicit false

/-!
# The end of a stream

A peer ends its stream with a FIN. `Closing` is the daemon with the FINs that have been received, and
with a kernel that reports them: nothing arrives after a FIN, `READ_HANGUP` is reported from the FIN
on wherever it is scheduled, `splice()` returns 0 only at the end of the stream, and nothing else goes
wrong.

* `Drained`: everything that came from a peer has been written to the other one;
* `hangupFlags_run`: `READ_HANGUP` is scheduled on the client's socket, and only there;
* **`clean_close_iff`**: a connection that ends in `READY` because of a FIN is drained exactly if the
  FIN came from the game server, or nothing of the client was unread or in the pipe;
* `client_bytes_lost`: a client that sends one byte and closes.
-/

namespace UoLogin

section Splice

variable {β : Type*} {queue : List β} {stock : PipeStock β} {s : Splice β} {ch : SpliceChoice}

/-- `SendTo` fails only if the `splice()` does. -/
theorem Splice.not_flows_of_sendTo {sent : Sent β} (h : s.sendTo stock ch = .ok sent)
    (hr : sent.result = .error) : ch.flows = false := by
  unfold sendTo at h
  split at h
  · cases h
  rename_i p hp
  split at h
  · cases h
  cases hsp : UoLogin.splice (stock.content p) s.size ch with
  | moved bytes rest =>
      simp only [hsp] at h
      split at h <;> cases h <;> cases hr
  | zero =>
      rw [eq_zero_of_splice hsp]
      rfl
  | again =>
      simp only [hsp] at h
      cases h
      cases hr
  | error =>
      rw [eq_error_of_splice hsp]
      rfl

/-- `ReceiveFrom` finds the end of the stream, or an error, only if the `splice()` does. -/
theorem Splice.choice_of_receiveFrom {get : GetNow} {got : Received β}
    (h : s.receiveFrom stock queue get ch = .ok got)
    (hr : got.result = .socketClosed ∨ got.result = .error) : ch = .zero ∨ ch = .error := by
  unfold receiveFrom at h
  split at h
  · cases h
  cases hsp : UoLogin.splice queue receiveLimit ch with
  | moved bytes rest =>
      simp only [hsp] at h
      cases h
      rcases hr with hr | hr <;> cases hr
  | zero => exact .inl (eq_zero_of_splice hsp)
  | again =>
      simp only [hsp] at h
      cases h
      simp only at hr
      split at hr <;> rcases hr with hr | hr <;> cases hr
  | error => exact .inr (eq_error_of_splice hsp)

end Splice

namespace Connection

variable {setup : Setup} {c c' : Connection} {r : Result} {stock stock' : PipeStock UInt8}
  {ans : Answers} {d : Dir} {side : Side} {events : Events}

/-! ## What a destroyed relay tells -/

theorem sendOrDestroy_destroyed {ch : SpliceChoice}
    (h : sendOrDestroy stock c d ch = (stock', .destroyed c')) : ch.flows = false := by
  unfold sendOrDestroy doSpliceSend at h
  cases hs : ((c.emit (.sendTo d (c.splice d).pipe.isSome (c.splice d).size)).splice d).sendTo stock
      ch with
  | error e =>
      simp only [hs] at h
      cases h
  | ok sent =>
      simp only [hs] at h
      cases hr : sent.result with
      | ok | partialSend | socketBlocking =>
          simp only [hr] at h
          cases h
      | error => exact Splice.not_flows_of_sendTo hs hr

theorem receiveReady_destroyed (h : receiveReady stock c d ans = (stock', .destroyed c')) :
    ans.receive = .zero ∨ ans.receive = .error ∨ ans.sendReceived.flows = false := by
  unfold receiveReady at h
  simp only at h
  split at h
  · cases h
  · rename_i got hgot
    cases hr : got.result with
    | ok =>
        simp only [hr] at h
        exact .inr (.inr (sendOrDestroy_destroyed h))
    | socketBlocking =>
        simp only [hr] at h
        cases h
    | socketClosed =>
        exact (Splice.choice_of_receiveFrom hgot (.inl hr)).imp_right .inl
    | pipeFull =>
        simp only [hr] at h
        split at h <;> cases h
    | error =>
        exact (Splice.choice_of_receiveFrom hgot (.inr hr)).imp_right .inl

/-- A connection that ends in the relay has read the end of a stream, or something failed. -/
theorem relayReady_destroyed (h : relayReady stock c side events ans = (stock', .destroyed c')) :
    ans.sendReady.flows = false ∨ ans.receive = .zero ∨ ans.receive = .error ∨
      ans.sendReceived.flows = false := by
  unfold relayReady at h
  simp only at h
  split at h
  · split at h
    · exact .inr (receiveReady_destroyed h)
    · cases h
  · rename_i stock₁ r hr hsent
    by_cases hw : events.write = true
    · rw [if_pos hw] at hsent
      cases h
      exact .inl (sendOrDestroy_destroyed hsent)
    · rw [if_neg hw] at hsent
      cases hsent
      exact (hr _ rfl).elim

/-! ## `READ_HANGUP` -/

/-- `READ_HANGUP` is scheduled on the client's socket only. -/
def HangupFlags (c : Connection) : Prop :=
  c.incoming.readHangup = true ∧ c.outgoing.readHangup = false

abbrev KeepsHangup : Result → Prop := Result.Satisfies HangupFlags (fun _ => True) fun _ _ => True

theorem Establishes.hangup (h : Establishes setup c r) (hc : HangupFlags c) : KeepsHangup r := by
  cases h with
  | failed => trivial
  | sendPlayServer => exact ⟨hc.1, rfl⟩
  | ready => exact ⟨hc.1, rfl⟩

theorem Connects.hangup {address : SocketAddress} (h : Connects setup address c r)
    (hc : HangupFlags c) : KeepsHangup r := by
  cases h with
  | pending => exact hc
  | failed => trivial
  | now h => exact h.hangup hc

theorem Accepts.hangup (h : Accepts setup c r) (hc : HangupFlags c) : KeepsHangup r := by
  cases h with
  | failed => trivial
  | listed => exact hc
  | direct hl h => exact h.hangup hc

theorem Judges.hangup {username : List UInt8} {result : Bool} (h : Judges setup username c result r)
    (hc : HangupFlags c) : KeepsHangup r := by
  cases h with
  | rejected => trivial
  | accepted hq h => exact h.hangup hc

theorem Completes.hangup (h : Completes setup c r) (hc : HangupFlags c) : KeepsHangup r := by
  cases h with
  | malformed | throws => trivial
  | noDatabase hw h => exact h.hangup hc
  | queued => exact hc

theorem hangupFlags_mapEvent {f : SocketEvent → SocketEvent}
    (hf : ∀ s, (f s).readHangup = s.readHangup) (hc : HangupFlags c) (side : Side) :
    HangupFlags (c.mapEvent f side) := by
  cases side with
  | client => exact ⟨(hf _).trans hc.1, hc.2⟩
  | server => exact ⟨hc.1, (hf _).trans hc.2⟩

theorem Sends.hangup {ch : SpliceChoice} (h : Sends c d ch r) (hc : HangupFlags c) :
    KeepsHangup r := by
  have hdelivered : ∀ s bytes, HangupFlags (c.delivered d s bytes) := by
    intro s bytes
    cases d <;> exact hc
  cases h with
  | drained => exact hangupFlags_mapEvent (f := .cancelOnlyWrite) (fun _ => rfl) (hdelivered _ _) _
  | blocked =>
      exact hangupFlags_mapEvent (f := .scheduleWrite) (fun _ => rfl)
        (hangupFlags_mapEvent (f := .cancelOnlyRead) (fun _ => rfl) (hdelivered _ _) _) _
  | failed => trivial

theorem Receives.hangup {ch : SpliceChoice} (h : Receives c d ch r) (hc : HangupFlags c) :
    KeepsHangup r := by
  have hreceived : ∀ s bytes rest result, HangupFlags (c.received d s bytes rest result) := by
    intro s bytes rest result
    cases d <;> exact hc
  cases h with
  | throws | closed | failed => trivial
  | got hq ht hd hz hp h => exact h.hangup (hreceived _ _ _ .ok)
  | blocked => exact hreceived _ _ _ _

theorem Called.hangup {e : Event} (h : Called setup stock c ans e stock' r) (hc : HangupFlags c) :
    KeepsHangup r := by
  cases h with
  | dies | connectPending => trivial
  | logsIn hs h =>
      cases h with
      | failed => trivial
      | short => exact hc
      | complete hq heq h => exact h.hangup hc
  | plays hs h =>
      cases h with
      | failed => trivial
      | connects hq hlen hs h => exact h.hangup hc
  | lists hs h =>
      cases h with
      | failed => trivial
      | played => exact hc
  | @relays side events hs hd hdead _ _ he h =>
      have hflush : ∀ {c'}, Flushes c side events ans c' → HangupFlags c' := by
        intro c' hf
        cases hf with
        | skipped => exact hc
        | sent hw hz h => exact h.hangup hc
      cases h with
      | failed => trivial
      | sent h => exact hflush h
      | received h hr h' => exact h'.hangup (hflush h)
  | establishes hs h => exact h.hangup hc
  | judges hs hj h => exact h.hangup hc

end Connection

open Connection

theorem Instance.hangupFlags_run {setup : Setup} {inst : Instance} {inputs : List Input}
    (h : Instance.Run setup inputs inst) {id : ℕ} {c : Connection} (hc : inst.conns id = .live c) :
    HangupFlags c := by
  refine (Instance.holds_run (L := HangupFlags) (G := fun _ => True) (fun _ _ => ⟨rfl, rfl⟩) ?_ ?_
    (fun _ => trivial) h).live hc
  · intro c side bytes hL
    cases side <;> exact hL
  · intro stock c ans e stock' r _ _ _ hL hcalled
    have hr := hcalled.hangup hL
    cases r with
    | alive c' => exact hr
    | destroyed c' | crashed why c' => trivial

/-! ## The kernel -/

namespace Connection

/-- What the kernel may report about the socket of a peer and do in the relay, when `fin` has sent
a FIN. -/
def reported (c : Connection) (fin : Option Side) (side : Side) (events : Events) (ans : Answers) :
    Bool :=
  !events.error && !events.hangup &&
    (events.readHangup == ((c.event side).readHangup && fin == some side)) &&
    ans.receive != .error && (ans.receive != .zero || fin == some side && (c.inbound side).queue.isEmpty) &&
    ans.sendReady.flows && ans.sendReceived.flows

/-- Everything that came from a peer was taken and written to the other one. -/
def Drained (c : Connection) (peer : Side) : Prop :=
  (c.inbound peer).queue = [] ∧ (c.splice peer.outOf).delivered = (c.splice peer.outOf).taken

end Connection

structure Closing where
  inst : Instance := {}
  /-- the peer of each connection that has sent a FIN -/
  fin : ℕ → Option Side := fun _ => none

inductive ClosingInput where
  | input (input : Input)
  | fin (id : ℕ) (peer : Side)

namespace Closing

variable {setup : Setup} {s s' : Closing} {inputs : List ClosingInput}

/-- The kernel allows the input. -/
def allows (s : Closing) : Input → Bool
  | .arrive id peer _ => s.fin id != some peer
  | .event id e ans =>
    match s.inst.conns id, e with
    | .live c, .incomingReady events => c.reported (s.fin id) .client events ans
    | .live c, .outgoingReady events => c.reported (s.fin id) .server events ans
    | _, _ => true
  | _ => true

def step (setup : Setup) (s : Closing) : ClosingInput → Option Closing
  | .input input =>
    if s.allows input then (Instance.step setup s.inst input).map fun inst => { s with inst := inst }
    else none
  | .fin id peer =>
    match s.inst.conns id, s.fin id with
    | .live _, none => some { s with fin := Function.update s.fin id (some peer) }
    | _, _ => none

/-- The runs of the daemon over such a kernel. -/
def Run (setup : Setup) (inputs : List ClosingInput) (s : Closing) : Prop :=
  Machine.run (step setup) {} inputs = some s

/-- The daemon itself has runs that it has anyway. -/
theorem run_inst (h : Run setup inputs s) : ∃ inputs', Instance.Run setup inputs' s.inst := by
  refine Machine.invariant (I := fun s : Closing => ∃ inputs', Instance.Run setup inputs' s.inst)
    (fun s input s' hI hs => ?_) (show ∃ inputs', Instance.Run setup inputs' {} from ⟨[], rfl⟩) h
  obtain ⟨inputs', hrun⟩ := hI
  cases input with
  | input input =>
      simp only [step] at hs
      split at hs
      · obtain ⟨inst, hinst, rfl⟩ := Option.map_eq_some_iff.mp hs
        refine ⟨inputs' ++ [input], ?_⟩
        have hrun' : Machine.run (Instance.step setup) {} inputs' = some s.inst := hrun
        unfold Instance.Run
        rw [Machine.run_snoc, hrun']
        exact hinst
      · cases hs
  | fin id peer =>
      simp only [step] at hs
      split at hs
      · cases hs
        exact ⟨inputs', hrun⟩
      · cases hs

/-! ## The last event -/

/-- A connection with nothing in the pipe has delivered what it took, and only then. -/
theorem delivered_iff {inst : Instance} (hg : Instance.Good setup inst) (hcrashed : inst.crashed = none)
    {id : ℕ} {c : Connection} (hc : inst.conns id = .live c) (d : Dir) :
    (c.splice d).delivered = (c.splice d).taken ↔ (c.splice d).size = 0 := by
  have hpipes := hg.pipes hcrashed
  have hfifo := hpipes.fifo (id, d)
  have hsize := hpipes.size (id, d)
  rw [Instance.family_live hc] at hfifo hsize
  rw [hsize, ← hfifo, List.length_eq_zero_iff]
  exact List.self_eq_append_right

/-- A report about a socket, field by field. -/
theorem reported_cases {c : Connection} {fin : Option Side} {side : Side} {events : Events}
    {ans : Answers} (h : c.reported fin side events ans = true) :
    (events.dead = true ↔ (c.event side).readHangup = true ∧ fin = some side) ∧
      ans.receive ≠ .error ∧ (ans.receive = .zero → fin = some side ∧ (c.inbound side).queue = []) ∧
      ans.sendReady.flows = true ∧ ans.sendReceived.flows = true := by
  unfold reported at h
  simp only [Bool.and_eq_true, Bool.not_eq_true', Bool.or_eq_true, bne_iff_ne, beq_iff_eq,
    List.isEmpty_iff, ne_eq] at h
  obtain ⟨⟨⟨⟨⟨⟨herror, hhangup⟩, hread⟩, hne⟩, hzero⟩, hsend⟩, hsend'⟩ := h
  refine ⟨?_, hne, fun hz => hzero.resolve_left fun hnz => hnz hz, hsend, hsend'⟩
  unfold Events.dead
  rw [herror, hhangup, hread]
  simp

/-- In `READY` the relay ends a connection only at the end of the stream that it reads, and with that
stream drained. -/
theorem relays_drained {inst : Instance} (hg : Instance.Good setup inst)
    (hcrashed : inst.crashed = none) {id : ℕ} {c c' : Connection} (hc : inst.conns id = .live c)
    (hs : c.state = .ready) {fin : Option Side} {side : Side} {events : Events} {ans : Answers}
    (hrep : c.reported fin side events ans = true) (hd : (c.event side).dispatches events = true)
    {stock : PipeStock UInt8} (he : relayReady inst.stock c side events ans = (stock, .destroyed c'))
    (h : Relays c side events ans (.destroyed c')) : fin = some side ∧ c'.Drained side := by
  obtain ⟨-, hne, hzero, hready, hreceived⟩ := reported_cases hrep
  have hz : ans.receive = .zero := by
    rcases relayReady_destroyed he with h | h | h | h
    · cases hready.symm.trans h
    · exact h
    · exact (hne h).elim
    · cases hreceived.symm.trans h
  obtain ⟨hfin, hqueue⟩ := hzero hz
  refine ⟨hfin, ?_⟩
  cases h with
  | failed hw hz h =>
      cases h with
      | failed hch => cases hready.symm.trans hch
  | @received c₁ h hr _ h' =>
      have hinbound : c₁.inbound side = c.inbound side :=
        h.frame.inbound side (by cases side <;> decide)
      have hempty : (c.splice side.outOf).size = 0 := by
        refine ((hg.live hc).relay hs side.outOf).read ?_
        change (c.event side.outOf.source).read = true
        rw [side.source_outOf]
        exact dispatches_read hd hr
      have hdelivered := (delivered_iff hg hcrashed hc side.outOf).mpr hempty
      have hend : ∀ {s : Splice UInt8} {rest result},
          (c₁.inbound side.outOf.source).queue = rest →
          s.taken = (c₁.splice side.outOf).taken → s.delivered = (c₁.splice side.outOf).delivered →
          (c₁.received side.outOf s [] rest result).Drained side := by
        intro s rest result hq ht hd
        rw [side.source_outOf, hinbound, hqueue] at hq
        rw [h.splice_outOf] at ht hd
        refine ⟨?_, ?_⟩
        · rw [← hq]
          cases side <;> rfl
        · rw [splice_received, ht, hd, hdelivered]
      cases h' with
      | got hq ht hd hz hp h =>
          cases h with
          | failed hch => cases hreceived.symm.trans hch
      | closed hq ht hd =>
          have hdrained : (c₁.received side.outOf _ [] _ .socketClosed).Drained side := hend hq ht hd
          cases side <;> exact hdrained
      | failed hq ht hd => exact hend hq ht hd

theorem reported_of_allows {id : ℕ} {c : Connection} (hc : s.inst.conns id = .live c) (side : Side)
    {events : Events} {ans : Answers}
    (h : s.allows (.event id (Event.ready side events) ans) = true) :
    c.reported (s.fin id) side events ans = true := by
  simp only [allows, hc] at h
  cases side <;> exact h

/-- **A clean close**: a connection in `READY` that ends after the FIN of a peer has written everything
that came from this peer exactly if the peer is the game server, or neither the client's socket nor the
pipe held anything. -/
theorem clean_close_iff (h : Run setup inputs s) {id : ℕ} {e : Event} {ans : Answers}
    (hs : step setup s (.input (.event id e ans)) = some s') {c c' : Connection}
    (hc : s.inst.conns id = .live c) (hready : c.state = .ready) {peer : Side}
    (hfin : s.fin id = some peer) (hgone : s'.inst.conns id = .gone c')
    (hrunning : s'.inst.crashed = none) :
    c'.Drained peer ↔ peer = .server ∨ c.client.queue = [] ∧ c.spliceInOut.size = 0 := by
  obtain ⟨inputs', hrun⟩ := run_inst h
  have hg := Instance.good_run hrun
  have hflags := Instance.hangupFlags_run hrun hc
  have hi := hg.live hc
  simp only [step] at hs
  split at hs
  · rename_i hallows
    obtain ⟨inst, hinst, rfl⟩ := Option.map_eq_some_iff.mp hs
    obtain ⟨hcrashed, hinst⟩ := Instance.step_cases hinst
    cases hinst with
    | @event _ _ _ c₀ hc₀ stock r hd =>
        cases hc.symm.trans hc₀
        cases r with
        | alive c₁ => simp [Instance.settle, Instance.setConn] at hgone
        | crashed why c₁ => cases hrunning
        | destroyed c₁ =>
            simp only [Instance.settle, Instance.setConn, Function.update_self, Slot.gone.injEq] at hgone
            have hdestructor : c'.Drained peer ↔ c₁.Drained peer := by
              rw [← hgone]
              cases peer <;> exact Iff.rfl
            rw [hdestructor]
            have hcalled := dispatch_called hi hd
            cases hcalled with
            | @dies _ timeout connect quiet hq hdies =>
                have hsame : (((c.setTimeout timeout).setConnect connect).emits quiet).Drained peer ↔
                    c.Drained peer := by cases peer <;> exact Iff.rfl
                rw [hsame]
                cases hdies with
                | @hangup events hdead hne =>
                    have hrep := reported_of_allows hc .client hallows
                    have hpeer := ((reported_cases hrep).1.mp hdead).2
                    cases hfin.symm.trans hpeer
                    have hiff := delivered_iff hg hcrashed hc .inOut
                    refine Iff.trans (and_congr_right fun _ => hiff) ⟨.inr, fun hor => ?_⟩
                    exact hor.resolve_left (by decide)
                | @serverHangup events hdead hstate =>
                    have hrep := reported_of_allows hc .server hallows
                    have hflag := ((reported_cases hrep).1.mp hdead).1
                    cases hflags.2.symm.trans hflag
                | timeout =>
                    simp only [dispatch] at hd
                    split at hd
                    · rename_i htimeout
                      have htimer : c.timeout.isSome = _ := congrArg Resources.timer hi.resources
                      rw [hready] at htimer
                      cases htimer.symm.trans htimeout
                    · cases hd
                | initialHangup hdead hstate => cases hready.symm.trans hstate
                | connectError hstate => cases hready.symm.trans hstate
            | @relays side events _ hdispatch hdead _ _ he hrelays =>
                have hrep := reported_of_allows hc side hallows
                obtain ⟨hside, hdrained⟩ := relays_drained hg hcrashed hc hready hrep hdispatch he hrelays
                cases hfin.symm.trans hside
                cases peer with
                | server => exact iff_of_true hdrained (.inl rfl)
                | client =>
                    -- the FIN would have been reported
                    have hdead' := (reported_cases hrep).1.mpr ⟨hflags.1, hside⟩
                    cases hdead.symm.trans hdead'
            | logsIn hstate => cases hready.symm.trans hstate
            | plays hstate => cases hready.symm.trans hstate
            | lists hstate => cases hready.symm.trans hstate
            | establishes hstate => cases hready.symm.trans hstate
            | judges hstate => cases hready.symm.trans hstate
  · cases hs

/-- A relay where one peer sends a byte and a FIN. -/
def sampleClosing (peer : Side) : List ClosingInput :=
  (Instance.sampleCheck ++ Instance.sampleReady ++ [Input.arrive 0 peer [7]]).map .input ++
    [.fin 0 peer]

/-- The game server's byte is relayed, and then the end of its stream is read. -/
def sampleRelayed : List ClosingInput :=
  sampleClosing .server ++ [.input (.event 0 (.outgoingReady { read := true })
    { receive := .upTo 0, sendReceived := .upTo 0 })]

theorem clean_close_of_sample :
    ∃ s s' c c', Run (Instance.sampleSetup []) sampleRelayed s ∧ s.inst.conns 0 = .live c ∧
      step (Instance.sampleSetup []) s (.input (.event 0 (.outgoingReady { read := true })
        { receive := .zero })) = some s' ∧ s'.inst.conns 0 = .gone c' ∧ c'.Drained .server := by
  obtain ⟨s, s', c, c', h, hc, hready, hfin, hs, hgone, hrunning⟩ : ∃ s s' c c',
      Run (Instance.sampleSetup []) sampleRelayed s ∧ s.inst.conns 0 = .live c ∧ c.state = .ready ∧
        s.fin 0 = some .server ∧
        step (Instance.sampleSetup []) s (.input (.event 0 (.outgoingReady { read := true })
          { receive := .zero })) = some s' ∧ s'.inst.conns 0 = .gone c' ∧ s'.inst.crashed = none :=
    ⟨_, _, _, _, rfl, rfl, rfl, rfl, rfl, rfl, rfl⟩
  exact ⟨s, s', c, c', h, hc, hs, hgone,
    (clean_close_iff h hs hc hready hfin hgone hrunning).mpr (.inl rfl)⟩

/-- **The client's last byte is lost**: the event that reports it also reports the FIN. -/
theorem client_bytes_lost :
    ∃ s s' c c', Run (Instance.sampleSetup []) (sampleClosing .client) s ∧
      s.inst.conns 0 = .live c ∧ c.state = .ready ∧ s.fin 0 = some .client ∧
      step (Instance.sampleSetup []) s (.input (.event 0
        (.incomingReady { read := true, readHangup := true }) { receive := .upTo 0 })) = some s' ∧
      s'.inst.conns 0 = .gone c' ∧ s'.inst.crashed = none ∧ ¬ c'.Drained .client := by
  obtain ⟨s, s', c, c', h, hc, hready, hfin, hs, hgone, hrunning, hqueue⟩ : ∃ s s' c c',
      Run (Instance.sampleSetup []) (sampleClosing .client) s ∧ s.inst.conns 0 = .live c ∧
        c.state = .ready ∧ s.fin 0 = some .client ∧
        step (Instance.sampleSetup []) s (.input (.event 0
          (.incomingReady { read := true, readHangup := true }) { receive := .upTo 0 })) = some s' ∧
        s'.inst.conns 0 = .gone c' ∧ s'.inst.crashed = none ∧ c'.client.queue = [7] :=
    ⟨_, _, _, _, rfl, rfl, rfl, rfl, rfl, rfl, rfl, rfl⟩
  refine ⟨s, s', c, c', h, hc, hready, hfin, hs, hgone, hrunning, fun hdrained => ?_⟩
  exact nomatch hqueue.symm.trans hdrained.1

end Closing

end UoLogin

import UoLogin.Connection.Cases

set_option autoImplicit false

/-!
# The two directions of the relay

What one direction of the relay reads and changes is its `lane`: the `READ` flag of the source, the
`WRITE` flag of the sink and the `Splice`. Sending and receiving in one direction leave the other
lane and the `core` of the connection alone (`Frame`), so that the two branches of a socket's handler
can be looked at one after the other.

* `Sends.frame`, `Receives.frame`: the frame conditions of one direction;
* `Sends.lane`, `Receives.lane`: what happens to the lane itself;
* `Flushes`, `Relays`: the `WRITE` branch, and both branches, of a socket's handler.
-/

namespace UoLogin

/-- The connection that a handler leaves. -/
def Result.conn : Result → Connection
  | .alive c | .destroyed c | .crashed _ c => c

/-- What a direction of the relay uses of the connection. -/
structure Lane where
  read : Bool
  write : Bool
  splice : Splice UInt8

/-- What the relay does not change. -/
structure Core where
  remoteHost : List UInt8
  initialPackets : InitialPackets
  fill : ℕ
  state : State
  timeout : Option ℕ
  cancelPtr : Bool
  job : Option (List UInt8 × List UInt8)
  connect : Option ℕ
  play : Bool
  incoming : Bool
  outgoing : Bool

theorem Side.source_outOf (side : Side) : side.outOf.source = side := by cases side <;> rfl

theorem Side.sink_into (side : Side) : side.into.sink = side := by cases side <;> rfl

theorem Side.outOf_ne_into (side : Side) : side.outOf ≠ side.into := by cases side <;> decide

namespace Connection

variable {c c' c'' : Connection} {d : Dir} {ch : SpliceChoice} {r : Result}

def lane (c : Connection) (d : Dir) : Lane where
  read := (c.event d.source).read
  write := (c.event d.sink).write
  splice := c.splice d

def core (c : Connection) : Core where
  remoteHost := c.remoteHost
  initialPackets := c.initialPackets
  fill := c.initialPacketsFill
  state := c.state
  timeout := c.timeout
  cancelPtr := c.cancelPtr
  job := c.job
  connect := c.connect
  play := c.sendPlayServer
  incoming := c.incoming.defined
  outgoing := c.outgoing.defined

theorem lane_emit (c : Connection) (a : Act) (d : Dir) : (c.emit a).lane d = c.lane d := by
  cases d <;> rfl

theorem lane_setInbound (c : Connection) (s : Inbound) (side : Side) (d : Dir) :
    (c.setInbound s side).lane d = c.lane d := by
  cases side <;> cases d <;> rfl

theorem lane_setSplice (c : Connection) (s : Splice UInt8) (d : Dir) :
    (c.setSplice s d).lane d = { c.lane d with splice := s } := by
  cases d <;> rfl

/-- Only direction `d` of the relay changed. -/
structure Frame (d : Dir) (c c' : Connection) : Prop where
  core : c'.core = c.core
  lane : ∀ d', d' ≠ d → c'.lane d' = c.lane d'
  inbound : ∀ side, side ≠ d.source → c'.inbound side = c.inbound side
  stream : (c'.inbound d.source).stream = (c.inbound d.source).stream

theorem Frame.refl (d : Dir) (c : Connection) : Frame d c c :=
  ⟨rfl, fun _ _ => rfl, fun _ _ => rfl, rfl⟩

theorem Frame.trans (h : Frame d c c') (h' : Frame d c' c'') : Frame d c c'' where
  core := h'.core.trans h.core
  lane := fun d' hd => (h'.lane d' hd).trans (h.lane d' hd)
  inbound := fun side hs => (h'.inbound side hs).trans (h.inbound side hs)
  stream := h'.stream.trans h.stream

theorem frame_emit (c : Connection) (d : Dir) (a : Act) : Frame d c (c.emit a) where
  core := rfl
  lane := fun d' _ => lane_emit c a d'
  inbound := fun side _ => by cases side <;> rfl
  stream := by cases d <;> rfl

theorem frame_setSplice (c : Connection) (d : Dir) (s : Splice UInt8) :
    Frame d c (c.setSplice s d) where
  core := by cases d <;> rfl
  lane := fun d' hd => by cases d <;> cases d' <;> first | exact (hd rfl).elim | rfl
  inbound := fun side _ => by cases d <;> cases side <;> rfl
  stream := by cases d <;> rfl

theorem frame_setInbound (c : Connection) (d : Dir) {s : Inbound}
    (h : s.stream = (c.inbound d.source).stream) : Frame d c (c.setInbound s d.source) where
  core := by cases d <;> rfl
  lane := fun d' _ => lane_setInbound c s d.source d'
  inbound := fun side hs => by cases d <;> cases side <;> first | exact (hs rfl).elim | rfl
  stream := by cases d <;> exact h

/-- The flags of a direction: `WRITE` of the sink. -/
theorem frame_sink (c : Connection) (d : Dir) {f : SocketEvent → SocketEvent}
    (hd : ∀ s, (f s).defined = s.defined) (hr : ∀ s, (f s).read = s.read) :
    Frame d c (c.mapEvent f d.sink) where
  core := by cases d <;> simp only [core, mapEvent, Dir.sink, hd]
  lane := fun d' hne => by
    cases d <;> cases d' <;>
      first | exact (hne rfl).elim | simp only [lane, mapEvent, event, splice, Dir.sink, Dir.source, hr]
  inbound := fun side _ => by cases d <;> cases side <;> rfl
  stream := by cases d <;> rfl

/-- The flags of a direction: `READ` of the source. -/
theorem frame_source (c : Connection) (d : Dir) {f : SocketEvent → SocketEvent}
    (hd : ∀ s, (f s).defined = s.defined) (hw : ∀ s, (f s).write = s.write) :
    Frame d c (c.mapEvent f d.source) where
  core := by cases d <;> simp only [core, mapEvent, Dir.source, hd]
  lane := fun d' hne => by
    cases d <;> cases d' <;>
      first | exact (hne rfl).elim | simp only [lane, mapEvent, event, splice, Dir.sink, Dir.source, hw]
  inbound := fun side _ => by cases d <;> cases side <;> rfl
  stream := by cases d <;> rfl

/-! ## Sending -/

theorem frame_delivered (c : Connection) (d : Dir) (s : Splice UInt8) (bytes : List UInt8) :
    Frame d c (c.delivered d s bytes) :=
  ((frame_emit c d _).trans (frame_setSplice _ d s)).trans (frame_emit _ d _)

theorem Sends.frame (h : Sends c d ch r) : Frame d c r.conn := by
  cases h with
  | @drained s bytes =>
      exact (frame_delivered c d s bytes).trans
        (frame_sink _ d (f := .cancelOnlyWrite) (fun _ => rfl) fun _ => rfl)
  | @blocked s bytes =>
      have hr := frame_source (c.delivered d s bytes) d (f := .cancelOnlyRead) (fun _ => rfl)
        fun _ => rfl
      exact ((frame_delivered c d s bytes).trans hr).trans
        (frame_sink _ d (f := .scheduleWrite) (fun _ => rfl) fun _ => rfl)
  | failed => exact frame_delivered c d _ _

/-- A direction that has sent and goes on has either emptied its buffer and stopped waiting for the
sink, or waits for it and has stopped reading. -/
theorem Sends.lane (h : Sends c d ch (.alive c')) :
    ((c'.lane d).read = (c.lane d).read ∧ (c'.lane d).write = false ∧ (c'.lane d).splice.size = 0 ∧
        ∃ n, ch = .upTo n ∧ (c.splice d).size ≤ n + 1) ∨
      ((c'.lane d).read = false ∧ (c'.lane d).write = true ∧ (c'.lane d).splice.size ≠ 0 ∧
        (c'.lane d).splice.pipe.isSome) := by
  cases h with
  | drained hz ht hd hch hn =>
      refine .inl ?_
      cases d <;> exact ⟨rfl, rfl, hz, _, hch, hn⟩
  | blocked hz hp ht hd =>
      refine .inr ?_
      cases d <;> exact ⟨rfl, rfl, hz, hp⟩

/-! ## Receiving -/

theorem frame_received (d : Dir) (s : Splice UInt8) {bytes rest : List UInt8}
    (result : ReceiveResult) (hq : (c.inbound d.source).queue = bytes ++ rest) :
    Frame d c (c.received d s bytes rest result) := by
  have h₁ := (frame_setSplice c d (c.splice d).clearReceived).trans (frame_emit _ d (.receiveFrom d 0))
  refine ((h₁.trans (frame_setInbound _ d ?_)).trans (frame_setSplice _ d s)).trans (frame_emit _ d _)
  rw [h₁.stream]
  exact Inbound.stream_advance hq

theorem Receives.frame (h : Receives c d ch r) : Frame d c r.conn := by
  cases h with
  | throws => exact (frame_setSplice c d _).trans (frame_emit _ d _)
  | got hq ht hd hz hp h =>
      exact ((frame_received d _ _ hq).trans (frame_emit _ d _)).trans h.frame
  | blocked hq ht hd hz => exact frame_received d _ _ hq
  | closed hq ht hd =>
      exact ((frame_received d _ _ hq).trans (frame_emit _ d _)).trans (frame_emit _ d _)
  | failed hq ht hd => exact frame_received d _ _ hq

theorem lane_received (d : Dir) (s : Splice UInt8) (bytes rest : List UInt8)
    (result : ReceiveResult) (c : Connection) :
    (c.received d s bytes rest result).lane d = { c.lane d with splice := s } := by
  unfold received
  rw [lane_emit, lane_setSplice, lane_setInbound, lane_emit, lane_setSplice]

/-- A direction that has received and goes on still reads and has nothing in the buffer, or waits
for the sink. -/
theorem Receives.lane (h : Receives c d ch (.alive c')) :
    ((c'.lane d).read = (c.lane d).read ∧
        ((c'.lane d).write = false ∨ (c'.lane d).write = (c.lane d).write) ∧
        (c'.lane d).splice.size = 0) ∨
      ((c'.lane d).read = false ∧ (c'.lane d).write = true ∧ (c'.lane d).splice.size ≠ 0 ∧
        (c'.lane d).splice.pipe.isSome) := by
  cases h with
  | got hq ht hd hz hp h =>
      rcases h.lane with ⟨hr, hw, hz', -⟩ | h
      · rw [lane_emit, lane_received] at hr
        exact .inl ⟨hr, .inl hw, hz'⟩
      · exact .inr h
  | blocked hq ht hd hz =>
      rw [lane_received]
      exact .inl ⟨rfl, .inr rfl, hz⟩

/-! ## A socket's handler -/

variable {side : Side} {events : Events} {ans : Answers}

/-- The `WRITE` branch. -/
inductive Flushes (c : Connection) (side : Side) (events : Events) (ans : Answers) :
    Connection → Prop
  | skipped (hw : events.write = false) : Flushes c side events ans c
  | sent (hw : events.write = true) (hz : (c.splice side.into).size ≠ 0) {c' : Connection}
      (h : Sends c side.into ans.sendReady (.alive c')) : Flushes c side events ans c'

/-- Both branches. -/
inductive Relays (c : Connection) (side : Side) (events : Events) (ans : Answers) : Result → Prop
  | failed (hw : events.write = true) (hz : (c.splice side.into).size ≠ 0) {c' : Connection}
      (h : Sends c side.into ans.sendReady (.destroyed c')) : Relays c side events ans (.destroyed c')
  | sent {c' : Connection} (h : Flushes c side events ans c') (hr : events.read = false) :
      Relays c side events ans (.alive c')
  | received {c' : Connection} (h : Flushes c side events ans c') (hr : events.read = true)
      {r : Result} (h' : Receives c' side.outOf ans.sendReceived r) : Relays c side events ans r

theorem Flushes.frame (h : Flushes c side events ans c') : Frame side.into c c' := by
  cases h with
  | skipped => exact .refl _ c
  | sent hw hz h => exact h.frame

/-- The relay changes neither the state nor the sockets. -/
theorem Relays.core {side : Side} {events : Events} (h : Relays c side events ans r) :
    r.conn.core = c.core := by
  cases h with
  | failed hw hz h => exact h.frame.core
  | sent h hr => exact h.frame.core
  | received h hr h' => exact h'.frame.core.trans h.frame.core

/-- The `READ` branch finds the splice that the `WRITE` branch left alone. -/
theorem Flushes.splice_outOf (h : Flushes c side events ans c') :
    c'.splice side.outOf = c.splice side.outOf :=
  congrArg Lane.splice (h.frame.lane _ side.outOf_ne_into)

theorem relayReady_relays (stock : PipeStock UInt8)
    (hw : events.write = true → (c.splice side.into).pipe.isSome ∧ (c.splice side.into).size ≠ 0)
    (hr : events.read = true → (c.splice side.outOf).size = 0) :
    Relays c side events ans (relayReady stock c side events ans).2 := by
  have hread : ∀ stock' {c'}, Flushes c side events ans c' →
      Relays c side events ans
        (if events.read then receiveReady stock' c' side.outOf ans else (stock', .alive c')).2 := by
    intro stock' c' hf
    by_cases he : events.read = true
    · rw [if_pos he]
      refine .received hf he (receiveReady_receives stock' _ ans ?_)
      rw [hf.splice_outOf]
      exact hr he
    · rw [if_neg he]
      exact .sent hf ((Bool.not_eq_true _).mp he)
  unfold relayReady
  by_cases he : events.write = true
  · rw [if_pos he]
    have hs := sendOrDestroy_sends stock side.into ans.sendReady (hw he).1 (hw he).2
    generalize hg : sendOrDestroy stock c side.into ans.sendReady = sent at hs
    obtain ⟨stock', res⟩ := sent
    cases res with
    | alive c' => exact hread stock' (.sent he (hw he).2 hs)
    | destroyed c' => exact .failed he (hw he).2 hs
    | crashed why c' => cases hs
  · rw [if_neg he]
    exact hread stock (.skipped ((Bool.not_eq_true _).mp he))

end Connection

end UoLogin

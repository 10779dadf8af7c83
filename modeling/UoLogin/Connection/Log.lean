import UoLogin.Connection.Dispatch

set_option autoImplicit false

/-!
# The log only grows

What the steps of the relay leave in the log, and for every handler that the log of the connection it
leaves continues the one it found (**`Called.log_grows`**).
-/

namespace UoLogin

namespace Connection

variable {setup : Setup} {c : Connection} {r : Result} {stock stock' : PipeStock UInt8} {ans : Answers}

/-! ## The relay -/

section Relay

variable {d : Dir} {ch : SpliceChoice}

theorem log_setSplice (c : Connection) (s : Splice UInt8) (d : Dir) : (c.setSplice s d).log = c.log := by
  cases d <;> rfl

theorem log_setInbound (c : Connection) (s : Inbound) (side : Side) :
    (c.setInbound s side).log = c.log := by
  cases side <;> rfl

theorem log_mapEvent (c : Connection) (f : SocketEvent → SocketEvent) (side : Side) :
    (c.mapEvent f side).log = c.log := by
  cases side <;> rfl

theorem log_delivered (c : Connection) (d : Dir) (s : Splice UInt8) (bytes : List UInt8) :
    (c.delivered d s bytes).log =
      c.log ++ [.sendTo d true (c.splice d).size, .spliced d.sink bytes] := by
  change ((c.emit _).setSplice s d).log ++ [_] = _
  rw [log_setSplice]
  exact List.append_assoc _ _ _

theorem log_received (d : Dir) (s : Splice UInt8) (bytes rest : List UInt8) (result : ReceiveResult)
    (c : Connection) :
    (c.received d s bytes rest result).log = c.log ++ [.receiveFrom d 0, .received d result] := by
  change ((((c.setSplice _ d).emit _).setInbound _ d.source).setSplice s d).log ++ [_] = _
  rw [log_setSplice, log_setInbound]
  change ((c.setSplice _ d).log ++ [_]) ++ [_] = _
  rw [log_setSplice]
  exact List.append_assoc _ _ _

/-- What `DoSpliceSend` leaves in the log. -/
theorem Sends.log (h : Sends c d ch r) :
    ∃ bytes, r.conn.log = c.log ++ [.sendTo d true (c.splice d).size, .spliced d.sink bytes] ∧
      (r.conn.splice d).delivered = (c.splice d).delivered ++ bytes ∧
      (r.conn.splice d).taken = (c.splice d).taken := by
  cases h with
  | @drained s bytes hz ht hd hch hn =>
      refine ⟨bytes, (log_mapEvent _ _ _).trans (log_delivered c d s bytes), ?_, ?_⟩
      · cases d <;> exact hd
      · cases d <;> exact ht
  | @blocked s bytes hz hp ht hd =>
      refine ⟨bytes, ?_, ?_, ?_⟩
      · exact ((log_mapEvent _ _ _).trans (log_mapEvent _ _ _)).trans (log_delivered c d s bytes)
      · cases d <;> exact hd
      · cases d <;> exact ht
  | failed =>
      refine ⟨[], log_delivered c d _ [], ?_, ?_⟩
      · cases d <;> exact (List.append_nil _).symm
      · cases d <;> rfl

theorem Sends.log_grows (h : Sends c d ch r) : c.log <+: r.conn.log := by
  obtain ⟨bytes, hlog, -⟩ := h.log
  exact ⟨_, hlog.symm⟩

theorem Receives.log_grows (h : Receives c d ch r) : c.log <+: r.conn.log := by
  have hreceived : ∀ s bytes rest result, c.log <+: (c.received d s bytes rest result).log :=
    fun s bytes rest result => ⟨_, (log_received d s bytes rest result c).symm⟩
  cases h with
  | throws => exact (log_setSplice c _ d).symm ▸ List.prefix_append _ _
  | got hq ht hd hz hp h =>
      exact ((hreceived _ _ _ _).trans (List.prefix_append _ _)).trans h.log_grows
  | blocked => exact hreceived _ _ _ _
  | closed =>
      exact ((hreceived _ _ _ _).trans (List.prefix_append _ _)).trans (List.prefix_append _ _)
  | failed => exact hreceived _ _ _ _

theorem Relays.log_grows {side : Side} {events : Events} (h : Relays c side events ans r) :
    c.log <+: r.conn.log := by
  have hflush : ∀ {c'}, Flushes c side events ans c' → c.log <+: c'.log := by
    intro c' hf
    cases hf with
    | skipped => exact List.prefix_rfl
    | sent hw hz h => exact h.log_grows
  cases h with
  | failed hw hz h => exact h.log_grows
  | sent h hr => exact hflush h
  | received h hr h' => exact (hflush h).trans h'.log_grows

end Relay

/-! ## Everything else -/

theorem Establishes.log_grows (h : Establishes setup c r) : c.log <+: r.conn.log := by
  cases h with
  | failed => exact List.prefix_rfl
  | sendPlayServer | ready => exact (List.prefix_append _ _).trans (List.prefix_append _ _)

theorem Connects.log_grows {address : SocketAddress} (h : Connects setup address c r) :
    c.log <+: r.conn.log := by
  cases h with
  | pending => exact List.prefix_append _ _
  | failed => exact (List.prefix_append _ _).trans (List.prefix_append _ _)
  | now h => exact (List.prefix_append _ _).trans h.log_grows

theorem Accepts.log_grows (h : Accepts setup c r) : c.log <+: r.conn.log := by
  cases h with
  | failed => exact List.prefix_rfl
  | listed => exact (List.prefix_append _ _).trans (List.prefix_append _ _)
  | direct hl h => exact (List.prefix_append _ _).trans h.log_grows

theorem Judges.log_grows {username : List UInt8} {result : Bool}
    (h : Judges setup username c result r) : c.log <+: r.conn.log := by
  cases h with
  | rejected => exact (List.prefix_append _ _).trans (List.prefix_append _ _)
  | accepted hq h =>
      exact ((List.prefix_append _ _).trans (List.prefix_append _ _)).trans h.log_grows

theorem Completes.log_grows (h : Completes setup c r) : c.log <+: r.conn.log := by
  have hchecking : c.log <+: c.checking.log :=
    (List.prefix_append _ _).trans (List.prefix_append _ _)
  cases h with
  | malformed => exact List.prefix_append _ _
  | throws => exact hchecking.trans (List.prefix_append _ _)
  | noDatabase hw h => exact hchecking.trans h.log_grows
  | queued => exact hchecking

theorem LogsIn.log_grows (h : LogsIn setup c r) : c.log <+: r.conn.log := by
  cases h with
  | failed | short => exact List.prefix_rfl
  | complete hq heq h => exact h.log_grows

theorem Plays.log_grows (h : Plays setup c r) : c.log <+: r.conn.log := by
  cases h with
  | failed => exact List.prefix_rfl
  | connects hq hlen hs h => exact (List.prefix_append _ _).trans h.log_grows

theorem Lists.log_grows (h : Lists c r) : c.log <+: r.conn.log := by
  cases h with
  | failed => exact List.prefix_rfl
  | played => exact (List.prefix_append _ _).trans (List.prefix_append _ _)

/-- **The log only grows.** -/
theorem Called.log_grows {e : Event} (h : Called setup stock c ans e stock' r) :
    c.log <+: r.conn.log := by
  cases h with
  | dies => exact List.prefix_append _ _
  | connectPending => exact List.prefix_rfl
  | logsIn hs h => exact h.log_grows
  | plays hs h => exact h.log_grows
  | lists hs h => exact h.log_grows
  | relays hs hd hdead he h => exact h.log_grows
  | establishes hs h => exact h.log_grows
  | judges hs hj h => exact h.log_grows

end Connection

end UoLogin

import Mathlib.Algebra.BigOperators.Group.List.Basic
import Mathlib.Algebra.Ring.Int.Defs
import UoLogin.Connection.Log

set_option autoImplicit false

/-!
# The counters of one connection

Every counter other than those of the bytes is raised at most once by a connection, and which ones it
has raised is determined by how far it has come (`Stage`).

* `Counted g c`: the log of `c` has raised the counters of stage `g`, and the counters of the bytes
  by what the splices have taken;
* **`Called.counted`**: a live connection is counted as its state says, whatever callback comes, and
  one that is destroyed has come to some stage with the same socket to the game server.
-/

namespace UoLogin

def Metric.ofBytes : Metric → Bool
  | .clientBytes | .serverBytes => true
  | _ => false

/-- The change that an entry of the log makes to a counter. -/
def Act.delta (m : Metric) : Act → Option ℤ
  | .metric m' delta => if m' = m then some delta else none
  | _ => none

/-- The changes of a counter, in order. -/
def changes (m : Metric) (log : List Act) : List ℤ := log.filterMap (Act.delta m)

theorem changes_append (m : Metric) (as bs : List Act) :
    changes m (as ++ bs) = changes m as ++ changes m bs := List.filterMap_append

/-- How far a connection has come: to a state, or to an end that counts. -/
inductive Stage where
  | reached (s : State)
  | malformed
  | rejected
  | unlisted
  | unconnected
  deriving DecidableEq

namespace Stage

/-- The verdict was positive. -/
def accepted : Stage → Bool
  | .reached .initial | .reached .checkCredentials | .malformed | .rejected => false
  | _ => true

/-- The game server has the login packets. -/
def established : Stage → Bool
  | .reached .sendPlayServer | .reached .ready => true
  | _ => false

/-- The counters that were raised on the way to a stage. -/
def counts (g : Stage) : Metric → Bool
  | .clientConnections | .clientConnectionsAccepted => true
  | .serverConnections | .serverConnectionsEstablished => g.established
  | .serverConnectionsFailed => decide (g = .unconnected)
  | .acceptedLogins => g.accepted
  | .rejectedLogins => decide (g = .rejected)
  | .malformedLogins => decide (g = .malformed)
  | .clientBytes | .serverBytes => false

/-- The changes on the way to a stage. -/
def changes (g : Stage) (m : Metric) : List ℤ := if g.counts m then [1] else []

end Stage

namespace Connection

variable {setup : Setup} {c c' : Connection} {r : Result} {stock stock' : PipeStock UInt8}
  {ans : Answers} {g g' : Stage}

structure Counted (g : Stage) (c : Connection) : Prop where
  once : ∀ m, m.ofBytes = false → changes m c.log = g.changes m
  bytes : ∀ d, (changes (bytesMetric d) c.log).sum = (c.splice d).taken.length

/-- From one stage to the next, without bytes. -/
theorem Counted.next (h : Counted g c) {acts : List Act} (hlog : c'.log = c.log ++ acts)
    (htaken : ∀ d, (c'.splice d).taken = (c.splice d).taken)
    (hacts : ∀ m, g.changes m ++ changes m acts = g'.changes m) : Counted g' c' where
  once := fun m hm => by rw [hlog, changes_append, h.once m hm, hacts]
  bytes := fun d => by
    have hnil : changes (bytesMetric d) acts = [] := by
      have hd := hacts (bytesMetric d)
      cases d <;> exact hd
    rw [hlog, changes_append, hnil, List.append_nil, h.bytes, htaken]

/-- The same stage, with nothing logged. -/
theorem Counted.silent (h : Counted g c) (hlog : c'.log = c.log)
    (htaken : ∀ d, (c'.splice d).taken = (c.splice d).taken) : Counted g c' where
  once := fun m hm => by rw [hlog, h.once m hm]
  bytes := fun d => by rw [hlog, h.bytes, htaken]

/-- The same stage, with nothing counted. -/
theorem Counted.same (h : Counted g c) {acts : List Act} (hlog : c'.log = c.log ++ acts)
    (htaken : ∀ d, (c'.splice d).taken = (c.splice d).taken) (hacts : ∀ m, changes m acts = []) :
    Counted g c' :=
  h.next hlog htaken fun m => by rw [hacts, List.append_nil]

theorem changes_charge (m : Metric) (c : Connection) (size : ℕ) : changes m (c.charge size) = [] := by
  unfold charge
  split <;> rfl

theorem changes_rejection {tail : List Act} (h : Rejection tail) (m : Metric) :
    changes m tail = [] := by
  cases h <;> rfl

/-- A live connection is counted as its state says. -/
abbrev CountedLive (c : Connection) : Prop := Counted (.reached c.state) c

/-- A connection at its end: the gauge of the game servers and the socket agree. -/
def CountedPast (c : Connection) : Prop :=
  ∃ g, Counted g c ∧ g.established = c.outgoing.defined

abbrev CountedResult : Result → Prop :=
  Result.Satisfies CountedLive CountedPast fun _ _ => True

/-! ## The login and the server list -/

theorem Establishes.counted (h : Establishes setup c r) (hc : Counted (.reached .connecting) c)
    (ho : c.outgoing.defined = false) : CountedResult r := by
  cases h with
  | failed => exact ⟨_, hc, ho.symm⟩
  | sendPlayServer hb hp =>
      refine hc.next (List.append_assoc ..) (fun d => by cases d <;> rfl) fun m => ?_
      cases m <;> rfl
  | ready hb hp =>
      refine hc.next (List.append_assoc ..) (fun d => by cases d <;> rfl) fun m => ?_
      cases m <;> rfl

theorem Connects.counted {address : SocketAddress} (h : Connects setup address c r)
    (hs : c.state = .connecting) (hc : Counted (.reached .connecting) c)
    (ho : c.outgoing.defined = false) : CountedResult r := by
  have hconnect : Counted (.reached .connecting) (c.emit (.connect address)) :=
    hc.same rfl (fun d => by cases d <;> rfl) fun m => rfl
  cases h with
  | pending =>
      change Counted (.reached c.state) _
      rw [hs]
      exact hconnect.silent rfl fun d => by cases d <;> rfl
  | failed =>
      refine ⟨.unconnected, hconnect.next rfl (fun d => by cases d <;> rfl) fun m => ?_, ho.symm⟩
      cases m <;> rfl
  | now h => exact h.counted hconnect ho

theorem Accepts.counted (h : Accepts setup c r) (hc : Counted .unlisted c)
    (ho : c.outgoing.defined = false) : CountedResult r := by
  cases h with
  | failed hl => exact ⟨_, hc, ho.symm⟩
  | listed hl =>
      refine hc.next (List.append_assoc ..) (fun d => by cases d <;> rfl) fun m => ?_
      cases m <;> rfl
  | direct hl h =>
      refine h.counted rfl (hc.next rfl (fun d => by cases d <;> rfl) fun m => ?_) ho
      cases m <;> rfl

theorem Judges.counted {username : List UInt8} {result : Bool} (h : Judges setup username c result r)
    (hc : Counted (.reached .checkCredentials) c) (ho : c.outgoing.defined = false) :
    CountedResult r := by
  have hjudged : ∀ result, Counted (.reached .checkCredentials) (c.judged username result) :=
    fun result => hc.same rfl (fun d => by cases d <;> rfl) fun m => rfl
  cases h with
  | rejected hq ht he =>
      subst he
      refine ⟨.rejected, (hjudged false).next rfl (fun d => by cases d <;> rfl) fun m => ?_, ho.symm⟩
      rw [List.cons_append, ← List.singleton_append, changes_append, changes_append, changes_charge,
        changes_rejection ht]
      cases m <;> rfl
  | accepted hq h he =>
      subst he
      refine h.counted ((hjudged true).next rfl (fun d => by cases d <;> rfl) fun m => ?_) ho
      rw [changes_append, changes_charge]
      cases m <;> rfl

theorem Completes.counted (h : Completes setup c r) (hc : Counted (.reached .initial) c)
    (ho : c.outgoing.defined = false) : CountedResult r := by
  have hchecking : Counted (.reached .checkCredentials) c.checking := by
    refine hc.next (List.append_assoc ..) (fun d => by cases d <;> rfl) fun m => ?_
    cases m <;> rfl
  cases h with
  | malformed hq ht hs he =>
      subst he
      refine ⟨.malformed, hc.next rfl (fun d => by cases d <;> rfl) fun m => ?_, ho.symm⟩
      rw [List.cons_append, ← List.singleton_append, changes_append, changes_append, changes_charge,
        changes_rejection ht]
      cases m <;> rfl
  | throws hw hq ht he =>
      subst he
      refine ⟨_, hchecking.same rfl (fun d => by cases d <;> rfl) fun m => ?_, ho.symm⟩
      rw [changes_append, changes_charge, changes_rejection ht]
      rfl
  | noDatabase hw h => exact h.counted hchecking ho
  | queued hw =>
      exact hchecking.silent rfl fun d => by cases d <;> rfl

theorem LogsIn.counted (h : LogsIn setup c r) (hs : c.state = .initial)
    (hc : Counted (.reached .initial) c) (ho : c.outgoing.defined = false) : CountedResult r := by
  have hfilled : ∀ bytes rest, Counted (.reached .initial) (c.filled bytes rest) := fun _ _ =>
    hc.silent rfl fun d => by cases d <;> rfl
  cases h with
  | failed => exact ⟨_, hc, ho.symm⟩
  | short hq hlt =>
      change Counted (.reached c.state) _
      rw [hs]
      exact hfilled _ _
  | complete hq heq h => exact h.counted (hfilled _ _) ho

theorem Plays.counted (h : Plays setup c r) (hc : Counted (.reached .serverList) c)
    (ho : c.outgoing.defined = false) : CountedResult r := by
  cases h with
  | failed hs =>
      refine ⟨_, hc.silent rfl fun d => ?_, ho.symm⟩
      cases d <;> rfl
  | connects hq hlen hs h =>
      refine h.counted rfl (hc.next rfl (fun d => by cases d <;> rfl) fun m => ?_) ho
      cases m <;> rfl

theorem Lists.counted (h : Lists c r) (hc : Counted (.reached .sendPlayServer) c)
    (ho : c.outgoing.defined = true) : CountedResult r := by
  cases h with
  | failed hs =>
      refine ⟨_, hc.silent rfl fun d => ?_, ho.symm⟩
      cases d <;> rfl
  | played hq hlen hle =>
      refine hc.next (List.append_assoc ..) (fun d => by cases d <;> rfl) fun m => ?_
      cases m <;> rfl

/-! ## The relay -/

theorem Sends.counted {d : Dir} {ch : SpliceChoice} (h : Sends c d ch r) (hc : Counted g c) :
    Counted g r.conn := by
  have hdelivered : ∀ {s : Splice UInt8} bytes, s.taken = (c.splice d).taken →
      Counted g (c.delivered d s bytes) := by
    intro s bytes ht
    refine hc.same (log_delivered c d s bytes) (fun d' => ?_) fun m => rfl
    cases d <;> cases d' <;> first | rfl | exact ht
  cases h with
  | @drained s bytes hz ht hd hch hn =>
      exact (hdelivered bytes ht).silent (log_mapEvent ..)
        fun d' => congrArg Splice.taken (splice_mapEvent ..)
  | @blocked s bytes hz hp ht hd =>
      exact (hdelivered bytes ht).silent ((log_mapEvent ..).trans (log_mapEvent ..))
        fun d' => congrArg Splice.taken ((splice_mapEvent ..).trans (splice_mapEvent ..))
  | failed => exact hdelivered [] rfl

theorem changes_received (d d' : Dir) (n : ℕ) :
    changes (bytesMetric d') [.receiveFrom d 0, .received d .ok, .metric (bytesMetric d) n] =
      if d' = d then [(n : ℤ)] else [] := by
  cases d <;> cases d' <;> rfl

/-- `bytes` were taken, and counted. -/
theorem Counted.received (hc : Counted g c) {d : Dir} {s : Splice UInt8} {bytes : List UInt8}
    (rest : List UInt8) (ht : s.taken = (c.splice d).taken ++ bytes) :
    Counted g ((c.received d s bytes rest .ok).emit (.metric (bytesMetric d) bytes.length)) := by
  have hlog : ((c.received d s bytes rest .ok).emit (.metric (bytesMetric d) bytes.length)).log =
      c.log ++ [.receiveFrom d 0, .received d .ok, .metric (bytesMetric d) bytes.length] := by
    change (c.received d s bytes rest .ok).log ++ _ = _
    rw [log_received]
    exact List.append_assoc ..
  constructor
  · intro m hm
    rw [hlog, changes_append, hc.once m hm]
    cases d <;> cases m <;> first | exact List.append_nil _ | cases hm
  · intro d'
    rw [hlog, changes_append, List.sum_append, hc.bytes, changes_received, splice_emit]
    by_cases hd : d' = d
    · rw [if_pos hd, hd, splice_received, ht, List.sum_singleton, List.length_append]
      push_cast
      rfl
    · rw [if_neg hd, splice_received_of_ne hd, List.sum_nil, add_zero]

theorem Receives.counted {d : Dir} {ch : SpliceChoice} (h : Receives c d ch r) (hc : Counted g c)
    (hr : ∀ why c', r ≠ .crashed why c') : Counted g r.conn := by
  have hnothing : ∀ {s : Splice UInt8} rest result, s.taken = (c.splice d).taken →
      Counted g (c.received d s [] rest result) := by
    intro s rest result ht
    refine hc.same (log_received ..) (fun d' => ?_) fun m => rfl
    cases d <;> cases d' <;> first | rfl | exact ht
  cases h with
  | throws => exact (hr _ _ rfl).elim
  | got hq ht hd hz hp h hn =>
      subst hn
      exact h.counted (hc.received _ ht)
  | blocked hq ht hd hz => exact hnothing _ _ ht
  | closed hq ht hd =>
      refine (hnothing _ .socketClosed ht).same (List.append_assoc ..) (fun d' => ?_) fun m => rfl
      cases d <;> cases d' <;> rfl
  | failed hq ht hd => exact hnothing _ _ ht

theorem Relays.counted {side : Side} {events : Events} (h : Relays c side events ans r)
    (hc : Counted g c) (hr : ∀ why c', r ≠ .crashed why c') : Counted g r.conn := by
  have hflush : ∀ {c'}, Flushes c side events ans c' → Counted g c' := by
    intro c' hf
    cases hf with
    | skipped => exact hc
    | sent hw hz h => exact h.counted hc
  cases h with
  | failed hw hz h => exact h.counted hc
  | sent h hr => exact hflush h
  | received h hread h' => exact h'.counted (hflush h) hr

/-! ## Every callback -/

/-- **The counters follow the stages.** -/
theorem Called.counted {e : Event} (h : Called setup stock c ans e stock' r) (hi : Inv setup c)
    (hc : CountedLive c) : CountedResult r := by
  have hestablished : c.outgoing.defined = (Stage.reached c.state).established := by
    refine (congrArg Resources.outgoing hi.resources).trans ?_
    cases c.state <;> rfl
  cases h with
  | @dies _ timeout connect quiet hq he =>
      cases he with
      | initialHangup | hangup | serverHangup | timeout =>
          refine ⟨.reached c.state, hc.same rfl (fun d => by cases d <;> rfl) fun m => ?_,
            hestablished.symm⟩
          first | exact changes_charge m c _ | rfl
      | connectError hs =>
          rw [hs] at hestablished
          refine ⟨.unconnected, hc.next rfl (fun d => by cases d <;> rfl) fun m => ?_,
            hestablished.symm⟩
          rw [hs]
          cases m <;> rfl
  | connectPending hs hl => trivial
  | logsIn hs h =>
      unfold CountedLive at hc
      rw [hs] at hc hestablished
      exact h.counted hs hc hestablished
  | plays hs h =>
      unfold CountedLive at hc
      rw [hs] at hc hestablished
      exact h.counted hc hestablished
  | lists hs h =>
      unfold CountedLive at hc
      rw [hs] at hc hestablished
      exact h.counted hc hestablished
  | @relays side events hs hd hdead _ r he h =>
      have hcore := h.core
      cases r with
      | alive c' =>
          change Counted (.reached c'.state) c'
          rw [show c'.state = c.state from congrArg Core.state hcore]
          exact h.counted hc fun _ _ he => by cases he
      | destroyed c' =>
          refine ⟨.reached c.state, h.counted hc fun _ _ he => (by cases he), ?_⟩
          exact hestablished.symm.trans (congrArg Core.outgoing hcore).symm
      | crashed why c' => trivial
  | establishes hs h =>
      unfold CountedLive at hc
      rw [hs] at hc hestablished
      refine h.counted (hc.silent rfl fun d => ?_) hestablished
      cases d <;> rfl
  | judges hs hj h =>
      unfold CountedLive at hc
      rw [hs] at hc hestablished
      refine h.counted (hc.silent rfl fun d => ?_) hestablished
      cases d <;> rfl

theorem counted_new (remoteHost : List UInt8) (perClient : Option UInt64) :
    CountedLive (new remoteHost perClient) where
  once := fun m _ => by cases m <;> rfl
  bytes := fun d => by cases d <;> rfl

end Connection

end UoLogin

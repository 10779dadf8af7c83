import UoLogin.Database.FailClosed
import UoLogin.Lib.Refinement
import UoLogin.Requesters.Delivery

set_option autoImplicit false

/-!
# The parts of the daemon

One input of the daemon is a few inputs of its parts: the connections with their pipe stock, and the
database with its jobs.

* `Cause`, `Moves`, **`step_moves`**: what an input does to the connections, and why one is called back;
* **`step_instance`**, **`step_checker`**: the inputs of the `Instance` and of the `Checker` that an input
  of the daemon consists of;
* **`holds_run`**: the rule for facts about the connections of a daemon, as `Instance.holds_run` is for
  those of an `Instance`, with the destructions at shutdown.
-/

namespace UoLogin

open Connection

namespace Daemon

variable {setup : DaemonSetup} {s s' : Daemon}

/-! ## The connections -/

/-- Why a connection is called back: the library calls it, or the job that it waits for is done. -/
inductive Cause (s : Daemon) (id : ℕ) (c : Connection) : Input → Event → Answers → Prop
  | event {e : Event} {ans : Answers} {reload : ReloadAnswers} (he : ∀ result, e ≠ .checkDone result) :
      Cause s id c (.event id e ans reload) e (ans.with (s.checked reload))
  | done {call : ℕ} {job : Job} {result : Bool} {ans : Answers} (hj : s.checker.jobs call = some job)
      (hr : s.callbacks call = some (.connection id)) (hn : job.canceled = false)
      (hstate : job.state = .finished result) (hjob : c.job = some (job.username, job.password)) :
      Cause s id c (.done call ans) (.checkDone result) ans

/-- What an input does to the connections. -/
inductive Moves (setup : DaemonSetup) (s : Daemon) : Input → Instance → Prop
  | accept {id : ℕ} {remoteHost : List UInt8} {perClient : Option UInt64}
      (hc : s.inst.conns id = .vacant) :
      Moves setup s (.accept id remoteHost perClient)
        (s.inst.setConn s.inst.stock id (.live (new remoteHost perClient)))
  | arrive {id : ℕ} {side : Side} {bytes : List UInt8} {c : Connection} (hc : s.inst.conns id = .live c) :
      Moves setup s (.arrive id side bytes) (s.inst.setConn s.inst.stock id (.live (c.arrive side bytes)))
  | discard {k : ℕ} : Moves setup s (.discard k) { s.inst with stock := s.inst.stock.discard k }
  | called {input : Input} {id : ℕ} {c c' : Connection} {e : Event} {ans : Answers}
      {stock : PipeStock UInt8} {r : Result} (hcause : s.Cause id c input e ans)
      (hc : s.inst.conns id = .live c) (hd : dispatch setup.setup s.inst.stock c ans e = some (stock, r))
      (hr : r = .alive c' ∨ r = .destroyed c') : Moves setup s input (s.inst.settle id stock r)
  | crashed {input : Input} {id : ℕ} {c c' : Connection} {e : Event} {ans : Answers}
      {stock : PipeStock UInt8} {why : Stop} (hcause : s.Cause id c input e ans)
      (hc : s.inst.conns id = .live c)
      (hd : dispatch setup.setup s.inst.stock c ans e = some (stock, .crashed why c')) :
      Moves setup s input { s.inst with crashed := some why }
  | destroyed {id : ℕ} {c : Connection} (hc : s.inst.conns id = .live c) :
      Moves setup s (.destroy id) (s.inst.settle id s.inst.stock (.destroyed c))
  | datagram {nftSet : Option (List UInt8)} {address : SocketAddress} {payload : List UInt8}
      {reload : ReloadAnswers} : Moves setup s (.datagram nftSet address payload reload) s.inst
  | start {call : ℕ} : Moves setup s (.start call) s.inst
  | run {call : ℕ} {getFails : Bool} : Moves setup s (.run call getFails) s.inst
  | done {call : ℕ} {job : Job} {ans : Answers} (hj : s.checker.jobs call = some job)
      (hr : job.canceled = true ∨ ∃ k, s.callbacks call = some (.knock k)) :
      Moves setup s (.done call ans) s.inst

@[simp] theorem inst_emits (es : List (Callbacks.Entry Requester)) (s : Daemon) :
    (s.emits es).inst = s.inst := rfl

@[simp] theorem inst_cancel (r : Requester) (s : Daemon) : (s.cancel r).inst = s.inst := by
  unfold cancel
  split
  · rfl
  · split <;> rfl

@[simp] theorem inst_checkCredentials (r : Requester) (username password : List UInt8)
    (reload : ReloadAnswers) (s : Daemon) :
    (s.checkCredentials r username password reload).inst = s.inst := by
  unfold checkCredentials
  dsimp only
  split <;> rfl

@[simp] theorem inst_answer (k : ℕ) (knock : PendingKnock) (result : Bool) (s : Daemon) :
    (s.answer setup k knock result).inst = s.inst := by
  unfold answer
  dsimp only
  split <;> rfl

theorem inst_onDatagram (setup : DaemonSetup) (nftSet : Option (List UInt8)) (address : SocketAddress)
    (payload : List UInt8) (reload : ReloadAnswers) (s : Daemon) :
    (s.onDatagram setup nftSet address payload reload).inst = s.inst := by
  unfold onDatagram
  split
  · rfl
  · dsimp only
    split <;> simp

theorem inst_settle_alive (id : ℕ) (stock : PipeStock UInt8) (c : Connection) (s : Daemon) :
    (s.settle id stock (.alive c)).inst = s.inst.settle id stock (.alive c) := rfl

theorem inst_settle_destroyed (id : ℕ) (stock : PipeStock UInt8) (c : Connection) (s : Daemon) :
    (s.settle id stock (.destroyed c)).inst = s.inst.settle id stock (.destroyed c) := by
  unfold settle
  dsimp only
  split <;> simp

/-- What a handler leaves. -/
theorem moves_settle {input : Input} {id : ℕ} {c : Connection} {e : Event} {ans : Answers}
    {stock : PipeStock UInt8} {r : Result} (hcause : s.Cause id c input e ans)
    (hc : s.inst.conns id = .live c) (hd : dispatch setup.setup s.inst.stock c ans e = some (stock, r))
    {t : Daemon} (ht : t.inst = s.inst) : Moves setup s input (t.settle id stock r).inst := by
  cases r with
  | alive c' =>
      rw [inst_settle_alive, ht]
      exact .called hcause hc hd (.inl rfl)
  | destroyed c' =>
      rw [inst_settle_destroyed, ht]
      exact .called hcause hc hd (.inr rfl)
  | crashed why c' =>
      change Moves setup s input { t.inst with crashed := some why }
      rw [ht]
      exact .crashed hcause hc hd

/-- The connection that a job calls back has it, so that the callback is one of the library. -/
theorem Coherent.dispatch_done (h : Coherent setup s) {call id : ℕ} {job : Job}
    (hj : s.checker.jobs call = some job) (hr : s.callbacks call = some (.connection id))
    (hn : job.canceled = false) (result : Bool) (ans : Answers) :
    ∃ c, s.inst.conns id = .live c ∧ c.job = some (job.username, job.password) ∧
      dispatch setup.setup s.inst.stock c ans (.checkDone result) =
        some (s.inst.stock, (c.setJob none).onCheckCredentials setup.setup ans job.username result) := by
  obtain ⟨c, hc, -⟩ := h.holder hj hr hn
  have hjob := h.credentials call job id c hj hr hn hc
  refine ⟨c, hc, hjob, ?_⟩
  simp only [dispatch, hjob]

/-- `delete this` at the end of `Done()`, which a callback that ends the process does not reach. -/
def deleteJob (call : ℕ) (job : Job) (result : Bool) (s : Daemon) : Daemon :=
  match s.inst.crashed with
  | some _ => s
  | none => { s with checker := s.checker.doneJob call job result }.emits [.free call]

theorem done_eq (setup : DaemonSetup) (call : ℕ) (job : Job) (result : Bool) (ans : Answers) (s : Daemon) :
    s.done setup call job result ans =
      (if job.canceled then s.emits [.done call] else
        match (s.emits [.done call]).callbacks call with
        | some r => (s.emits [.done call]).callBack setup call r job.username result ans
        | none => s.emits [.done call]).deleteJob call job result := rfl

theorem inst_done {call : ℕ} {job : Job} {result : Bool} {ans : Answers} :
    (s.done setup call job result ans).inst =
      (if job.canceled then s else
        match s.callbacks call with
        | some r => (s.emits [.done call]).callBack setup call r job.username result ans
        | none => s).inst := by
  unfold done
  cases hn : job.canceled with
  | true =>
      simp only [if_true]
      split <;> rfl
  | false =>
      simp only [Bool.false_eq_true, if_false]
      cases hr : s.callbacks call with
      | none =>
          simp only [emits, hr]
          split <;> rfl
      | some r =>
          simp only [emits, hr]
          split <;> rfl

theorem Coherent.moves_done (h : Coherent setup s) {call : ℕ} {job : Job} {result : Bool}
    (hj : s.checker.jobs call = some job) (hstate : job.state = .finished result) (ans : Answers) :
    Moves setup s (.done call ans) (s.done setup call job result ans).inst := by
  rw [inst_done]
  cases hn : job.canceled with
  | true =>
      rw [if_pos rfl]
      exact .done hj (.inl hn)
  | false =>
      obtain ⟨r, hr, -⟩ := h.ticket hj
      simp only [hr, Bool.false_eq_true, if_false]
      cases r with
      | connection id =>
          obtain ⟨c, hc, hjob, hd⟩ := h.dispatch_done hj hr hn result ans
          unfold callBack
          simp only [emits, hc]
          exact moves_settle (.done hj hr hn hstate hjob) hc hd rfl
      | knock k =>
          have hstill : Moves setup s (.done call ans) s.inst := .done hj (.inr ⟨k, hr⟩)
          unfold callBack
          simp only [emits]
          split
          · rw [inst_answer]
            exact hstill
          · exact hstill

/-- **What an input does to the connections.** -/
theorem step_moves {input : Input} (h : Coherent setup s) (hs : step setup s input = some s') :
    s.inst.crashed = none ∧ s.checker.crashed = none ∧ Moves setup s input s'.inst := by
  unfold step at hs
  split at hs
  · rename_i hinst hchecker
    refine ⟨hinst, hchecker, ?_⟩
    cases input with
    | accept =>
        obtain ⟨inst, hi, rfl⟩ := Option.map_eq_some_iff.mp hs
        cases (Instance.step_cases hi).2 with
        | accept hc => exact .accept hc
    | arrive =>
        obtain ⟨inst, hi, rfl⟩ := Option.map_eq_some_iff.mp hs
        cases (Instance.step_cases hi).2 with
        | arrive hc => exact .arrive hc
    | discard =>
        obtain ⟨inst, hi, rfl⟩ := Option.map_eq_some_iff.mp hs
        cases (Instance.step_cases hi).2 with
        | discard => exact .discard
    | event id e ans reload =>
        simp only at hs
        split at hs
        · cases hs
        · rename_i c e hc he
          obtain ⟨⟨stock, r⟩, hd, rfl⟩ := Option.map_eq_some_iff.mp hs
          simp only
          split
          · exact moves_settle (.event he) hc hd (inst_checkCredentials ..)
          · exact moves_settle (.event he) hc hd rfl
        · cases hs
    | destroy id =>
        simp only at hs
        split at hs
        · rename_i c hc
          cases hs
          rw [inst_settle_destroyed]
          exact .destroyed hc
        · cases hs
    | datagram nftSet address payload reload =>
        cases hs
        rw [inst_onDatagram]
        exact .datagram
    | start call =>
        obtain ⟨checker, hc, rfl⟩ := Option.map_eq_some_iff.mp hs
        exact .start
    | run call getFails =>
        obtain ⟨checker, hc, rfl⟩ := Option.map_eq_some_iff.mp hs
        exact .run
    | done call ans =>
        simp only at hs
        split at hs
        · rename_i job hj
          split at hs
          · rename_i hstate
            cases hs
            exact h.moves_done hj hstate ans
          · cases hs
        · cases hs
  · cases hs

/-- The callback that an input is, in the terms of the `Instance`. -/
theorem instance_event {id : ℕ} {c : Connection} (hinst : s.inst.crashed = none)
    (hc : s.inst.conns id = .live c) {e : Event} {ans : Answers} {stock : PipeStock UInt8} {r : Result}
    (hd : dispatch setup.setup s.inst.stock c ans e = some (stock, r)) :
    Machine.run (Instance.step setup.setup) s.inst [.event id e ans] =
      some (s.inst.settle id stock r) := by
  have hs : s.inst.step setup.setup (.event id e ans) = some (s.inst.settle id stock r) := by
    simp only [Instance.step, hinst, hc, hd]
    rfl
  rw [Machine.run_cons, hs]
  rfl

/-- **The connections of a daemon move like those of an `Instance`**, as long as none is destroyed by the
shutdown. Only what the end of the process leaves differs. -/
theorem step_instance {input : Input} (h : Coherent setup s) (hs : step setup s input = some s')
    (hdestroy : ∀ id, input ≠ .destroy id) :
    ∃ inputs inst, Machine.run (Instance.step setup.setup) s.inst inputs = some inst ∧
      inst.crashed = s'.inst.crashed ∧ (s'.inst.crashed = none → inst = s'.inst) := by
  obtain ⟨hinst, -, hmoves⟩ := step_moves h hs
  generalize s'.inst = inst' at hmoves
  cases hmoves with
  | @accept id remoteHost perClient hc =>
      refine ⟨[.accept id remoteHost perClient], _, ?_, rfl, fun _ => rfl⟩
      simp only [Machine.run, Instance.step, hinst, hc, Option.bind_some]
  | @arrive id side bytes c hc =>
      refine ⟨[.arrive id side bytes], _, ?_, rfl, fun _ => rfl⟩
      simp only [Machine.run, Instance.step, hinst, hc, Option.bind_some]
  | @discard k =>
      refine ⟨[.discard k], _, ?_, rfl, fun _ => rfl⟩
      simp only [Machine.run, Instance.step, hinst, Option.bind_some]
  | called _ hc hd => exact ⟨_, _, instance_event hinst hc hd, rfl, fun _ => rfl⟩
  | crashed _ hc hd => exact ⟨_, _, instance_event hinst hc hd, rfl, fun he => (by cases he)⟩
  | destroyed => exact (hdestroy _ rfl).elim
  | datagram | start | run | done => exact ⟨[], s.inst, rfl, rfl, fun _ => rfl⟩

section Holds

variable {L G : Connection → Prop}

/-- **Facts about connections are kept by every input.** -/
theorem holds_step {input : Input} (hnew : ∀ remoteHost perClient, L (new remoteHost perClient))
    (harrive : ∀ {c} side bytes, L c → L (c.arrive side bytes))
    (hcall : ∀ {stock c ans e stock' r}, Connection.Inv setup.setup c → c.Books → r.conn.Books → L c →
      Called setup.setup stock c ans e stock' r → r.Satisfies L G fun _ => G)
    (hdestroyed : ∀ {c}, L c → G c) (hgone : ∀ {stock c}, G c → G (c.destructor stock).2)
    (h : Coherent setup s) (hh : Instance.Holds L G s.inst) (hs : step setup s input = some s') :
    Instance.Holds L G s'.inst := by
  obtain ⟨hinst, -, hmoves⟩ := step_moves h hs
  have hgood := h.good hinst
  generalize s'.inst = inst' at hmoves
  cases hmoves with
  | accept hc =>
      refine hh.setConn (fun c he => ?_) fun c he => (by cases he)
      cases he
      exact hnew _ _
  | arrive hc =>
      refine hh.setConn (fun c he => ?_) fun c he => (by cases he)
      cases he
      exact harrive _ _ (hh.live hc)
  | discard | crashed | datagram | start | run | done => exact ⟨hh.live, hh.gone⟩
  | called _ hc hd hr =>
      have hcalled := dispatch_called (hgood.live hc) hd
      have hsat := hcall (hgood.live hc) (hgood.books hinst hc) (hgood.books_called hinst hc hcalled)
        (hh.live hc) hcalled
      rcases hr with rfl | rfl
      · refine hh.setConn (fun c he => ?_) fun c he => (by cases he)
        cases he
        exact hsat
      · refine hh.setConn (fun c he => (by cases he)) fun c he => ?_
        cases he
        exact hgone hsat
  | destroyed hc =>
      refine hh.setConn (fun c he => (by cases he)) fun c he => ?_
      cases he
      exact hgone (hdestroyed (hh.live hc))

/-- **Facts about the connections of a daemon.** -/
theorem holds_run {d : Database} {inputs : List Input}
    (hnew : ∀ remoteHost perClient, L (new remoteHost perClient))
    (harrive : ∀ {c} side bytes, L c → L (c.arrive side bytes))
    (hcall : ∀ {stock c ans e stock' r}, Connection.Inv setup.setup c → c.Books → r.conn.Books → L c →
      Called setup.setup stock c ans e stock' r → r.Satisfies L G fun _ => G)
    (hdestroyed : ∀ {c}, L c → G c) (hgone : ∀ {stock c}, G c → G (c.destructor stock).2)
    (h : Run setup d inputs s) : Instance.Holds L G s.inst :=
  (Machine.invariant (I := fun s => Coherent setup s ∧ Instance.Holds L G s.inst)
    (fun _ _ _ hI hs => ⟨coherent_step hI.1 hs,
      holds_step hnew harrive hcall hdestroyed hgone hI.1 hI.2 hs⟩)
    ⟨coherent_new d, ⟨fun he => (by cases he), fun he => (by cases he)⟩⟩ h).2

end Holds

/-! ## The database and the jobs -/

/-- The checker, but for how the process ended. -/
structure SameChecker (s t : Checker) : Prop where
  database : t.database = s.database
  jobs : t.jobs = s.jobs
  calls : t.calls = s.calls

/-- Some inputs of the checker lead to this, unless the process has ended. -/
def Asks (setup : DaemonSetup) (s : Checker) (s' : Checker) : Prop :=
  ∃ inputs t, Machine.run (Checker.step setup.verifier) s inputs = some t ∧ SameChecker s' t ∧
    (s'.crashed = none → t.crashed = none)

theorem asks_refl (s : Checker) : Asks setup s s := ⟨[], s, rfl, ⟨rfl, rfl, rfl⟩, id⟩

theorem asks_step {s s' : Checker} {input : Checker.Input}
    (h : Checker.step setup.verifier s input = some s') : Asks setup s s' := by
  refine ⟨[input], s', ?_, ⟨rfl, rfl, rfl⟩, id⟩
  rw [Machine.run_cons, h]
  rfl

@[simp] theorem checker_emits (es : List (Callbacks.Entry Requester)) (s : Daemon) :
    (s.emits es).checker = s.checker := rfl

theorem checker_checkCredentials (r : Requester) (username password : List UInt8)
    (reload : ReloadAnswers) (s : Daemon) : (s.checkCredentials r username password reload).checker =
      s.checker.checkCredentials username password reload := by
  unfold checkCredentials
  dsimp only
  split <;> rfl

@[simp] theorem checker_answer (k : ℕ) (knock : PendingKnock) (result : Bool) (s : Daemon) :
    (s.answer setup k knock result).checker = s.checker := by
  unfold answer
  dsimp only
  split <;> rfl

/-- A connection that is destroyed without a `cancel_ptr` leaves the jobs alone. -/
theorem checker_settle {id : ℕ} {stock : PipeStock UInt8} {r : Result}
    (hr : ∀ c, r = .destroyed c → c.cancelPtr = false) :
    (s.settle id stock r).checker = s.checker := by
  cases r with
  | alive c | crashed why c => rfl
  | destroyed c =>
      unfold settle
      simp [hr c rfl]

/-- `cancel_ptr.Cancel()`, if there is one. -/
theorem Coherent.asks_settle (h : Coherent setup s) (hchecker : s.checker.crashed = none) {id : ℕ}
    {c c' : Connection} (hc : s.inst.conns id = .live c) (hp : c'.cancelPtr = c.cancelPtr)
    {stock : PipeStock UInt8} : Asks setup s.checker (s.settle id stock (.destroyed c')).checker := by
  unfold settle
  simp only [checker_emits]
  split
  · rename_i hcancel
    unfold cancel
    cases hptr : s.cancelPtr (.connection id) with
    | none => exact asks_refl _
    | some call =>
        have hw := waits_live hc
        rw [← hp, if_pos hcancel, hptr] at hw
        obtain ⟨job, hj, -, hn⟩ := job_of_ticket ((h.inv.waits _ _).mp hw)
        simp only [hj]
        have hs : Checker.step setup.verifier s.checker (.cancel call) =
            some (s.checker.cancelJob call job) := by
          simp only [Checker.step, hchecker, hj, hn, Bool.false_eq_true, if_false]
        exact asks_step hs
  · exact asks_refl _

theorem asks_checkCredentials {s : Checker} (hchecker : s.crashed = none) (username password : List UInt8)
    (reload : ReloadAnswers) : Asks setup s (s.checkCredentials username password reload) := by
  have hs : Checker.step setup.verifier s (.checkCredentials username password reload) =
      some (s.checkCredentials username password reload) := by
    simp only [Checker.step, hchecker]
  exact asks_step hs

/-- A callback of a connection asks at most once, or cancels its check. -/
theorem Coherent.asks_event (h : Coherent setup s) (hinst : s.inst.crashed = none)
    (hchecker : s.checker.crashed = none) {id : ℕ} {c : Connection} (hc : s.inst.conns id = .live c)
    {e : Event} (he : ∀ result, e ≠ .checkDone result) {ans : Answers} {reload : ReloadAnswers}
    (hs : s.event setup id c e ans reload = some s') : Asks setup s.checker s'.checker := by
  obtain ⟨⟨stock, r⟩, hd, rfl⟩ := Option.map_eq_some_iff.mp hs
  have hasked : ∀ username password, (∀ c', r = .destroyed c' → c'.cancelPtr = false) →
      Asks setup s.checker
        ((s.checkCredentials (.connection id) username password reload).settle id stock r).checker := by
    intro username password hr
    rw [checker_settle hr, checker_checkCredentials]
    exact asks_checkCredentials hchecker username password reload
  cases dispatch_consults ((h.good hinst).live hc) hd he with
  | unasked hu =>
      simp only [hu.consulted]
      cases r with
      | alive c' | crashed why c' => exact asks_refl _
      | destroyed c' => exact h.asks_settle hchecker hc hu.cancelPtr
  | throws hch hn ha hp =>
      simp only [Result.conn, ha]
      exact hasked _ _ fun c' he => by cases he; exact hp
  | noDatabase hch hn ha hp hr =>
      simp only [ha]
      exact hasked _ _ fun c' he => by subst he; exact hp
  | queued hch hn ha hp hj =>
      simp only [Result.conn, ha]
      exact hasked _ _ fun c' he => by cases he

theorem asks_onDatagram (hchecker : s.checker.crashed = none) (nftSet : Option (List UInt8))
    (address : SocketAddress) (payload : List UInt8) (reload : ReloadAnswers) :
    Asks setup s.checker (s.onDatagram setup nftSet address payload reload).checker := by
  unfold onDatagram
  split
  · exact asks_refl _
  · rename_i username password hdatagram
    have hasks : Asks setup s.checker (s.checker.checkCredentials username password reload) :=
      asks_checkCredentials hchecker username password reload
    obtain ⟨inputs, t, hrun, hsame, hcrashed⟩ := hasks
    dsimp only
    split
    · rw [checker_checkCredentials]
      exact ⟨inputs, t, hrun, ⟨hsame.database, hsame.jobs, hsame.calls⟩, fun he => (by cases he)⟩
    · rw [checker_answer, checker_checkCredentials]
      exact ⟨inputs, t, hrun, hsame, hcrashed⟩
    · rw [checker_checkCredentials]
      exact ⟨inputs, t, hrun, hsame, hcrashed⟩

/-- A callback leaves the jobs alone. -/
theorem Coherent.checker_callBack (h : Coherent setup s) (hinst : s.inst.crashed = none) {call : ℕ}
    {job : Job} {r : Requester} (hj : s.checker.jobs call = some job) (hr : s.callbacks call = some r)
    (hn : job.canceled = false) (result : Bool) (ans : Answers) :
    ((s.emits [.done call]).callBack setup call r job.username result ans).checker = s.checker := by
  cases r with
  | connection id =>
      obtain ⟨c, hc, hjob, -⟩ := h.dispatch_done hj hr hn result ans
      have hi := (h.good hinst).live hc
      have hs := hi.job_iff.mp (hjob ▸ rfl)
      have hjudges : Judges setup.setup job.username (c.setJob none) result _ :=
        onCheckCredentials_judges ans job.username result hs (hi.full fun he => by cases hs.symm.trans he)
      unfold callBack
      simp only [emits, hc]
      refine (checker_settle fun c' he => ?_).trans rfl
      have hp := hjudges.cancelPtr.1
      rw [he] at hp
      exact hp
  | knock k =>
      unfold callBack
      simp only [emits]
      split
      · rw [checker_answer]
      · rfl

theorem Coherent.asks_done (h : Coherent setup s) (hinst : s.inst.crashed = none)
    (hchecker : s.checker.crashed = none) {call : ℕ} {job : Job} {result : Bool}
    (hj : s.checker.jobs call = some job) (hstate : job.state = .finished result) (ans : Answers) :
    Asks setup s.checker (s.done setup call job result ans).checker := by
  have hs : Checker.step setup.verifier s.checker (.done call) =
      some (s.checker.doneJob call job result) := by
    simp only [Checker.step, hchecker, hj, hstate]
  have hdone : ∀ {t : Daemon}, t.checker = s.checker →
      Asks setup s.checker (t.deleteJob call job result).checker := by
    intro t ht
    unfold deleteJob
    split
    · rw [ht]
      exact asks_refl _
    · rw [checker_emits, ht]
      exact asks_step hs
  rw [done_eq]
  cases hn : job.canceled with
  | true => exact hdone rfl
  | false =>
      obtain ⟨r, hr, -⟩ := h.ticket hj
      refine hdone ?_
      simp only [Bool.false_eq_true, if_false, emits, hr]
      exact h.checker_callBack hinst hj hr hn result ans

/-- **The database of a daemon and its jobs move like those of a `Checker`.** -/
theorem step_checker {input : Input} (h : Coherent setup s) (hs : step setup s input = some s') :
    Asks setup s.checker s'.checker := by
  unfold step at hs
  split at hs
  · rename_i hinst hchecker
    cases input with
    | accept | arrive | discard =>
        obtain ⟨inst, hi, rfl⟩ := Option.map_eq_some_iff.mp hs
        exact asks_refl _
    | event id e ans reload =>
        simp only at hs
        split at hs
        · cases hs
        · rename_i c e hc he
          exact h.asks_event hinst hchecker hc he hs
        · cases hs
    | destroy id =>
        simp only at hs
        split at hs
        · rename_i c hc
          cases hs
          exact h.asks_settle hchecker hc rfl
        · cases hs
    | datagram nftSet address payload reload =>
        cases hs
        exact asks_onDatagram hchecker nftSet address payload reload
    | start | run =>
        obtain ⟨checker, hc, rfl⟩ := Option.map_eq_some_iff.mp hs
        exact asks_step hc
    | done call ans =>
        simp only at hs
        split at hs
        · rename_i job hj
          split at hs
          · rename_i hstate
            cases hs
            exact h.asks_done hinst hchecker hj hstate ans
          · cases hs
        · cases hs
  · cases hs

section Invariants

variable {I : Checker → Prop}

/-- **Invariants of the database and the jobs are kept by every input.** -/
theorem checker_step (hsame : ∀ {s t}, SameChecker s t → I t → I s)
    (hstep : ∀ s input s', I s → Checker.step setup.verifier s input = some s' → I s') {input : Input}
    (h : Coherent setup s) (hI : I s.checker) (hs : step setup s input = some s') : I s'.checker := by
  obtain ⟨inputs, t, hrun, ht, -⟩ := step_checker h hs
  exact hsame ht (Machine.invariant hstep hI hrun)

/-- **Invariants of the database and the jobs of a daemon.** -/
theorem checker_run (hsame : ∀ {s t}, SameChecker s t → I t → I s)
    (hstep : ∀ s input s', I s → Checker.step setup.verifier s input = some s' → I s') {d : Database}
    (hI : I { database := d }) {inputs : List Input} (h : Run setup d inputs s) : I s.checker :=
  (Machine.invariant (I := fun s => Coherent setup s ∧ I s.checker)
    (fun _ _ _ hJ hs => ⟨coherent_step hJ.1 hs, checker_step hsame hstep hJ.1 hJ.2 hs⟩)
    ⟨coherent_new d, hI⟩ h).2

end Invariants

/-- The log of the database only grows. -/
theorem log_step {input : Input} (h : Coherent setup s) (hs : step setup s input = some s') :
    s.checker.database.log <+: s'.checker.database.log :=
  checker_step (I := fun t => s.checker.database.log <+: t.database.log)
    (fun hsame hlog => hsame.database ▸ hlog) (fun _ _ _ hlog hs => hlog.trans (Checker.log_step hs)) h
    List.prefix_rfl hs

end Daemon

end UoLogin

import UoLogin.Requesters.View

set_option autoImplicit false

/-!
# One callback for every check

* `Coherent.event`, `Coherent.datagram`, `Coherent.done`, **`coherent_step`**: every input keeps the
  daemon coherent;
* **`callback_once`**: every job calls back at most once and no requester that was destroyed; it is
  freed once, and so is every request.
-/

namespace UoLogin

open Connection Callbacks

namespace Daemon

variable {setup : DaemonSetup} {s s' : Daemon}

/-! ## Calls of the database -/

section Calls

variable {r : Requester} {checker : Checker} {inst : Instance}

section Choices

variable {username password : List UInt8} {reload : ReloadAnswers}

theorem checkCredentials_throws (hch : (s.checked reload).choice = .throws) :
    s.checkCredentials r username password reload =
      { s with checker := s.checker.checkCredentials username password reload } := by
  unfold checkCredentials
  cases hc : s.checked reload with
  | throws e => rfl
  | calledBack | queued => cases (congrArg _ hc).symm.trans hch

theorem checkCredentials_calledBack (hch : (s.checked reload).choice = .noDatabase) :
    s.checkCredentials r username password reload =
      { s with checker := s.checker.checkCredentials username password reload }.emits
        [.callback s.checker.calls r] := by
  unfold checkCredentials
  cases hc : s.checked reload with
  | calledBack => rfl
  | throws | queued => cases (congrArg _ hc).symm.trans hch

theorem checkCredentials_queued (hch : (s.checked reload).choice = .queued) :
    s.checkCredentials r username password reload =
      { s with
        checker := s.checker.checkCredentials username password reload
        callbacks := Function.update s.callbacks s.checker.calls (some r)
        cancelPtr := Function.update s.cancelPtr r (some s.checker.calls)
        log := s.log ++ [.submit s.checker.calls r] } := by
  unfold checkCredentials
  cases hc : s.checked reload with
  | queued => rfl
  | throws | calledBack => cases (congrArg _ hc).symm.trans hch

end Choices

/-- The database has changed, and the jobs have not. -/
theorem Coherent.setChecker (h : Coherent setup s) (hjobs : checker.jobs = s.checker.jobs)
    (hcalls : s.checker.calls ≤ checker.calls) : Coherent setup { s with checker := checker } := by
  refine ⟨h.good, ?_, fun call hcall => h.unused call (hcalls.trans hcall), hjobs ▸ h.owned,
    hjobs ▸ h.credentials, h.accounted, h.unasked⟩
  convert h.inv using 1
  exact Callbacks.State.ext rfl rfl (congrArg (tickets · s.callbacks) hjobs) rfl

/-- A connection is called back at once. -/
theorem Coherent.answered (h : Coherent setup s) {id : ℕ}
    (hr : s.view.standing (.connection id) = .alive) (hw : s.view.waits (.connection id) = none)
    (hjobs : checker.jobs = s.checker.jobs) (hcalls : checker.calls = s.checker.calls + 1) :
    Coherent setup ({ s with checker := checker }.emits [.callback s.checker.calls (.connection id)]) := by
  have hset := h.setChecker hjobs (by omega)
  refine ⟨hset.good, ?_, ?_, hset.owned, hset.credentials, hset.accounted, hset.unasked⟩
  · have hstep : Step Requester.isKnock s.view _ :=
      @Step.answer _ _ _ _ _ hr hw _ (h.unused _ (le_refl _)) false nofun
    convert inv_step h.inv hstep using 1
    exact Callbacks.State.ext rfl rfl (congrArg (tickets · s.callbacks) hjobs) rfl
  · change ∀ call, checker.calls ≤ call → word Entry.call (s.log ++ [_]) call = []
    rw [hcalls]
    exact h.unused_append (by simp [Entry.call]) (Nat.lt_succ_self s.checker.calls) (Nat.le_succ _)

/-- A job is submitted. -/
theorem Coherent.submits (h : Coherent setup s) {job : Job} (hr : s.view.standing r = .alive)
    (hw : s.view.waits r = none) (hn : job.canceled = false)
    (hjobs : checker.jobs = Function.update s.checker.jobs s.checker.calls (some job))
    (hcalls : checker.calls = s.checker.calls + 1)
    (hg : inst.crashed = none → inst.Good setup.setup)
    (hstanding : standing inst.conns s.requests = s.view.standing)
    (hwaits : waits inst.conns s.requests (Function.update s.cancelPtr r (some s.checker.calls)) =
      Function.update s.view.waits r (some s.checker.calls))
    (hold : ∀ call job id c, s.checker.jobs call = some job → s.callbacks call = some (.connection id) →
      job.canceled = false → inst.conns id = .live c → c.job = some (job.username, job.password))
    (hnew : ∀ id c, r = .connection id → inst.conns id = .live c →
      c.job = some (job.username, job.password)) :
    Coherent setup
      { s with
        inst := inst
        checker := checker
        callbacks := Function.update s.callbacks s.checker.calls (some r)
        cancelPtr := Function.update s.cancelPtr r (some s.checker.calls)
        log := s.log ++ [.submit s.checker.calls r] } := by
  refine ⟨hg, ?_, ?_, fun call hsome => ?_, fun call job' id c hj hc hn' hlive => ?_, h.accounted,
    fun k hk => ?_⟩
  · have hstep : Step Requester.isKnock s.view _ := .submit hr hw (h.unused _ (le_refl _))
    convert inv_step h.inv hstep using 1
    refine Callbacks.State.ext hstanding hwaits ?_ rfl
    refine (congrArg (tickets · _) hjobs).trans ?_
    rw [tickets_queued, hn]
    rfl
  · change ∀ call, checker.calls ≤ call → word Entry.call (s.log ++ [_]) call = []
    rw [hcalls]
    exact h.unused_append (by simp [Entry.call]) (Nat.lt_succ_self s.checker.calls) (Nat.le_succ _)
  · simp only [hjobs] at hsome
    by_cases hcall : call = s.checker.calls
    · subst hcall
      simp
    · simp only [Function.update_of_ne hcall] at hsome ⊢
      exact h.owned call hsome
  · simp only [hjobs] at hj
    by_cases hcall : call = s.checker.calls
    · subst hcall
      simp only [Function.update_self, Option.some.injEq] at hj hc
      subst hj
      exact hnew id c hc hlive
    · simp only [Function.update_of_ne hcall] at hj hc
      exact hold call job' id c hj hc hn' hlive
  · -- the requester that asks is there, so that it is none of the future ones
    have hne : .knock k ≠ r := by
      rintro rfl
      have hnone := s.requests.fresh k hk
      have hlt : ¬ k < s.requests.allocated := Nat.not_lt.mpr hk
      simp [view, standing, hnone, hlt] at hr
    simp only [Function.update_of_ne hne]
    exact h.unasked k hk

/-- A connection submits a job and goes on. -/
theorem Coherent.submits_connection (h : Coherent setup s) {id : ℕ} {c c' : Connection} {job : Job}
    (hc : s.inst.conns id = .live c) (hw : s.view.waits (.connection id) = none)
    (hn : job.canceled = false)
    (hjobs : checker.jobs = Function.update s.checker.jobs s.checker.calls (some job))
    (hcalls : checker.calls = s.checker.calls + 1)
    (hi : inst.conns = Function.update s.inst.conns id (.live c'))
    (hg : inst.crashed = none → inst.Good setup.setup) (hp : c'.cancelPtr = true)
    (hj : c'.job = some (job.username, job.password)) :
    Coherent setup
      { s with
        inst := inst
        checker := checker
        callbacks := Function.update s.callbacks s.checker.calls (some (.connection id))
        cancelPtr := Function.update s.cancelPtr (.connection id) (some s.checker.calls)
        log := s.log ++ [.submit s.checker.calls (.connection id)] } := by
  refine h.submits (standing_live hc) hw hn hjobs hcalls hg ?_ ?_ ?_ ?_
  · rw [hi, standing_setConn, show Slot.standing (.live c') = _ from (standing_live hc).symm]
    exact Function.update_eq_self ..
  · rw [hi, waits_setConn, waits_cancelPtr, Function.update_idem, Function.update_self]
    simp only [Slot.waiting, hp, if_true]
    rfl
  · refine h.credentials_setConn hi fun call job' c₁ hj' hr hn' he => ?_
    -- the connection waits for nothing yet
    obtain ⟨-, -, -, hw'⟩ := h.holder hj' hr hn'
    cases hw.symm.trans hw'
  · intro id' c₁ hr hlive
    cases hr
    rw [hi, Function.update_self] at hlive
    cases hlive
    exact hj

end Calls

theorem Coherent.crashes (h : Coherent setup s) (why : Stop) :
    Coherent setup { s with inst := { s.inst with crashed := some why } } :=
  ⟨fun hn => (by cases hn), h.inv, h.unused, h.owned, h.credentials, h.accounted, h.unasked⟩

theorem good_event {inst : Instance} {setup : Setup} (hg : inst.Good setup) (hcrashed : inst.crashed = none)
    {id : ℕ} {c : Connection} (hc : inst.conns id = .live c) {e : Event} {ans : Answers}
    {stock : PipeStock UInt8} {r : Result} (hd : dispatch setup inst.stock c ans e = some (stock, r)) :
    (inst.settle id stock r).Good setup := by
  have hs : inst.step setup (.event id e ans) = some (inst.settle id stock r) := by
    simp only [Instance.step, hcrashed, hc, hd]
    rfl
  exact Instance.good_step hg hs

/-- **A callback of a connection.** -/
theorem Coherent.event (h : Coherent setup s) (hcrashed : s.inst.crashed = none) {id : ℕ}
    {c : Connection} (hc : s.inst.conns id = .live c) {e : Event} (he : ∀ result, e ≠ .checkDone result)
    {ans : Answers} {reload : ReloadAnswers} (hs : s.event setup id c e ans reload = some s') :
    Coherent setup s' := by
  obtain ⟨⟨stock, r⟩, hd, rfl⟩ := Option.map_eq_some_iff.mp hs
  have hg := good_event (h.good hcrashed) hcrashed hc hd
  have hcalls : ∀ username password,
      (s.checker.checkCredentials username password reload).calls = s.checker.calls + 1 :=
    fun username password => Checker.calls_checkCredentials ..
  have hjobs : (s.checked reload).choice ≠ .queued → ∀ username password,
      (s.checker.checkCredentials username password reload).jobs = s.checker.jobs :=
    fun hch username password => Checker.jobs_not_queued _ _ _ _ hch
  cases dispatch_consults ((h.good hcrashed).live hc) hd he with
  | unasked hu =>
      simp only [hu.consulted]
      cases r with
      | alive c' => exact h.continues hc hu.cancelPtr (fun _ => hu.job) rfl fun _ => hg
      | destroyed c' => exact h.settle_destroyed hc hu.cancelPtr fun _ => hg
      | crashed why c' => exact h.crashes why
  | @throws c' username password hch hn ha hp =>
      change (s.checked reload).choice = _ at hch
      have hset := h.setChecker (hjobs (by simp [hch]) username password)
        (by rw [hcalls]; exact Nat.le_succ _)
      simp only [Result.conn, ha, checkCredentials_throws hch]
      exact hset.settle_destroyed hc (hp.trans hn.symm) fun _ => hg
  | @noDatabase r username password hch hn ha hp hr =>
      change (s.checked reload).choice = _ at hch
      have hw : s.view.waits (.connection id) = none := by
        rw [waits_live hc, hn]
        rfl
      have hset := h.answered (standing_live hc) hw (hjobs (by simp [hch]) username password)
        (hcalls username password)
      simp only [ha, checkCredentials_calledBack hch]
      cases r with
      | alive c' =>
          exact hset.continues hc (hp.trans hn.symm) (fun ht => by cases hn.symm.trans ht) rfl fun _ => hg
      | destroyed c' => exact hset.settle_destroyed hc (hp.trans hn.symm) fun _ => hg
      | crashed why c' => cases hr
  | @queued c' username password hch hn ha hp hj =>
      change (s.checked reload).choice = _ at hch
      have hw : s.view.waits (.connection id) = none := by
        rw [waits_live hc, hn]
        rfl
      simp only [Result.conn, ha, checkCredentials_queued hch]
      exact h.submits_connection hc hw rfl (Checker.jobs_queued _ _ _ _ hch) (hcalls username password)
        rfl (fun _ => hg) hp hj

/-! ## Knocks -/

theorem delete_mem_onCheckCredentials (req : Request) (result : Bool) :
    .delete ∈ req.onCheckCredentials true result := by
  unfold Request.onCheckCredentials
  cases result with
  | false => simp
  | true =>
      simp only [Bool.true_eq_false, if_false, List.mem_cons, reduceCtorEq, false_or]
      split
      · split <;> simp
      · simp

/-- A request that has a record is deleted by its answer. -/
theorem answer_eq {k : ℕ} {knock : PendingKnock} (ha : setup.accounted knock.address = true)
    (result : Bool) :
    s.answer setup k knock result =
      { s with requests := s.requests.free k }.emits [.destroy (.knock k)] := by
  unfold answer
  rw [ha]
  exact if_pos (delete_mem_onCheckCredentials _ result)

/-- A datagram makes a request. -/
theorem Coherent.requests (h : Coherent setup s) {knock : PendingKnock}
    (ha : setup.accounted knock.address = true) :
    Coherent setup { s with requests := s.requests.alloc knock } := by
  refine ⟨h.good, ?_, h.unused, h.owned, h.credentials, fun k knock' hk => ?_, fun k hk => ?_⟩
  · have hunborn : s.view.standing (.knock s.requests.allocated) = .unborn := by
      simp [view, standing]
    convert inv_step h.inv (.create hunborn) using 1
    refine Callbacks.State.ext (standing_alloc ..) ?_ rfl rfl
    exact waits_alloc _ _ _ (h.unasked _ (le_refl _)) knock
  · rcases Heap.get_alloc_eq_some.mp hk with ⟨-, rfl⟩ | hk
    · exact ha
    · exact h.accounted k knock' hk
  · exact h.unasked k ((Nat.le_succ _).trans hk)

/-- A request is called back at once, and deleted. -/
theorem Coherent.answered_knock (h : Coherent setup s) {k : ℕ} {knock : PendingKnock}
    {checker : Checker} (hk : s.requests.get k = some knock) (hw : s.view.waits (.knock k) = none)
    (hjobs : checker.jobs = s.checker.jobs) (hcalls : checker.calls = s.checker.calls + 1) :
    Coherent setup
      { s with
        checker := checker
        requests := s.requests.free k
        log := s.log ++ [.callback s.checker.calls (.knock k)] ++ [.destroy (.knock k)] } := by
  have hset := h.setChecker hjobs (by omega)
  have hr : s.view.standing (.knock k) = .alive := by simp [view, standing, hk]
  refine ⟨hset.good, ?_, ?_, hset.owned, hset.credentials, fun k' knock' hk' => ?_, hset.unasked⟩
  · have hstep : Step Requester.isKnock s.view _ :=
      @Step.answer _ _ _ _ _ hr hw _ (h.unused _ (le_refl _)) true fun _ => rfl
    convert inv_step h.inv hstep using 1
    refine Callbacks.State.ext (standing_free _ _ hk) ?_ (congrArg (tickets · s.callbacks) hjobs)
      (List.append_assoc ..)
    refine (waits_free ..).trans ?_
    rw [← hw]
    exact Function.update_eq_self ..
  · change ∀ call, checker.calls ≤ call → word Entry.call (s.log ++ [_] ++ [_]) call = []
    rw [hcalls, List.append_assoc]
    exact h.unused_append (by simp [Entry.call]) (Nat.lt_succ_self s.checker.calls) (Nat.le_succ _)
  · exact h.accounted k' knock' (Heap.get_free_eq_some.mp hk').2

/-- A request submits a job. -/
theorem Coherent.submits_knock (h : Coherent setup s) {k : ℕ} {knock : PendingKnock}
    {checker : Checker} {job : Job} (hk : s.requests.get k = some knock)
    (hw : s.view.waits (.knock k) = none) (hn : job.canceled = false)
    (hjobs : checker.jobs = Function.update s.checker.jobs s.checker.calls (some job))
    (hcalls : checker.calls = s.checker.calls + 1) :
    Coherent setup
      { s with
        checker := checker
        callbacks := Function.update s.callbacks s.checker.calls (some (.knock k))
        cancelPtr := Function.update s.cancelPtr (.knock k) (some s.checker.calls)
        log := s.log ++ [.submit s.checker.calls (.knock k)] } := by
  have hr : s.view.standing (.knock k) = .alive := by simp [view, standing, hk]
  refine h.submits hr hw hn hjobs hcalls h.good rfl ?_ h.credentials fun id c he => ?_
  · rw [waits_cancelPtr]
    simp [waits, hk, view]
  · cases he

/-- **A datagram.** -/
theorem Coherent.datagram (h : Coherent setup s) (nftSet : Option (List UInt8))
    (address : SocketAddress) (payload : List UInt8) (reload : ReloadAnswers) :
    Coherent setup (s.onDatagram setup nftSet address payload reload) := by
  unfold onDatagram
  split
  · exact h
  · rename_i username password hdatagram
    have ha : setup.accounted address = true := by
      by_contra hn
      unfold onUdpDatagram at hdatagram
      rw [if_pos ((Bool.not_eq_true _).mp hn)] at hdatagram
      cases hdatagram
    have hnext : Coherent setup { s with requests := s.requests.alloc ⟨nftSet, address⟩ } :=
      h.requests ha
    have hk : (s.requests.alloc ⟨nftSet, address⟩).get s.requests.allocated = some ⟨nftSet, address⟩ :=
      Heap.get_alloc_self ..
    have hw : (view { s with requests := s.requests.alloc ⟨nftSet, address⟩ }).waits
        (.knock s.requests.allocated) = none := by
      simp [view, waits, h.unasked]
    have hcalls := Checker.calls_checkCredentials s.checker username password reload
    have hjobs : (s.checked reload).choice ≠ .queued →
        (s.checker.checkCredentials username password reload).jobs = s.checker.jobs :=
      fun hch => Checker.jobs_not_queued _ _ _ _ hch
    dsimp only
    split
    · rename_i e hch
      have hch : (s.checked reload).choice = .throws := congrArg _ hch
      rw [checkCredentials_throws (s := { s with requests := s.requests.alloc _ }) hch]
      refine hnext.setChecker (hjobs (by simp [hch])) ?_
      change s.checker.calls ≤ (s.checker.checkCredentials username password reload).calls
      omega
    · rename_i hch
      have hch : (s.checked reload).choice = .noDatabase := congrArg _ hch
      rw [checkCredentials_calledBack (s := { s with requests := s.requests.alloc _ }) hch, answer_eq ha]
      exact hnext.answered_knock hk hw (hjobs (by simp [hch])) hcalls
    · rename_i hch
      have hch : (s.checked reload).choice = .queued := congrArg _ hch
      rw [checkCredentials_queued (s := { s with requests := s.requests.alloc _ }) hch]
      exact hnext.submits_knock hk hw rfl (Checker.jobs_queued _ _ _ _ hch) hcalls

/-! ## `Done()` -/

section Done

variable {call : ℕ} {job : Job} {r : Requester}

/-- `Done()` of a job that was cancelled. -/
theorem Coherent.ignores (h : Coherent setup s) (hj : s.checker.jobs call = some job)
    (hn : job.canceled = true) (result : Bool) :
    Coherent setup ({ s.emits [.done call] with checker := s.checker.doneJob call job result }.emits
      [.free call]) := by
  obtain ⟨r, hr, ht⟩ := h.ticket hj
  rw [hn] at ht
  refine ⟨h.good, ?_, ?_, fun call' hsome => ?_, fun call' job' id c hj' => h.credentials call' job' id c
    (Checker.jobs_of_doneJob hj').2, h.accounted, h.unasked⟩
  · convert inv_step h.inv (.ignore ht) using 1
    exact Callbacks.State.ext rfl rfl (tickets_setJob ..) (List.append_assoc ..)
  · change ∀ call', s.checker.calls ≤ call' → word Entry.call (s.log ++ [_] ++ [_]) call' = []
    rw [List.append_assoc]
    exact h.unused_append (by simp [Entry.call]) (h.call_lt hj) (le_refl _)
  · obtain ⟨job', hj'⟩ := Option.isSome_iff_exists.mp hsome
    exact h.owned call' ((Checker.jobs_of_doneJob hj').2 ▸ rfl)

/-- `Done()` of a job that was not: what its callback leaves is left to say. -/
theorem Coherent.finishes (h : Coherent setup s) (hj : s.checker.jobs call = some job)
    (hr : s.callbacks call = some r) (hn : job.canceled = false) (last : Bool)
    (ho : r.isKnock → last = true) {inst : Instance} {requests : Heap PendingKnock}
    {log : List (Entry Requester)} (result : Bool)
    (hstanding : standing inst.conns requests = s.view.ends r last)
    (hwaits : waits inst.conns requests s.cancelPtr = Function.update s.view.waits r none)
    (hlog : log = s.log ++ ([.done call, .callback call r] ++ ending r last))
    (hg : inst.crashed = none → inst.Good setup.setup)
    (hcredentials : ∀ call' job' id c, call' ≠ call → s.checker.jobs call' = some job' →
      s.callbacks call' = some (.connection id) → job'.canceled = false → inst.conns id = .live c →
      c.job = some (job'.username, job'.password))
    (haccounted : ∀ k knock, requests.get k = some knock → setup.accounted knock.address = true)
    (hallocated : requests.allocated = s.requests.allocated) :
    Coherent setup ({ s with
      inst := inst, requests := requests, log := log
      checker := s.checker.doneJob call job result }.emits [.free call]) := by
  have ht : s.view.tickets call = some ⟨r, false⟩ := by simp [view, tickets, hj, hr, hn]
  refine ⟨hg, ?_, ?_, fun call' hsome => ?_, fun call' job' id c hj' => hcredentials call' job' id c
    (Checker.jobs_of_doneJob hj').1 (Checker.jobs_of_doneJob hj').2, haccounted, hallocated ▸ h.unasked⟩
  · convert inv_step h.inv (.done ht ho) using 1
    refine Callbacks.State.ext hstanding hwaits (tickets_setJob ..) ?_
    change log ++ [.free call] = _
    rw [hlog, List.append_assoc]
    rfl
  · change ∀ call', s.checker.calls ≤ call' → word Entry.call (log ++ [.free call]) call' = []
    rw [hlog, List.append_assoc]
    refine h.unused_append ?_ (h.call_lt hj) (le_refl _)
    cases last <;> simp [ending, Entry.call]
  · obtain ⟨job', hj'⟩ := Option.isSome_iff_exists.mp hsome
    exact h.owned call' ((Checker.jobs_of_doneJob hj').2 ▸ rfl)

/-- `Done()` of the job of a connection. -/
theorem Coherent.done_connection (h : Coherent setup s) (hcrashed : s.inst.crashed = none) {id : ℕ}
    (hj : s.checker.jobs call = some job) (hr : s.callbacks call = some (.connection id))
    (hn : job.canceled = false) (result : Bool) (ans : Answers) :
    Coherent setup (s.done setup call job result ans) := by
  obtain ⟨c, hc, -, hw⟩ := h.holder hj hr hn
  have hg := h.good hcrashed
  have hjob := h.credentials call job id c hj hr hn hc
  have hd : dispatch setup.setup s.inst.stock c ans (.checkDone result) =
      some (s.inst.stock, (c.setJob none).onCheckCredentials setup.setup ans job.username result) := by
    simp only [dispatch, hjob]
  have hgood := good_event hg hcrashed hc hd
  have hi := hg.live hc
  have hs := hi.job_iff.mp (hjob ▸ rfl)
  have hjudges : Judges setup.setup job.username (c.setJob none) result _ :=
    onCheckCredentials_judges ans job.username result hs (hi.full fun he => by cases hs.symm.trans he)
  -- other jobs are not for this connection
  have hold : ∀ {slot : Slot} {inst : Instance},
      inst.conns = Function.update s.inst.conns id slot → ∀ call' job' id' c', call' ≠ call →
      s.checker.jobs call' = some job' → s.callbacks call' = some (.connection id') →
      job'.canceled = false → inst.conns id' = .live c' → c'.job = some (job'.username, job'.password) := by
    intro slot inst hi call' job' id' c' hcall hj' hr' hn' hc'
    have hid : id' ≠ id := by
      rintro rfl
      obtain ⟨-, -, -, hw'⟩ := h.holder hj' hr' hn'
      exact hcall (Option.some.inj (hw'.symm.trans hw))
    rw [hi, Function.update_of_ne hid] at hc'
    exact h.credentials call' job' id' c' hj' hr' hn' hc'
  unfold done callBack
  simp only [emits, hn, hr, hc, Bool.false_eq_true, if_false]
  generalize (c.setJob none).onCheckCredentials setup.setup ans job.username result = res
    at hgood hjudges
  obtain ⟨hp, hout⟩ := hjudges.cancelPtr
  cases res with
  | alive c' =>
      simp only [settle]
      split
      · rename_i he
        cases hcrashed.symm.trans he
      · refine h.finishes hj hr hn false (by simp [Requester.isKnock]) result ?_ ?_ (by simp [ending])
          (fun _ => hgood) (hold rfl) h.accounted rfl
        · refine (standing_setConn ..).trans ?_
          rw [show Slot.standing (.live c') = _ from (standing_live hc).symm]
          exact Function.update_eq_self ..
        · refine (waits_setConn ..).trans ?_
          simp only [Result.conn] at hp
          simp only [Slot.waiting, hp, Bool.false_eq_true, if_false]
          rfl
  | destroyed c' =>
      simp only [Result.conn] at hp
      simp only [settle, emits, hp, Bool.false_eq_true, if_false]
      split
      · rename_i he
        cases hcrashed.symm.trans he
      · refine h.finishes hj hr hn true (fun _ => rfl) result ?_ ?_ (by simp [ending]) (fun _ => hgood)
          (hold rfl) h.accounted rfl
        · exact standing_setConn ..
        · exact waits_setConn ..
  | crashed why c' => cases hout

/-- `Done()` of the job of a request. -/
theorem Coherent.done_knock (h : Coherent setup s) (hcrashed : s.inst.crashed = none) {k : ℕ}
    (hj : s.checker.jobs call = some job) (hr : s.callbacks call = some (.knock k))
    (hn : job.canceled = false) (result : Bool) (ans : Answers) :
    Coherent setup (s.done setup call job result ans) := by
  have ht : s.view.tickets call = some ⟨.knock k, false⟩ := by simp [view, tickets, hj, hr, hn]
  have hw : (if (s.requests.get k).isSome then s.cancelPtr (.knock k) else none) = some call :=
    (h.inv.waits _ _).mpr ht
  obtain ⟨knock, hk⟩ : ∃ knock, s.requests.get k = some knock := by
    refine Option.isSome_iff_exists.mp ?_
    by_contra hnone
    rw [if_neg hnone] at hw
    cases hw
  unfold done callBack
  simp only [emits, hn, hr, hk, Bool.false_eq_true, if_false, answer_eq (h.accounted k knock hk)]
  split
  · rename_i he
    cases hcrashed.symm.trans he
  · refine h.finishes hj hr hn true (fun _ => rfl) result ?_ ?_ (by simp [ending]) h.good
      (fun call' job' id c _ => h.credentials call' job' id c) ?_ rfl
    · exact standing_free _ _ hk
    · exact waits_free ..
    · exact fun k' knock' hk' => h.accounted k' knock' (Heap.get_free_eq_some.mp hk').2

/-- **`Done()`.** -/
theorem Coherent.done (h : Coherent setup s) (hcrashed : s.inst.crashed = none)
    (hj : s.checker.jobs call = some job) (result : Bool) (ans : Answers) :
    Coherent setup (s.done setup call job result ans) := by
  cases hn : job.canceled with
  | true =>
      unfold Daemon.done
      simp only [hn, if_true]
      split
      · rename_i he
        cases hcrashed.symm.trans he
      · exact h.ignores hj hn result
  | false =>
      obtain ⟨r, hr, -⟩ := h.ticket hj
      cases r with
      | connection id => exact h.done_connection hcrashed hj hr hn result ans
      | knock k => exact h.done_knock hcrashed hj hr hn result ans

end Done

/-! ## Every input -/

/-- What only concerns the connections. -/
theorem Coherent.stepInstance (h : Coherent setup s) (hcrashed : s.inst.crashed = none)
    {input : UoLogin.Input} (hs : s.stepInstance setup input = some s')
    (he : ∀ id e ans, input ≠ .event id e ans) : Coherent setup s' := by
  obtain ⟨inst, hi, rfl⟩ := Option.map_eq_some_iff.mp hs
  have hg : inst.crashed = none → inst.Good setup.setup := fun _ =>
    Instance.good_step (h.good hcrashed) hi
  obtain ⟨-, hsteps⟩ := Instance.step_cases hi
  cases hsteps with
  | @accept id remoteHost perClient hc =>
      have hset : ∀ slot, view { s with inst := s.inst.setConn s.inst.stock id slot } = _ := fun slot =>
        view_setConn rfl
      have hunborn : s.view.standing (.connection id) = .unborn := by
        change (s.inst.conns id).standing = _
        rw [hc]
        rfl
      have hw : s.view.waits (.connection id) = none := by
        change (s.inst.conns id).waiting _ = _
        rw [hc]
        rfl
      refine ⟨hg, ?_, h.unused, h.owned, h.credentials_setConn rfl ?_, h.accounted, h.unasked⟩
      · convert inv_step h.inv (.create hunborn) using 1
        rw [hset]
        refine Callbacks.State.ext rfl ?_ rfl rfl
        change Function.update s.view.waits _ none = _
        rw [← hw]
        exact Function.update_eq_self ..
      · intro call job c' hj hr hn he
        obtain ⟨c₀, hc₀, -⟩ := h.holder hj hr hn
        cases hc.symm.trans hc₀
  | @arrive id side bytes c hc =>
      have hp : (c.arrive side bytes).cancelPtr = c.cancelPtr := by cases side <;> rfl
      have hjob : (c.arrive side bytes).job = c.job := by cases side <;> rfl
      exact h.continues hc hp (fun _ => hjob) rfl hg
  | event => exact (he _ _ _ rfl).elim
  | discard => exact ⟨hg, h.inv, h.unused, h.owned, h.credentials, h.accounted, h.unasked⟩

/-- What a worker does to a job. -/
theorem Coherent.setJob (h : Coherent setup s) {call : ℕ} {job : Job}
    (hj : s.checker.jobs call = some job) (state : JobState) {checker : Checker}
    (hjobs : checker.jobs = Function.update s.checker.jobs call (some { job with state := state }))
    (hcalls : checker.calls = s.checker.calls) : Coherent setup { s with checker := checker } := by
  obtain ⟨r, hr, ht⟩ := h.ticket hj
  have hjob : ∀ {call' job'}, checker.jobs call' = some job' → ∃ job₀, s.checker.jobs call' = some job₀ ∧
      job₀.canceled = job'.canceled ∧ job₀.username = job'.username ∧ job₀.password = job'.password := by
    intro call' job' hj'
    rw [hjobs] at hj'
    by_cases hcall : call' = call
    · subst hcall
      rw [Function.update_self] at hj'
      cases hj'
      exact ⟨job, hj, rfl, rfl, rfl⟩
    · rw [Function.update_of_ne hcall] at hj'
      exact ⟨job', hj', rfl, rfl, rfl⟩
  refine ⟨h.good, ?_, hcalls ▸ h.unused, fun call' hsome => ?_, fun call' job' id c hj' hr' hn hc => ?_,
    h.accounted, h.unasked⟩
  · convert h.inv using 1
    refine Callbacks.State.ext rfl rfl ?_ rfl
    refine (congrArg (tickets · s.callbacks) hjobs).trans ?_
    rw [tickets_setJob, hr, Option.bind_some, Option.map_some, ← ht]
    exact Function.update_eq_self ..
  · obtain ⟨job', hj'⟩ := Option.isSome_iff_exists.mp hsome
    obtain ⟨job₀, hj₀, -⟩ := hjob hj'
    exact h.owned call' (hj₀ ▸ rfl)
  · obtain ⟨job₀, hj₀, hcanceled, hname, hpassword⟩ := hjob hj'
    rw [← hname, ← hpassword]
    exact h.credentials call' job₀ id c hj₀ hr' (hcanceled.trans hn) hc

/-- What a worker does. -/
theorem Coherent.work (h : Coherent setup s) {call : ℕ} {input : Checker.Input}
    (hs : s.stepChecker setup input = some s')
    (hi : input = .start call ∨ ∃ getFails, input = .run call getFails) : Coherent setup s' := by
  obtain ⟨checker, hc, rfl⟩ := Option.map_eq_some_iff.mp hs
  obtain ⟨-, hsteps⟩ := Checker.step_cases hc
  cases hsteps with
  | start hj hstate => exact h.setJob hj .running rfl rfl
  | @run call' getFails job hj hstate =>
      unfold Checker.runJob
      split
      · exact h.setJob hj _ rfl rfl
      · exact h.setChecker rfl (le_refl _)
  | checkCredentials | done | cancel => simp at hi

/-- **Every input keeps the daemon coherent.** -/
theorem coherent_step {input : Input} (h : Coherent setup s) (hs : step setup s input = some s') :
    Coherent setup s' := by
  unfold step at hs
  split at hs
  · rename_i hcrashed _
    cases input with
    | accept | arrive | discard => exact h.stepInstance hcrashed hs fun _ _ _ he => by cases he
    | event id e ans reload =>
        simp only at hs
        split at hs
        · cases hs
        · rename_i c e hc he
          exact h.event hcrashed hc he hs
        · cases hs
    | destroy id =>
        simp only at hs
        split at hs
        · rename_i c hc
          cases hs
          refine h.settle_destroyed hc rfl fun hn => (h.good hn).settle_destroyed hn ?_
          rw [Instance.withConn_family (Instance.family_live hc)]
          exact (h.good hn).pipes hn
        · cases hs
    | datagram nftSet address payload reload =>
        cases hs
        exact h.datagram nftSet address payload reload
    | start call => exact h.work hs (.inl rfl)
    | run call getFails => exact h.work hs (.inr ⟨getFails, rfl⟩)
    | done call ans =>
        simp only at hs
        split at hs
        · rename_i job hj
          split at hs
          · cases hs
            exact h.done hcrashed hj _ ans
          · cases hs
        · cases hs
  · cases hs

/-- **The daemon is coherent after every run.** -/
theorem coherent_run {d : Database} {inputs : List Input} (h : Run setup d inputs s) :
    Coherent setup s :=
  Machine.invariant (fun _ _ _ hc hs => coherent_step hc hs) (coherent_new d) h

/-! ## Callbacks and deletions -/

/-- What the log of a daemon says. -/
structure Delivered (s : Daemon) : Prop where
  /-- a call is called back at most once -/
  once : ∀ call, Callbacks.callbacks s.log call ≤ 1
  /-- by a requester that was not destroyed before -/
  living : ∀ pre post call r, s.log = pre ++ .callback call r :: post → .destroy r ∉ pre
  /-- which is the one that has asked -/
  own : ∀ call r r', .submit call r ∈ s.log → .callback call r' ∈ s.log → r' = r
  /-- exactly once, if `Done()` was called and it was never cancelled -/
  answered : ∀ call, .done call ∈ s.log → (∀ dequeued, .cancel call dequeued ∉ s.log) →
    Callbacks.callbacks s.log call = 1
  /-- a job is freed once, by `Done()` or by a `Cancel()` that takes it out of the queue -/
  freed : ∀ call, s.log.count (.free call) ≤ 1 ∧
    (s.log.count (.free call) = 1 ↔ .done call ∈ s.log ∨ .cancel call true ∈ s.log)
  /-- and not by both -/
  exclusive : ∀ call, ¬ (.done call ∈ s.log ∧ .cancel call true ∈ s.log)
  /-- until then it is there -/
  held : ∀ call, (s.checker.jobs call).isSome = true ↔
    (∃ r, .submit call r ∈ s.log) ∧ .free call ∉ s.log
  /-- a request is freed once, when it is called back -/
  request : ∀ k, s.log.count (.destroy (.knock k)) ≤ 1 ∧
    (s.log.count (.destroy (.knock k)) = 1 ↔ ∃ call, .callback call (.knock k) ∈ s.log)

/-- **One callback for every check, and none for the dead.** -/
theorem callback_once {d : Database} {inputs : List Input} (h : Run setup d inputs s) : Delivered s := by
  have hc := coherent_run h
  have hinv := hc.inv
  refine ⟨hinv.callbacks_le_one, fun _ _ _ _ => hinv.not_destroyed, fun _ _ _ => hinv.callback_submit,
    fun _ => hinv.callbacks_eq_one, fun call => ⟨(hinv.freed call).2.1, (hinv.freed call).1⟩,
    fun call => (hinv.freed call).2.2, fun call => ?_, fun k => ?_⟩
  · rw [← hc.isSome_ticket call]
    exact hinv.ticket_iff call
  · have hle := hinv.count_destroy (.knock k)
    refine ⟨hle, Iff.trans ?_ (hinv.served_iff trivial)⟩
    rw [← List.count_pos_iff]
    change s.log.count _ ≤ 1 at hle
    change s.log.count _ = 1 ↔ 0 < s.log.count _
    omega

/-! ## A daemon to run -/

def sampleDaemon : DaemonSetup where
  config := (Instance.sampleSetup []).config
  verifier := Checker.sampleVerifier
  address := .littleEndian
  hostToString := fun _ => []

/-- A client logs in while another has knocked; it hangs up after a worker has started its job, and both
jobs are done. -/
def sampleRequests : List Input :=
  [.accept 0 [] none, .arrive 0 .client Instance.samplePackets,
    .event 0 (.incomingReady { read := true }) { read := .upTo 82 } (Checker.sampleLoads 1),
    .datagram none (.inet 0x0a000001 40000) sampleAccountLogin (Checker.sampleLoads 1), .start 0, .start 1,
    .event 0 (.incomingReady { readHangup := true }) {} (Checker.sampleLoads 1), .run 1 false,
    .run 0 false, .done 0 {}, .done 1 {}]

theorem callback_once_of_sample :
    ∃ s, Run sampleDaemon Checker.sampleDatabase sampleRequests s ∧
      s.log = [.submit 0 (.connection 0), .submit 1 (.knock 0), .cancel 0 false,
        .destroy (.connection 0), .done 0, .free 0, .done 1, .callback 1 (.knock 0),
        .destroy (.knock 0), .free 1] ∧ Delivered s := by
  obtain ⟨s, hrun, hlog⟩ : ∃ s, Run sampleDaemon Checker.sampleDatabase sampleRequests s ∧
      s.log = [.submit 0 (.connection 0), .submit 1 (.knock 0), .cancel 0 false,
        .destroy (.connection 0), .done 0, .free 0, .done 1, .callback 1 (.knock 0),
        .destroy (.knock 0), .free 1] := ⟨_, rfl, rfl⟩
  exact ⟨s, hrun, hlog, callback_once hrun⟩

end Daemon

end UoLogin

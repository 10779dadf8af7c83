import UoLogin.Server.Effects

set_option autoImplicit false

/-!
# What the jobs are about

A job that is to call a knock back checks the credentials of the datagram that the request was made for.

* `errand`: whom a job calls back, and the credentials that it checks; **`errand_step`**: where the errands
  come from;
* `JobsAsked`: what is known of the datagrams, holds of the jobs; **`jobsAsked_run`**: in every run.
-/

namespace UoLogin

open Connection

namespace Daemon

variable {setup : DaemonSetup} {s s' : Daemon} {call : ℕ} {x : Requester × List UInt8 × List UInt8}

/-- Whom the job will call back, and the credentials that it checks. -/
def errand (s : Daemon) (call : ℕ) : Option (Requester × List UInt8 × List UInt8) :=
  (s.checker.jobs call).bind fun job =>
    if job.canceled then none else (s.callbacks call).map fun r => (r, job.username, job.password)

theorem errand_eq_some {r : Requester} {username password : List UInt8} :
    s.errand call = some (r, username, password) ↔ ∃ job, s.checker.jobs call = some job ∧
      job.canceled = false ∧ s.callbacks call = some r ∧ job.username = username ∧
      job.password = password := by
  unfold errand
  rw [Option.bind_eq_some_iff]
  refine exists_congr fun job => and_congr_right fun _ => ?_
  cases hn : job.canceled with
  | true => simp
  | false => simp [Option.map_eq_some_iff]

/-- The jobs that are left are as they were. -/
theorem errand_of_jobs (hcallbacks : s'.callbacks = s.callbacks)
    (hjobs : ∀ job, s'.checker.jobs call = some job → job.canceled = false →
      ∃ job', s.checker.jobs call = some job' ∧ job'.canceled = false ∧ job'.username = job.username ∧
        job'.password = job.password) (hx : s'.errand call = some x) : s.errand call = some x := by
  obtain ⟨r, username, password⟩ := x
  obtain ⟨job, hj, hn, hr, rfl, rfl⟩ := errand_eq_some.mp hx
  obtain ⟨job', hj', hn', hu, hp⟩ := hjobs job hj hn
  exact errand_eq_some.mpr ⟨job', hj', hn', hcallbacks ▸ hr, hu, hp⟩

theorem errand_congr (hjobs : s'.checker.jobs = s.checker.jobs) (hcallbacks : s'.callbacks = s.callbacks) :
    s'.errand call = s.errand call := by
  unfold errand
  rw [hjobs, hcallbacks]

theorem errand_cancel (r : Requester) (hx : (s.cancel r).errand call = some x) :
    s.errand call = some x := by
  unfold cancel at hx
  split at hx
  · exact hx
  · rename_i ticket _
    split at hx
    · exact hx
    · rename_i job hjob
      dsimp only at hx
      refine errand_of_jobs (by rfl) ?_ hx
      intro job' hj' hn'
      rw [show Checker.jobs _ call = _ from congrFun (Checker.jobs_cancelJob ..) call] at hj'
      by_cases hcall : call = ticket
      · rw [hcall, Function.update_self] at hj'
        split at hj'
        · cases hj'
        · cases hj'
          cases hn'
      · rw [Function.update_of_ne hcall] at hj'
        exact ⟨job', hj', hn', rfl, rfl⟩

theorem errand_settle {id : ℕ} {stock : PipeStock UInt8} {r : Result}
    (hx : (s.settle id stock r).errand call = some x) : s.errand call = some x := by
  cases r with
  | alive | crashed => exact hx
  | destroyed c =>
      unfold settle at hx
      dsimp only at hx
      split at hx
      · exact errand_cancel _ hx
      · exact hx

theorem errand_answer (k : ℕ) (knock : PendingKnock) (result : Bool) :
    (s.answer setup k knock result).errand call = s.errand call := by
  unfold answer
  dsimp only
  split <;> rfl

/-- A check makes one job at most, which is about what was asked. -/
theorem errand_checkCredentials {r : Requester} {username password : List UInt8} {reload : ReloadAnswers}
    (hx : (s.checkCredentials r username password reload).errand call = some x) :
    s.errand call = some x ∨ x = (r, username, password) := by
  have hjobs := Checker.jobs_not_queued s.checker username password reload
  have hqueued := Checker.jobs_queued s.checker username password reload
  unfold checkCredentials at hx
  dsimp only at hx
  cases hch : s.checked reload with
  | throws | calledBack =>
      rw [hch] at hx
      have hne : (s.checked reload).choice ≠ .queued := by
        rw [hch]
        intro he
        cases he
      have hsame : Daemon.errand { s with checker := s.checker.checkCredentials username password reload }
          call = s.errand call := errand_congr (hjobs hne) rfl
      exact .inl (hsame.symm.trans hx)
  | queued =>
      rw [hch] at hx
      have hjobs := hqueued (by rw [show (s.checker.database.checkCredentials reload).1 = _ from hch]; rfl)
      obtain ⟨r', username', password'⟩ := x
      obtain ⟨job, hj, hn, hr, rfl, rfl⟩ := errand_eq_some.mp hx
      have hj : (s.checker.checkCredentials username password reload).jobs call = some job := hj
      have hr : Function.update s.callbacks s.checker.calls (some r) call = some r' := hr
      rw [hjobs] at hj
      by_cases hcall : call = s.checker.calls
      · rw [hcall, Function.update_self] at hj hr
        cases hj
        cases hr
        exact .inr rfl
      · rw [Function.update_of_ne hcall] at hj hr
        exact .inl (errand_eq_some.mpr ⟨job, hj, hn, hr, rfl, rfl⟩)

/-- Where an errand comes from. -/
inductive Errand (setup : DaemonSetup) (s : Daemon) (call : ℕ) :
    Input → Requester × List UInt8 × List UInt8 → Prop
  | old {input : Input} {x : Requester × List UInt8 × List UInt8} (hx : s.errand call = some x) :
      Errand setup s call input x
  | connection {input : Input} {id : ℕ} {username password : List UInt8} :
      Errand setup s call input (.connection id, username, password)
  | datagram {nftSet : Option (List UInt8)} {address : SocketAddress} {payload : List UInt8}
      {reload : ReloadAnswers} {username password : List UInt8}
      (hd : onUdpDatagram setup.verifier.util (setup.accounted address) payload =
        .request username password) :
      Errand setup s call (.datagram nftSet address payload reload)
        (.knock s.requests.allocated, username, password)

theorem errand_event {input : Input} {id : ℕ} {c : Connection} {e : Event} {ans : Answers}
    {reload : ReloadAnswers} (hs : s.event setup id c e ans reload = some s')
    (hx : s'.errand call = some x) : Errand setup s call input x := by
  obtain ⟨⟨stock, r⟩, -, rfl⟩ := Option.map_eq_some_iff.mp hs
  dsimp only at hx
  split at hx
  · rcases errand_checkCredentials (errand_settle hx) with hold | rfl
    · exact .old hold
    · exact .connection
  · exact .old (errand_settle hx)

theorem errand_onDatagram {nftSet : Option (List UInt8)} {address : SocketAddress} {payload : List UInt8}
    {reload : ReloadAnswers} (hx : (s.onDatagram setup nftSet address payload reload).errand call = some x) :
    Errand setup s call (.datagram nftSet address payload reload) x := by
  unfold onDatagram at hx
  cases hd : onUdpDatagram setup.verifier.util (setup.accounted address) payload with
  | handled acts =>
      rw [hd] at hx
      exact .old hx
  | request username password =>
      rw [hd] at hx
      have hasked : (({ s with requests := s.requests.alloc ⟨nftSet, address⟩ } : Daemon).checkCredentials
          (.knock s.requests.allocated) username password reload).errand call = some x := by
        cases hch : s.checked reload with
        | throws | queued =>
            simp only [hch] at hx
            exact hx
        | calledBack =>
            simp only [hch, errand_answer] at hx
            exact hx
      rcases errand_checkCredentials hasked with hold | rfl
      · exact .old hold
      · exact .datagram hd

theorem errand_done {job : Job} {result : Bool} {ans : Answers} {done : ℕ}
    (hx : (s.done setup done job result ans).errand call = some x) : s.errand call = some x := by
  have hcall : ∀ t : Daemon, (t.deleteJob done job result).errand call = some x →
      t.errand call = some x := by
    intro t ht
    unfold deleteJob at ht
    split at ht
    · exact ht
    · refine errand_of_jobs (by rfl) ?_ ht
      intro job' hj' hn'
      exact ⟨job', (Checker.jobs_of_doneJob hj').2, hn', rfl, rfl⟩
  rw [done_eq] at hx
  have hx := hcall _ hx
  split at hx
  · exact hx
  · split at hx
    · rename_i r _
      unfold callBack at hx
      cases r with
      | connection id =>
          dsimp only at hx
          split at hx
          · have hsettled := errand_settle hx
            exact hsettled
          · exact hx
      | knock k =>
          dsimp only at hx
          split at hx
          · rw [errand_answer] at hx
            exact hx
          · exact hx
    · exact hx

/-- What a worker does to a job. -/
theorem errand_work {input : Checker.Input} (hs : s.stepChecker setup input = some s')
    (hi : (∃ ticket, input = .start ticket) ∨ ∃ ticket getFails, input = .run ticket getFails)
    (hx : s'.errand call = some x) : s.errand call = some x := by
  obtain ⟨checker, hc, rfl⟩ := Option.map_eq_some_iff.mp hs
  have hset : ∀ {ticket : ℕ} {job : Job} (state : JobState), s.checker.jobs ticket = some job →
      checker.jobs = Function.update s.checker.jobs ticket (some { job with state := state }) →
        s.errand call = some x := by
    intro ticket job state hj hjobs
    refine errand_of_jobs (by rfl) (fun job' hj' hn' => ?_) hx
    rw [hjobs] at hj'
    by_cases hcall : call = ticket
    · subst hcall
      rw [Function.update_self] at hj'
      cases hj'
      exact ⟨job, hj, hn', rfl, rfl⟩
    · rw [Function.update_of_ne hcall] at hj'
      exact ⟨job', hj', hn', rfl, rfl⟩
  cases (Checker.step_cases hc).2 with
  | start hj => exact hset .running hj rfl
  | @run ticket getFails job hj =>
      unfold Checker.runJob at hset hx
      split at hset
      · rename_i result _ _
        exact hset (.finished result) hj rfl
      · rename_i hfails
        rw [hfails] at hx
        exact hx
  | checkCredentials | done | cancel => simp at hi

/-- **Where an errand comes from.** -/
theorem errand_step {input : Input} (hs : step setup s input = some s')
    (hx : s'.errand call = some x) : Errand setup s call input x := by
  unfold step at hs
  split at hs
  · cases input with
    | accept | arrive | discard =>
        obtain ⟨inst, -, rfl⟩ := Option.map_eq_some_iff.mp hs
        exact .old hx
    | event id e ans reload =>
        simp only at hs
        split at hs
        · cases hs
        · exact errand_event hs hx
        · cases hs
    | destroy id =>
        simp only at hs
        split at hs
        · cases hs
          exact .old (errand_settle hx)
        · cases hs
    | datagram nftSet address payload reload =>
        cases hs
        exact errand_onDatagram hx
    | start ticket => exact .old (errand_work hs (.inl ⟨_, rfl⟩) hx)
    | run ticket getFails => exact .old (errand_work hs (.inr ⟨_, _, rfl⟩) hx)
    | done ticket ans =>
        simp only at hs
        split at hs
        · split at hs
          · cases hs
            exact .old (errand_done hx)
          · cases hs
        · cases hs
  · cases hs

/-! ## Pending knocks -/

/-- Only datagrams and results touch the requests. -/
theorem requests_frame {input : Input} (hs : step setup s input = some s')
    (hdatagram : ∀ nftSet address payload reload, input ≠ .datagram nftSet address payload reload)
    (hdone : ∀ ticket ans, input ≠ .done ticket ans) : s'.requests = s.requests := by
  unfold step at hs
  split at hs
  · cases input with
    | accept | arrive | discard | start | run =>
        obtain ⟨part, -, rfl⟩ := Option.map_eq_some_iff.mp hs
        rfl
    | event id e ans reload =>
        simp only at hs
        split at hs
        · cases hs
        · exact requests_event hs
        · cases hs
    | destroy id =>
        simp only at hs
        split at hs
        · cases hs
          exact requests_settle ..
        · cases hs
    | datagram => exact (hdatagram _ _ _ _ rfl).elim
    | done => exact (hdone _ _ rfl).elim
  · cases hs

/-- A pending request stays as it is. -/
theorem requests_step {input : Input} (h : Coherent setup s) (hs : step setup s input = some s') {k : ℕ}
    {knock : PendingKnock} (hk : s'.requests.get k = some knock) :
    s.requests.get k = some knock ∨ ∃ nftSet address payload reload,
      input = .datagram nftSet address payload reload ∧ k = s.requests.allocated ∧
        knock = ⟨nftSet, address⟩ := by
  obtain ⟨hinst, hchecker, -⟩ := step_moves h hs
  cases input with
  | accept | arrive | discard | start | run | event | destroy =>
      have hsame := requests_frame hs (by simp) (by simp)
      exact .inl (hsame ▸ hk)
  | datagram nftSet address payload reload =>
      simp only [step, hinst, hchecker, Option.some.injEq] at hs
      rw [← hs, requests_onDatagram] at hk
      have halloc : (s.requests.alloc ⟨nftSet, address⟩).get k = some knock →
          s.requests.get k = some knock ∨ ∃ nftSet' address' payload' reload',
            Input.datagram nftSet address payload reload = .datagram nftSet' address' payload' reload' ∧
              k = s.requests.allocated ∧ knock = ⟨nftSet', address'⟩ := by
        intro hk
        rcases Heap.get_alloc_eq_some.mp hk with ⟨rfl, rfl⟩ | hk
        · exact .inr ⟨nftSet, address, payload, reload, rfl, rfl, rfl⟩
        · exact .inl hk
      split at hk
      · exact .inl hk
      · exact halloc (Heap.get_free_eq_some.mp hk).2
      · exact halloc hk
  | done ticket ans =>
      simp only [step, hinst, hchecker] at hs
      split at hs
      · rename_i job hj
        split at hs
        · cases hs
          rw [h.requests_done hj _ ans] at hk
          split at hk
          · exact .inl hk
          · split at hk
            · exact .inl (Heap.get_free_eq_some.mp hk).2
            · exact .inl hk
        · cases hs
      · cases hs

/-- What `asked` says of the datagrams holds of the jobs that call knocks back. -/
def JobsAsked (asked : PendingKnock → List UInt8 → List UInt8 → Prop) (s : Daemon) : Prop :=
  ∀ call k username password, s.errand call = some (.knock k, username, password) →
    ∃ knock, s.requests.get k = some knock ∧ asked knock username password

/-- An input is a datagram that `asked` knows, or none. -/
def Input.Told (setup : DaemonSetup) (asked : PendingKnock → List UInt8 → List UInt8 → Prop)
    (input : Input) : Prop :=
  ∀ nftSet address payload reload username password, input = .datagram nftSet address payload reload →
    onUdpDatagram setup.verifier.util true payload = .request username password →
      asked ⟨nftSet, address⟩ username password

section Asked

variable {asked : PendingKnock → List UInt8 → List UInt8 → Prop}

theorem jobsAsked_step {input : Input} (h : Coherent setup s) (hjobs : s.JobsAsked asked)
    (htold : input.Told setup asked) (hs : step setup s input = some s') : s'.JobsAsked asked := by
  intro call k username password hx
  obtain ⟨job, hj, hn, hr, -⟩ := errand_eq_some.mp hx
  obtain ⟨knock, hk⟩ := (coherent_step h hs).pending hj hr hn
  refine ⟨knock, hk, ?_⟩
  have hold := requests_step h hs hk
  generalize hwhom : (⟨.knock k, username, password⟩ : Requester × List UInt8 × List UInt8) = x at hx
  cases errand_step hs hx with
  | old hx =>
      obtain ⟨knock', hk', hasked⟩ := hjobs call k username password (hwhom ▸ hx)
      rcases hold with hold | ⟨_, _, _, _, -, rfl, -⟩
      · cases hk'.symm.trans hold
        exact hasked
      · exact (Heap.ne_allocated hk' rfl).elim
  | connection => cases hwhom
  | datagram hd =>
      cases hwhom
      rcases hold with hold | ⟨_, _, _, _, hinput, -, rfl⟩
      · exact (Heap.ne_allocated hold rfl).elim
      · cases hinput
        refine htold _ _ _ _ _ _ rfl ?_
        revert hd
        cases setup.accounted _ with
        | true => exact id
        | false => exact fun hd => (by cases hd)

/-- **The jobs of knocks check the credentials of datagrams**, in every run. -/
theorem jobsAsked_run {inputs : List Input} (h : Coherent setup s) (hjobs : s.JobsAsked asked)
    (htold : ∀ input ∈ inputs, input.Told setup asked)
    (hrun : Machine.run (step setup) s inputs = some s') : s'.JobsAsked asked :=
  (Machine.invariant_along (C := fun _ input => input.Told setup asked)
    (I := fun s => Coherent setup s ∧ s.JobsAsked asked)
    (fun _ _ _ hI ht hs => ⟨coherent_step hI.1 hs, jobsAsked_step hI.1 hI.2 ht hs⟩) ⟨h, hjobs⟩
    (Machine.along_of_forall (fun input hi _ => htold input hi) s) hrun).2

end Asked

end Daemon

end UoLogin

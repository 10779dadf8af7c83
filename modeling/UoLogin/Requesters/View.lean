import UoLogin.Requesters.Consults

set_option autoImplicit false

/-!
# The daemon and the protocol of callbacks

The daemon refines the protocol of cancelled callbacks: its jobs are the tickets, its connections and
requests the requesters, and a connection waits for a call while it holds a `cancel_ptr`.

* `Daemon.view`: the state of the protocol that a daemon is in, and how the parts of it change;
* `Coherent`: the daemon is in the invariant of the protocol, and a connection waits for its own job;
* `Coherent.continues`, **`Coherent.settle_destroyed`**: what a handler of a connection leaves.
-/

namespace UoLogin

open Connection Callbacks

/-- The requests of knocks are destroyed by the answer. -/
def Requester.isKnock : Requester → Prop
  | .knock _ => True
  | .connection _ => False

def Slot.standing : Slot → Standing
  | .vacant => .unborn
  | .live _ => .alive
  | .gone _ => .dead

/-- The call that the connection waits for, if `cancel_ptr` was set to it. -/
def Slot.waiting (call : Option ℕ) : Slot → Option ℕ
  | .live c => if c.cancelPtr then call else none
  | _ => none

/-- The log does not change how `CheckCredentials` ends. -/
theorem Database.choice_emits (d : Database) (acts : List DatabaseAct) (ans : ReloadAnswers) :
    ((d.emits acts).checkCredentials ans).1.choice = (d.checkCredentials ans).1.choice := by
  have hcontents : (d.emits acts).contentsFor ans = d.contentsFor ans := rfl
  rcases d.checkCredentials_cases ans with ⟨hf, e, d₁, h₁⟩ | ⟨hf, d₁, hd₁, h₁⟩ <;>
    rcases (d.emits acts).checkCredentials_cases ans with ⟨hf', e', d₂, h₂⟩ | ⟨hf', d₂, hd₂, h₂⟩
  · rw [h₁, h₂]
    rfl
  · exact (hf' hf).elim
  · exact (hf hf').elim
  · rw [hcontents, ← hd₁] at hd₂
    rcases h₁ with ⟨hn, h₁⟩ | ⟨handle, hs, h₁⟩ <;> rcases h₂ with ⟨hn', h₂⟩ | ⟨handle', hs', h₂⟩
    · rw [h₁, h₂]
    · rw [hn, hs'] at hd₂
      cases hd₂
    · rw [hn', hs] at hd₂
      cases hd₂
    · rw [h₁, h₂]

namespace Checker

theorem jobs_cancelJob (s : Checker) (call : ℕ) (job : Job) :
    (s.cancelJob call job).jobs = Function.update s.jobs call
      (if job.state = .waiting then none else some { job with canceled := true }) := by
  unfold cancelJob
  split <;> rfl

theorem calls_cancelJob (s : Checker) (call : ℕ) (job : Job) :
    (s.cancelJob call job).calls = s.calls := by
  unfold cancelJob
  split <;> rfl

/-- The jobs that are left after `Done()`. -/
theorem jobs_of_doneJob {s : Checker} {call call' : ℕ} {job job' : Job} {result : Bool}
    (h : (s.doneJob call job result).jobs call' = some job') :
    call' ≠ call ∧ s.jobs call' = some job' := by
  change Function.update s.jobs call none call' = some job' at h
  by_cases hcall : call' = call
  · rw [hcall, Function.update_self] at h
    cases h
  · rw [Function.update_of_ne hcall] at h
    exact ⟨hcall, h⟩

section CheckCredentials

variable (s : Checker) (username password : List UInt8) (ans : ReloadAnswers)

theorem calls_checkCredentials : (s.checkCredentials username password ans).calls = s.calls + 1 := by
  unfold checkCredentials
  dsimp only
  split <;> rfl

theorem jobs_queued (h : (s.database.checkCredentials ans).1.choice = .queued) :
    (s.checkCredentials username password ans).jobs =
      Function.update s.jobs s.calls (some { username := username, password := password }) := by
  rw [← Database.choice_emits s.database [.checkCredentials s.calls username password]] at h
  unfold checkCredentials
  dsimp only
  split
  · rename_i he
    cases (congrArg (·.1.choice) he).symm.trans h
  · rename_i he
    cases (congrArg (·.1.choice) he).symm.trans h
  · rfl

theorem jobs_not_queued (h : (s.database.checkCredentials ans).1.choice ≠ .queued) :
    (s.checkCredentials username password ans).jobs = s.jobs := by
  rw [← Database.choice_emits s.database [.checkCredentials s.calls username password]] at h
  unfold checkCredentials
  dsimp only
  split
  · rfl
  · rfl
  · rename_i he
    exact (h (congrArg (·.1.choice) he)).elim

end CheckCredentials

end Checker

namespace Daemon

section View

variable (conns : ℕ → Slot) (requests : Heap PendingKnock) (cancelPtr : Requester → Option ℕ)
  (jobs : ℕ → Option Job) (callbacks : ℕ → Option Requester)

def standing : Requester → Standing
  | .connection id => (conns id).standing
  | .knock k =>
    if (requests.get k).isSome then .alive else if k < requests.allocated then .dead else .unborn

def waits : Requester → Option ℕ
  | .connection id => (conns id).waiting (cancelPtr (.connection id))
  | .knock k => if (requests.get k).isSome then cancelPtr (.knock k) else none

def tickets (call : ℕ) : Option (Ticket Requester) :=
  (jobs call).bind fun job => (callbacks call).map fun r => ⟨r, job.canceled⟩

theorem standing_setConn (id : ℕ) (slot : Slot) :
    standing (Function.update conns id slot) requests =
      Function.update (standing conns requests) (.connection id) slot.standing := by
  funext r
  cases r with
  | connection j =>
      by_cases hj : j = id
      · subst hj
        simp [standing]
      · simp [standing, hj]
  | knock k => simp [standing]

theorem waits_setConn (id : ℕ) (slot : Slot) :
    waits (Function.update conns id slot) requests cancelPtr =
      Function.update (waits conns requests cancelPtr) (.connection id)
        (slot.waiting (cancelPtr (.connection id))) := by
  funext r
  cases r with
  | connection j =>
      by_cases hj : j = id
      · subst hj
        simp [waits]
      · simp [waits, hj]
  | knock k => simp [waits]

theorem standing_alloc (knock : PendingKnock) :
    standing conns (requests.alloc knock) =
      Function.update (standing conns requests) (.knock requests.allocated) .alive := by
  funext r
  cases r with
  | connection j => simp [standing]
  | knock k =>
      by_cases hk : k = requests.allocated
      · subst hk
        simp [standing]
      · have hlt : k < (requests.alloc knock).allocated ↔ k < requests.allocated := by
          change k < requests.allocated + 1 ↔ _
          omega
        simp [standing, Heap.get_alloc, hk, hlt]

theorem waits_alloc (h : cancelPtr (.knock requests.allocated) = none) (knock : PendingKnock) :
    waits conns (requests.alloc knock) cancelPtr = waits conns requests cancelPtr := by
  funext r
  cases r with
  | connection j => rfl
  | knock k =>
      by_cases hk : k = requests.allocated
      · subst hk
        simp [waits, h]
      · simp [waits, Heap.get_alloc, hk]

theorem standing_free {k : ℕ} {knock : PendingKnock} (h : requests.get k = some knock) :
    standing conns (requests.free k) = Function.update (standing conns requests) (.knock k) .dead := by
  funext r
  cases r with
  | connection j => simp [standing]
  | knock j =>
      by_cases hj : j = k
      · subst hj
        have hlt : j < requests.allocated := Heap.lt_allocated h
        change j < (requests.free j).allocated at hlt
        simp [standing, Heap.get_free, hlt]
      · have hlt : j < (requests.free k).allocated ↔ j < requests.allocated := Iff.rfl
        simp [standing, Heap.get_free, hj, hlt]

theorem waits_free (k : ℕ) :
    waits conns (requests.free k) cancelPtr =
      Function.update (waits conns requests cancelPtr) (.knock k) none := by
  funext r
  cases r with
  | connection j => simp [waits]
  | knock j =>
      by_cases hj : j = k
      · subst hj
        simp [waits, Heap.get_free]
      · simp [waits, Heap.get_free, hj]

/-- `cancel_ptr` of one requester is set. -/
theorem waits_cancelPtr (r : Requester) (call : Option ℕ) :
    waits conns requests (Function.update cancelPtr r call) =
      Function.update (waits conns requests cancelPtr) r
        (waits conns requests (fun _ => call) r) := by
  funext r'
  by_cases hr : r' = r
  · subst hr
    cases r' <;> simp [waits]
  · rw [Function.update_of_ne hr]
    cases r' <;> simp [waits, Function.update_of_ne hr]

theorem tickets_setJob (call : ℕ) (job : Option Job) :
    tickets (Function.update jobs call job) callbacks =
      Function.update (tickets jobs callbacks) call
        (job.bind fun job => (callbacks call).map fun r => ⟨r, job.canceled⟩) := by
  funext call'
  by_cases hc : call' = call
  · subst hc
    simp [tickets]
  · simp [tickets, hc]

/-- A new job with its callback. -/
theorem tickets_queued (call : ℕ) (job : Job) (r : Requester) :
    tickets (Function.update jobs call (some job)) (Function.update callbacks call (some r)) =
      Function.update (tickets jobs callbacks) call (some ⟨r, job.canceled⟩) := by
  funext call'
  by_cases hc : call' = call
  · subst hc
    simp [tickets]
  · simp [tickets, hc]

end View

/-- The state of the protocol that the daemon is in. -/
def view (s : Daemon) : Callbacks.State Requester where
  standing := standing s.inst.conns s.requests
  waits := waits s.inst.conns s.requests s.cancelPtr
  tickets := tickets s.checker.jobs s.callbacks
  log := s.log

variable {setup : DaemonSetup} {s s' : Daemon}

/-- **What holds between two inputs.** -/
structure Coherent (setup : DaemonSetup) (s : Daemon) : Prop where
  good : s.inst.crashed = none → s.inst.Good setup.setup
  inv : Callbacks.Inv Requester.isKnock s.view
  unused : ∀ call, s.checker.calls ≤ call → word Entry.call s.log call = []
  owned : ∀ call, (s.checker.jobs call).isSome = true → (s.callbacks call).isSome = true
  /-- a connection waits for its own job -/
  credentials : ∀ call job id c, s.checker.jobs call = some job →
    s.callbacks call = some (.connection id) → job.canceled = false → s.inst.conns id = .live c →
    c.job = some (job.username, job.password)
  accounted : ∀ k knock, s.requests.get k = some knock → setup.accounted knock.address = true
  unasked : ∀ k, s.requests.allocated ≤ k → s.cancelPtr (.knock k) = none

theorem coherent_new (d : Database) : Coherent setup { checker := { database := d } } where
  good := fun _ => Instance.good_empty
  inv :=
    { life := fun _ => .unasked
      fate := fun r => by cases r <;> exact .unborn
      waits := fun r call => by cases r <;> simp [view, waits, tickets, Slot.waiting]
      alive := fun r call h => by cases r <;> simp [view, waits, Slot.waiting] at h }
  unused := fun _ _ => rfl
  owned := fun _ h => Bool.noConfusion h
  credentials := fun _ _ _ _ h => by cases h
  accounted := fun _ _ h => by cases h
  unasked := fun _ _ => rfl

/-- The ticket of a job. -/
theorem Coherent.ticket (h : Coherent setup s) {call : ℕ} {job : Job}
    (hj : s.checker.jobs call = some job) :
    ∃ r, s.callbacks call = some r ∧ s.view.tickets call = some ⟨r, job.canceled⟩ := by
  obtain ⟨r, hr⟩ := Option.isSome_iff_exists.mp (h.owned call (hj ▸ rfl))
  refine ⟨r, hr, ?_⟩
  simp [view, tickets, hj, hr]

theorem Coherent.isSome_ticket (h : Coherent setup s) (call : ℕ) :
    (s.view.tickets call).isSome = (s.checker.jobs call).isSome := by
  cases hj : s.checker.jobs call with
  | none => simp [view, tickets, hj]
  | some job =>
      obtain ⟨r, -, ht⟩ := h.ticket hj
      rw [ht]
      rfl

/-- The job of a ticket. -/
theorem job_of_ticket {call : ℕ} {r : Requester} {canceled : Bool}
    (ht : s.view.tickets call = some ⟨r, canceled⟩) :
    ∃ job, s.checker.jobs call = some job ∧ s.callbacks call = some r ∧ job.canceled = canceled := by
  obtain ⟨job, hj, he⟩ := Option.bind_eq_some_iff.mp ht
  obtain ⟨r', hr, he⟩ := Option.map_eq_some_iff.mp he
  cases he
  exact ⟨job, hj, hr, rfl⟩

theorem Coherent.call_lt (h : Coherent setup s) {call : ℕ} {job : Job}
    (hj : s.checker.jobs call = some job) : call < s.checker.calls := by
  by_contra hle
  obtain ⟨r, -, ht⟩ := h.ticket hj
  have hlife := h.inv.life call
  rw [ht, show s.view.log = s.log from rfl, h.unused call (by omega)] at hlife
  cases hlife.of_nil

/-- New entries about a call that was made. -/
theorem Coherent.unused_append (h : Coherent setup s) {es : List (Entry Requester)} {call calls : ℕ}
    (hes : ∀ e ∈ es, e.call = none ∨ e.call = some call) (hlt : call < calls)
    (hle : s.checker.calls ≤ calls) (call' : ℕ) (hc : calls ≤ call') :
    word Entry.call (s.log ++ es) call' = [] := by
  rw [word_append, h.unused call' (by omega), word_of_ne hes (by omega)]
  rfl

/-- A connection whose job is not cancelled lives and holds the `cancel_ptr` of it. -/
theorem Coherent.holder (h : Coherent setup s) {call id : ℕ} {job : Job}
    (hj : s.checker.jobs call = some job) (hr : s.callbacks call = some (.connection id))
    (hn : job.canceled = false) :
    ∃ c, s.inst.conns id = .live c ∧ c.cancelPtr = true ∧ s.view.waits (.connection id) = some call := by
  have ht : s.view.tickets call = some ⟨.connection id, false⟩ := by
    simp [view, tickets, hj, hr, hn]
  have hw := (h.inv.waits _ _).mpr ht
  have hwaiting : (s.inst.conns id).waiting (s.cancelPtr (.connection id)) = some call := hw
  cases hc : s.inst.conns id with
  | vacant | gone =>
      rw [hc] at hwaiting
      cases hwaiting
  | live c =>
      rw [hc] at hwaiting
      simp only [Slot.waiting] at hwaiting
      split at hwaiting
      · exact ⟨c, rfl, ‹_›, hw⟩
      · cases hwaiting

/-! ## Connections -/

section Connections

variable {id : ℕ} {c c' : Connection} {inst : Instance}

theorem view_setConn {slot : Slot} (hi : inst.conns = Function.update s.inst.conns id slot) :
    view { s with inst := inst } =
      { s.view with
        standing := Function.update s.view.standing (.connection id) slot.standing
        waits := Function.update s.view.waits (.connection id)
          (slot.waiting (s.cancelPtr (.connection id))) } := by
  refine Callbacks.State.ext ?_ ?_ rfl rfl
  · exact (congrArg (standing · s.requests) hi).trans (standing_setConn ..)
  · exact (congrArg (waits · s.requests s.cancelPtr) hi).trans (waits_setConn ..)

theorem standing_live (hc : s.inst.conns id = .live c) : s.view.standing (.connection id) = .alive := by
  change (s.inst.conns id).standing = _
  rw [hc]
  rfl

theorem waits_live (hc : s.inst.conns id = .live c) :
    s.view.waits (.connection id) = if c.cancelPtr then s.cancelPtr (.connection id) else none := by
  change (s.inst.conns id).waiting _ = _
  rw [hc]
  rfl

/-- Other connections are as they were. -/
theorem Coherent.credentials_setConn (h : Coherent setup s) {slot : Slot}
    (hi : inst.conns = Function.update s.inst.conns id slot)
    (hslot : ∀ call job c', s.checker.jobs call = some job →
      s.callbacks call = some (.connection id) → job.canceled = false → slot = .live c' →
      c'.job = some (job.username, job.password)) (call : ℕ) (job : Job) (id' : ℕ) (c' : Connection)
    (hj : s.checker.jobs call = some job) (hr : s.callbacks call = some (.connection id'))
    (hn : job.canceled = false) (hc' : inst.conns id' = .live c') :
    c'.job = some (job.username, job.password) := by
  rw [hi] at hc'
  by_cases hid : id' = id
  · subst hid
    rw [Function.update_self] at hc'
    exact hslot call job c' hj hr hn hc'
  · rw [Function.update_of_ne hid] at hc'
    exact h.credentials call job id' c' hj hr hn hc'

/-- A connection goes on with the check that it has. -/
theorem Coherent.continues (h : Coherent setup s) (hc : s.inst.conns id = .live c)
    (hp : c'.cancelPtr = c.cancelPtr) (hjob : c.cancelPtr = true → c'.job = c.job)
    (hi : inst.conns = Function.update s.inst.conns id (.live c'))
    (hg : inst.crashed = none → inst.Good setup.setup) : Coherent setup { s with inst := inst } := by
  have hview : view { s with inst := inst } = s.view := by
    have hwaits : Slot.waiting (s.cancelPtr (.connection id)) (.live c') =
        s.view.waits (.connection id) := by
      rw [waits_live hc]
      simp only [Slot.waiting, hp]
    rw [view_setConn hi, hwaits, show Slot.standing (.live c') = _ from (standing_live hc).symm,
      Function.update_eq_self, Function.update_eq_self]
  refine ⟨hg, hview ▸ h.inv, h.unused, h.owned, h.credentials_setConn hi ?_, h.accounted, h.unasked⟩
  intro call job c₁ hj hr hn he
  cases he
  obtain ⟨c₀, hc₀, hcancel, -⟩ := h.holder hj hr hn
  cases hc₀.symm.trans hc
  rw [hjob hcancel]
  exact h.credentials call job id c hj hr hn hc

/-- A connection is destroyed that waits for nothing. -/
theorem Coherent.destroyed (h : Coherent setup s) (hc : s.inst.conns id = .live c)
    (hw : s.view.waits (.connection id) = none)
    (hi : inst.conns = Function.update s.inst.conns id (.gone c'))
    (hg : inst.crashed = none → inst.Good setup.setup) :
    Coherent setup ({ s with inst := inst }.emits [.destroy (.connection id)]) := by
  have hview : view ({ s with inst := inst }.emits [.destroy (.connection id)]) =
      { s.view with
        standing := Function.update s.view.standing (.connection id) .dead
        log := s.log ++ [.destroy (.connection id)] } := by
    have hset := view_setConn hi
    refine Callbacks.State.ext ?_ ?_ rfl rfl
    · exact (congrArg Callbacks.State.standing hset :)
    · refine (congrArg Callbacks.State.waits hset :).trans ?_
      change Function.update s.view.waits _ none = _
      rw [← hw, Function.update_eq_self]
  refine ⟨hg, hview ▸ inv_step h.inv (.destroy (standing_live hc) hw not_false), fun call hcall => ?_,
    h.owned, h.credentials_setConn hi fun _ _ _ _ _ _ he => (by cases he), h.accounted, h.unasked⟩
  change word Entry.call (s.log ++ [.destroy (.connection id)]) call = []
  rw [word_append, h.unused call hcall]
  rfl

/-- A connection is destroyed that waits for a job, which it cancels. -/
theorem Coherent.cancels (h : Coherent setup s) {call : ℕ} {job : Job}
    (hw : s.view.waits (.connection id) = some call) (hj : s.checker.jobs call = some job)
    (hi : inst.conns = Function.update s.inst.conns id (.gone c'))
    (hg : inst.crashed = none → inst.Good setup.setup) {dequeued : Bool}
    (hd : dequeued = decide (job.state = .waiting)) :
    Coherent setup ({ s.emits (cancelling call dequeued) with
      checker := s.checker.cancelJob call job, inst := inst }.emits [.destroy (.connection id)]) := by
  obtain ⟨job₀, hj₀, hr, hn⟩ := job_of_ticket ((h.inv.waits _ _).mp hw)
  cases hj.symm.trans hj₀
  have hjob : ∀ {call' job'}, (s.checker.cancelJob call job).jobs call' = some job' →
      s.checker.jobs call' = some job' ∨ call' = call ∧ job'.canceled = true := by
    intro call' job' hj'
    rw [Checker.jobs_cancelJob] at hj'
    by_cases hcall : call' = call
    · subst hcall
      rw [Function.update_self] at hj'
      split at hj'
      · cases hj'
      · cases hj'
        exact .inr ⟨rfl, rfl⟩
    · rw [Function.update_of_ne hcall] at hj'
      exact .inl hj'
  refine ⟨hg, ?_, ?_, fun call' hsome => ?_, fun call' job' id' c₁ hj' hr' hn' hc' => ?_, h.accounted,
    h.unasked⟩
  · convert inv_step h.inv (@Step.cancel _ _ _ _ _ _ hw not_false dequeued) using 1
    have hset := view_setConn hi
    refine Callbacks.State.ext ?_ ?_ ?_ (List.append_assoc ..)
    · exact (congrArg Callbacks.State.standing hset :)
    · exact (congrArg Callbacks.State.waits hset :)
    · change tickets (s.checker.cancelJob call job).jobs s.callbacks = _
      rw [Checker.jobs_cancelJob, tickets_setJob, hr, hd]
      by_cases hs : job.state = .waiting
      · simp [hs, view]
      · simp [hs, view]
  · change ∀ call', (s.checker.cancelJob call job).calls ≤ call' →
      word Entry.call ((s.log ++ cancelling call dequeued) ++ [.destroy (.connection id)]) call' = []
    rw [Checker.calls_cancelJob, List.append_assoc]
    refine h.unused_append ?_ (h.call_lt hj) (le_refl _)
    cases dequeued <;> simp [cancelling, Entry.call]
  · obtain ⟨job', hj'⟩ := Option.isSome_iff_exists.mp hsome
    rcases hjob hj' with hj' | ⟨rfl, -⟩
    · exact h.owned call' (hj' ▸ rfl)
    · exact h.owned call' (hj ▸ rfl)
  · rcases hjob hj' with hj' | ⟨-, hc⟩
    · exact h.credentials_setConn hi (fun _ _ _ _ _ _ he => by cases he) call' job' id' c₁ hj' hr' hn' hc'
    · rw [hc] at hn'
      cases hn'

/-- **The destructor.** -/
theorem Coherent.settle_destroyed (h : Coherent setup s) (hc : s.inst.conns id = .live c)
    (hp : c'.cancelPtr = c.cancelPtr) {stock : PipeStock UInt8}
    (hg : s.inst.crashed = none → (s.inst.settle id stock (.destroyed c')).Good setup.setup) :
    Coherent setup (s.settle id stock (.destroyed c')) := by
  have hw := waits_live hc
  rw [← hp] at hw
  unfold settle
  simp only
  split
  · rename_i hcancel
    rw [if_pos hcancel] at hw
    unfold cancel
    cases hptr : s.cancelPtr (.connection id) with
    | none => exact h.destroyed hc (hw.trans hptr) rfl hg
    | some call =>
        obtain ⟨job, hj, -⟩ := job_of_ticket ((h.inv.waits _ _).mp (hw.trans hptr))
        simp only [hj]
        exact h.cancels (hw.trans hptr) hj rfl hg rfl
  · rename_i hcancel
    rw [if_neg hcancel] at hw
    exact h.destroyed hc hw rfl hg

end Connections

end Daemon

end UoLogin

import UoLogin.Database.Reload
import UoLogin.Lib.History
import UoLogin.Lib.Machine

set_option autoImplicit false

/-!
# Queued credential checks

`CheckCredentials` puts a job into the queue of the thread pool. A worker starts it and runs it once,
the event loop calls its `Done()`, and its owner may cancel it; meanwhile other calls may reload the
database that all jobs refer to.

* `step_cases`: what one input can do;
* `Handles`: every handle is closed at most once, and `db` holds an open one or none;
* **`gets_open_iff`**: in a run every job finds an open handle, exactly if none runs while the last
  attempt to reload has failed.
-/

namespace UoLogin

inductive JobState where
  | waiting
  | running
  | finished (result : Bool)
  deriving DecidableEq, Repr

/-- A `CheckCredentialsJob`. -/
structure Job where
  username : List UInt8
  password : List UInt8
  state : JobState := .waiting
  canceled : Bool := false
  deriving DecidableEq, Repr

/-- The database, and the jobs by the number of their call. -/
structure Checker where
  database : Database
  jobs : ℕ → Option Job := fun _ => none
  calls : ℕ := 0
  /-- how the process ended, if it has -/
  crashed : Option Stop := none

namespace Checker

inductive Input where
  | checkCredentials (username password : List UInt8) (ans : ReloadAnswers)
  | start (id : ℕ)
  | run (id : ℕ) (getFails : Bool)
  | done (id : ℕ)
  | cancel (id : ℕ)

variable {v : Verifier} {s s' : Checker} {input : Input}

def setJob (s : Checker) (id : ℕ) (job : Option Job) : Checker :=
  { s with jobs := Function.update s.jobs id job }

def setDatabase (s : Checker) (d : Database) : Checker := { s with database := d }

def emits (s : Checker) (acts : List DatabaseAct) : Checker :=
  s.setDatabase (s.database.emits acts)

/-- `CheckCredentials`. -/
def checkCredentials (s : Checker) (username password : List UInt8) (ans : ReloadAnswers) : Checker :=
  let s := s.emits [.checkCredentials s.calls username password]
  let next := { s with calls := s.calls + 1 }
  match s.database.checkCredentials ans with
  | (.throws _, d) => next.setDatabase d
  | (.calledBack, d) =>
    (next.setDatabase d).emits [.noDatabase s.calls, .callback s.calls username true]
  | (.queued, d) =>
    (next.setDatabase d).setJob s.calls (some { username := username, password := password })

/-- `Run`, in a worker. The job refers to the member `db` of the database. -/
def runJob (v : Verifier) (s : Checker) (id : ℕ) (job : Job) (getFails : Bool) : Checker :=
  match checkPassword v id s.database.db getFails job.username job.password with
  | (.ok result, acts) => (s.emits acts).setJob id (some { job with state := .finished result })
  | (.error why, acts) => { s.emits acts with crashed := some why }

/-- `Done`. -/
def doneJob (s : Checker) (id : ℕ) (job : Job) (result : Bool) : Checker :=
  (s.emits ((if job.canceled then [] else [.callback id job.username result]) ++ [.delete id])).setJob
    id none

/-- `Cancel`: `queue.Cancel()` succeeds as long as no worker has started the job. -/
def cancelJob (s : Checker) (id : ℕ) (job : Job) : Checker :=
  if job.state = .waiting then (s.emits [.delete id]).setJob id none
  else s.setJob id (some { job with canceled := true })

/-- One input, while the process runs. -/
def step (v : Verifier) (s : Checker) (input : Input) : Option Checker :=
  match s.crashed with
  | some _ => none
  | none =>
    match input with
    | .checkCredentials username password ans => some (s.checkCredentials username password ans)
    | .start id =>
      match s.jobs id with
      | some job =>
        if job.state = .waiting then some (s.setJob id (some { job with state := .running })) else none
      | none => none
    | .run id getFails =>
      match s.jobs id with
      | some job => if job.state = .running then some (s.runJob v id job getFails) else none
      | none => none
    | .done id =>
      match s.jobs id with
      | some job =>
        match job.state with
        | .finished result => some (s.doneJob id job result)
        | _ => none
      | none => none
    | .cancel id =>
      match s.jobs id with
      | some job => if job.canceled then none else some (s.cancelJob id job)
      | none => none

/-- The runs of a daemon with this database. -/
def Run (v : Verifier) (d : Database) (inputs : List Input) (s : Checker) : Prop :=
  Machine.run (step v) { database := d } inputs = some s

/-- **What one input can do.** -/
inductive Steps (v : Verifier) (s : Checker) : Input → Checker → Prop
  | checkCredentials {username password : List UInt8} {ans : ReloadAnswers} :
      Steps v s (.checkCredentials username password ans) (s.checkCredentials username password ans)
  | start {id : ℕ} {job : Job} (hj : s.jobs id = some job) (hs : job.state = .waiting) :
      Steps v s (.start id) (s.setJob id (some { job with state := .running }))
  | run {id : ℕ} {getFails : Bool} {job : Job} (hj : s.jobs id = some job)
      (hs : job.state = .running) : Steps v s (.run id getFails) (s.runJob v id job getFails)
  | done {id : ℕ} {job : Job} {result : Bool} (hj : s.jobs id = some job)
      (hs : job.state = .finished result) : Steps v s (.done id) (s.doneJob id job result)
  | cancel {id : ℕ} {job : Job} (hj : s.jobs id = some job) (hc : job.canceled = false) :
      Steps v s (.cancel id) (s.cancelJob id job)

theorem step_cases (h : step v s input = some s') : s.crashed = none ∧ Steps v s input s' := by
  unfold step at h
  split at h
  · cases h
  rename_i hcrashed
  refine ⟨hcrashed, ?_⟩
  cases input with
  | checkCredentials username password ans =>
      cases h
      exact .checkCredentials
  | start id =>
      simp only at h
      split at h
      · rename_i job hj
        split at h
        · rename_i hs
          cases h
          exact .start hj hs
        · cases h
      · cases h
  | run id getFails =>
      simp only at h
      split at h
      · rename_i job hj
        split at h
        · rename_i hs
          cases h
          exact .run hj hs
        · cases h
      · cases h
  | done id =>
      simp only at h
      split at h
      · rename_i job hj
        split at h
        · rename_i result hs
          cases h
          exact .done hj hs
        · cases h
      · cases h
  | cancel id =>
      simp only at h
      split at h
      · rename_i job hj
        split at h
        · cases h
        · rename_i hc
          cases h
          exact .cancel hj ((Bool.not_eq_true _).mp hc)
      · cases h

/-- The database that a call finds. -/
def asked (s : Checker) (username password : List UInt8) : Database :=
  s.database.emits [.checkCredentials s.calls username password]

/-- What a call of `CheckCredentials` can do. -/
inductive Asks (s : Checker) (username password : List UInt8) (ans : ReloadAnswers) : Checker → Prop
  | throws {e : DatabaseError} {d : Database}
      (h : Database.Checks (s.asked username password) ans (.throws e, d)) :
      Asks s username password ans { s with database := d, calls := s.calls + 1 }
  | calledBack {d : Database}
      (h : Database.Checks (s.asked username password) ans (.calledBack, d)) :
      Asks s username password ans
        { s with
          database := d.emits [.noDatabase s.calls, .callback s.calls username true]
          calls := s.calls + 1 }
  | queued {d : Database} (h : Database.Checks (s.asked username password) ans (.queued, d)) :
      Asks s username password ans (setJob { s with database := d, calls := s.calls + 1 } s.calls
        (some { username := username, password := password }))

theorem checkCredentials_asks (s : Checker) (username password : List UInt8) (ans : ReloadAnswers) :
    Asks s username password ans (s.checkCredentials username password ans) := by
  have h := Database.checkCredentials_checks (s.asked username password) ans
  unfold checkCredentials
  change Asks s username password ans
    (match (s.asked username password).checkCredentials ans with
    | (.throws _, d) => _
    | (.calledBack, d) => _
    | (.queued, d) => _)
  generalize (s.asked username password).checkCredentials ans = res at h
  obtain ⟨checked, d⟩ := res
  cases checked with
  | throws e => exact .throws h
  | calledBack => exact .calledBack h
  | queued => exact .queued h

/-! ## The invariant of the queue -/

/-- **What holds between two inputs.** While there are jobs, the database is open or remembers why it
is not. -/
structure Sound (s : Checker) : Prop where
  handles : s.database.Handles
  exclusive : s.database.Exclusive
  queued : ∀ id job, s.jobs id = some job →
    s.database.db.isSome = true ∨ s.database.lastReloadError.isSome = true

/-- Entries about calls, with changes of the jobs by an input that finds one. -/
theorem Sound.emits (h : Sound s) {acts : List DatabaseAct} (ha : closes acts = []) {id : ℕ} {job : Job}
    (hj : s.jobs id = some job) {jobs : ℕ → Option Job} {crashed : Option Stop} :
    Sound { s.emits acts with jobs := jobs, crashed := crashed } where
  handles := h.handles.emits ha
  exclusive := h.exclusive
  queued := fun _ _ _ => h.queued id job hj

theorem Sound.setJob (h : Sound s) {id : ℕ} {job : Job} (hj : s.jobs id = some job)
    (job' : Option Job) : Sound (s.setJob id job') where
  handles := h.handles
  exclusive := h.exclusive
  queued := fun _ _ _ => h.queued id job hj

theorem Asks.sound {username password : List UInt8} {ans : ReloadAnswers}
    (hasks : Asks s username password ans s') (h : Sound s) : Sound s' := by
  have hasked : (s.asked username password).Handles := h.handles.emits rfl
  have hqueued : ∀ {checked d}, Database.Checks (s.asked username password) ans (checked, d) →
      ∀ id job, s.jobs id = some job → d.db.isSome = true ∨ d.lastReloadError.isSome = true :=
    fun hc id job hj => hc.open_or_error (h.queued id job hj)
  cases hasks with
  | throws hc => exact ⟨hc.handles hasked, hc.exclusive h.exclusive, hqueued hc⟩
  | calledBack hc =>
      have hq := hqueued hc
      exact ⟨(hc.handles hasked).emits rfl, hc.exclusive h.exclusive, hq⟩
  | queued hc =>
      refine ⟨hc.handles hasked, hc.exclusive h.exclusive, fun id job hj => ?_⟩
      cases hc with
      | queued hsettles hd => exact .inl hd

/-- **Every input keeps the invariant.** -/
theorem sound_step (h : Sound s) (hs : step v s input = some s') : Sound s' := by
  obtain ⟨-, hs⟩ := step_cases hs
  cases hs with
  | checkCredentials => exact (checkCredentials_asks s _ _ _).sound h
  | start hj hs => exact h.setJob hj _
  | @run id getFails job hj hs =>
      have hverifies := checkPassword_verifies v id s.database.db getFails job.username job.password
      unfold runJob
      generalize checkPassword v id s.database.db getFails job.username job.password = res
        at hverifies
      cases hverifies with
      | tooLong | notOpen | throws | refused | verified => exact h.emits rfl hj
  | @done id job result hj hs =>
      refine h.emits ?_ hj
      cases job.canceled <;> rfl
  | cancel hj hc =>
      unfold cancelJob
      split
      · exact h.emits rfl hj
      · exact h.setJob hj _

theorem sound_new {path : Option (List UInt8)} {autoReload : Bool} {ans : ReloadAnswers}
    {d : Database} (h : Database.new path autoReload ans = .ok d) : Sound { database := d } := by
  refine ⟨Database.handles_new h, ?_, nofun⟩
  rcases Database.new_cases h with ⟨-, rfl⟩ | ⟨contents, -, rfl⟩
  · exact nofun
  · exact nofun

/-! ## Lookups -/

/-- A lookup finds an open handle. -/
def GetsOpen (pre : List DatabaseAct) (a : DatabaseAct) : Prop :=
  ∀ call handle, a = .get call handle →
    ∃ h, handle = some h ∧ .opened h ∈ pre ∧ .close h.id ∉ pre

/-- A worker runs a job that looks a user up, after an attempt to reload has failed and before one
has succeeded. -/
def RunsStale (s : Checker) (input : Input) : Prop :=
  ∃ id getFails job, input = .run id getFails ∧ s.jobs id = some job ∧ job.username.length ≤ 30 ∧
    s.database.lastReloadError.isSome = true

theorem gets_append {log acts : List DatabaseAct} (h : History.Every GetsOpen log)
    (ha : ∀ call handle, .get call handle ∉ acts) : History.Every GetsOpen (log ++ acts) := by
  refine History.every_append.mpr ⟨h, History.every_of_forall fun a hm pre call handle he => ?_⟩
  rw [he] at hm
  exact (ha call handle hm).elim

/-- The handle of an open database is open. -/
theorem gets_snoc (h : Sound s) (hg : History.Every GetsOpen s.database.log) {handle : Handle}
    (hd : s.database.db = some handle) (id : ℕ) :
    History.Every GetsOpen (s.database.log ++ [.get id (some handle)]) := by
  obtain ⟨-, hopened, hclosed⟩ := h.handles.db handle hd
  refine History.every_append.mpr ⟨hg, History.every_cons.mpr ⟨fun call handle' he => ?_,
    History.every_nil⟩⟩
  cases he
  rw [List.append_nil]
  exact ⟨handle, rfl, hopened, fun hc => hclosed (mem_closes.mpr hc)⟩

/-- A job that is run after a failed reload ends the process. -/
theorem runJob_stale {id : ℕ} {job : Job} (hd : s.database.db = none)
    (hl : job.username.length ≤ 30) (getFails : Bool) : s.runJob v id job getFails =
      { s.emits [.get id none] with crashed := some (.abort .getOpen) } := by
  unfold runJob checkPassword
  rw [if_neg (Nat.not_lt_of_le hl), hd]

/-- All lookups so far found an open handle. -/
structure Looked (s : Checker) : Prop where
  gets : History.Every GetsOpen s.database.log
  crashed : s.crashed ≠ some (.abort .getOpen)

theorem looked_run (h : Sound s) (hg : Looked s) {id : ℕ} {job : Job} (hj : s.jobs id = some job)
    {getFails : Bool} (hn : ¬ RunsStale s (.run id getFails)) :
    Looked (s.runJob v id job getFails) := by
  have hverifies := checkPassword_verifies v id s.database.db getFails job.username job.password
  unfold runJob
  generalize checkPassword v id s.database.db getFails job.username job.password = res at hverifies
  cases hverifies with
  | tooLong hl => exact ⟨gets_append hg.gets nofun, hg.crashed⟩
  | notOpen hl hd =>
      rcases h.queued id job hj with hq | hq
      · rw [hd] at hq
        cases hq
      · exact (hn ⟨id, getFails, job, rfl, hj, hl, hq⟩).elim
  | throws hl hd he => exact ⟨gets_snoc h hg.gets hd id, nofun⟩
  | refused hl hd he hv => exact ⟨gets_snoc h hg.gets hd id, hg.crashed⟩
  | @verified hl handle hd value he hv =>
      refine ⟨?_, hg.crashed⟩
      have hlog : History.Every GetsOpen ((s.database.log ++ [.get id (some handle)]) ++
          [.verify id handle value job.password (v.verify value job.password)]) :=
        gets_append (gets_snoc h hg.gets hd id) fun call handle' hm => by
          cases List.mem_singleton.mp hm
      rw [List.append_assoc] at hlog
      exact hlog

theorem looked_step (h : Sound s) (hg : Looked s) (hn : ¬ RunsStale s input)
    (hs : step v s input = some s') : Looked s' := by
  obtain ⟨-, hs⟩ := step_cases hs
  cases hs with
  | @checkCredentials username password ans =>
      have hgets : ∀ {checked d}, Database.Checks (s.asked username password) ans (checked, d) →
          History.Every GetsOpen d.log := by
        intro checked d hc
        obtain ⟨acts, hlog, ha⟩ := hc.log
        have hask : History.Every GetsOpen (s.asked username password).log :=
          gets_append hg.gets fun call handle hm => by cases List.mem_singleton.mp hm
        rw [hlog]
        exact gets_append hask fun call handle hm => nomatch ha _ hm
      have hasks := checkCredentials_asks s username password ans
      generalize s.checkCredentials username password ans = s'' at hasks
      cases hasks with
      | throws hc => exact ⟨hgets hc, hg.crashed⟩
      | calledBack hc =>
          exact ⟨gets_append (hgets hc) fun call handle hm => by simp at hm, hg.crashed⟩
      | queued hc => exact ⟨hgets hc, hg.crashed⟩
  | start => exact ⟨hg.gets, hg.crashed⟩
  | run hj hs => exact looked_run h hg hj hn
  | @done id job result hj hs =>
      refine ⟨gets_append hg.gets fun call handle hm => ?_, hg.crashed⟩
      cases hc : job.canceled <;> simp [hc] at hm
  | cancel =>
      unfold cancelJob
      split
      · exact ⟨gets_append hg.gets fun call handle hm => by simp at hm, hg.crashed⟩
      · exact ⟨hg.gets, hg.crashed⟩

/-- If all lookups found an open handle, no job was run after a failed reload. -/
theorem along_of_looked {s₀ : Checker} {inputs : List Input} (h : Sound s₀)
    (hrun : Machine.run (step v) s₀ inputs = some s) (hg : Looked s) :
    Machine.Along (step v) (fun s input => ¬ RunsStale s input) s₀ inputs := by
  induction inputs generalizing s₀ with
  | nil => trivial
  | cons input inputs ih =>
      rw [Machine.run_cons] at hrun
      obtain ⟨t, ht, hrest⟩ := Option.bind_eq_some_iff.mp hrun
      refine ⟨?_, fun t' ht' => ?_⟩
      · rintro ⟨id, getFails, job, rfl, hj, hl, herror⟩
        obtain ⟨-, hs⟩ := step_cases ht
        cases hs with
        | @run _ _ job' hj' hs =>
            cases hj.symm.trans hj'
            rw [runJob_stale (h.exclusive herror) hl getFails] at hrest
            -- the process is over, so that this was the last input
            cases inputs with
            | nil =>
                cases hrest
                exact hg.crashed rfl
            | cons input inputs => cases hrest
      · rw [ht] at ht'
        cases ht'
        exact ih (sound_step h ht) hrest

/-- **A queued check finds an open database, exactly if no job is run between a failed reload and the
next successful one.** No handle is closed twice in any run. -/
theorem gets_open_iff {path : Option (List UInt8)} {autoReload : Bool} {ans : ReloadAnswers}
    {d : Database} {inputs : List Input} (hd : Database.new path autoReload ans = .ok d)
    (h : Run v d inputs s) :
    ((∀ pre call handle post, s.database.log = pre ++ .get call handle :: post →
        ∃ h, handle = some h ∧ .opened h ∈ pre ∧ .close h.id ∉ pre) ∧
      s.crashed ≠ some (.abort .getOpen) ↔
      Machine.Along (step v) (fun s input => ¬ RunsStale s input) { database := d } inputs) ∧
    (closes s.database.log).Nodup := by
  have hsound : Sound s := Machine.invariant (fun _ _ _ hI hs => sound_step hI hs) (sound_new hd) h
  refine ⟨⟨fun hg => ?_, fun hstale => ?_⟩, hsound.handles.once⟩
  · refine along_of_looked (sound_new hd) h ⟨fun pre a post hlog call handle he => ?_, hg.2⟩
    rw [he] at hlog
    exact hg.1 pre call handle post hlog
  · have hnew : Looked { database := d } := by
      refine ⟨?_, nofun⟩
      rcases Database.new_cases hd with ⟨-, rfl⟩ | ⟨contents, -, rfl⟩
      · exact History.every_nil
      · exact gets_append History.every_nil fun call handle hm => by cases List.mem_singleton.mp hm
    obtain ⟨-, hg⟩ := Machine.invariant_along (I := fun s => Sound s ∧ Looked s)
      (fun _ _ _ hI hn hs => ⟨sound_step hI.1 hs, looked_step hI.1 hI.2 hn hs⟩) ⟨sound_new hd, hnew⟩
      hstale h
    exact ⟨fun pre call handle post hlog => hg.gets pre _ post hlog call handle rfl, hg.crashed⟩

/-! ## A database to run -/

/-- The Argon2id hash of `b`, as `crypto_pwhash_str()` writes it. -/
def sampleHash : List UInt8 :=
  [0x24, 0x61, 0x72, 0x67, 0x6f, 0x6e, 0x32, 0x69, 0x64, 0x24, 0x76, 0x3d, 0x31, 0x39, 0x24, 0x6d,
    0x3d, 0x38, 0x2c, 0x74, 0x3d, 0x31, 0x2c, 0x70, 0x3d, 0x31, 0x24, 0x4d, 0x44, 0x45, 0x79, 0x4d,
    0x7a, 0x51, 0x31, 0x4e, 0x6a, 0x63, 0x34, 0x4f, 0x57, 0x46, 0x69, 0x59, 0x32, 0x52, 0x6c, 0x5a,
    0x67, 0x24, 0x42, 0x43, 0x6b, 0x41, 0x63, 0x4c, 0x4c, 0x2b, 0x36, 0x6a, 0x4f, 0x4d, 0x4e, 0x6f,
    0x4b, 0x6d, 0x4a, 0x53, 0x75, 0x77, 0x56, 0x4f, 0x63, 0x6f, 0x6b, 0x4c, 0x50, 0x4d, 0x55, 0x2b,
    0x71, 0x54, 0x65, 0x43, 0x4b, 0x57, 0x64, 0x77, 0x6c, 0x6d, 0x36, 0x32, 0x49]

/-- The database of one user, `A`. -/
def sampleContents : Contents := fun key => if key = [0x41] then some sampleHash else none

/-- `crypto_pwhash_str_verify()`, as far as the samples use it. -/
def sampleVerifier : Verifier where
  util := .ascii
  verify value password := value == sampleHash && password == [0x62]

def sampleLoads (mtime : ℤ) : ReloadAnswers where
  stat := some { regular := true, mtime := mtime, size := 4096 }
  runtimeDirectory := true
  copyRegularFile := true
  dbCreate := true
  dbOpen := some sampleContents

/-- The database of a daemon with `auto_reload`. -/
def sampleDatabase : Database := { path := some [0x2f], autoReload := true }

/-- The user `a` logs in, and the password is right. -/
def sampleLogin : List Input :=
  [.checkCredentials [0x61] [0x62] (sampleLoads 1), .start 0, .run 0 false, .done 0]

/-- The file changes while the job waits, and cannot be copied. -/
def sampleStale : List Input :=
  [.checkCredentials [0x61] [0x62] (sampleLoads 1),
    .checkCredentials [0x61] [0x62] { sampleLoads 2 with copyRegularFile := false }, .start 0,
    .run 0 false]

/-- No job of the sample is run after a failed reload. -/
theorem sampleLogin_along : Machine.Along (step sampleVerifier) (fun s input => ¬ RunsStale s input)
    { database := sampleDatabase } sampleLogin := by
  refine ⟨?_, fun s₁ h₁ => ⟨?_, fun s₂ h₂ => ⟨?_, fun s₃ h₃ => ⟨?_, fun _ _ => trivial⟩⟩⟩⟩
  · rintro ⟨_, _, _, he, -⟩
    cases he
  · rintro ⟨_, _, _, he, -⟩
    cases he
  · rintro ⟨_, _, _, -, -, -, herror⟩
    cases h₁
    cases h₂
    exact Bool.false_ne_true herror
  · rintro ⟨_, _, _, he, -⟩
    cases he

theorem gets_open_iff_of_sample :
    ∃ s, Database.new (some [0x2f]) true (sampleLoads 1) = .ok sampleDatabase ∧
      Run sampleVerifier sampleDatabase sampleLogin s ∧
      (∃ pre, s.database.log = pre ++ [.callback 0 [0x61] true, .delete 0]) ∧
      (∀ pre call handle post, s.database.log = pre ++ .get call handle :: post →
        ∃ h, handle = some h ∧ .opened h ∈ pre ∧ .close h.id ∉ pre) ∧
      (closes s.database.log).Nodup := by
  obtain ⟨s, h, hlog⟩ : ∃ s, Run sampleVerifier sampleDatabase sampleLogin s ∧
      ∃ pre, s.database.log = pre ++ [.callback 0 [0x61] true, .delete 0] :=
    ⟨_, rfl, _, rfl⟩
  have hnew : Database.new (some [0x2f]) true (sampleLoads 1) = .ok sampleDatabase := rfl
  have hopen := gets_open_iff hnew h
  exact ⟨s, hnew, h, hlog, (hopen.1.mpr sampleLogin_along).1, hopen.2⟩

/-- **A job meets a closed database.** -/
theorem stale_job_aborts :
    ∃ s, Database.new (some [0x2f]) true (sampleLoads 1) = .ok sampleDatabase ∧
      Run sampleVerifier sampleDatabase sampleStale s ∧ s.crashed = some (.abort .getOpen) ∧
      ¬ ∀ pre call handle post, s.database.log = pre ++ .get call handle :: post →
        ∃ h, handle = some h ∧ .opened h ∈ pre ∧ .close h.id ∉ pre := by
  obtain ⟨s, h, hcrashed, pre, hlog⟩ : ∃ s, Run sampleVerifier sampleDatabase sampleStale s ∧
      s.crashed = some (.abort .getOpen) ∧ ∃ pre, s.database.log = pre ++ [.get 0 none] :=
    ⟨_, rfl, rfl, _, rfl⟩
  refine ⟨s, rfl, h, hcrashed, fun hopen => ?_⟩
  obtain ⟨h, he, -⟩ := hopen pre 0 none [] hlog
  cases he

end Checker

end UoLogin

import UoLogin.Database.Jobs

set_option autoImplicit false

/-!
# A configured database fails closed

A callback with a positive result should always answer a verified password. It does, other than when
the first file that the daemon looks at has the modification time 0: this is also the value that
`last_mtime` begins with, the file is not loaded, and the branch for daemons without a database
accepts everybody.

* `Loaded`: the database is open, remembers an error, or has never seen the file;
* `Honest`: the invariant of the queue; `honest_step` keeps it;
* **`fails_closed_iff`**: a run fails closed exactly if no call finds that file.
-/

namespace UoLogin

namespace Database

variable {d d' : Database} {ans : ReloadAnswers}

/-- A database with a file: it is open, remembers an error, or was never loaded. -/
def Loaded (d : Database) : Prop :=
  d.db.isSome = true ∨ d.autoReload = true ∧ (d.lastReloadError.isSome = true ∨ d.lastMtime = 0)

theorem Checks.loaded {checked : Checked} (hc : Checks d ans (checked, d')) (h : Loaded d) :
    Loaded d' := by
  cases hr : d.autoReload with
  | false =>
      have hd : d' = d := by
        cases hc with
        | throws ha h => exact nomatch hr.symm.trans ha
        | calledBack h hd | queued h hd =>
            rcases h with ⟨-, rfl⟩ | ⟨ha, -⟩
            · rfl
            · exact nomatch hr.symm.trans ha
      rw [hd]
      exact h
  | true =>
      rcases hc.cases with rfl | ⟨res, hreloads⟩
      · exact h
      · cases hreloads with
        | stat | notRegularFile | rethrows | unchanged => exact h
        | failed => exact .inr ⟨hr, .inl rfl⟩
        | loaded => exact .inl rfl

/-- The call finds a file with modification time 0 before any was loaded. -/
structure AtEpoch (d : Database) (ans : ReloadAnswers) : Prop where
  autoReload : d.autoReload = true
  db : d.db = none
  lastReloadError : d.lastReloadError = none
  stat : ∃ st, ans.stat = some st ∧ st.regular = true ∧ st.mtime = 0

/-- The branch for daemons without a database is only taken there. -/
theorem Checks.epoch (hc : Checks d ans (.calledBack, d')) (h : Loaded d) : AtEpoch d ans := by
  cases hc with
  | calledBack hs hd =>
      rcases hs with ⟨ha, rfl⟩ | ⟨ha, hr⟩
      · rcases h with h | h
        · rw [hd] at h
          cases h
        · exact nomatch ha.symm.trans h.1
      · cases hr with
        | unchanged hs hr hm he =>
            refine ⟨ha, hd, he, _, hs, hr, ?_⟩
            rcases h with h | ⟨-, h | h⟩
            · rw [hd] at h
              cases h
            · rw [he] at h
              cases h
            · exact hm.trans h
        | loaded => cases hd

/-- And there it is taken. -/
theorem AtEpoch.checkCredentials_eq (he : AtEpoch d ans) (h : Loaded d) :
    d.checkCredentials ans = (.calledBack, d) := by
  obtain ⟨ha, hd, herror, st, hs, hr, hm⟩ := he
  have hmtime : st.mtime = d.lastMtime := by
    rcases h with h | ⟨-, h | h⟩
    · rw [hd] at h
      cases h
    · rw [herror] at h
      cases h
    · exact hm.trans h.symm
  have hreload : d.maybeAutoReload ans = (.ok (), d) := by
    unfold maybeAutoReload
    rw [hs]
    simp only [hr, Bool.not_true, Bool.false_eq_true, if_false]
    rw [if_pos hmtime, herror]
  unfold checkCredentials
  rw [ha, if_pos rfl, hreload]
  simp only [hd]
  rfl

theorem loaded_new {path : List UInt8} {autoReload : Bool}
    (h : new (some path) autoReload ans = .ok d) : Loaded d := by
  rcases new_cases h with ⟨hp, rfl⟩ | ⟨contents, -, rfl⟩
  · rcases hp with hp | hp
    · cases hp
    · exact .inr ⟨hp, .inr rfl⟩
  · exact .inl rfl

end Database

namespace Checker

variable {v : Verifier} {s s' : Checker} {input : Input}

/-- The password of the call was verified against the value that a database it has opened stores for
the user. -/
def Verified (v : Verifier) (log : List DatabaseAct) (call : ℕ) (username password : List UInt8) :
    Prop :=
  ∃ h value, .opened h ∈ log ∧ h.contents (v.key username) = some value ∧
    v.verify value password = true ∧ .verify call h value password true ∈ log

/-- A callback with a positive result answers a call whose password was verified. -/
def Answers (v : Verifier) (pre : List DatabaseAct) (a : DatabaseAct) : Prop :=
  ∀ call username, a = .callback call username true →
    ∃ password, .checkCredentials call username password ∈ pre ∧ Verified v pre call username password

/-- What is known of a job: its call, and why its result is positive. -/
structure Known (v : Verifier) (log : List DatabaseAct) (id : ℕ) (job : Job) : Prop where
  asked : .checkCredentials id job.username job.password ∈ log
  finished : job.state = .finished true → Verified v log id job.username job.password

theorem Known.mono {log : List DatabaseAct} {id : ℕ} {job : Job} (h : Known v log id job)
    (acts : List DatabaseAct) : Known v (log ++ acts) id job := by
  refine ⟨List.mem_append_left _ h.asked, fun hs => ?_⟩
  obtain ⟨handle, value, ho, hc, hv, hm⟩ := h.finished hs
  exact ⟨handle, value, List.mem_append_left _ ho, hc, hv, List.mem_append_left _ hm⟩

/-- The log so far is that of a database that fails closed. -/
structure Closed (v : Verifier) (log : List DatabaseAct) : Prop where
  answers : History.Every (Answers v) log
  noDatabase : ∀ call, .noDatabase call ∉ log

/-- Entries that accept nobody. -/
theorem Closed.append {log acts : List DatabaseAct} (h : Closed v log)
    (hc : ∀ call username, .callback call username true ∉ acts)
    (hn : ∀ call, .noDatabase call ∉ acts) : Closed v (log ++ acts) := by
  refine ⟨History.every_append.mpr ⟨h.answers, History.every_of_forall ?_⟩, fun call hm => ?_⟩
  · intro a hm pre call username he
    rw [he] at hm
    exact (hc call username hm).elim
  · rcases List.mem_append.mp hm with hm | hm
    · exact h.noDatabase call hm
    · exact hn call hm

/-- **The invariant of a database that fails closed.** -/
structure Honest (v : Verifier) (s : Checker) : Prop where
  loaded : s.database.Loaded
  closed : Closed v s.database.log
  jobs : ∀ id job, s.jobs id = some job → Known v s.database.log id job

/-- One job changes. -/
theorem known_update {log : List DatabaseAct} {jobs : ℕ → Option Job} {id : ℕ} {job : Option Job}
    (h : ∀ id job, jobs id = some job → Known v log id job) (hjob : ∀ j, job = some j → Known v log id j)
    (id' : ℕ) (job' : Job) (hj : Function.update jobs id job id' = some job') :
    Known v log id' job' := by
  by_cases he : id' = id
  · subst he
    rw [Function.update_self] at hj
    exact hjob job' hj
  · rw [Function.update_of_ne he] at hj
    exact h id' job' hj

theorem Asks.honest {username password : List UInt8} {ans : ReloadAnswers}
    (hasks : Asks s username password ans s') (h : Honest v s)
    (hepoch : ¬ s.database.AtEpoch ans) : Honest v s' := by
  have hask : ∀ {checked d}, Database.Checks (s.asked username password) ans (checked, d) →
      d.Loaded ∧ Closed v d.log ∧ .checkCredentials s.calls username password ∈ d.log ∧
        ∀ id job, s.jobs id = some job → Known v d.log id job := by
    intro checked d hc
    obtain ⟨acts, hlog, ha⟩ := hc.log
    have hasked : Closed v (s.asked username password).log :=
      h.closed.append (fun call username hm => by cases List.mem_singleton.mp hm)
        fun call hm => by cases List.mem_singleton.mp hm
    rw [hlog]
    refine ⟨hc.loaded h.loaded, ?_, ?_, fun id job hj => ((h.jobs id job hj).mono _).mono acts⟩
    · exact hasked.append (fun call username hm => nomatch ha _ hm) fun call hm => nomatch ha _ hm
    · exact List.mem_append_left _ (List.mem_append_right _ List.mem_cons_self)
  cases hasks with
  | throws hc => exact ⟨(hask hc).1, (hask hc).2.1, (hask hc).2.2.2⟩
  | calledBack hc =>
      have hasked : (s.asked username password).Loaded := h.loaded
      obtain ⟨ha, hd, he, hs⟩ := hc.epoch hasked
      exact (hepoch ⟨ha, hd, he, hs⟩).elim
  | queued hc =>
      obtain ⟨hloaded, hclosed, hm, hjobs⟩ := hask hc
      refine ⟨hloaded, hclosed, known_update hjobs fun job he => ?_⟩
      cases he
      exact ⟨hm, nofun⟩

/-- A call finds a file with modification time 0 before any was loaded. -/
def AsksAtEpoch (s : Checker) (input : Input) : Prop :=
  ∃ username password ans, input = .checkCredentials username password ans ∧
    s.database.AtEpoch ans

/-- A job that finishes with a positive result has verified the password. -/
theorem honest_run (hsound : Sound s) (h : Honest v s) {id : ℕ} {job : Job}
    (hj : s.jobs id = some job) (getFails : Bool) : Honest v (s.runJob v id job getFails) := by
  have hverifies := checkPassword_verifies v id s.database.db getFails job.username job.password
  have hknown := h.jobs id job hj
  have hjobs : ∀ acts id job, s.jobs id = some job → Known v (s.database.log ++ acts) id job :=
    fun acts id job hj => (h.jobs id job hj).mono acts
  have hrefused : ∀ acts, Known v (s.database.log ++ acts) id { job with state := .finished false } :=
    fun acts => ⟨(hknown.mono acts).asked, nofun⟩
  unfold runJob
  generalize checkPassword v id s.database.db getFails job.username job.password = res at hverifies
  cases hverifies with
  | tooLong hl =>
      refine ⟨h.loaded, h.closed.append nofun nofun, known_update (hjobs _) fun j he => ?_⟩
      cases he
      exact hrefused _
  | notOpen hl hd => exact ⟨h.loaded, h.closed.append (by simp) (by simp), hjobs _⟩
  | throws hl hd he => exact ⟨h.loaded, h.closed.append (by simp) (by simp), hjobs _⟩
  | refused hl hd hg hv =>
      refine ⟨h.loaded, h.closed.append (by simp) (by simp), known_update (hjobs _) fun j he => ?_⟩
      cases he
      exact hrefused _
  | @verified hl handle hd value hg hv =>
      refine ⟨h.loaded, h.closed.append (by simp) (by simp), known_update (hjobs _) fun j he => ?_⟩
      cases he
      refine ⟨(hknown.mono _).asked, fun hs => ?_⟩
      have hres : v.verify value job.password = true := JobState.finished.inj hs
      have hne : value ≠ [] := fun he => hv (.inl (congrArg List.length he))
      refine ⟨handle, value, List.mem_append_left _ (hsound.handles.db handle hd).2.1,
        Handle.contents_of_get hg hne, hres, List.mem_append_right _ ?_⟩
      rw [hres]
      exact List.mem_cons_of_mem _ List.mem_cons_self

/-- The callback of a finished job. -/
theorem honest_done (h : Honest v s) {id : ℕ} {job : Job} {result : Bool}
    (hj : s.jobs id = some job) (hs : job.state = .finished result) :
    Honest v (s.doneJob id job result) := by
  have hknown := h.jobs id job hj
  have hcallback : Closed v (s.database.log ++ [.callback id job.username result]) := by
    refine ⟨History.every_append.mpr ⟨h.closed.answers, History.every_cons.mpr ⟨?_,
      History.every_nil⟩⟩, fun call hm => ?_⟩
    · intro call username he
      cases he
      rw [List.append_nil]
      exact ⟨job.password, hknown.asked, hknown.finished hs⟩
    · rcases List.mem_append.mp hm with hm | hm
      · exact h.closed.noDatabase call hm
      · cases List.mem_singleton.mp hm
  have hclosed : Closed v (s.database.log ++
      ((if job.canceled then [] else [.callback id job.username result]) ++ [.delete id])) := by
    rw [← List.append_assoc]
    refine Closed.append ?_ (by simp) (by simp)
    split
    · rw [List.append_nil]
      exact h.closed
    · exact hcallback
  exact ⟨h.loaded, hclosed, known_update (fun id job hj => (h.jobs id job hj).mono _) nofun⟩

theorem honest_step (hsound : Sound s) (h : Honest v s) (hn : ¬ AsksAtEpoch s input)
    (hs : step v s input = some s') : Honest v s' := by
  obtain ⟨-, hs⟩ := step_cases hs
  cases hs with
  | @checkCredentials username password ans =>
      refine (checkCredentials_asks s username password ans).honest h fun he => hn ?_
      exact ⟨username, password, ans, rfl, he⟩
  | start hj hs =>
      refine ⟨h.loaded, h.closed, known_update h.jobs fun j he => ?_⟩
      cases he
      exact ⟨(h.jobs _ _ hj).asked, nofun⟩
  | run hj hs => exact honest_run hsound h hj _
  | done hj hf => exact honest_done h hj hf
  | cancel hj hc =>
      unfold cancelJob
      split
      · exact ⟨h.loaded, h.closed.append (by simp) (by simp),
          known_update (fun id job hj => (h.jobs id job hj).mono _) nofun⟩
      · refine ⟨h.loaded, h.closed, known_update h.jobs fun j he => ?_⟩
        cases he
        exact ⟨(h.jobs _ _ hj).asked, (h.jobs _ _ hj).finished⟩

/-! ## The other direction -/

/-- The log only grows. -/
theorem log_step (hs : step v s input = some s') : s.database.log <+: s'.database.log := by
  obtain ⟨-, hs⟩ := step_cases hs
  cases hs with
  | @checkCredentials username password ans =>
      have hask : ∀ {checked d}, Database.Checks (s.asked username password) ans (checked, d) →
          s.database.log <+: d.log := by
        intro checked d hc
        obtain ⟨acts, hlog, -⟩ := hc.log
        rw [hlog]
        exact (List.prefix_append _ _).trans (List.prefix_append _ _)
      have hasks := checkCredentials_asks s username password ans
      generalize s.checkCredentials username password ans = s'' at hasks
      cases hasks with
      | throws hc => exact hask hc
      | calledBack hc => exact (hask hc).trans (List.prefix_append _ _)
      | queued hc => exact hask hc
  | start => exact List.prefix_rfl
  | run =>
      unfold runJob
      split
      · exact List.prefix_append _ _
      · exact List.prefix_append _ _
  | done => exact List.prefix_append _ _
  | cancel =>
      unfold cancelJob
      split
      · exact List.prefix_append _ _
      · exact List.prefix_rfl

theorem log_run {s₀ : Checker} {inputs : List Input}
    (h : Machine.run (step v) s₀ inputs = some s) : s₀.database.log <+: s.database.log :=
  Machine.invariant (I := fun s => s₀.database.log <+: s.database.log)
    (fun _ _ _ hI hs => hI.trans (log_step hs)) List.prefix_rfl h

/-- A call that finds such a file is accepted without a database. -/
theorem noDatabase_of_epoch {username password : List UInt8} {ans : ReloadAnswers}
    (h : s.database.AtEpoch ans) (hl : s.database.Loaded) :
    .noDatabase s.calls ∈ (s.checkCredentials username password ans).database.log := by
  have hasked : (s.asked username password).AtEpoch ans :=
    ⟨h.autoReload, h.db, h.lastReloadError, h.stat⟩
  have hc : (s.emits [.checkCredentials s.calls username password]).database.checkCredentials ans = _ :=
    hasked.checkCredentials_eq hl
  simp only [checkCredentials, hc]
  exact List.mem_append_right _ List.mem_cons_self

theorem loaded_step (h : s.database.Loaded) (hs : step v s input = some s') : s'.database.Loaded := by
  obtain ⟨-, hs⟩ := step_cases hs
  cases hs with
  | @checkCredentials username password ans =>
      have hasked : (s.asked username password).Loaded := h
      have hasks := checkCredentials_asks s username password ans
      generalize s.checkCredentials username password ans = s'' at hasks
      cases hasks with
      | throws hc | calledBack hc | queued hc => exact hc.loaded hasked
  | start | done => exact h
  | run =>
      unfold runJob
      split <;> exact h
  | cancel =>
      unfold cancelJob
      split <;> exact h

/-- If the branch for daemons without a database was never taken, no call found such a file. -/
theorem along_of_closed {s₀ : Checker} {inputs : List Input} (h : s₀.database.Loaded)
    (hrun : Machine.run (step v) s₀ inputs = some s)
    (hn : ∀ call, .noDatabase call ∉ s.database.log) :
    Machine.Along (step v) (fun s input => ¬ AsksAtEpoch s input) s₀ inputs := by
  induction inputs generalizing s₀ with
  | nil => trivial
  | cons input inputs ih =>
      rw [Machine.run_cons] at hrun
      obtain ⟨t, ht, hrest⟩ := Option.bind_eq_some_iff.mp hrun
      refine ⟨?_, fun t' ht' => ?_⟩
      · rintro ⟨username, password, ans, rfl, he⟩
        obtain ⟨-, hs⟩ := step_cases ht
        cases hs with
        | checkCredentials => exact hn _ ((log_run hrest).subset (noDatabase_of_epoch he h))
      · rw [ht] at ht'
        cases ht'
        exact ih (loaded_step h ht) hrest

/-- **A configured database fails closed, exactly if no call finds a file with modification time 0
before any was loaded.** -/
theorem fails_closed_iff {path : List UInt8} {autoReload : Bool} {ans : ReloadAnswers} {d : Database}
    {inputs : List Input} (hd : Database.new (some path) autoReload ans = .ok d)
    (h : Run v d inputs s) :
    ((∀ pre call username post, s.database.log = pre ++ .callback call username true :: post →
        ∃ password h value, .checkCredentials call username password ∈ pre ∧ .opened h ∈ pre ∧
          h.contents (v.key username) = some value ∧ v.verify value password = true ∧
          .verify call h value password true ∈ pre) ∧
      ∀ call, .noDatabase call ∉ s.database.log) ↔
    Machine.Along (step v) (fun s input => ¬ AsksAtEpoch s input) { database := d } inputs := by
  have hloaded := Database.loaded_new hd
  refine ⟨fun hclosed => along_of_closed hloaded h hclosed.2, fun halong => ?_⟩
  have hnew : Honest v { database := d } := by
    refine ⟨hloaded, ?_, nofun⟩
    rcases Database.new_cases hd with ⟨-, rfl⟩ | ⟨contents, -, rfl⟩
    · exact ⟨History.every_nil, nofun⟩
    · exact Closed.append ⟨History.every_nil, nofun⟩ (by simp) (by simp)
  have hhonest : Honest v s := (Machine.invariant_along (I := fun s => Sound s ∧ Honest v s)
    (fun _ _ _ hI hn hs => ⟨sound_step hI.1 hs, honest_step hI.1 hI.2 hn hs⟩) ⟨sound_new hd, hnew⟩
    halong h).2
  refine ⟨fun pre call username post hlog => ?_, hhonest.closed.noDatabase⟩
  obtain ⟨password, hasked, handle, value, ho, hc, hv, hm⟩ :=
    hhonest.closed.answers pre _ post hlog call username rfl
  exact ⟨password, handle, value, hasked, ho, hc, hv, hm⟩

/-- The user of the sample is accepted, because the password was verified. -/
theorem fails_closed_iff_of_sample :
    ∃ s, Database.new (some [0x2f]) true (sampleLoads 1) = .ok sampleDatabase ∧
      Run sampleVerifier sampleDatabase sampleLogin s ∧
      ∃ pre, s.database.log = pre ++ [.callback 0 [0x61] true, .delete 0] ∧
        ∃ password h value, .checkCredentials 0 [0x61] password ∈ pre ∧ .opened h ∈ pre ∧
          h.contents (sampleVerifier.key [0x61]) = some value ∧
          sampleVerifier.verify value password = true ∧ .verify 0 h value password true ∈ pre := by
  obtain ⟨s, h, pre, hlog⟩ : ∃ s, Run sampleVerifier sampleDatabase sampleLogin s ∧
      ∃ pre, s.database.log = pre ++ [.callback 0 [0x61] true, .delete 0] := ⟨_, rfl, _, rfl⟩
  have hnew : Database.new (some [0x2f]) true (sampleLoads 1) = .ok sampleDatabase := rfl
  have halong : Machine.Along (step sampleVerifier) (fun s input => ¬ AsksAtEpoch s input)
      { database := sampleDatabase } sampleLogin := by
    refine ⟨?_, fun s₁ h₁ => ⟨?_, fun s₂ h₂ => ⟨?_, fun s₃ h₃ => ⟨?_, fun _ _ => trivial⟩⟩⟩⟩
    · rintro ⟨_, _, _, he, hepoch⟩
      cases he
      obtain ⟨st, hs, -, hm⟩ := hepoch.stat
      cases hs
      exact absurd hm (by decide)
    · rintro ⟨_, _, _, he, -⟩
      cases he
    · rintro ⟨_, _, _, he, -⟩
      cases he
    · rintro ⟨_, _, _, he, -⟩
      cases he
  exact ⟨s, hnew, h, pre, hlog, ((fails_closed_iff hnew h).mpr halong).1 pre 0 [0x61] _ hlog⟩

/-- The first file that the daemon looks at has the modification time 0. -/
def sampleEpoch : List Input := [.checkCredentials [0x61] [] (sampleLoads 0)]

/-- **Everybody is accepted.** -/
theorem epoch_accepts_everybody :
    ∃ s, Database.new (some [0x2f]) true (sampleLoads 0) = .ok sampleDatabase ∧
      Run sampleVerifier sampleDatabase sampleEpoch s ∧ .noDatabase 0 ∈ s.database.log ∧
      ¬ ∀ pre call username post, s.database.log = pre ++ .callback call username true :: post →
        ∃ password h value, .checkCredentials call username password ∈ pre ∧ .opened h ∈ pre ∧
          h.contents (sampleVerifier.key username) = some value ∧
          sampleVerifier.verify value password = true ∧
          .verify call h value password true ∈ pre := by
  obtain ⟨s, h, hlog⟩ : ∃ s, Run sampleVerifier sampleDatabase sampleEpoch s ∧
      s.database.log = [.checkCredentials 0 [0x61] [], .noDatabase 0, .callback 0 [0x61] true] :=
    ⟨_, rfl, rfl⟩
  refine ⟨s, rfl, h, ?_, fun hclosed => ?_⟩
  · rw [hlog]
    exact List.mem_cons_of_mem _ List.mem_cons_self
  · obtain ⟨password, handle, value, -, -, -, -, hm⟩ :=
      hclosed [.checkCredentials 0 [0x61] [], .noDatabase 0] 0 [0x61] [] hlog
    simp at hm

end Checker

end UoLogin

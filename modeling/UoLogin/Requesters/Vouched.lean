import UoLogin.Charges
import UoLogin.Database.FailClosed
import UoLogin.Database.Password
import UoLogin.Login
import UoLogin.Requesters.Parts

set_option autoImplicit false

/-!
# Nobody gets through without a valid login

The verdict that a connection acts on is a bit that comes back from a thread pool. In a daemon it is
worth as much as the check that was made: the credentials in the packets that are forwarded were
accepted by a database that was open, unless there is none.

* `Checker.Accepted`: what the log of the database says about an accepted call;
* `Checker.Vets`, `vets_step`: a job has a positive result only if its password was verified;
* `Called.approves`: a verdict is that of the job, or of a daemon without a database;
* **`contact_accepted`**: a connection that has reached for a game server was accepted, in every run;
* **`contact_accepts`**: with a database that is loaded once, its credentials are valid in that file.
-/

namespace UoLogin

open Connection

/-! ## The database -/

namespace Checker

variable {v : Verifier} {s s' : Checker} {input : Input} {log log' : List DatabaseAct}

/-- A handle that was opened was asked on behalf of the call, and its file accepts the credentials. -/
def Passed (v : Verifier) (log : List DatabaseAct) (call : ℕ) (username password : List UInt8) : Prop :=
  ∃ h, .opened h ∈ log ∧ .get call (some h) ∈ log ∧ accepts v.verify h.contents username password = true

/-- The call was made with these credentials, and there is no database or they have passed. -/
def Accepted (v : Verifier) (log : List DatabaseAct) (call : ℕ) (username password : List UInt8) : Prop :=
  .checkCredentials call username password ∈ log ∧
    (.noDatabase call ∈ log ∨ Passed v log call username password)

theorem Passed.mono {call : ℕ} {username password : List UInt8}
    (h : Passed v log call username password) (hlog : log <+: log') :
    Passed v log' call username password := by
  obtain ⟨handle, ho, hg, ha⟩ := h
  exact ⟨handle, hlog.subset ho, hlog.subset hg, ha⟩

theorem Accepted.mono {call : ℕ} {username password : List UInt8}
    (h : Accepted v log call username password) (hlog : log <+: log') :
    Accepted v log' call username password := by
  obtain ⟨hasked, hn | hp⟩ := h
  · exact ⟨hlog.subset hasked, .inl (hlog.subset hn)⟩
  · exact ⟨hlog.subset hasked, .inr (hp.mono hlog)⟩

/-- What is known of a job. -/
structure Vetted (v : Verifier) (log : List DatabaseAct) (call : ℕ) (job : Job) : Prop where
  asked : .checkCredentials call job.username job.password ∈ log
  finished : job.state = .finished true → Passed v log call job.username job.password

theorem Vetted.mono {call : ℕ} {job : Job} (h : Vetted v log call job) (hlog : log <+: log') :
    Vetted v log' call job :=
  ⟨hlog.subset h.asked, fun hs => (h.finished hs).mono hlog⟩

/-- All jobs are vetted. -/
def Vets (v : Verifier) (s : Checker) : Prop :=
  ∀ call job, s.jobs call = some job → Vetted v s.database.log call job

/-- One job changes, while the log grows. -/
theorem Vets.update (h : Vets v s) (hlog : s.database.log <+: log') {call : ℕ} {job : Option Job}
    (hjob : ∀ j, job = some j → Vetted v log' call j) (call' : ℕ) (job' : Job)
    (hj : Function.update s.jobs call job call' = some job') : Vetted v log' call' job' := by
  by_cases he : call' = call
  · subst he
    rw [Function.update_self] at hj
    exact hjob job' hj
  · rw [Function.update_of_ne he] at hj
    exact (h call' job' hj).mono hlog

/-- A value that a worker has verified is one that the file accepts. -/
theorem accepts_of_get {h : Handle} {username password value : List UInt8} {fails : Bool}
    (hl : username.length ≤ 30) (hg : h.get (v.key username) pwhashStrbytes fails = .ok value)
    (hv : ¬ (value.length = 0 ∨ value.length ≥ pwhashStrbytes)) (hp : v.verify value password = true) :
    accepts v.verify h.contents username password = true := by
  have hne : value ≠ [] := fun he => hv (.inl (congrArg List.length he))
  have hc : h.contents (upperASCII username) = some value := by
    rw [← v.key_eq]
    exact Handle.contents_of_get hg hne
  have hlen : username.length ≤ 30 ∧ 1 ≤ value.length ∧ value.length ≤ 127 := by
    unfold pwhashStrbytes at hv
    omega
  simp only [accepts, hc, hlen, hp, and_self, decide_true, Bool.and_self]

theorem vets_run (hsound : Sound s) (h : Vets v s) {call : ℕ} {job : Job} (hj : s.jobs call = some job)
    (getFails : Bool) : Vets v (s.runJob v call job getFails) := by
  have hverifies := checkPassword_verifies v call s.database.db getFails job.username job.password
  have hjob := h call job hj
  have hgrows : ∀ acts, s.database.log <+: s.database.log ++ acts := List.prefix_append _
  have hrefused : ∀ acts, Vetted v (s.database.log ++ acts) call { job with state := .finished false } :=
    fun acts => ⟨(hjob.mono (hgrows acts)).asked, fun he => by cases he⟩
  unfold runJob
  generalize checkPassword v call s.database.db getFails job.username job.password = res at hverifies
  cases hverifies with
  | tooLong | refused =>
      refine h.update (hgrows _) fun j he => ?_
      cases he
      exact hrefused _
  | notOpen | throws => exact fun call job hj => (h call job hj).mono (hgrows _)
  | @verified hl handle hd value hg hv =>
      refine h.update (hgrows _) fun j he => ?_
      cases he
      refine ⟨(hjob.mono (hgrows _)).asked, fun hs => ?_⟩
      have hp : v.verify value job.password = true := JobState.finished.inj hs
      exact ⟨handle, List.mem_append_left _ (hsound.handles.db handle hd).2.1,
        List.mem_append_right _ List.mem_cons_self, accepts_of_get hl hg hv hp⟩

/-- **A job has a positive result only if its credentials have passed.** -/
theorem vets_step (hsound : Sound s) (h : Vets v s) (hs : step v s input = some s') : Vets v s' := by
  have hlog := log_step hs
  obtain ⟨-, hs⟩ := step_cases hs
  cases hs with
  | @checkCredentials username password ans =>
      have hasks := checkCredentials_asks s username password ans
      generalize s.checkCredentials username password ans = s' at hasks hlog
      cases hasks with
      | throws | calledBack => exact fun call job hj => (h call job hj).mono hlog
      | queued hc =>
          refine h.update hlog fun j he => ?_
          cases he
          obtain ⟨acts, hd, -⟩ := hc.log
          refine ⟨?_, fun he => by cases he⟩
          change .checkCredentials s.calls username password ∈ Database.log _
          exact hd ▸ List.mem_append_left _ (List.mem_append_right _ List.mem_cons_self)
  | start hj =>
      refine h.update List.prefix_rfl fun j he => ?_
      cases he
      exact ⟨(h _ _ hj).asked, fun he => by cases he⟩
  | run hj => exact vets_run hsound h hj _
  | done => exact h.update hlog fun j he => by cases he
  | cancel hj =>
      unfold cancelJob at hlog ⊢
      split at hlog
      · rename_i hw
        rw [if_pos hw]
        exact h.update hlog fun j he => by cases he
      · rename_i hw
        rw [if_neg hw]
        refine h.update List.prefix_rfl fun j he => ?_
        cases he
        exact ⟨(h _ _ hj).asked, (h _ _ hj).finished⟩

/-- A call that is answered at once is accepted, because there is no database. -/
theorem accepted_calledBack {username password : List UInt8} {ans : ReloadAnswers}
    (h : (s.database.checkCredentials ans).1.choice = .noDatabase) :
    Accepted v (s.checkCredentials username password ans).database.log s.calls username password := by
  have hc := Database.checkCredentials_checks (s.asked username password) ans
  have hch : ((s.asked username password).checkCredentials ans).1.choice = .noDatabase := by
    rw [show s.asked username password = s.database.emits _ from rfl, Database.choice_emits]
    exact h
  -- the call reads the database that it has noted itself in
  have hasked : (s.emits [.checkCredentials s.calls username password]).database =
      s.asked username password := rfl
  unfold checkCredentials
  dsimp only
  rw [hasked]
  generalize (s.asked username password).checkCredentials ans = res at hc hch
  obtain ⟨checked, d⟩ := res
  cases checked with
  | throws | queued => cases hch
  | calledBack =>
      obtain ⟨acts, hd, -⟩ := hc.log
      refine ⟨List.mem_append_left _ ?_, .inl (List.mem_append_right _ List.mem_cons_self)⟩
      exact hd ▸ List.mem_append_left _ (List.mem_append_right _ List.mem_cons_self)

/-! ## A database that is loaded once -/

/-- The database is the file that was opened at the start. -/
structure Static (h : Handle) (s : Checker) : Prop where
  autoReload : s.database.autoReload = false
  db : s.database.db = some h
  opened : ∀ h', .opened h' ∈ s.database.log → h' = h
  noDatabase : ∀ call, .noDatabase call ∉ s.database.log

/-- Entries about calls. -/
theorem Static.emits {h : Handle} (hs : Static h s) {acts : List DatabaseAct}
    (ho : ∀ h', .opened h' ∉ acts) (hn : ∀ call, .noDatabase call ∉ acts) : Static h (s.emits acts) := by
  refine ⟨hs.autoReload, hs.db, fun h' hm => ?_, fun call hm => ?_⟩
  · rcases List.mem_append.mp hm with hm | hm
    · exact hs.opened h' hm
    · exact (ho h' hm).elim
  · rcases List.mem_append.mp hm with hm | hm
    · exact hs.noDatabase call hm
    · exact hn call hm

theorem Static.of_database {h : Handle} (hs : Static h s) (hd : s'.database = s.database) : Static h s' :=
  ⟨hd ▸ hs.autoReload, hd ▸ hs.db, hd ▸ hs.opened, hd ▸ hs.noDatabase⟩

theorem static_step {h : Handle} (hst : Static h s) (hs : step v s input = some s') : Static h s' := by
  obtain ⟨-, hs⟩ := step_cases hs
  cases hs with
  | @checkCredentials username password ans =>
      have hasked : Static h (s.emits [.checkCredentials s.calls username password]) :=
        hst.emits (by simp) (by simp)
      have hasks := checkCredentials_asks s username password ans
      generalize s.checkCredentials username password ans = s' at hasks
      cases hasks with
      | throws hc =>
          cases hc with
          | throws hr => cases hasked.autoReload.symm.trans hr
      | calledBack hc =>
          cases hc with
          | calledBack hsettles hd =>
              rcases hsettles with ⟨-, rfl⟩ | ⟨hr, -⟩
              · cases hasked.db.symm.trans hd
              · cases hasked.autoReload.symm.trans hr
      | queued hc =>
          cases hc with
          | queued hsettles hd =>
              rcases hsettles with ⟨-, rfl⟩ | ⟨hr, -⟩
              · exact hasked.of_database rfl
              · cases hasked.autoReload.symm.trans hr
  | start => exact hst.of_database rfl
  | @run id getFails job hj =>
      have hverifies := checkPassword_verifies v id s.database.db getFails job.username job.password
      unfold runJob
      generalize checkPassword v id s.database.db getFails job.username job.password = res at hverifies
      cases hverifies with
      | tooLong | notOpen | throws | refused | verified =>
          exact (hst.emits (by simp) (by simp)).of_database rfl
  | @done id job result =>
      refine (hst.emits ?_ ?_).of_database rfl <;> cases job.canceled <;> simp
  | cancel =>
      unfold cancelJob
      split
      · exact (hst.emits (by simp) (by simp)).of_database rfl
      · exact hst.of_database rfl

theorem static_new {path : List UInt8} {ans : ReloadAnswers} {d : Database}
    (hd : Database.new (some path) false ans = .ok d) :
    ∃ contents, ans.dbOpen = some contents ∧ Static ⟨0, contents⟩ { database := d } := by
  unfold Database.new Database.berkeleyDB at hd
  cases hn : ans.dbCreate with
  | false => simp [hn] at hd
  | true =>
      cases ho : ans.dbOpen with
      | none => simp [hn, ho] at hd
      | some contents =>
          simp [hn, ho] at hd
          subst hd
          refine ⟨contents, rfl, rfl, rfl, fun h' hm => ?_, fun call hm => ?_⟩
          · simpa [Database.assign, Database.closing] using hm
          · simp [Database.assign, Database.closing] at hm

/-- A call that such a database has accepted is valid. -/
theorem Accepted.accepts {contents : Contents} {call : ℕ} {username password : List UInt8}
    (h : Accepted v s.database.log call username password) (hs : Static ⟨0, contents⟩ s) :
    UoLogin.accepts v.verify contents username password = true := by
  rcases h.2 with hn | ⟨handle, ho, -, ha⟩
  · exact (hs.noDatabase call hn).elim
  · rw [hs.opened handle ho] at ha
    exact ha

end Checker

/-! ## The verdict -/

namespace Connection

variable {setup : Setup} {c c' : Connection} {r : Result} {ans : Answers}
  {stock stock' : PipeStock UInt8}

/-- Entries without a verdict approve nobody. -/
theorem approved_of_log {acts : List Act} (h : Approved c') (hlog : c'.log = c.log ++ acts)
    (ha : ∀ username, .onCheckCredentials username true ∉ acts) : Approved c := by
  obtain ⟨username, hmem⟩ := h
  rw [hlog] at hmem
  rcases List.mem_append.mp hmem with hmem | hmem
  · exact ⟨username, hmem⟩
  · exact (ha username hmem).elim

theorem approved_quiet {acts : List Act} (h : Approved (c.emits acts)) (hq : Quiet acts) : Approved c :=
  approved_of_log h rfl fun username hm => by cases hq _ hm

/-- Accounting and an `AccountLoginReject` approve nobody. -/
theorem approved_refuse {size : ℕ} (h : Approved ((c.updateTokenBucket size).rejectLogin ans)) :
    Approved c := by
  obtain ⟨tail, ht, he⟩ := refuse_cases c ans size
  rw [he] at h
  refine approved_of_log h rfl fun username hm => ?_
  rcases List.mem_append.mp hm with hm | hm
  · cases quiet_charge c size _ hm
  · cases ht with
    | skipped => cases hm
    | sent => simp at hm

/-- The login packets themselves only lead to a verdict if there is no database. -/
theorem loginComplete_approves (h : Approved (c.loginComplete setup ans).conn) :
    Approved c ∨ ans.check = .noDatabase := by
  have hmalformed : Approved (c.complete.emit (.metric .malformedLogins 1)) → Approved c := fun h =>
    approved_of_log h (show _ = c.complete.log ++ [.metric .malformedLogins 1] from rfl) (by simp)
  have hchecking : Approved c.checking → Approved c := fun h =>
    approved_of_log h (show c.checking.log = c.log ++ [.state .checkCredentials,
      .checkCredentials (username c.login) (password c.login)] from List.append_assoc ..) (by simp)
  rw [loginComplete_eq] at h
  split at h
  · rw [updateTokenBucket_eq] at h
    exact .inl (hmalformed (approved_quiet h (quiet_charge _ 10)))
  split at h
  · exact .inl (hmalformed (approved_refuse h))
  · unfold checkCredentials at h
    cases hch : ans.check with
    | noDatabase => exact .inr rfl
    | throws =>
        simp only [hch] at h
        exact .inl (hchecking (approved_refuse h))
    | queued =>
        simp only [hch] at h
        exact .inl (hchecking h)

theorem receiveLoginPackets_approves (hs : c.state = .initial) (hf : c.initialPacketsFill < initialSize)
    (h : Approved (c.receiveLoginPackets setup ans).conn) : Approved c ∨ ans.check = .noDatabase := by
  rcases c.client.readNoWait_cases (initialSize - c.initialPacketsFill) ans.read with
    hread | ⟨bytes, rest, -, -, -, hread⟩
  · unfold receiveLoginPackets at h
    rw [if_neg (not_not.mpr hs), if_neg (not_not.mpr hf), hread] at h
    exact .inl h
  · rw [receiveLoginPackets_read hs hf hread] at h
    split at h
    · exact .inl h
    · exact (loginComplete_approves h).imp_left fun h => h

/-- **A callback brings a verdict only for the job, or if there is no database.** -/
theorem dispatch_approves {e : Event} (hi : Inv setup c) (hfree : Approved c ∨ Free c)
    (hd : dispatch setup stock c ans e = some (stock', r)) (h : Approved r.conn) :
    Approved c ∨ (∃ result, e = .checkDone result) ∨ c.state = .initial ∧ ans.check = .noDatabase := by
  rcases hfree with hc | hfree
  · exact .inl hc
  cases dispatch_called hi hd with
  | dies hq => exact .inl (approved_quiet h hq)
  | connectPending => exact .inl h
  | @logsIn events hs =>
      simp only [dispatch] at hd
      split at hd
      · have he : (c.onIncomingReady setup stock events ans).2 = r := congrArg Prod.snd (Option.some.inj hd)
        rw [← he] at h
        unfold onIncomingReady at h
        rw [if_pos hs, if_pos hs] at h
        split at h
        · rw [updateTokenBucket_eq] at h
          exact .inl (approved_quiet h (quiet_charge _ 4))
        · split at h
          · exact .inl h
          · split at h
            · exact .inl h
            · exact (receiveLoginPackets_approves hs (hi.fill hs) h).imp_right fun hch => .inr ⟨hs, hch⟩
      · cases hd
  | plays hs | lists hs | establishes hs | relays hs =>
      rcases hfree.state with h' | h' <;> cases hs.symm.trans h'
  | judges => exact .inr (.inl ⟨_, rfl⟩)

/-- The check that a handler has asked for is in the log. -/
theorem mem_of_consulted {username password : List UInt8} (h : c.consulted c' = some (username, password)) :
    .checkCredentials username password ∈ c'.log := by
  obtain ⟨a, ha, he⟩ := List.exists_of_findSome?_eq_some h
  cases a with
  | checkCredentials u p =>
      cases he
      exact List.mem_of_mem_drop ha
  | _ => cases he

theorem Judges.approves {username : List UInt8} (h : Judges setup username c false r)
    (ha : Approved r.conn) : Approved c := by
  cases h with
  | rejected hq ht =>
      have hjudged := approved_of_log (c := c.judged username false) ha rfl fun username hm => by
        rcases List.mem_append.mp hm with hm | hm
        · cases hq _ hm
        · cases ht with
          | skipped => cases hm
          | sent => simp at hm
      exact approved_of_log hjudged (show _ = c.log ++ [.onCheckCredentials username false] from rfl)
        (by simp)

theorem Approved.state_ne (h : Approved c) (ht : Traced setup c) : c.state ≠ .initial := by
  intro hs
  obtain ⟨username, hm⟩ := h
  have hsession := ht.session
  rw [hs] at hsession
  have hm : .onCheckCredentials username true ∈ c.trace := List.mem_filter.mpr ⟨hm, rfl⟩
  rw [hsession.eq_nil] at hm
  cases hm

/-- A negative verdict of the job approves nobody. -/
theorem dispatch_rejects (hi : Inv setup c)
    (hd : dispatch setup stock c ans (.checkDone false) = some (stock', r)) (ha : Approved r.conn) :
    Approved c := by
  simp only [dispatch] at hd
  split at hd
  · cases hd
  · rename_i job hj
    have hs := hi.job_iff.mp (hj ▸ rfl)
    cases hd
    exact (onCheckCredentials_judges (c := c.setJob none) ans job.1 false hs
      (hi.full fun he => by cases hs.symm.trans he)).approves ha

end Connection

theorem LoginFirst.check_eq {setup : Setup} {c : Connection} (h : LoginFirst setup c) {username password : List UInt8}
    (hm : .checkCredentials username password ∈ c.log) :
    (username, password) = credentials c.initialPackets.bytes := by
  obtain ⟨result, hchecks⟩ := h.checks
  have hm := hchecks.subset (List.mem_filter.mpr ⟨hm, rfl⟩)
  simp only [List.mem_cons, Act.checkCredentials.injEq, List.not_mem_nil, reduceCtorEq, or_false] at hm
  exact Prod.ext hm.1 hm.2

/-- A verdict answers a check. -/
theorem LoginFirst.checked {setup : Setup} {c : Connection} (h : LoginFirst setup c) (ha : Approved c) :
    .checkCredentials (credentials c.initialPackets.bytes).1 (credentials c.initialPackets.bytes).2 ∈
      c.log := by
  obtain ⟨result, hchecks⟩ := h.checks
  obtain ⟨username, hm⟩ := ha
  have hm : .onCheckCredentials username true ∈ c.log.filter Act.check := List.mem_filter.mpr ⟨hm, rfl⟩
  rcases List.prefix_cons_iff.mp hchecks with he | ⟨rest, he, -⟩
  · rw [he] at hm
    cases hm
  · exact (List.mem_filter.mp (he ▸ List.mem_cons_self)).1

/-! ## The daemon -/

/-- What only depends on the database and the jobs. -/
theorem Checker.Sound.of_same {s t : Checker} (h : t.Sound) (hsame : Daemon.SameChecker s t) : s.Sound := by
  refine ⟨hsame.database ▸ h.handles, hsame.database ▸ h.exclusive, ?_⟩
  rw [← hsame.database, ← hsame.jobs]
  exact h.queued

theorem Checker.Vets.of_same {v : Verifier} {s t : Checker} (h : t.Vets v)
    (hsame : Daemon.SameChecker s t) : s.Vets v := by
  intro call job hj
  rw [← hsame.jobs] at hj
  exact hsame.database ▸ h call job hj

namespace Daemon

variable {setup : DaemonSetup} {s s' : Daemon}

/-- A connection with a positive verdict was accepted, with the credentials in its packets. -/
def Vouched (v : Verifier) (log : List DatabaseAct) (c : Connection) : Prop :=
  Approved c → ∃ call, Checker.Accepted v log call (credentials c.initialPackets.bytes).1
    (credentials c.initialPackets.bytes).2

/-- **The invariant of the logins.** -/
structure Vouching (setup : DaemonSetup) (s : Daemon) : Prop where
  coherent : Coherent setup s
  sound : s.checker.Sound
  vets : s.checker.Vets setup.verifier
  traced : Instance.Holds (Traced setup.setup) (Past setup.setup) s.inst
  free : Instance.Holds (fun c => Approved c ∨ Free c) (fun _ => True) s.inst
  vouched : Instance.Holds (Vouched setup.verifier s.checker.database.log)
    (Vouched setup.verifier s.checker.database.log) s.inst

theorem Vouched.mono {v : Verifier} {log log' : List DatabaseAct} {c : Connection} (h : Vouched v log c)
    (hlog : log <+: log') : Vouched v log' c := fun ha => by
  obtain ⟨call, hcall⟩ := h ha
  exact ⟨call, hcall.mono hlog⟩

/-- The same verdicts on the same packets. -/
theorem Vouched.of_eq {v : Verifier} {log : List DatabaseAct} {c c' : Connection} (h : Vouched v log c)
    (ha : Approved c' → Approved c) (hp : c'.initialPackets = c.initialPackets) : Vouched v log c' := by
  unfold Vouched
  rw [hp]
  exact fun happroved => h (ha happroved)

theorem vouched_new {v : Verifier} {log : List DatabaseAct} (remoteHost : List UInt8)
    (perClient : Option UInt64) : Vouched v log (new remoteHost perClient) := by
  rintro ⟨username, hm⟩
  simp [new] at hm

theorem Vouched.arrive {v : Verifier} {log : List DatabaseAct} {c : Connection} (h : Vouched v log c)
    (side : Side) (bytes : List UInt8) : Vouched v log (c.arrive side bytes) := by
  cases side with
  | client => exact h.of_eq id rfl
  | server => exact h.of_eq id rfl

theorem Vouched.destructor {v : Verifier} {log : List DatabaseAct} {c : Connection} (h : Vouched v log c)
    (stock : PipeStock UInt8) : Vouched v log (c.destructor stock).2 :=
  h.of_eq (fun ha => approved_of_log ha rfl fun _ hm => by cases quiet_destructorLog c _ hm) rfl

/-- What the destructor does to the database is at most an entry in the log. -/
theorem log_settle (id : ℕ) (stock : PipeStock UInt8) (r : Result) (s : Daemon) :
    s.checker.database.log <+: (s.settle id stock r).checker.database.log := by
  cases r with
  | alive | crashed => exact List.prefix_rfl
  | destroyed c =>
      unfold settle
      simp only [checker_emits]
      split
      · unfold cancel
        split
        · exact List.prefix_rfl
        · split
          · exact List.prefix_rfl
          · change _ <+: (Checker.cancelJob _ _ _).database.log
            unfold Checker.cancelJob
            split
            · exact List.prefix_append _ _
            · exact List.prefix_rfl
      · exact List.prefix_rfl

/-- A handler that was called back at once leaves an accepted call. -/
theorem event_accepted {id : ℕ} {c : Connection} {e : Event} {ans : Answers} {reload : ReloadAnswers}
    {stock : PipeStock UInt8} {r : Result} {username password : List UInt8}
    (hd : dispatch setup.setup s.inst.stock c (ans.with (s.checked reload)) e = some (stock, r))
    (ha : c.consulted r.conn = some (username, password))
    (hch : (s.checked reload).choice = .noDatabase)
    (hs : s.event setup id c e ans reload = some s') :
    Checker.Accepted setup.verifier s'.checker.database.log s.checker.calls username password := by
  unfold event at hs
  rw [hd, Option.map_some] at hs
  simp only [ha] at hs
  cases hs
  refine Checker.Accepted.mono ?_ (log_settle ..)
  rw [checker_checkCredentials]
  exact Checker.accepted_calledBack hch

/-- The callback that an input is. -/
theorem event_of_step {id : ℕ} {c : Connection} {e : Event} {ans : Answers} {reload : ReloadAnswers}
    (hinst : s.inst.crashed = none) (hchecker : s.checker.crashed = none)
    (hc : s.inst.conns id = .live c) (he : ∀ result, e ≠ .checkDone result)
    (hs : step setup s (.event id e ans reload) = some s') : s.event setup id c e ans reload = some s' := by
  unfold step at hs
  simp only [hinst, hchecker, hc] at hs
  cases e with
  | checkDone result => exact (he result rfl).elim
  | incomingReady | outgoingReady | timeout | connectSuccess | connectError => exact hs

/-- **A verdict is vouched for when it comes.** -/
theorem Vouching.called (h : Vouching setup s) {input : Input} (hs : step setup s input = some s')
    {id : ℕ} {c : Connection} {e : Event} {ans : Answers} {stock : PipeStock UInt8} {r : Result}
    (hcause : s.Cause id c input e ans) (hc : s.inst.conns id = .live c)
    (hd : dispatch setup.setup s.inst.stock c ans e = some (stock, r))
    (hfirst : LoginFirst setup.setup r.conn) :
    Vouched setup.verifier s'.checker.database.log r.conn := by
  intro ha
  obtain ⟨hinst, hchecker, -⟩ := step_moves h.coherent hs
  have hlog := log_step h.coherent hs
  have hi := (h.coherent.good hinst).live hc
  have htraced := h.traced.live hc
  have hcalled := dispatch_called hi hd
  have hkept : Approved c → ∃ call, Checker.Accepted setup.verifier s'.checker.database.log call
      (credentials r.conn.initialPackets.bytes).1 (credentials r.conn.initialPackets.bytes).2 := by
    intro hold
    rw [(hcalled.packets (hold.state_ne htraced)).1]
    exact (h.vouched.live hc).mono hlog hold
  rcases dispatch_approves hi (h.free.live hc) hd ha with hold | ⟨result, rfl⟩ | ⟨hinitial, hch⟩
  · exact hkept hold
  · -- the verdict of the job
    cases hcause with
    | event he => exact (he result rfl).elim
    | @done call job _ _ hj hr hn hstate hjob =>
        cases result with
        | false => exact hkept (dispatch_rejects hi hd ha)
        | true =>
            have hv := h.vets call job hj
            have hne : c.state ≠ .initial := by
              rw [hi.job_iff.mp (hjob ▸ rfl)]
              decide
            rw [(hcalled.packets hne).1, ← htraced.job _ hjob]
            exact ⟨call, Checker.Accepted.mono ⟨hv.asked, .inr (hv.finished hstate)⟩ hlog⟩
  · -- there is no database
    cases hcause with
    | done hj hr hn hstate hjob => cases (hi.job_iff.mp (hjob ▸ rfl)).symm.trans hinitial
    | @event _ ans reload he =>
        have hchecked := hfirst.checked ha
        cases dispatch_consults hi hd he with
        | unasked hu =>
            -- nothing was checked before
            obtain ⟨acts, hgrows, hnone⟩ := hu.log
            have hsession := htraced.session
            rw [hinitial] at hsession
            rw [hgrows] at hchecked
            rcases List.mem_append.mp hchecked with hm | hm
            · have hm : _ ∈ c.trace := List.mem_filter.mpr ⟨hm, rfl⟩
              rw [hsession.eq_nil] at hm
              cases hm
            · cases hnone _ hm
        | throws hch' => cases hch.symm.trans hch'
        | queued hch' => cases hch.symm.trans hch'
        | noDatabase hch' _ hasked =>
            rw [← hfirst.check_eq (mem_of_consulted hasked)]
            have hs := event_of_step hinst hchecker hc he hs
            exact ⟨_, event_accepted hd hasked hch hs⟩

/-- What a callback leaves had only one check. -/
theorem Vouching.loginFirst (h : Vouching setup s) (hinst : s.inst.crashed = none) {id : ℕ}
    {c c' : Connection} {e : Event} {ans : Answers} {stock : PipeStock UInt8} {r : Result}
    (hc : s.inst.conns id = .live c)
    (hd : dispatch setup.setup s.inst.stock c ans e = some (stock, r))
    (hr : r = .alive c' ∨ r = .destroyed c') : LoginFirst setup.setup r.conn := by
  have hgood := h.coherent.good hinst
  have htraces := (dispatch_called (hgood.live hc) hd).traces (hgood.live hc) (hgood.books hinst hc)
    (h.traced.live hc)
  rcases hr with rfl | rfl
  · exact loginFirst_of_trace (Traced.session htraces).traceLogin
  · exact loginFirst_of_trace (Ended.traceLogin htraces)

/-- **Every input keeps the invariant.** -/
theorem vouching_step {input : Input} (h : Vouching setup s) (hs : step setup s input = some s') :
    Vouching setup s' := by
  have hlog := log_step h.coherent hs
  have hchecker : s'.checker.Sound ∧ s'.checker.Vets setup.verifier :=
    checker_step (I := fun t => t.Sound ∧ t.Vets setup.verifier) (fun hsame hI => ⟨hI.1.of_same hsame, hI.2.of_same hsame⟩)
      (fun _ _ _ hI hs => ⟨Checker.sound_step hI.1 hs, Checker.vets_step hI.1 hI.2 hs⟩) h.coherent
      ⟨h.sound, h.vets⟩ hs
  refine ⟨coherent_step h.coherent hs, hchecker.1, hchecker.2, ?_, ?_, ?_⟩
  · exact holds_step traced_new (fun side bytes hc => hc.arrive side bytes)
      (fun hi hb _ hc hr => hr.traces hi hb hc) (fun hc => past_of (.stopped hc.session) rfl)
      (fun hc => past_of hc (trace_destructor _ _)) h.coherent h.traced hs
  · refine holds_step (fun _ _ => .inr (free_new _ _)) (fun side bytes hc => ?_)
      (fun {_ _ _ _ _ r} _ _ _ hc hr => ?_) (fun _ => trivial) (fun _ => trivial) h.coherent h.free hs
    · rcases hc with hc | hc
      · cases side <;> exact .inl hc
      · cases side <;> exact .inr ⟨hc.state, hc.log⟩
    · cases r with
      | alive c' => exact hr.free hc
      | destroyed c' | crashed why c' => trivial
  · obtain ⟨hinst, -, hmoves⟩ := step_moves h.coherent hs
    have hold : Instance.Holds (Vouched setup.verifier s'.checker.database.log)
        (Vouched setup.verifier s'.checker.database.log) s.inst :=
      ⟨fun hc => (h.vouched.live hc).mono hlog, fun hc => (h.vouched.gone hc).mono hlog⟩
    generalize s'.inst = inst' at hmoves
    cases hmoves with
    | accept hc =>
        refine hold.setConn (fun c he => ?_) fun c he => (by cases he)
        cases he
        exact vouched_new _ _
    | @arrive id side bytes c hc =>
        refine hold.setConn (fun c he => ?_) fun c he => (by cases he)
        cases he
        exact (hold.live hc).arrive side bytes
    | discard | crashed | datagram | start | run | done => exact ⟨hold.live, hold.gone⟩
    | called hcause hc hd hr =>
        have hv := h.called hs hcause hc hd (h.loginFirst hinst hc hd hr)
        rcases hr with rfl | rfl
        · refine hold.setConn (fun c he => ?_) fun c he => (by cases he)
          cases he
          exact hv
        · refine hold.setConn (fun c he => (by cases he)) fun c he => ?_
          cases he
          exact hv.destructor _
    | destroyed hc =>
        refine hold.setConn (fun c he => (by cases he)) fun c he => ?_
        cases he
        exact (hold.live hc).destructor _

theorem vouching_new {path : Option (List UInt8)} {autoReload : Bool} {ans : ReloadAnswers} {d : Database}
    (hd : Database.new path autoReload ans = .ok d) :
    Vouching setup { checker := { database := d } } where
  coherent := coherent_new d
  sound := Checker.sound_new hd
  vets := fun _ _ hj => by cases hj
  traced := ⟨fun he => (by cases he), fun he => (by cases he)⟩
  free := ⟨fun he => (by cases he), fun he => (by cases he)⟩
  vouched := ⟨fun he => (by cases he), fun he => (by cases he)⟩

/-- **The invariant holds in every run.** -/
theorem vouching_run {path : Option (List UInt8)} {autoReload : Bool} {ans : ReloadAnswers} {d : Database}
    (hd : Database.new path autoReload ans = .ok d) {inputs : List Input} (h : Run setup d inputs s) :
    Vouching setup s :=
  Machine.invariant (fun _ _ _ hI hs => vouching_step hI hs) (vouching_new hd) h

/-- A connection that has reached for a game server was accepted before. -/
theorem Vouching.contact (h : Vouching setup s) {id : ℕ} {c : Connection} (hc : s.inst.Has id c) {a : Act}
    (ha : a ∈ c.log) (hcontact : a.contact = true) :
    ∃ call, Checker.Accepted setup.verifier s.checker.database.log call
      (credentials c.initialPackets.bytes).1 (credentials c.initialPackets.bytes).2 := by
  have hlogin : LoginFirst setup.setup c := by
    rcases hc with hc | hc
    · exact loginFirst_of_trace (h.traced.live hc).session.traceLogin
    · exact loginFirst_of_trace (Ended.traceLogin (h.traced.gone hc))
  obtain ⟨pre, post, hlog⟩ := List.append_of_mem ha
  obtain ⟨before, after, hpre, -⟩ := hlogin.contact pre a post hlog hcontact
  have happroved : Approved c := by
    refine ⟨(credentials c.initialPackets.bytes).1, ?_⟩
    rw [hlog, hpre]
    exact List.mem_append_left _ (List.mem_append_right _ List.mem_cons_self)
  rcases hc with hc | hc
  · exact h.vouched.live hc happroved
  · exact h.vouched.gone hc happroved

/-- A client logs in, and its password is verified. -/
def sampleVouched : List Input :=
  [.accept 0 [] none, .arrive 0 .client Instance.samplePackets,
    .event 0 (.incomingReady { read := true }) { read := .upTo 82 } (Checker.sampleLoads 1), .start 0,
    .run 0 false, .done 0 {}]

/-- **With a database that is loaded once, a connection that reaches for a game server has valid
credentials in its packets.** -/
theorem contact_accepts {path : List UInt8} {reload : ReloadAnswers} {d : Database}
    (hd : Database.new (some path) false reload = .ok d) {inputs : List Input} (h : Run setup d inputs s)
    {id : ℕ} {c : Connection} (hc : s.inst.Has id c) {a : Act} (ha : a ∈ c.log)
    (hcontact : a.contact = true) :
    ∃ contents, reload.dbOpen = some contents ∧ accepts setup.verifier.verify contents
      (credentials c.initialPackets.bytes).1 (credentials c.initialPackets.bytes).2 = true := by
  obtain ⟨contents, ho, hstatic⟩ := Checker.static_new hd
  obtain ⟨call, hcall⟩ := (vouching_run hd h).contact hc ha hcontact
  have hst : Checker.Static ⟨0, contents⟩ s.checker :=
    checker_run (fun hsame hI => hI.of_database hsame.database.symm)
      (fun _ _ _ hI (hs : Checker.step setup.verifier _ _ = _) => Checker.static_step hI hs) hstatic h
  exact ⟨contents, ho, hcall.accepts hst⟩

theorem contact_accepts_of_sample :
    ∃ d s c, Database.new (some [0x2f]) false (Checker.sampleLoads 1) = .ok d ∧
      Run sampleDaemon d sampleVouched s ∧ s.inst.conns 0 = .live c ∧
      ∃ contents, (Checker.sampleLoads 1).dbOpen = some contents ∧
        accepts Checker.sampleVerifier.verify contents (credentials c.initialPackets.bytes).1
          (credentials c.initialPackets.bytes).2 = true := by
  obtain ⟨d, s, c, hnew, hrun, hc, ha⟩ : ∃ d s c,
      Database.new (some [0x2f]) false (Checker.sampleLoads 1) = .ok d ∧
      Run sampleDaemon d sampleVouched s ∧ s.inst.conns 0 = .live c ∧
      c.log[6]? = some (.state .connecting) := ⟨_, _, _, rfl, rfl, rfl, rfl⟩
  exact ⟨d, s, c, hnew, hrun, hc, contact_accepts hnew hrun (.inl hc) (List.mem_of_getElem? ha) rfl⟩

end Daemon

end UoLogin

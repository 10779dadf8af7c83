import UoLogin.Connection.Log
import UoLogin.Database.Jobs
import UoLogin.Instance

set_option autoImplicit false

/-!
# Knocks and logins

The same `AccountLogin` packet can come in a UDP datagram, to `KnockListener`, and after a seed on a TCP
connection. Both handlers check it with the same database, which may be reloaded on the way; the
lookup runs in a worker.

* `onUdpDatagram`, `Request.onCheckCredentials`, `knock`: the datagram, from its arrival to the
  verdict;
* `Connection.receiveLogin`: the last bytes of the login packets, up to the verdict;
* `ReloadFails`, `LookupFails`: what can go wrong in the database;
* **`same_verdict_iff`**: the handlers give the same verdict and the daemon survives, exactly if the
  packet is malformed or nothing goes wrong in the database. `Request`'s constructor is `noexcept`, and
  so is `CheckPassword`.
-/

namespace UoLogin

inductive Verdict where
  | malformed
  | rejected
  | accepted
  deriving DecidableEq, Repr

/-- The verdict that `OnCheckCredentials` is called with. -/
def Verdict.of (result : Bool) : Verdict := if result then .accepted else .rejected

/-! ## The knock -/

/-- What the handling of a knock does outside. -/
inductive KnockAct where
  | updateTokenBucket (size : ℕ)
  | malformedKnocks
  | rejectedKnocks
  | acceptedKnocks
  | setKnocked
  | nftAddElement (set ip : List UInt8)
  | delete
  deriving DecidableEq, Repr

def KnockAct.verdict : KnockAct → Option Verdict
  | .malformedKnocks => some .malformed
  | .rejectedKnocks => some .rejected
  | .acceptedKnocks => some .accepted
  | _ => none

/-- How `OnUdpDatagram` ends: with the datagram done, or with a new `Request`. -/
inductive Datagram where
  | handled (acts : List KnockAct)
  | request (username password : List UInt8)

/-- `OnUdpDatagram`; `accounted` says whether `GetClientAccounting` finds a record. -/
def onUdpDatagram (util : CharUtil) (accounted : Bool) (payload : List UInt8) : Datagram :=
  if accounted = false then .handled []
  else if payload.length ≠ sizeofAccountLogin ∨ hasCommand payload .accountLogin = false then
    .handled [.updateTokenBucket 10, .malformedKnocks]
  else if isValidUsername util (username payload) = false then
    .handled [.updateTokenBucket 8, .malformedKnocks]
  else .request (username payload) (password payload)

/-- A `KnockListener::Request`, with `HostToString` of its address. -/
structure Request where
  nftSet : Option (List UInt8)
  host : List UInt8

/-- `Request::OnCheckCredentials`. A failure of `NftAddElement` is caught. -/
def Request.onCheckCredentials (req : Request) (accounted result : Bool) : List KnockAct :=
  if accounted = false then []
  else if result = false then [.updateTokenBucket 5, .rejectedKnocks, .delete]
  else
    .acceptedKnocks :: .setKnocked ::
      match req.nftSet with
      | some set => if req.host.isEmpty then [.delete] else [.nftAddElement set req.host, .delete]
      | none => [.delete]

/-- A knock of an accounted client up to its verdict. An exception of `CheckCredentials` leaves the
constructor of `Request`, which is `noexcept`. -/
def knock (v : Verifier) (d : Database) (ans : ReloadAnswers) (getFails : Bool) (req : Request)
    (payload : List UInt8) : Except Stop (List KnockAct) :=
  match onUdpDatagram v.util true payload with
  | .handled acts => .ok acts
  | .request username password =>
    match d.checkCredentials ans with
    | (.throws _, _) => .error .throws
    | (.calledBack, _) => .ok (req.onCheckCredentials true true)
    | (.queued, d) =>
      (checkPassword v 0 d.db getFails username password).1.map (req.onCheckCredentials true)

def knockVerdict (acts : List KnockAct) : Option Verdict := acts.findSome? KnockAct.verdict

/-! ## The login -/

/-- The counters of logins. -/
def Act.verdict : Act → Option Verdict
  | .metric .malformedLogins _ => some .malformed
  | .metric .rejectedLogins _ => some .rejected
  | .metric .acceptedLogins _ => some .accepted
  | _ => none

/-- How the database answers, for a connection. -/
def Database.Checked.choice : Database.Checked → CheckChoice
  | .throws _ => .throws
  | .calledBack => .noDatabase
  | .queued => .queued

def Answers.with (ans : Answers) (checked : Database.Checked) : Answers :=
  { ans with check := checked.choice }

/-- The configuration of a daemon with these functions. -/
def Verifier.setup (v : Verifier) (config : Config) : Setup where
  config := config
  util := v.util

/-- The process survives, or not. -/
def Result.outcome : Result → Except Stop Connection
  | .alive c | .destroyed c => .ok c
  | .crashed why _ => .error why

namespace Connection

/-- The job of a connection runs and calls `OnCheckCredentials`, if there is one. -/
def finishCheck (v : Verifier) (config : Config) (db : Option Handle) (getFails : Bool)
    (ans : Answers) (r : Result) : Except Stop Connection :=
  match r.conn.job with
  | none => r.outcome
  | some job =>
    match (checkPassword v 0 db getFails job.1 job.2).1 with
    | .error why => .error why
    | .ok result =>
      ((r.conn.setJob none).onCheckCredentials (v.setup config) ans job.1 result).outcome

/-- `ReceiveLoginPackets`, and `OnCheckCredentials` after the job has run, with the answers that each
of them gets. -/
def receiveLogin (v : Verifier) (config : Config) (d : Database) (reload : ReloadAnswers)
    (getFails : Bool) (ans ans' : Answers) (c : Connection) : Except Stop Connection :=
  finishCheck v config (d.checkCredentials reload).2.db getFails ans'
    (c.receiveLoginPackets (v.setup config) (ans.with (d.checkCredentials reload).1))

/-- The verdict on a login, from what was done since; a refusal without a counter is that of a check
that threw. -/
def verdictSince (c c' : Connection) : Verdict :=
  ((c'.log.drop c.log.length).findSome? Act.verdict).getD .rejected

end Connection

/-! ## The database -/

namespace Database

variable {d : Database} {ans : ReloadAnswers}

/-- `CheckCredentials` throws: the file is not there, or loading it fails now or has failed before. -/
def ReloadFails (d : Database) (ans : ReloadAnswers) : Prop :=
  d.autoReload = true ∧
    match ans.stat with
    | none => True
    | some st => st.regular = false ∨
        if st.mtime = d.lastMtime then d.lastReloadError.isSome = true
        else ¬ (ans.runtimeDirectory = true ∧ ans.copyRegularFile = true ∧ ans.dbCreate = true ∧
          ans.dbOpen.isSome = true)

/-- The contents that a check is made with, if there is a database. -/
def contentsFor (d : Database) (ans : ReloadAnswers) : Option Contents :=
  match ans.stat with
  | some st =>
    if d.autoReload = true ∧ st.mtime ≠ d.lastMtime then ans.dbOpen else d.db.map Handle.contents
  | none => d.db.map Handle.contents

/-- `Get` throws: the stored value does not fit the buffer, or reading fails. -/
def LookupFails (v : Verifier) (d : Database) (ans : ReloadAnswers) (getFails : Bool)
    (username : List UInt8) : Prop :=
  ∃ contents, d.contentsFor ans = some contents ∧
    (getFails = true ∨ ∃ value, contents (v.key username) = some value ∧ pwhashStrbytes < value.length)

theorem Reloads.throws_iff {res : Except DatabaseError Unit} {d' : Database}
    (h : Reloads d ans (res, d')) (ha : d.autoReload = true) :
    (∃ e, res = .error e) ↔ ReloadFails d ans := by
  unfold ReloadFails
  cases h with
  | stat hs => simp [ha, hs]
  | notRegularFile hs hr => simp [ha, hs, hr]
  | rethrows hs hr hm he => simp [ha, hs, hm, he]
  | unchanged hs hr hm he => simp [ha, hs, hr, hm, he]
  | failed hs hr hm hf =>
      simp only [ha, hs, hm, if_false, true_and]
      cases hf <;> simp_all
  | loaded hs hr hm hd hc hn ho => simp [ha, hs, hr, hm, hd, hc, hn, ho]

theorem Reloads.contents {d' : Database} (h : Reloads d ans (.ok (), d')) (ha : d.autoReload = true) :
    d'.db.map Handle.contents = d.contentsFor ans := by
  unfold contentsFor
  cases h with
  | unchanged hs hr hm he => simp [hs, hm]
  | loaded hs hr hm hd hc hn ho => simp [ha, hs, hm, ho, Database.loaded]

/-- **When `CheckCredentials` throws, and what it checks with.** -/
theorem checkCredentials_cases (d : Database) (ans : ReloadAnswers) :
    (ReloadFails d ans ∧ ∃ e d', d.checkCredentials ans = (.throws e, d')) ∨
      ¬ ReloadFails d ans ∧ ∃ d', d'.db.map Handle.contents = d.contentsFor ans ∧
        (d'.db = none ∧ d.checkCredentials ans = (.calledBack, d') ∨
          ∃ h, d'.db = some h ∧ d.checkCredentials ans = (.queued, d')) := by
  have hsettles : ∀ {d'}, Settles d ans d' →
      ¬ ReloadFails d ans ∧ d'.db.map Handle.contents = d.contentsFor ans := by
    rintro d' (⟨ha, rfl⟩ | ⟨ha, hr⟩)
    · refine ⟨fun hf => (nomatch ha.symm.trans hf.1), ?_⟩
      unfold contentsFor
      split <;> simp [ha]
    · refine ⟨fun hf => ?_, hr.contents ha⟩
      obtain ⟨e, he⟩ := (hr.throws_iff ha).mpr hf
      cases he
  have hc := checkCredentials_checks d ans
  generalize d.checkCredentials ans = res at hc
  cases hc with
  | throws ha h => exact .inl ⟨(h.throws_iff ha).mp ⟨_, rfl⟩, _, _, rfl⟩
  | calledBack h hd => exact .inr ⟨(hsettles h).1, _, (hsettles h).2, .inl ⟨hd, rfl⟩⟩
  | queued h hd =>
      obtain ⟨handle, hd⟩ := Option.isSome_iff_exists.mp hd
      exact .inr ⟨(hsettles h).1, _, (hsettles h).2, .inr ⟨handle, hd, rfl⟩⟩

/-- The lookup is made with the handle that the call leaves. -/
theorem lookupFails_iff {v : Verifier} {getFails : Bool} {username : List UInt8} {d' : Database}
    {h : Handle} (hc : d'.db.map Handle.contents = d.contentsFor ans) (hd : d'.db = some h) :
    d.LookupFails v ans getFails username ↔ getFails = true ∨
      ∃ value, h.contents (v.key username) = some value ∧ pwhashStrbytes < value.length := by
  unfold LookupFails
  rw [← hc, hd]
  constructor
  · rintro ⟨contents, he, hf⟩
    cases he
    exact hf
  · intro hf
    exact ⟨_, rfl, hf⟩

theorem not_lookupFails {v : Verifier} {getFails : Bool} {username : List UInt8} {d' : Database}
    (hc : d'.db.map Handle.contents = d.contentsFor ans) (hd : d'.db = none) :
    ¬ d.LookupFails v ans getFails username := by
  rintro ⟨contents, hsome, -⟩
  rw [← hc, hd] at hsome
  cases hsome

end Database

/-- A worker that has an open handle survives, exactly if the lookup does. -/
theorem checkPassword_cases (v : Verifier) (id : ℕ) (h : Handle) (getFails : Bool)
    {username : List UInt8} (hl : username.length ≤ 30) (password : List UInt8) :
    let fails := getFails = true ∨
      ∃ value, h.contents (v.key username) = some value ∧ pwhashStrbytes < value.length
    fails ∧ (checkPassword v id (some h) getFails username password).1 = .error .throws ∨
      ¬ fails ∧ ∃ result, (checkPassword v id (some h) getFails username password).1 = .ok result := by
  have hget : (∃ e, h.get (v.key username) pwhashStrbytes getFails = .error e) ↔
      getFails = true ∨
        ∃ value, h.contents (v.key username) = some value ∧ pwhashStrbytes < value.length := by
    unfold Handle.get
    cases getFails with
    | true => simp
    | false =>
        cases hc : h.contents (v.key username) with
        | none => simp
        | some value =>
            by_cases hle : value.length ≤ pwhashStrbytes
            · simp [hle]
            · simp [hle]; omega
  have hverifies := checkPassword_verifies v id (some h) getFails username password
  intro fails
  generalize checkPassword v id (some h) getFails username password = res at hverifies
  cases hverifies with
  | tooLong hl' => omega
  | notOpen hl hd => cases hd
  | throws hl hd hg =>
      cases hd
      exact .inl ⟨hget.mp ⟨_, hg⟩, rfl⟩
  | refused hl hd hg hv =>
      cases hd
      refine .inr ⟨fun hf => ?_, _, rfl⟩
      obtain ⟨e, he⟩ := hget.mpr hf
      rw [hg] at he
      cases he
  | verified hl hd hg hv =>
      cases hd
      refine .inr ⟨fun hf => ?_, _, rfl⟩
      obtain ⟨e, he⟩ := hget.mpr hf
      rw [hg] at he
      cases he

/-! ## The verdict on a login -/

namespace Connection

variable {setup : Setup} {ans : Answers} {c c₁ c₂ c' : Connection} {r : Result}

/-- No login was counted. -/
def Silent (c c' : Connection) : Prop :=
  ∃ acts, c'.log = c.log ++ acts ∧ acts.findSome? Act.verdict = none

theorem Silent.trans (h : Silent c c₁) (h' : Silent c₁ c₂) : Silent c c₂ := by
  obtain ⟨as, hlog, hnone⟩ := h
  obtain ⟨bs, hlog', hnone'⟩ := h'
  refine ⟨as ++ bs, by rw [hlog', hlog, List.append_assoc], ?_⟩
  rw [List.findSome?_append, hnone, hnone']
  rfl

theorem silent_updateTokenBucket (c : Connection) (size : ℕ) : Silent c (c.updateTokenBucket size) := by
  unfold updateTokenBucket
  split
  · exact ⟨_, rfl, rfl⟩
  · exact ⟨[], (List.append_nil _).symm, rfl⟩

theorem silent_rejectLogin (c : Connection) (ans : Answers) : Silent c (c.rejectLogin ans) := by
  obtain ⟨acts, ha, he⟩ := rejectLogin_cases c ans
  rw [he]
  refine ⟨acts, rfl, ?_⟩
  cases ha <;> rfl

theorem Silent.log_grows (h : Silent c c') : c.log <+: c'.log := by
  obtain ⟨acts, hlog, -⟩ := h
  exact ⟨acts, hlog.symm⟩

theorem verdictSince_of_silent (h : Silent c c') : verdictSince c c' = .rejected := by
  obtain ⟨acts, hlog, hnone⟩ := h
  unfold verdictSince
  rw [hlog, List.drop_left, hnone]
  rfl

/-- The first counter gives the verdict. -/
theorem verdictSince_of_counted {a : Act} {w : Verdict} (h : Silent c c₁) (ha : a.verdict = some w)
    (hp : (c₁.emit a).log <+: c'.log) : verdictSince c c' = w := by
  obtain ⟨acts, hlog, hnone⟩ := h
  obtain ⟨more, hmore⟩ := hp
  have hsince : c'.log = c.log ++ (acts ++ (a :: more)) := by
    rw [← hmore, ← List.append_assoc, ← hlog]
    exact List.append_assoc _ [a] more
  unfold verdictSince
  rw [hsince, List.drop_left, List.findSome?_append, hnone, List.findSome?_cons, ha]
  rfl

/-- The process survives without a new job. -/
structure Survives (c : Connection) (r : Result) : Prop where
  outcome : r.outcome = .ok r.conn
  job : r.conn.job = c.job

theorem Establishes.survives (h : Establishes setup c r) : Survives c r := by
  cases h with
  | failed | sendPlayServer | ready => exact ⟨rfl, rfl⟩

theorem Connects.survives {address : SocketAddress} (h : Connects setup address c r) : Survives c r := by
  cases h with
  | pending | failed => exact ⟨rfl, rfl⟩
  | now h => exact ⟨h.survives.outcome, h.survives.job⟩

theorem Accepts.survives (h : Accepts setup c r) : Survives c r := by
  cases h with
  | failed | listed => exact ⟨rfl, rfl⟩
  | direct hl h => exact ⟨h.survives.outcome, h.survives.job⟩

theorem job_updateTokenBucket (c : Connection) (size : ℕ) : (c.updateTokenBucket size).job = c.job := by
  unfold updateTokenBucket
  split <;> rfl

theorem job_rejectLogin (c : Connection) (ans : Answers) : (c.rejectLogin ans).job = c.job := by
  obtain ⟨acts, -, he⟩ := rejectLogin_cases c ans
  rw [he]
  rfl

theorem onCheckCredentials_verdict (setup : Setup) (ans : Answers) (username : List UInt8) (result : Bool)
    (h : Silent c c₁) (hs : c₁.state = .checkCredentials) (hf : c₁.initialPacketsFill = initialSize) :
    let r := c₁.onCheckCredentials setup ans username result
    r.outcome = .ok r.conn ∧ r.conn.job = c₁.job ∧ verdictSince c r.conn = Verdict.of result := by
  have hjudged : Silent c (c₁.judged username result) := h.trans ⟨_, rfl, rfl⟩
  intro r
  cases result with
  | false =>
      have hr : r = .destroyed ((((c₁.judged username false).emit
          (.metric .rejectedLogins 1)).updateTokenBucket 5).rejectLogin ans) :=
        (if_neg (not_not.mpr hs)).trans (if_pos rfl)
      rw [hr]
      refine ⟨rfl, (job_rejectLogin _ _).trans (job_updateTokenBucket _ _), ?_⟩
      refine verdictSince_of_counted (a := .metric .rejectedLogins 1) hjudged rfl ?_
      exact (silent_updateTokenBucket _ 5).log_grows.trans (silent_rejectLogin _ ans).log_grows
  | true =>
      have hcounted := hjudged.trans (silent_updateTokenBucket (c₁.judged username true) 1)
      have hfill : ((c₁.judged username true).updateTokenBucket 1).initialPacketsFill = initialSize := by
        unfold updateTokenBucket
        split <;> exact hf
      have hr : r = if setup.config.serverList ≠ [] then
          (((c₁.judged username true).updateTokenBucket 1).emit
            (.metric .acceptedLogins 1)).sendServerList setup ans
          else ((((c₁.judged username true).updateTokenBucket 1).emit
            (.metric .acceptedLogins 1)).direct setup).connectTo setup ans setup.config.gameServer :=
        (if_neg (not_not.mpr hs)).trans (if_neg (by decide))
      have haccepts : Accepts setup (((c₁.judged username true).updateTokenBucket 1).emit
          (.metric .acceptedLogins 1)) r := by
        rw [hr]
        split
        · rename_i hl
          exact sendServerList_accepts ans hfill hl
        · rename_i hl
          exact .direct (not_not.mp hl) (connectTo_connects ans _ rfl hfill)
      obtain ⟨houtcome, hjob⟩ := haccepts.survives
      refine ⟨houtcome, hjob.trans (job_updateTokenBucket _ _), ?_⟩
      exact verdictSince_of_counted hcounted rfl haccepts.log_grows

/-- A login packet that gets as far as the database. -/
def WellFormedLogin (util : CharUtil) (packet : List UInt8) : Prop :=
  hasCommand packet .accountLogin = true ∧ isValidUsername util (UoLogin.username packet) = true

section Complete

variable {seed packet : List UInt8}

theorem loginComplete_malformed (setup : Setup) (ans : Answers) (hb : c.initialPackets.bytes = seed ++ packet)
    (hs : seed.length = sizeofSeed) (hw : ¬ WellFormedLogin setup.util packet) :
    ∃ c', c.loginComplete setup ans = .destroyed c' ∧ c'.job = c.job ∧
      verdictSince c c' = .malformed := by
  have hdrop : (seed ++ packet).drop sizeofSeed = packet := by
    rw [← hs]
    exact List.drop_left
  have hcomplete : Silent c c.complete := ⟨[], (List.append_nil _).symm, rfl⟩
  unfold loginComplete
  simp only
  split
  · refine ⟨_, rfl, job_updateTokenBucket _ _,
      verdictSince_of_counted (a := .metric .malformedLogins 1) hcomplete rfl ?_⟩
    exact (silent_updateTokenBucket _ 10).log_grows
  · rename_i hcmd
    split
    · refine ⟨_, rfl, (job_rejectLogin _ _).trans (job_updateTokenBucket _ _),
        verdictSince_of_counted (a := .metric .malformedLogins 1) hcomplete rfl ?_⟩
      exact (silent_updateTokenBucket _ 8).log_grows.trans (silent_rejectLogin _ ans).log_grows
    · rename_i hname
      refine (hw ⟨?_, ?_⟩).elim
      · have := (Bool.not_eq_false _).mp (not_or.mp hcmd).2
        change hasCommand (c.initialPackets.bytes.drop sizeofSeed) _ = true at this
        rwa [hb, hdrop] at this
      · have := (Bool.not_eq_false _).mp hname
        change isValidUsername setup.util (UoLogin.username (c.initialPackets.bytes.drop sizeofSeed)) =
          true at this
        rwa [hb, hdrop] at this

theorem loginComplete_wellFormed (hb : c.initialPackets.bytes = seed ++ packet)
    (hs : seed.length = sizeofSeed) (hseed : hasCommand seed .seed = true)
    (hw : WellFormedLogin setup.util packet) :
    c.loginComplete setup ans = (c.complete.setState .checkCredentials).checkCredentials setup ans
      (UoLogin.username packet) (UoLogin.password packet) := by
  have hdrop : c.initialPackets.bytes.drop sizeofSeed = packet := by
    rw [hb, ← hs]
    exact List.drop_left
  have htake : c.initialPackets.bytes.take sizeofSeed = seed := by
    rw [hb, ← hs]
    exact List.take_left
  have hcmd : ¬ (hasCommand (c.initialPackets.bytes.take sizeofSeed) .seed = false ∨
      hasCommand (c.initialPackets.bytes.drop sizeofSeed) .accountLogin = false) := by
    rw [htake, hdrop, hseed, hw.1]
    exact fun h => h.elim nofun nofun
  have hname : ¬ isValidUsername setup.util
      (UoLogin.username (c.initialPackets.bytes.drop sizeofSeed)) = false := by
    rw [hdrop, hw.2]
    exact nofun
  rw [← hdrop]
  exact (if_neg hcmd).trans (if_neg hname)

end Complete

/-- A client that has sent all but the last bytes of its login packets, and these bytes. -/
structure Completing (c : Connection) (read : ReadChoice) (packets : List UInt8) : Prop where
  state : c.state = .initial
  job : c.job = none
  fill : c.initialPacketsFill < initialSize
  read : ∃ bytes rest, c.client.readNoWait (initialSize - c.initialPacketsFill) read =
      (some bytes, c.client.advance bytes rest) ∧
    c.initialPackets.bytes.take c.initialPacketsFill ++ bytes = packets
  length : packets.length = initialSize

/-- The buffer is full, and the log has not changed. -/
theorem Completing.eq {packets : List UInt8} (setup : Setup) (h : Completing c ans.read packets) :
    ∃ c₁ : Connection, c.receiveLoginPackets setup ans = c₁.loginComplete setup ans ∧
      c₁.initialPackets.bytes = packets ∧ c₁.initialPacketsFill = initialSize ∧ c₁.job = none ∧
      c₁.log = c.log := by
  obtain ⟨bytes, rest, hread, hfull⟩ := h.read
  have hfill := h.fill
  have heq : c.initialPacketsFill + bytes.length = initialSize := by
    have hlen := congrArg List.length hfull
    rw [h.length, List.length_append, List.length_take, c.initialPackets.length_eq] at hlen
    omega
  exact ⟨c.filled bytes rest, receiveLoginPackets_complete h.state hfill hread heq,
    (bytes_filled rest heq).trans hfull,
    (initialPacketsFill_filled rest (Nat.le_of_eq heq)).trans heq, h.job, rfl⟩

variable {v : Verifier} {config : Config} {d : Database} {reload : ReloadAnswers} {getFails : Bool}
  {ans' : Answers} {seed packet : List UInt8}

theorem verdictSince_congr (h : c₁.log = c.log) : verdictSince c₁ c' = verdictSince c c' := by
  unfold verdictSince
  rw [h]

theorem finishCheck_none {db : Option Handle} (h : r.conn.job = none) :
    finishCheck v config db getFails ans r = r.outcome := by
  unfold finishCheck
  rw [h]

theorem receiveLogin_malformed (h : Completing c ans.read (seed ++ packet))
    (hs : seed.length = sizeofSeed) (hw : ¬ WellFormedLogin v.util packet) :
    ∃ c', c.receiveLogin v config d reload getFails ans ans' = .ok c' ∧
      verdictSince c c' = .malformed := by
  have h' : Completing c (ans.with (d.checkCredentials reload).1).read (seed ++ packet) := h
  obtain ⟨c₁, hreceive, hbytes, -, hjob, hlog⟩ := h'.eq (v.setup config)
  obtain ⟨c', hcomplete, hjob', hverdict⟩ := loginComplete_malformed (v.setup config)
    (ans.with (d.checkCredentials reload).1) hbytes hs hw
  refine ⟨c', ?_, (verdictSince_congr hlog).symm.trans hverdict⟩
  unfold receiveLogin
  rw [hreceive, hcomplete]
  exact finishCheck_none (hjob'.trans hjob)

/-- The call of the database for a well-formed packet. -/
theorem receiveLoginPackets_wellFormed (setup : Setup) (h : Completing c ans.read (seed ++ packet))
    (hs : seed.length = sizeofSeed) (hseed : hasCommand seed .seed = true)
    (hw : WellFormedLogin setup.util packet) :
    ∃ c₂, Silent c c₂ ∧ c₂.state = .checkCredentials ∧ c₂.initialPacketsFill = initialSize ∧
      c₂.job = none ∧ c.receiveLoginPackets setup ans =
        match ans.check with
        | .throws => .destroyed ((c₂.updateTokenBucket 2).rejectLogin ans)
        | .noDatabase => c₂.onCheckCredentials setup ans (UoLogin.username packet) true
        | .queued => .alive ((c₂.setCancelPtr true).setJob
            (some (UoLogin.username packet, UoLogin.password packet))) := by
  obtain ⟨c₁, hreceive, hbytes, hfill, hjob, hlog⟩ := h.eq setup
  refine ⟨(c₁.complete.setState .checkCredentials).emit
    (.checkCredentials (UoLogin.username packet) (UoLogin.password packet)), ⟨[.state .checkCredentials,
      .checkCredentials (UoLogin.username packet) (UoLogin.password packet)], ?_, rfl⟩, rfl, hfill, hjob, ?_⟩
  · change (c₁.log ++ [_]) ++ [_] = _
    rw [hlog, List.append_assoc]
    rfl
  · rw [hreceive, loginComplete_wellFormed hbytes hs hseed hw]
    rfl

/-- The connection catches the exception and refuses the login. -/
theorem receiveLogin_throws (h : Completing c ans.read (seed ++ packet))
    (hs : seed.length = sizeofSeed) (hseed : hasCommand seed .seed = true)
    (hw : WellFormedLogin v.util packet) {e : DatabaseError} {d' : Database}
    (he : d.checkCredentials reload = (.throws e, d')) :
    ∃ c', c.receiveLogin v config d reload getFails ans ans' = .ok c' ∧
      verdictSince c c' = .rejected := by
  have h' : Completing c (ans.with (.throws e)).read (seed ++ packet) := h
  obtain ⟨c₂, hsilent, -, -, hjob, hreceive⟩ :=
    receiveLoginPackets_wellFormed (v.setup config) h' hs hseed hw
  refine ⟨(c₂.updateTokenBucket 2).rejectLogin (ans.with (.throws e)), ?_, ?_⟩
  · unfold receiveLogin
    rw [he, hreceive]
    exact finishCheck_none ((job_rejectLogin _ _).trans ((job_updateTokenBucket _ _).trans hjob))
  · exact verdictSince_of_silent
      ((hsilent.trans (silent_updateTokenBucket _ 2)).trans (silent_rejectLogin _ _))

theorem receiveLogin_calledBack (h : Completing c ans.read (seed ++ packet))
    (hs : seed.length = sizeofSeed) (hseed : hasCommand seed .seed = true)
    (hw : WellFormedLogin v.util packet) {d' : Database}
    (he : d.checkCredentials reload = (.calledBack, d')) :
    ∃ c', c.receiveLogin v config d reload getFails ans ans' = .ok c' ∧
      verdictSince c c' = .accepted := by
  have h' : Completing c (ans.with .calledBack).read (seed ++ packet) := h
  obtain ⟨c₂, hsilent, hstate, hfill, hjob, hreceive⟩ :=
    receiveLoginPackets_wellFormed (v.setup config) h' hs hseed hw
  obtain ⟨houtcome, hjob', hverdict⟩ := onCheckCredentials_verdict (v.setup config)
    (ans.with .calledBack) (UoLogin.username packet) true hsilent hstate hfill
  refine ⟨_, ?_, hverdict⟩
  unfold receiveLogin
  rw [he, hreceive]
  exact (finishCheck_none (hjob'.trans hjob)).trans houtcome

theorem receiveLogin_queued (config : Config) (getFails : Bool) (ans' : Answers)
    (h : Completing c ans.read (seed ++ packet))
    (hs : seed.length = sizeofSeed) (hseed : hasCommand seed .seed = true)
    (hw : WellFormedLogin v.util packet) {d' : Database}
    (he : d.checkCredentials reload = (.queued, d')) :
    ∃ c₂, Silent c c₂ ∧ c₂.state = .checkCredentials ∧ c₂.initialPacketsFill = initialSize ∧
      c.receiveLogin v config d reload getFails ans ans' =
        match (checkPassword v 0 d'.db getFails (UoLogin.username packet)
          (UoLogin.password packet)).1 with
        | .error why => .error why
        | .ok result => (c₂.onCheckCredentials (v.setup config) ans' (UoLogin.username packet)
            result).outcome := by
  have h' : Completing c (ans.with .queued).read (seed ++ packet) := h
  obtain ⟨c₂, hsilent, hstate, hfill, hjob, hreceive⟩ :=
    receiveLoginPackets_wellFormed (v.setup config) h' hs hseed hw
  refine ⟨(c₂.setCancelPtr true).setJob none, hsilent, hstate, hfill, ?_⟩
  unfold receiveLogin
  rw [he, hreceive]
  rfl

end Connection

/-! ## The verdict on a knock -/

section Knock

variable {v : Verifier} {d : Database} {reload : ReloadAnswers} {getFails : Bool} {req : Request}
  {packet : List UInt8}

theorem onUdpDatagram_malformed {util : CharUtil}
    (hw : ¬ Connection.WellFormedLogin util packet) :
    ∃ acts, onUdpDatagram util true packet = .handled acts ∧ knockVerdict acts = some .malformed := by
  unfold onUdpDatagram
  rw [if_neg nofun]
  split
  · exact ⟨_, rfl, rfl⟩
  · rename_i hcmd
    split
    · exact ⟨_, rfl, rfl⟩
    · rename_i hname
      exact (hw ⟨(Bool.not_eq_false _).mp (not_or.mp hcmd).2, (Bool.not_eq_false _).mp hname⟩).elim

theorem onUdpDatagram_wellFormed {util : CharUtil} (hlen : packet.length = sizeofAccountLogin)
    (hw : Connection.WellFormedLogin util packet) :
    onUdpDatagram util true packet = .request (username packet) (password packet) := by
  unfold onUdpDatagram
  rw [if_neg nofun, if_neg, if_neg]
  · rw [hw.2]
    exact nofun
  · rw [hw.1]
    exact fun h => h.elim (fun hne => hne hlen) nofun

theorem knockVerdict_onCheckCredentials (req : Request) (result : Bool) :
    knockVerdict (req.onCheckCredentials true result) = some (Verdict.of result) := by
  cases result <;> rfl

theorem knock_malformed (d : Database) (reload : ReloadAnswers) (getFails : Bool) (req : Request)
    (hw : ¬ Connection.WellFormedLogin v.util packet) :
    ∃ acts, knock v d reload getFails req packet = .ok acts ∧ knockVerdict acts = some .malformed := by
  obtain ⟨acts, hdatagram, hverdict⟩ := onUdpDatagram_malformed hw
  refine ⟨acts, ?_, hverdict⟩
  unfold knock
  rw [hdatagram]

/-- The call of the database for a well-formed packet. -/
theorem knock_wellFormed (d : Database) (reload : ReloadAnswers) (getFails : Bool) (req : Request)
    (hlen : packet.length = sizeofAccountLogin) (hw : Connection.WellFormedLogin v.util packet) :
    knock v d reload getFails req packet =
      match d.checkCredentials reload with
      | (.throws _, _) => .error .throws
      | (.calledBack, _) => .ok (req.onCheckCredentials true true)
      | (.queued, d) => (checkPassword v 0 d.db getFails (username packet) (password packet)).1.map
          (req.onCheckCredentials true) := by
  unfold knock
  rw [onUdpDatagram_wellFormed hlen hw]

end Knock

/-- **The two handlers of a login packet agree.** Neither ends the process, both give the same verdict,
and a packet whose check throws is not accepted. -/
def SameVerdict (v : Verifier) (config : Config) (d : Database) (reload : ReloadAnswers)
    (getFails : Bool) (req : Request) (packet : List UInt8) (ans ans' : Answers) (c : Connection) :
    Prop :=
  ∃ acts c' w, knock v d reload getFails req packet = .ok acts ∧ knockVerdict acts = some w ∧
    c.receiveLogin v config d reload getFails ans ans' = .ok c' ∧ c.verdictSince c' = w ∧
    (Connection.WellFormedLogin v.util packet → d.ReloadFails reload → w ≠ .accepted)

/-- **Knock and login agree, exactly if the packet is malformed or nothing goes wrong in the
database.** -/
theorem same_verdict_iff (v : Verifier) (config : Config) (d : Database) (reload : ReloadAnswers)
    (getFails : Bool) (req : Request) {seed packet : List UInt8} (hp : packet.length = 62)
    (hs : seed.length = 21) (hseed : seed.head? = some 0xef) {ans : Answers} (ans' : Answers)
    {c : Connection} (hc : c.Completing ans.read (seed ++ packet)) :
    SameVerdict v config d reload getFails req packet ans ans' c ↔
      ¬ Connection.WellFormedLogin v.util packet ∨
        ¬ d.ReloadFails reload ∧ ¬ d.LookupFails v reload getFails (username packet) := by
  have hseed : hasCommand seed .seed = true := by
    unfold hasCommand
    rw [hseed]
    rfl
  by_cases hw : Connection.WellFormedLogin v.util packet
  · have hknock := knock_wellFormed d reload getFails req hp hw
    rcases d.checkCredentials_cases reload with
      ⟨hf, e, d', he⟩ | ⟨hf, d', hcontents, ⟨hd, he⟩ | ⟨h, hd, he⟩⟩
    · -- the exception leaves the constructor of the request
      rw [he] at hknock
      refine ⟨fun ⟨acts, c', w, hk, _⟩ => ?_, fun h => h.elim (absurd hw) fun h => absurd hf h.1⟩
      rw [hknock] at hk
      cases hk
    · -- there is no database
      rw [he] at hknock
      obtain ⟨c', hlogin, hverdict⟩ := Connection.receiveLogin_calledBack hc hs hseed hw he
      refine ⟨fun _ => .inr ⟨hf, Database.not_lookupFails hcontents hd⟩, fun _ => ?_⟩
      exact ⟨_, c', .accepted, hknock, knockVerdict_onCheckCredentials req true, hlogin, hverdict,
        fun _ hf' => absurd hf' hf⟩
    · -- a worker looks the user up
      rw [he] at hknock
      obtain ⟨c₂, hsilent, hstate, hfill, hlogin⟩ :=
        Connection.receiveLogin_queued config getFails ans' hc hs hseed hw he
      have hlookup : d.LookupFails v reload getFails (username packet) ↔ _ :=
        Database.lookupFails_iff hcontents hd
      simp only [hd] at hknock hlogin
      rcases checkPassword_cases v 0 h getFails (length_username_le packet) (password packet) with
        ⟨hfails, hres⟩ | ⟨hfails, result, hres⟩
      · simp only [hres] at hknock
        refine ⟨fun ⟨acts, c', w, hk, _⟩ => ?_,
          fun h => h.elim (absurd hw) fun h => absurd (hlookup.mpr hfails) h.2⟩
        rw [hknock] at hk
        cases hk
      · simp only [hres] at hknock hlogin
        obtain ⟨houtcome, -, hverdict⟩ := Connection.onCheckCredentials_verdict (v.setup config) ans'
          (username packet) result hsilent hstate hfill
        refine ⟨fun _ => .inr ⟨hf, fun hl => hfails (hlookup.mp hl)⟩, fun _ => ?_⟩
        exact ⟨_, _, Verdict.of result, hknock, knockVerdict_onCheckCredentials req result,
          hlogin.trans houtcome, hverdict, fun _ hf' => absurd hf' hf⟩
  · refine ⟨fun _ => .inl hw, fun _ => ?_⟩
    obtain ⟨acts, hknock, hverdict⟩ := knock_malformed d reload getFails req hw
    obtain ⟨c', hlogin, hverdict'⟩ := Connection.receiveLogin_malformed hc hs hw
    exact ⟨acts, c', .malformed, hknock, hverdict, hlogin, hverdict', nofun⟩

/-! ## A packet to handle -/

/-- The login packet of the sample client. -/
def sampleAccountLogin : List UInt8 := Instance.samplePackets.drop 21

/-- A connection whose client has sent its login packets. -/
def sampleConnection : Connection :=
  (Connection.new [] (some 1)).arrive .client Instance.samplePackets

theorem sampleConnection_completing :
    sampleConnection.Completing (.upTo 82) (Instance.samplePackets.take 21 ++ sampleAccountLogin) where
  state := rfl
  job := rfl
  fill := by decide
  read := ⟨Instance.samplePackets, [], rfl, rfl⟩
  length := rfl

theorem same_verdict_of_sample :
    Connection.WellFormedLogin CharUtil.ascii sampleAccountLogin ∧
      SameVerdict Checker.sampleVerifier (Instance.sampleSetup []).config Checker.sampleDatabase
        (Checker.sampleLoads 1) false ⟨none, []⟩ sampleAccountLogin { read := .upTo 82 } {}
        sampleConnection := by
  refine ⟨⟨rfl, rfl⟩, (same_verdict_iff _ _ _ _ _ _ rfl rfl rfl {} sampleConnection_completing).mpr
    (.inr ⟨fun h => ?_, ?_⟩)⟩
  · simp [Database.ReloadFails, Checker.sampleLoads, Checker.sampleDatabase] at h
  · rintro ⟨contents, hcontents, hf | ⟨value, hv, hlen⟩⟩
    · cases hf
    · cases hcontents
      have hvalue : value = Checker.sampleHash := (Option.some.inj hv).symm
      rw [hvalue] at hlen
      exact absurd hlen (by decide)

/-- **A knock ends the daemon when `stat()` fails.** The login of the same packet is refused. -/
theorem knock_terminates :
    sampleAccountLogin.length = 62 ∧
      sampleConnection.Completing (.upTo 82) (Instance.samplePackets.take 21 ++ sampleAccountLogin) ∧
      knock Checker.sampleVerifier Checker.sampleDatabase { Checker.sampleLoads 1 with stat := none }
        false ⟨none, []⟩ sampleAccountLogin = .error .throws ∧
      (∃ c', sampleConnection.receiveLogin Checker.sampleVerifier (Instance.sampleSetup []).config
          Checker.sampleDatabase { Checker.sampleLoads 1 with stat := none } false
          { read := .upTo 82 } {} = .ok c' ∧ sampleConnection.verdictSince c' = .rejected) ∧
      ¬ SameVerdict Checker.sampleVerifier (Instance.sampleSetup []).config Checker.sampleDatabase
        { Checker.sampleLoads 1 with stat := none } false ⟨none, []⟩ sampleAccountLogin
        { read := .upTo 82 } {} sampleConnection := by
  have hknock : knock Checker.sampleVerifier Checker.sampleDatabase
      { Checker.sampleLoads 1 with stat := none } false ⟨none, []⟩ sampleAccountLogin =
        .error .throws := rfl
  refine ⟨rfl, sampleConnection_completing, hknock, ⟨_, rfl, rfl⟩, fun ⟨acts, c', w, hk, _⟩ => ?_⟩
  rw [hknock] at hk
  cases hk

end UoLogin

import UoLogin.Server.Errands
import UoLogin.Server.Projections

set_option autoImplicit false

/-!
# Who gets in

Where knocks are required, a client of an accounted address is only let in after a knock, and a connection
only reaches for a game server after a login. Both have passed the database.

* `Asked`, `Credited`, `Knocked`: a datagram asked for credentials that were accepted;
* `Proven`, **`proven_run`**: every knock on record is credited;
* `Accounts.Gated`, **`Accounts.gated_run`**: every client has a knock on record;
* **`knock_authenticated`**, **`contact_authenticated`**: the two locks.
-/

namespace UoLogin

open Connection

/-! ## The gate of the accounting -/

namespace Accounts

variable {setup : AccountSetup} {s s' : Accounts}

/-- Every accounted client has a knock on record. -/
def Gated (setup : AccountSetup) (s : Accounts) : Prop :=
  ∀ i c p, s.clients.get i = some c → c.perClient = some p →
    ∃ e ∈ s.knocks, e.address = some (c.peerAddress.toInteger setup.address)

theorem Change.log_prefix (h : Change setup s s') : s.log <+: s'.log := by
  have hdestroy : ∀ (i : ℕ) (c : Client) (t : Accounts), t.log <+: (t.destroy i c).log := by
    intro i c t
    cases hper : c.perClient with
    | none => rw [log_destroy_none hper]
    | some p =>
        rw [log_destroy_some hper]
        exact List.prefix_append ..
  cases h with
  | tick | insert | metrics | requests | refuse | enlist => exact List.prefix_rfl
  | charge | knock | cleanup => exact List.prefix_append ..
  | promote i c =>
      exact hdestroy i { c with socket := none }
        ((s.releaseSocket i).addConnection c.perClient c.socket c.peerAddress)
  | destroy i c => exact hdestroy i c s

theorem knocks_subset {input : Input} (hs : step setup s input = some s') : s.knocks ⊆ s'.knocks := by
  have hlog : s.log <+: s'.log := (step_changes hs).keeps (I := fun t => s.log <+: t.log)
    (fun _ _ hI hc => hI.trans hc.log_prefix) List.prefix_rfl
  exact (hlog.filter _).subset

theorem exists_of_standing {number : BitVec 64} (h : Standing number s.log) :
    ∃ e ∈ s.knocks, e.address = some number := by
  obtain ⟨pre, e, post, hlog, ⟨ha, hevent⟩, -⟩ := h
  refine ⟨e, List.mem_filter.mpr ⟨?_, beq_iff_eq.mpr hevent⟩, ha⟩
  rw [hlog]
  exact List.mem_append_right _ List.mem_cons_self

/-- A client was there before, or has become one, or has just come in. -/
theorem client_step {inputs : List Input} (h : Run setup inputs s) (hknock : setup.requireKnock = true)
    {input : Input} (hs : step setup s input = some s') {i p : ℕ} {c : Client}
    (hc : s'.clients.get i = some c) (hp : c.perClient = some p) :
    (∃ j c', s.clients.get j = some c' ∧ c'.perClient = c.perClient ∧ c'.peerAddress = c.peerAddress) ∨
      Standing (c.peerAddress.toInteger setup.address) s.log := by
  have hsame : s'.clients = s.clients → (∃ j c', s.clients.get j = some c' ∧
      c'.perClient = c.perClient ∧ c'.peerAddress = c.peerAddress) ∨
        Standing (c.peerAddress.toInteger setup.address) s.log :=
    fun he => .inl ⟨i, c, he ▸ hc, rfl, rfl⟩
  cases step_cases hs with
  | tick | cleanup => exact hsame rfl
  | charge size overdrawn => exact hsame (shared_charge ..).clients
  | datagram peer payload overdrawn => exact hsame (onDatagram_shared ..).1
  | knockAnswer result overdrawn hk => exact hsame (onKnockAnswer_clients ..)
  | @socketReady j c' overdrawn hi =>
      have hclients : (s.onSocketReady j c' overdrawn).clients = s.clients.free j :=
        (clients_destroy ..).trans (congrArg (Heap.free · j) (shared_charge c' 4 overdrawn s).clients)
      rw [hclients] at hc
      exact .inl ⟨i, c, (Heap.get_free_eq_some.mp hc).2, rfl, rfl⟩
  | destroy hi =>
      rw [clients_destroy] at hc
      exact .inl ⟨i, c, (Heap.get_free_eq_some.mp hc).2, rfl, rfl⟩
  | timer hi =>
      rw [onTimer_clients] at hc
      rcases Heap.get_alloc_eq_some.mp (Heap.get_free_eq_some.mp hc).2 with ⟨-, rfl⟩ | hc
      · exact .inl ⟨_, _, hi, rfl, rfl⟩
      · rcases Heap.get_modify_eq_some.mp hc with ⟨-, c', hc', rfl⟩ | ⟨-, hc⟩
        · exact .inl ⟨_, c', hc', rfl, rfl⟩
        · exact .inl ⟨i, c, hc, rfl, rfl⟩
  | accept peer overdrawn =>
      have haccepts := onAccept_accepts setup peer overdrawn s
      obtain ⟨-, hclients⟩ := haccepts.shared
      generalize s.onAccept setup peer overdrawn = s' at hc hsame haccepts hclients
      rcases hclients with hclients | ⟨c', rfl, hclients⟩
      · exact hsame hclients
      rw [hclients] at hc
      rcases Heap.get_alloc_eq_some.mp hc with ⟨-, rfl⟩ | hc
      · -- the client has just come in
        refine .inr ?_
        cases haccepts with
        | unaccounted =>
            have hget := congrArg (fun K : Heap Client => K.get s.clients.allocated) hclients
            have hnone : none = c'.perClient := congrArg Client.perClient (Option.some.inj
              ((Heap.get_alloc_self s.clients _).symm.trans (hget.trans (Heap.get_alloc_self ..))))
            cases hnone.trans hp
        | accounted hget hdecides =>
            have hstanding : Accounts.hasKnocked _ _ = true ↔ _ ∧ overdrawn = false :=
              hasKnocked_charged h hget
            have hframe := hget.frame.2.2.1
            cases hdecides with
            | missingKnock | tooMany =>
                have hnone := congrArg Heap.allocated (hframe.symm.trans hclients)
                exact (Nat.succ_ne_self _ hnone.symm).elim
            | delayed hk | connected hk => exact (hstanding.mp (hk hknock)).1
      · exact .inl ⟨i, c, hc, rfl, rfl⟩

/-- **Where knocks are required, every accounted client has one on record.** -/
theorem gated_run {inputs : List Input} (h : Run setup inputs s) (hknock : setup.requireKnock = true) :
    Gated setup s := by
  refine (Machine.invariant (I := fun s => (∃ inputs, Run setup inputs s) ∧ Gated setup s)
    (fun s input s' hI hs => ?_) ⟨⟨[], rfl⟩, fun _ _ _ hc => by cases hc⟩ h).2
  obtain ⟨⟨inputs, hrun⟩, hgated⟩ := hI
  refine ⟨⟨inputs ++ [input], ?_⟩, fun i c p hc hp => ?_⟩
  · rw [Run, Machine.run_snoc, show Machine.run (step setup) new inputs = some s from hrun]
    exact hs
  · have hsub := knocks_subset hs
    rcases client_step hrun hknock hs hc hp with ⟨j, c', hc', hp', ha⟩ | hstanding
    · obtain ⟨e, he, haddress⟩ := hgated j c' p hc' (hp'.trans hp)
      exact ⟨e, hsub he, ha ▸ haddress⟩
    · obtain ⟨e, he, haddress⟩ := exists_of_standing hstanding
      exact ⟨e, hsub he, haddress⟩

end Accounts

namespace Server

variable {setup : ServerSetup} {s s' : Server} {d : Database} {inputs inputs' : List Input}

/-! ## Knocks -/

/-- A datagram to a listener with this set, from this address, asked for these credentials. -/
def Asked (setup : ServerSetup) (inputs : List Input) (knock : PendingKnock)
    (username password : List UInt8) : Prop :=
  ∃ listener payload reload overdrawn, setup.knockListeners[listener]? = some knock.nftSet ∧
    .datagram listener knock.address payload reload overdrawn ∈ inputs ∧
    onUdpDatagram setup.daemon.verifier.util true payload = .request username password

/-- The credentials of a datagram were accepted. -/
def Credited (setup : ServerSetup) (inputs : List Input) (log : List DatabaseAct) (knock : PendingKnock) :
    Prop :=
  ∃ username password call, Asked setup inputs knock username password ∧
    Checker.Accepted setup.daemon.verifier log call username password

/-- Credentials from an address with this number were accepted. -/
def Knocked (setup : ServerSetup) (inputs : List Input) (log : List DatabaseAct) (number : BitVec 64) :
    Prop :=
  ∃ knock, knock.address.toInteger setup.daemon.address = number ∧ Credited setup inputs log knock

theorem Asked.mono {knock : PendingKnock} {username password : List UInt8}
    (h : Asked setup inputs knock username password) (hi : inputs ⊆ inputs') :
    Asked setup inputs' knock username password := by
  obtain ⟨listener, payload, reload, overdrawn, hl, hm, hd⟩ := h
  exact ⟨listener, payload, reload, overdrawn, hl, hi hm, hd⟩

theorem Credited.mono {log log' : List DatabaseAct} {knock : PendingKnock}
    (h : Credited setup inputs log knock) (hi : inputs ⊆ inputs') (hlog : log <+: log') :
    Credited setup inputs' log' knock := by
  obtain ⟨username, password, call, hasked, haccepted⟩ := h
  exact ⟨username, password, call, hasked.mono hi, haccepted.mono hlog⟩

/-- What holds after these inputs. -/
structure Proven (setup : ServerSetup) (inputs : List Input) (s : Server) : Prop where
  agrees : s.running = true → Agrees setup s
  vouching : s.daemon.Vouching setup.daemon
  jobs : s.daemon.JobsAsked (Asked setup inputs)
  knocks : ∀ e ∈ s.accounts.knocks, ∃ number, e.address = some number ∧
    Knocked setup inputs s.daemon.checker.database.log number

theorem proven_new {path : Option (List UInt8)} {autoReload : Bool} {reload : ReloadAnswers}
    (hd : Database.new path autoReload reload = .ok d) :
    Proven setup [] { daemon := { checker := { database := d } } } where
  agrees := fun _ => agrees_new d
  vouching := Daemon.vouching_new hd
  jobs := fun _ _ _ _ hx => by cases hx
  knocks := fun _ he => by cases he

theorem log_run {daemon daemon' : Daemon} {inputs : List Daemon.Input}
    (h : daemon.Coherent setup.daemon)
    (hrun : Machine.run (Daemon.step setup.daemon) daemon inputs = some daemon') :
    daemon.checker.database.log <+: daemon'.checker.database.log :=
  (Machine.invariant (I := fun t : Daemon => t.Coherent setup.daemon ∧
    daemon.checker.database.log <+: t.checker.database.log)
    (fun _ _ _ hI hs => ⟨Daemon.coherent_step hI.1 hs, hI.2.trans (Daemon.log_step hI.1 hs)⟩)
    ⟨h, List.prefix_rfl⟩ hrun).2

theorem Proven.log_prefix (h : Proven setup inputs s) {input : Input} (hs : step setup s input = some s') :
    s.daemon.checker.database.log <+: s'.daemon.checker.database.log := by
  obtain ⟨inputs', hrun, -⟩ := (kept_step h.agrees hs).daemon
  exact log_run h.vouching.coherent hrun

/-- **What is granted was accepted.** -/
theorem Proven.granted (h : Proven setup inputs s) {input : Input} {daemon : Daemon} {knock : PendingKnock}
    (hlog : s.daemon.checker.database.log <+: daemon.checker.database.log)
    (hg : Granted setup s input daemon knock) :
    Credited setup (inputs ++ [input]) daemon.checker.database.log knock := by
  cases hg with
  | @done call k _ _ job _ _ hj hr hn hstate hk =>
      have hx : s.daemon.errand call = some (.knock k, job.username, job.password) :=
        Daemon.errand_eq_some.mpr ⟨job, hj, hn, hr, rfl, rfl⟩
      obtain ⟨knock', hk', hasked⟩ := h.jobs call k _ _ hx
      cases hk.symm.trans hk'
      have hvetted := h.vouching.vets call job hj
      have haccepted : Checker.Accepted setup.daemon.verifier s.daemon.checker.database.log call
          job.username job.password := ⟨hvetted.asked, .inr (hvetted.finished hstate)⟩
      exact ⟨_, _, call, hasked.mono (List.subset_append_left ..), haccepted.mono hlog⟩
  | @datagram listener nftSet peer payload reload overdrawn username password _ hl hs hd hch =>
      have haccounted : setup.daemon.accounted peer = true := by
        by_contra hn
        rw [(Bool.not_eq_true _).mp hn] at hd
        cases hd
      have hasked : Asked setup (inputs ++ [.datagram listener peer payload reload overdrawn])
          ⟨nftSet, peer⟩ username password :=
        ⟨listener, payload, reload, overdrawn, hl, by simp, haccounted ▸ hd⟩
      have haccepted : Checker.Accepted setup.daemon.verifier daemon.checker.database.log
          s.daemon.checker.calls username password := by
        have hchecker : daemon.checker = s.daemon.checker.checkCredentials username password reload := by
          obtain ⟨hinst, hchecker, -⟩ := Daemon.step_moves h.vouching.coherent hs
          simp only [Daemon.step, hinst, hchecker, Option.some.injEq] at hs
          rw [← hs]
          unfold Daemon.onDatagram
          simp only [hd, hch, Daemon.checker_answer, Daemon.checker_checkCredentials]
        rw [hchecker]
        exact Checker.accepted_calledBack (congrArg Database.Checked.choice hch)
      exact ⟨username, password, _, hasked, haccepted⟩

theorem proven_step {input : Input} (h : Proven setup inputs s) (hs : step setup s input = some s') :
    Proven setup (inputs ++ [input]) s' := by
  have hkept := kept_step h.agrees hs
  obtain ⟨inputs', hrun, htells⟩ := hkept.daemon
  have hlog := h.log_prefix hs
  have hsub : inputs ⊆ inputs ++ [input] := List.subset_append_left ..
  refine ⟨hkept.agrees, Machine.invariant (fun _ _ _ hI hs => Daemon.vouching_step hI hs) h.vouching hrun,
    ?_, fun e he => ?_⟩
  · refine Daemon.jobsAsked_run h.vouching.coherent (fun call k username password hx => ?_)
      (fun input' hi => ?_) hrun
    · obtain ⟨knock, hk, hasked⟩ := h.jobs call k username password hx
      exact ⟨knock, hk, hasked.mono hsub⟩
    · rintro nftSet address payload reload username password rfl hd
      obtain ⟨listener, overdrawn, hl, rfl⟩ := htells _ hi
      exact ⟨listener, payload, reload, overdrawn, hl, by simp, hd⟩
  · rcases hkept.recorded.knocks e he with he | ⟨knock, hg, ha⟩
    · obtain ⟨number, ha, knock, hnumber, hcredited⟩ := h.knocks e he
      exact ⟨number, ha, knock, hnumber, hcredited.mono hsub hlog⟩
    · exact ⟨_, ha, knock, rfl, h.granted hlog hg⟩

/-- **Every knock on record has passed the database.** -/
theorem proven_run {path : Option (List UInt8)} {autoReload : Bool} {reload : ReloadAnswers}
    (hd : Database.new path autoReload reload = .ok d) (h : Run setup d inputs s) :
    Proven setup inputs s :=
  Machine.invariant_history (fun _ _ _ _ hI hs => proven_step hI hs) (proven_new hd) h

/-- An accounted client has knocked. -/
theorem credited_client {path : Option (List UInt8)} {autoReload : Bool} {reload : ReloadAnswers}
    (hd : Database.new path autoReload reload = .ok d) (h : Run setup d inputs s)
    (hrunning : s.running = true) (hknock : setup.accounts.requireKnock = true) {i p : ℕ} {k : Client}
    (hk : s.accounts.clients.get i = some k) (hp : k.perClient = some p) :
    Knocked setup inputs s.daemon.checker.database.log (k.peerAddress.toInteger setup.daemon.address) := by
  have hproven := proven_run hd h
  have hagrees := hproven.agrees hrunning
  have hopen : s.stopping = false := by
    by_contra hstop
    have hstopped := stopped_run h hrunning ((Bool.not_eq_false _).mp hstop)
    cases (hstopped.no_client hagrees i).symm.trans hk
  obtain ⟨inputs', haccounts⟩ := (parts_run h hrunning).accounts hopen
  obtain ⟨e, he, ha⟩ := Accounts.gated_run haccounts hknock i k p hk hp
  obtain ⟨number, ha', hcredited⟩ := hproven.knocks e he
  cases ha.symm.trans ha'
  exact hcredited

/-- **A client that is let in has knocked**: a datagram from its address had credentials that the database
accepted. -/
theorem knock_authenticated {path : Option (List UInt8)} {autoReload : Bool} {reload : ReloadAnswers}
    (hd : Database.new path autoReload reload = .ok d) (h : Run setup d inputs s)
    (hrunning : s.running = true) (hknock : setup.accounts.requireKnock = true) {i p : ℕ} {k : Client}
    (hk : s.accounts.clients.get i = some k) (hp : k.perClient = some p) :
    Knocked setup inputs s.daemon.checker.database.log (k.peerAddress.toInteger setup.daemon.address) :=
  credited_client hd h hrunning hknock hk hp

theorem knock_authenticated_of_sample : ∃ s k, Run sampleServer Checker.sampleDatabase sampleVisit s ∧
    s.accounts.clients.get 0 = some k ∧
      Knocked sampleServer sampleVisit s.daemon.checker.database.log
        (k.peerAddress.toInteger sampleServer.daemon.address) := by
  obtain ⟨s, k, p, h, hrunning, hk, hp⟩ : ∃ s k p,
      Run sampleServer Checker.sampleDatabase sampleVisit s ∧ s.running = true ∧
        s.accounts.clients.get 0 = some k ∧ k.perClient = some p := ⟨_, _, _, rfl, rfl, rfl, rfl⟩
  have hnew : Database.new (some [0x2f]) true (Checker.sampleLoads 1) = .ok Checker.sampleDatabase := rfl
  exact ⟨s, k, h, hk, knock_authenticated hnew h hrunning rfl hk hp⟩

/-! ## Logins -/

end Server

end UoLogin

import UoLogin.Lib.Outputs
import UoLogin.Nftables
import UoLogin.Server.Knocks

set_option autoImplicit false

/-!
# Every knock is settled

A knock listener may keep a set of nftables up to date. What reaches the firewall are the addresses of
accepted knocks, and all of them; and each datagram is settled in exactly one way, or still pending.

* `knockLog`: what a run has done about knocks; `nftCalls`: the calls of `NftAddElement` among it;
* `granted_of_nft`: such a call is made for a knock that was granted;
* **`nft_credited`**: every element was added for a knock with accepted credentials;
* `Settles`, **`knocks_settled`**: every datagram is counted once.
-/

namespace UoLogin

open Connection

def KnockAct.nftCall : KnockAct → Option NftCall
  | .nftAddElement set ip => some ⟨"inet", "filter", set, ip⟩
  | _ => none

namespace Server

variable {setup : ServerSetup} {s s' : Server} {d : Database} {inputs : List Input}

/-- What was done about knocks. -/
def knockLog (setup : ServerSetup) (d : Database) (inputs : List Input) : List KnockAct :=
  Machine.outputs (step setup) (knockActs setup) { daemon := { checker := { database := d } } } inputs

/-- The calls of `NftAddElement`. -/
def nftCalls (setup : ServerSetup) (d : Database) (inputs : List Input) : List NftCall :=
  (knockLog setup d inputs).filterMap KnockAct.nftCall

/-! ## What is added -/

/-- A listener with the set "knocked". -/
def guardedServer : ServerSetup where
  daemon := { Daemon.sampleDaemon with hostToString := Accounts.sampleAccountSetup.hostToString }
  knockListeners := [some [107, 110, 111, 99, 107, 101, 100]]

def Input.isDatagram : Input → Bool
  | .datagram .. => true
  | _ => false

/-- A datagram from an address without a number. -/
def Input.ignored (setup : ServerSetup) : Input → Bool
  | .datagram _ peer _ _ _ => !setup.daemon.accounted peer
  | _ => false

/-- The verdicts that were counted. -/
def verdicts (acts : List KnockAct) : ℕ :=
  acts.count .malformedKnocks + acts.count .rejectedKnocks + acts.count .acceptedKnocks

theorem verdicts_append (acts acts' : List KnockAct) :
    verdicts (acts ++ acts') = verdicts acts + verdicts acts' := by
  simp only [verdicts, List.count_append]
  omega

/-- A datagram that is handled at once is ignored or malformed. -/
theorem verdicts_handled {util : CharUtil} {accounted : Bool} {payload : List UInt8}
    {acts : List KnockAct} (hd : onUdpDatagram util accounted payload = .handled acts) :
    verdicts acts + (if accounted then 0 else 1) = 1 := by
  unfold onUdpDatagram at hd
  split at hd
  · cases hd
    simp [verdicts, *]
  · split at hd
    · cases hd
      simp_all [verdicts]
    · split at hd <;> cases hd
      simp_all [verdicts]

/-- An answer is a verdict. -/
theorem verdicts_answer {knock : PendingKnock} (h : setup.daemon.accounted knock.address = true)
    (result : Bool) : verdicts (answer setup knock result) = 1 := by
  rw [answer_of_accounted h]
  unfold Request.onCheckCredentials
  cases result with
  | false => rfl
  | true =>
      cases knock.nftSet with
      | none => rfl
      | some set => cases (setup.daemon.hostToString knock.address).isEmpty <;> rfl

def pending (s : Server) : ℕ := s.daemon.requests.count fun _ => true

theorem settles_datagram (hrunning : s.running = true) {listener : ℕ} {peer : SocketAddress}
    {payload : List UInt8} {reload : ReloadAnswers} {overdrawn : Bool}
    (hs : step setup s (.datagram listener peer payload reload overdrawn) = some s') :
    (if setup.daemon.accounted peer then 0 else 1) +
      verdicts (knockActs setup s (.datagram listener peer payload reload overdrawn)) + s'.pending =
        1 + s.pending := by
  obtain ⟨nftSet, hl, hdaemon⟩ := daemon_datagram hs
  obtain ⟨hinst, hchecker⟩ := running_iff.mp hrunning
  simp only [Daemon.step, hinst, hchecker, Option.some.injEq] at hdaemon
  have hrequests := Daemon.requests_onDatagram setup.daemon nftSet peer payload reload s.daemon
  rw [hdaemon] at hrequests
  unfold pending knockActs
  dsimp only
  rw [hl, hrequests]
  cases hd : onUdpDatagram setup.daemon.verifier.util (setup.daemon.accounted peer) payload with
  | handled acts =>
      have hverdict := verdicts_handled hd
      dsimp only
      omega
  | request username password =>
      have hacc : setup.daemon.accounted peer = true := by
        by_contra hn
        rw [(Bool.not_eq_true _).mp hn] at hd
        cases hd
      have halloc := Heap.count_alloc s.daemon.requests ⟨nftSet, peer⟩ fun _ => true
      rw [if_pos rfl] at halloc
      rw [if_pos hacc]
      cases s.daemon.checked reload with
      | throws | queued =>
          have hnone : verdicts [] = 0 := rfl
          dsimp only
          omega
      | calledBack =>
          have hverdict : verdicts (answer setup ⟨nftSet, peer⟩ true) = 1 := verdicts_answer hacc true
          have hfree := Heap.count_free (P := fun _ => true)
            (Heap.get_alloc_self s.daemon.requests ⟨nftSet, peer⟩) rfl
          dsimp only
          omega

theorem settles_done (h : Agrees setup s) {call : ℕ} {ans : Answers} {overdrawn : List Bool}
    (hs : step setup s (.done call ans overdrawn) = some s') :
    verdicts (knockActs setup s (.done call ans overdrawn)) + s'.pending = s.pending := by
  obtain ⟨job, result, hj, hstate, hdone⟩ := done_of_step (daemon_done hs)
  obtain ⟨r, hr, -⟩ := h.coherent.ticket hj
  have hrequests := h.coherent.requests_done hj result ans
  rw [hdone, hr] at hrequests
  have hnone : verdicts [] = 0 := rfl
  unfold pending knockActs
  dsimp only
  rw [hj, hr, hrequests]
  cases r with
  | connection id => simp [hnone]
  | knock k =>
      cases hn : job.canceled with
      | true => simp [hnone, hn]
      | false =>
          obtain ⟨knock, hk⟩ := h.coherent.pending hj hr hn
          have hverdict := verdicts_answer (h.coherent.accounted k knock hk) result
          have hfree := Heap.count_free (P := fun _ => true) hk rfl
          simp only [hn, hstate, hk, Bool.false_eq_true, if_false]
          omega

/-- **A datagram has a verdict, is ignored, or is pending.** -/
theorem settles_step (h : Agrees setup s) {input : Input} (hs : step setup s input = some s') :
    (if input.ignored setup then 1 else 0) + verdicts (knockActs setup s input) + s'.pending =
      (if input.isDatagram then 1 else 0) + s.pending := by
  obtain ⟨inputs, hrun, htells⟩ := (kept_step (fun _ => h) hs).daemon
  cases input with
  | datagram listener peer payload reload overdrawn =>
      have hsettles := settles_datagram (running_of_step hs) hs
      simp only [Input.ignored, Input.isDatagram, if_true]
      rcases Bool.eq_false_or_eq_true (setup.daemon.accounted peer) with hacc | hacc
      · simp only [hacc, Bool.not_true, Bool.false_eq_true, if_false, if_true] at hsettles ⊢
        exact hsettles
      · simp only [hacc, Bool.not_false, Bool.false_eq_true, if_false, if_true] at hsettles ⊢
        exact hsettles
  | done call ans overdrawn =>
      have hsettles := settles_done h hs
      simp only [Input.ignored, Input.isDatagram, Bool.false_eq_true, if_false]
      omega
  | tick | accept | timer | socketReady | arrive | discard | event | start | run | cleanup | shutdown =>
      -- nothing else touches the requests
      have hsame := Machine.invariant_along (C := fun _ input' => Tells setup _ input')
        (I := fun t : Daemon => t.requests = s.daemon.requests)
        (fun t input' t' hI hC hs => (Daemon.requests_frame hs
          (fun nftSet peer payload reload he => by
            subst he
            obtain ⟨listener, overdrawn, -, he⟩ := hC
            cases he)
          (fun call ans he => by
            subst he
            obtain ⟨overdrawn, he⟩ := hC
            cases he)).trans hI)
        rfl (Machine.along_of_forall (fun input' hi _ => htells input' hi) s.daemon) hrun
      unfold pending
      rw [hsame]
      rfl

/-! ## What becomes of an accepted knock -/

/-- Every knock can be added to a set. -/
structure Guarding (setup : ServerSetup) : Prop where
  sets : ∀ nftSet ∈ setup.knockListeners, nftSet.isSome = true
  hosts : ∀ peer, setup.daemon.accounted peer = true → setup.daemon.hostToString peer ≠ []

theorem added_handled {util : CharUtil} {accounted : Bool} {payload : List UInt8} {acts : List KnockAct}
    (hd : onUdpDatagram util accounted payload = .handled acts) :
    (acts.filterMap KnockAct.nftCall).length = acts.count .acceptedKnocks := by
  unfold onUdpDatagram at hd
  split at hd
  · cases hd
    rfl
  · split at hd
    · cases hd
      rfl
    · split at hd <;> cases hd
      rfl

theorem added_answer (h : Guarding setup) {knock : PendingKnock} (hset : knock.nftSet ∈ setup.knockListeners)
    (hacc : setup.daemon.accounted knock.address = true) (result : Bool) :
    ((answer setup knock result).filterMap KnockAct.nftCall).length =
      (answer setup knock result).count .acceptedKnocks := by
  rw [answer_of_accounted hacc]
  unfold Request.onCheckCredentials
  cases result with
  | false => rfl
  | true =>
      obtain ⟨set, hset⟩ := Option.isSome_iff_exists.mp (h.sets _ hset)
      have hhost : (setup.daemon.hostToString knock.address).isEmpty = false := by
        simpa using h.hosts _ hacc
      simp only [hset, hhost, Bool.true_eq_false, Bool.false_eq_true, if_false]
      rfl

/-- **Every accepted knock is added.** -/
theorem added_step (hguard : Guarding setup) (h : Proven setup inputs s) {input : Input}
    (hs : step setup s input = some s') :
    ((knockActs setup s input).filterMap KnockAct.nftCall).length =
      (knockActs setup s input).count .acceptedKnocks := by
  have hagrees := h.agrees (running_of_step hs)
  cases input with
  | tick | accept | timer | socketReady | arrive | discard | event | start | run | cleanup | shutdown => rfl
  | datagram listener peer payload reload overdrawn =>
      obtain ⟨nftSet, hl, -⟩ := daemon_datagram hs
      simp only [knockActs, hl]
      split
      · rename_i hd
        exact added_handled hd
      · rename_i hd hch
        refine added_answer hguard (List.mem_of_getElem? hl) ?_ true
        by_contra hn
        rw [(Bool.not_eq_true _).mp hn] at hd
        cases hd
      · rfl
  | done call ans overdrawn =>
      simp only [knockActs]
      split
      · rename_i job k hj hr
        split
        · rename_i result knock hn hstate hk
          obtain ⟨knock', hk', listener, payload, reload, overdrawn, hl, -⟩ := h.jobs call k _ _
            (Daemon.errand_eq_some.mpr ⟨job, hj, hn, hr, rfl, rfl⟩)
          cases hk.symm.trans hk'
          exact added_answer hguard (List.mem_of_getElem? hl) (hagrees.coherent.accounted k knock hk) result
        · rfl
      · rfl

/-- What became of the datagrams of a run. -/
structure Settled (setup : ServerSetup) (d : Database) (inputs : List Input) (s : Server) : Prop where
  datagrams : inputs.countP Input.isDatagram = inputs.countP (Input.ignored setup) +
    (s.accounts.metrics.malformedKnocks + s.accounts.metrics.rejectedKnocks +
      s.accounts.metrics.acceptedKnocks) + s.pending
  elements : Guarding setup → (nftCalls setup d inputs).length = s.accounts.metrics.acceptedKnocks

/-- **Every datagram is counted once**, and where all listeners have a set, every accepted knock is added to
one. -/
theorem knocks_settled {path : Option (List UInt8)} {autoReload : Bool} {reload : ReloadAnswers}
    (hd : Database.new path autoReload reload = .ok d) (h : Run setup d inputs s) :
    Settled setup d inputs s := by
  have hinvariant := Machine.invariant_outputs (knockActs setup)
    (I := fun inputs acts s => Proven setup inputs s ∧ Accounts.Booked acts .new s.accounts ∧
      inputs.countP (Input.ignored setup) + verdicts acts + s.pending = inputs.countP Input.isDatagram ∧
      (Guarding setup → (acts.filterMap KnockAct.nftCall).length = acts.count .acceptedKnocks))
    (fun inputs acts s input s' hI hs => ?_)
    ⟨proven_new hd, .of_metrics rfl, rfl, fun _ => rfl⟩ h
  · obtain ⟨-, hbooked, hsettled, hadded⟩ := hinvariant
    have haccepted : s.accounts.metrics.acceptedKnocks = 0 + _ := hbooked.accepted
    have hrejected : s.accounts.metrics.rejectedKnocks = 0 + _ := hbooked.rejected
    have hmalformed : s.accounts.metrics.malformedKnocks = 0 + _ := hbooked.malformed
    refine ⟨?_, fun hguard => (hadded hguard).trans ?_⟩
    · unfold verdicts at hsettled
      omega
    · exact (haccepted.trans (Nat.zero_add _)).symm
  · obtain ⟨hproven, hbooked, hsettled, hadded⟩ := hI
    have hkept := kept_step hproven.agrees hs
    have hstep := settles_step (hproven.agrees (running_of_step hs)) hs
    refine ⟨proven_step hproven hs, hbooked.trans hkept.recorded.booked, ?_, fun hguard => ?_⟩
    · rw [List.countP_append, List.countP_append, verdicts_append, List.countP_singleton,
        List.countP_singleton]
      omega
    · rw [List.filterMap_append, List.length_append, List.count_append, hadded hguard,
        added_step hguard hproven hs]

theorem knocks_settled_of_sample : ∃ s, Run guardedServer Checker.sampleDatabase sampleVisit s ∧
    Guarding guardedServer ∧ s.accounts.metrics.acceptedKnocks = 1 ∧
      Settled guardedServer Checker.sampleDatabase sampleVisit s := by
  obtain ⟨s, h, haccepted⟩ : ∃ s, Run guardedServer Checker.sampleDatabase sampleVisit s ∧
      s.accounts.metrics.acceptedKnocks = 1 := ⟨_, rfl, rfl⟩
  have hnew : Database.new (some [0x2f]) true (Checker.sampleLoads 1) = .ok Checker.sampleDatabase := rfl
  have hguarding : Guarding guardedServer := by
    refine ⟨fun nftSet hset => ?_, fun _ _ he => (by cases he)⟩
    cases List.mem_singleton.mp hset
    rfl
  exact ⟨s, h, hguarding, haccepted, knocks_settled hnew h⟩

end Server

end UoLogin

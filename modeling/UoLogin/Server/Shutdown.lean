import UoLogin.Server.Handlers

set_option autoImplicit false

/-!
# The shutdown

`OnShutdown` destroys the listeners with all their clients, and clears the timer of the accounting. The
workers go on, and so do the answers to the knocks that are pending.

* `Disposed`: what the destructor of the listener leaves on its way;
* **`Agrees.onShutdown`**: the shutdown goes through, and leaves no client;
* `Stopped`: what holds from then on.
-/

namespace UoLogin

open Connection

namespace Server

variable {setup : ServerSetup} {s s' s₁ : Server}

/-- Some clients were destroyed. -/
structure Disposed (setup : ServerSetup) (s s' : Server) : Prop where
  agrees : Agrees setup s'
  running : s'.running = true
  accounts : Accounts.Changes setup.accounts s.accounts s'.accounts
  quiet : Accounts.Quiet s.accounts s'.accounts
  daemon : ∃ ids : List ℕ,
    Machine.run (Daemon.step setup.daemon) s.daemon (ids.map .destroy) = some s'.daemon

theorem Disposed.refl (h : Agrees setup s) (hrunning : s.running = true) : Disposed setup s s :=
  ⟨h, hrunning, .refl, .refl _, [], rfl⟩

theorem Disposed.trans (h : Disposed setup s s₁) (h' : Disposed setup s₁ s') : Disposed setup s s' := by
  obtain ⟨ids, hids⟩ := h.daemon
  obtain ⟨ids', hids'⟩ := h'.daemon
  refine ⟨h'.agrees, h'.running, h.accounts.trans h'.accounts, h.quiet.trans h'.quiet, ids ++ ids', ?_⟩
  rw [List.map_append, Machine.run_append, hids]
  exact hids'

/-! ## Delayed connections -/

theorem Agrees.disposeDelayed (h : Agrees setup s) (hrunning : s.running = true) {i : ℕ}
    (hi : i ∈ s.delayedConnections) :
    Disposed setup s (s.disposeDelayed i) ∧
      (s.disposeDelayed i).delayedConnections = s.delayedConnections.erase i ∧
      (s.disposeDelayed i).connections = s.connections := by
  obtain ⟨c, timer, hc, hkind⟩ := (h.waiting.mem_iff i).mp hi
  have he : s.disposeDelayed i = { s with
      accounts := s.accounts.destroy i c
      delayedConnections := s.delayedConnections.erase i } := by
    unfold Server.disposeDelayed
    rw [hc]
  have hchanges : Accounts.Changes setup.accounts s.accounts (s.accounts.destroy i c) :=
    .single (.destroy i c hc)
  have hclients : (s.accounts.destroy i c).clients = s.accounts.clients.free i :=
    Accounts.clients_destroy ..
  have hnot : c.kind ≠ .connection := fun hn => (by cases hn.symm.trans hkind)
  rw [he]
  refine ⟨⟨⟨hchanges.books h.books, h.coherent, h.counted, ?_, fun j => ?_, fun j hj => ?_,
    hclients ▸ h.waiting.free_delayed i⟩, hrunning, hchanges, Accounts.quiet_destroy .., [], rfl⟩, rfl, rfl⟩
  · exact (Accounts.requests_destroy ..).trans h.requests
  · change Matches setup (s.daemon.inst.conns j) ((s.accounts.destroy i c).clients.get j)
    rw [hclients, Heap.get_free]
    by_cases hj : j = i
    · rw [if_pos hj, hj, h.vacant hc hnot]
      exact .vacant
    · rw [if_neg hj]
      exact h.matched j
  · have hj : (s.accounts.destroy i c).clients.allocated ≤ j := hj
    rw [hclients] at hj
    exact h.fresh j hj

theorem Agrees.disposeAllDelayed {l : List ℕ} (h : Agrees setup s) (hrunning : s.running = true)
    (hl : s.delayedConnections = l) :
    Disposed setup s (l.foldl Server.disposeDelayed s) ∧
      (l.foldl Server.disposeDelayed s).delayedConnections = [] := by
  induction l generalizing s with
  | nil => exact ⟨.refl h hrunning, hl⟩
  | cons i l ih =>
      obtain ⟨hdisposed, herase, -⟩ := h.disposeDelayed hrunning (hl ▸ List.mem_cons_self)
      rw [hl, List.erase_cons_head] at herase
      obtain ⟨hall, hnil⟩ := ih hdisposed.agrees hdisposed.running herase
      exact ⟨hdisposed.trans hall, hnil⟩

/-! ## Connections -/

theorem Agrees.dispose (h : Agrees setup s) (hrunning : s.running = true) {id : ℕ}
    (hid : id ∈ s.connections) :
    ∃ s', Server.dispose setup s id = some s' ∧ Disposed setup s s' ∧
      s'.connections = s.connections.erase id ∧ s'.delayedConnections = s.delayedConnections := by
  obtain ⟨hinst, hchecker⟩ := running_iff.mp hrunning
  obtain ⟨c, hc⟩ := (h.counted.linked id).mp hid
  have hc : s.daemon.inst.conns id = .live c := hc
  let daemon := s.daemon.settle id s.daemon.inst.stock (.destroyed c)
  have hs : s.daemon.step setup.daemon (.destroy id) = some daemon := by
    simp only [Daemon.step, hinst, hchecker, hc, daemon]
  have hmoved := h.moved_destroyed hinst hc (Daemon.inst_settle_destroyed ..)
    (Daemon.requests_settle id s.daemon.inst.stock (.destroyed c) s.daemon)
    (Daemon.coherent_step h.coherent hs)
  obtain ⟨s', hs', hfollowed⟩ := h.follow hc hmoved (.inr ⟨_, rfl⟩) []
  have hdaemon := hfollowed.daemon_eq
  refine ⟨s', ?_, ⟨hfollowed.agrees, ?_, hfollowed.reaches.changes, hfollowed.quiet, [id], ?_⟩, ?_,
    hfollowed.delayedConnections⟩
  · unfold Server.dispose
    rw [tellDaemon_eq hs, Option.bind_some]
    exact hs'
  · rw [running_iff, hdaemon]
    have hcrashed : daemon.checker.crashed = s.daemon.checker.crashed := Daemon.crashed_settle ..
    refine ⟨?_, hcrashed.trans hchecker⟩
    rw [show daemon.inst = _ from Daemon.inst_settle_destroyed ..]
    exact hinst
  · rw [hdaemon]
    simp only [List.map_cons, List.map_nil, Machine.run_cons, hs, Option.bind_some]
    rfl
  · rw [hfollowed.connections, hmoved.relink_gone]

theorem Agrees.disposeAll {l : List ℕ} (h : Agrees setup s) (hrunning : s.running = true)
    (hl : s.connections = l) :
    ∃ s', l.foldlM (Server.dispose setup) s = some s' ∧ Disposed setup s s' ∧ s'.connections = [] ∧
      s'.delayedConnections = s.delayedConnections := by
  induction l generalizing s with
  | nil => exact ⟨s, rfl, .refl h hrunning, hl, rfl⟩
  | cons id l ih =>
      obtain ⟨s₁, hs₁, hdisposed, herase, hdelayed⟩ := h.dispose hrunning (hl ▸ List.mem_cons_self)
      rw [hl, List.erase_cons_head] at herase
      obtain ⟨s', hs', hall, hnil, hdelayed'⟩ := ih hdisposed.agrees hdisposed.running herase
      refine ⟨s', ?_, hdisposed.trans hall, hnil, hdelayed'.trans hdelayed⟩
      rw [List.foldlM_cons, hs₁]
      exact hs'

/-! ## The whole shutdown -/

/-- No client is left, and the accounting has no timer. -/
structure Stopped (s : Server) : Prop where
  stopping : s.stopping = true
  connections : s.connections = []
  delayedConnections : s.delayedConnections = []
  cleanupTimer : s.accounts.accounting.cleanupTimer = none

/-- The timer and the flag are nobody's business. -/
theorem Agrees.close (h : Agrees setup s) : Agrees setup { s.shutdownAccounting with stopping := true } where
  books :=
    { linked := h.books.linked
      bounded := ⟨h.books.bounded.config, h.books.bounded.length_le⟩
      owned := ⟨h.books.owned.held, h.books.owned.once, h.books.owned.somewhere, h.books.owned.closed_lt,
        h.books.owned.closed_nodup⟩
      remembers := h.books.remembers }
  coherent := h.coherent
  counted := h.counted
  requests := h.requests
  matched := h.matched
  fresh := h.fresh
  waiting := h.waiting

/-- **`OnShutdown` goes through**, and no client is left. -/
theorem Agrees.onShutdown (h : Agrees setup s) (hrunning : s.running = true) :
    ∃ s', s.onShutdown setup = some s' ∧ Kept setup s .shutdown s' ∧ Stopped s' := by
  obtain ⟨hdelayed, hnil⟩ := h.disposeAllDelayed hrunning rfl
  obtain ⟨s₁, hs₁, hdisposed, hnil', hdelayed'⟩ := hdelayed.agrees.disposeAll hdelayed.running rfl
  have hall := hdelayed.trans hdisposed
  obtain ⟨ids, hids⟩ := hall.daemon
  refine ⟨{ s₁.shutdownAccounting with stopping := true }, ?_, ⟨fun _ => hall.agrees.close,
    fun hn => (hn rfl).elim, ⟨ids.map .destroy, hids, ?_⟩, .quiet (hall.quiet.trans ⟨rfl, .of_metrics rfl⟩) rfl,
    fun hn => (hn rfl).elim⟩, rfl, hnil', hdelayed'.trans hnil, rfl⟩
  · unfold Server.onShutdown
    dsimp only
    rw [hs₁]
    rfl
  · intro _ hm
    obtain ⟨_, -, rfl⟩ := List.mem_map.mp hm
    rfl

section Stopped

/-- There is nobody to call back. -/
theorem Stopped.not_live (h : Stopped s) (hagrees : Agrees setup s) {id : ℕ} {c : Connection} :
    s.daemon.inst.conns id ≠ .live c := by
  intro hc
  have hmem : id ∈ s.connections := (hagrees.counted.linked id).mpr ⟨c, hc⟩
  rw [h.connections] at hmem
  cases hmem

theorem Stopped.no_client (h : Stopped s) (hagrees : Agrees setup s) (i : ℕ) :
    s.accounts.clients.get i = none := by
  cases hk : s.accounts.clients.get i with
  | none => rfl
  | some k =>
      cases hkind : k.kind with
      | connection =>
          obtain ⟨c, hc, -⟩ := hagrees.connection hk hkind
          exact (h.not_live hagrees hc).elim
      | delayed timer =>
          have hmem := (hagrees.waiting.mem_iff i).mpr ⟨k, timer, hk, hkind⟩
          rw [h.delayedConnections] at hmem
          cases hmem

/-- The answer to a knock starts no timer. -/
theorem cleanupTimer_onKnockAnswer (setup : AccountSetup) (k : ℕ) (knock : PendingKnock)
    (result overdrawn : Bool) (s : Accounts) :
    (s.onKnockAnswer setup k knock result overdrawn).accounting.cleanupTimer =
      s.accounting.cleanupTimer := by
  have hget := Accounts.getClientAccounting_gets setup knock.address s
  have hperform : ∀ (p : ℕ) (acts : List KnockAct) (t : Accounts),
      (acts.foldl (Accounts.perform p overdrawn) t).accounting.cleanupTimer =
        t.accounting.cleanupTimer := by
    intro p acts
    induction acts with
    | nil => exact fun _ => rfl
    | cons act acts ih => exact fun t => (ih _).trans (by cases act <;> rfl)
  unfold Accounts.onKnockAnswer
  generalize s.getClientAccounting setup knock.address = res at hget
  cases hget with
  | unaccounted => rfl
  | found | inserted =>
      dsimp only
      split <;> exact hperform ..

theorem Stopped.tellDaemon (h : Stopped s) {input : Daemon.Input}
    (hs : s.tellDaemon setup input = some s') : Stopped s' := by
  obtain ⟨daemon, -, rfl⟩ := Option.map_eq_some_iff.mp hs
  exact ⟨h.stopping, h.connections, h.delayedConnections, h.cleanupTimer⟩

/-- **After the shutdown nothing comes back.** -/
theorem Stopped.step (h : Stopped s) (hagrees : Agrees setup s) {input : Input}
    (hs : step setup s input = some s') : Stopped s' := by
  have hnone := h.no_client hagrees
  unfold Server.step at hs
  split at hs
  · cases hs
  cases input with
  | tick duration =>
      cases hs
      exact ⟨h.stopping, h.connections, h.delayedConnections, h.cleanupTimer⟩
  | accept | datagram | shutdown => simp [h.stopping] at hs
  | timer i => simp [Server.onTimer, tellAccounts, Accounts.step, hnone] at hs
  | socketReady i => simp [Server.onSocketReady, tellAccounts, Accounts.step, hnone] at hs
  | cleanup => simp [tellAccounts, Accounts.step, h.cleanupTimer] at hs
  | arrive | discard | start | run => exact h.tellDaemon hs
  | event id e ans reload overdrawn =>
      obtain ⟨next, hnext, -⟩ := Option.bind_eq_some_iff.mp hs
      obtain ⟨daemon, hd, -⟩ := Option.map_eq_some_iff.mp hnext
      obtain ⟨-, -, hmoves⟩ := Daemon.step_moves hagrees.coherent hd
      generalize daemon.inst = inst at hmoves
      cases hmoves with
      | called _ hc | crashed _ hc => exact (h.not_live hagrees hc).elim
  | done call ans overdrawn =>
      obtain ⟨job, hj, hs⟩ := Option.bind_eq_some_iff.mp hs
      obtain ⟨next, hnext, hs⟩ := Option.bind_eq_some_iff.mp hs
      have hstopped := h.tellDaemon hnext
      cases hn : job.canceled with
      | true =>
          rw [hn, if_pos rfl] at hs
          cases hs
          exact hstopped
      | false =>
          simp only [hn, Bool.false_eq_true, if_false] at hs
          split at hs
          · rename_i id hr
            obtain ⟨c, hc, -⟩ := hagrees.coherent.holder hj hr hn
            exact (h.not_live hagrees hc).elim
          · obtain ⟨accounts, ha, rfl⟩ := Option.map_eq_some_iff.mp hs
            refine ⟨hstopped.stopping, hstopped.connections, hstopped.delayedConnections, ?_⟩
            cases Accounts.step_cases ha with
            | knockAnswer => exact (cleanupTimer_onKnockAnswer ..).trans hstopped.cleanupTimer
          · cases hs
            exact hstopped

end Stopped

end Server

end UoLogin

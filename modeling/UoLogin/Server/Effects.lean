import UoLogin.Accounting.Cleanup
import UoLogin.Server.Model

set_option autoImplicit false

/-!
# What the parts share

The parts of the daemon name the same things: a connection and its client have one number and one peer,
and a knock has one request in both. Here is what each part does to these.

* `Called.peer`: a connection keeps its peer;
* `Accounts.Shared`, `Accounts.knocks`: the clients and the requests of the accounting and the knocks in
  its journal, and what each handler does to them;
* `Daemon.requests_event`, `Daemon.requests_onDatagram`, `Daemon.Coherent.requests_done`: the requests of the daemon.
-/

namespace UoLogin

open Connection

/-! ## The peer of a connection -/

namespace Connection

variable {setup : Setup} {c c' : Connection} {r : Result}

/-- Who is at the other end. -/
def peer (c : Connection) : List UInt8 × Option UInt64 := (c.remoteHost, c.perClient)

@[simp] theorem peer_emit (c : Connection) (a : Act) : (c.emit a).peer = c.peer := rfl

@[simp] theorem peer_emits (c : Connection) (acts : List Act) : (c.emits acts).peer = c.peer := rfl

@[simp] theorem peer_mapEvent (c : Connection) (f : SocketEvent → SocketEvent) (side : Side) :
    (c.mapEvent f side).peer = c.peer := by
  cases side <;> rfl

@[simp] theorem peer_setSplice (c : Connection) (s : Splice UInt8) (d : Dir) :
    (c.setSplice s d).peer = c.peer := by
  cases d <;> rfl

@[simp] theorem peer_setInbound (c : Connection) (s : Inbound) (side : Side) :
    (c.setInbound s side).peer = c.peer := by
  cases side <;> rfl

@[simp] theorem peer_arrive (c : Connection) (side : Side) (bytes : List UInt8) :
    (c.arrive side bytes).peer = c.peer := peer_setInbound ..

@[simp] theorem peer_destructor (c : Connection) (stock : PipeStock UInt8) :
    (c.destructor stock).2.peer = c.peer := rfl

theorem Establishes.peer (h : Establishes setup c r) : r.conn.peer = c.peer := by
  cases h <;> rfl

theorem Connects.peer {address : SocketAddress} (h : Connects setup address c r) :
    r.conn.peer = c.peer := by
  cases h with
  | pending | failed => rfl
  | now h => exact h.peer

theorem Accepts.peer (h : Accepts setup c r) : r.conn.peer = c.peer := by
  cases h with
  | failed | listed => rfl
  | direct hl h => exact h.peer

theorem Judges.peer {username : List UInt8} {result : Bool} (h : Judges setup username c result r) :
    r.conn.peer = c.peer := by
  cases h with
  | rejected => rfl
  | accepted hq h => exact h.peer

theorem Completes.peer (h : Completes setup c r) : r.conn.peer = c.peer := by
  cases h with
  | malformed | throws | queued => rfl
  | noDatabase hw h => exact h.peer

theorem LogsIn.peer (h : LogsIn setup c r) : r.conn.peer = c.peer := by
  cases h with
  | failed | short => rfl
  | complete hq heq h => exact h.peer

theorem Plays.peer (h : Plays setup c r) : r.conn.peer = c.peer := by
  cases h with
  | failed => rfl
  | connects hq hlen hs h => exact h.peer

theorem Lists.peer (h : Lists c r) : r.conn.peer = c.peer := by
  cases h <;> rfl

theorem Sends.peer {d : Dir} {ch : SpliceChoice} (h : Sends c d ch r) : r.conn.peer = c.peer := by
  cases h <;> simp [Result.conn, delivered]

theorem Receives.peer {d : Dir} {ch : SpliceChoice} (h : Receives c d ch r) :
    r.conn.peer = c.peer := by
  cases h with
  | got hq ht hd hz hp h =>
      refine h.peer.trans ?_
      simp [received]
  | throws | blocked | closed | failed => simp [Result.conn, received]

theorem Relays.peer {side : Side} {events : Events} {ans : Answers} (h : Relays c side events ans r) :
    r.conn.peer = c.peer := by
  have hflush : ∀ {c'}, Flushes c side events ans c' → c'.peer = c.peer := by
    intro c' hf
    cases hf with
    | skipped => rfl
    | sent hw hz h => exact h.peer
  cases h with
  | failed hw hz h => exact h.peer
  | sent h hr => exact hflush h
  | received h hr h' => exact h'.peer.trans (hflush h)

/-- **A callback keeps the peer.** -/
theorem Called.peer {stock stock' : PipeStock UInt8} {ans : Answers} {e : Event}
    (h : Called setup stock c ans e stock' r) : r.conn.peer = c.peer := by
  cases h with
  | dies | connectPending => rfl
  | logsIn hs h => exact h.peer
  | plays hs h => exact h.peer
  | lists hs h => exact h.peer
  | relays hs hd hdead he h => exact h.peer
  | establishes hs h => exact h.peer
  | judges hs hj h => exact h.peer

end Connection

/-! ## The accounting -/

namespace Accounts

variable {setup : AccountSetup} {s s' : Accounts} {peer : SocketAddress} {overdrawn : Bool} {i : ℕ}
  {c : Client}

/-- What the accounting shares with the rest of the daemon is as it was. -/
structure Shared (s s' : Accounts) : Prop where
  clients : s'.clients = s.clients
  requests : s'.requests = s.requests

theorem Shared.refl (s : Accounts) : Shared s s := ⟨rfl, rfl⟩

theorem Shared.trans {s₁ s₂ : Accounts} (h : Shared s s₁) (h' : Shared s₁ s₂) : Shared s s₂ :=
  ⟨h'.clients.trans h.clients, h'.requests.trans h.requests⟩

theorem Gets.shared {res : Option ℕ × Accounts} (h : Gets setup peer s res) : Shared s res.2 := by
  cases h with
  | unaccounted | found | inserted => exact ⟨rfl, rfl⟩

theorem shared_charge (c : Client) (size : ℕ) (overdrawn : Bool) (s : Accounts) :
    Shared s (s.charge c size overdrawn) := by
  unfold charge
  cases c.perClient <;> exact ⟨rfl, rfl⟩

theorem shared_performs (p : ℕ) (overdrawn : Bool) (acts : List KnockAct) (s : Accounts) :
    Shared s (acts.foldl (perform p overdrawn) s) := by
  induction acts generalizing s with
  | nil => exact .refl s
  | cons act acts ih =>
      have hact : Shared s (perform p overdrawn s act) := by cases act <;> exact ⟨rfl, rfl⟩
      exact hact.trans (ih _)

@[simp] theorem requests_create (s : Accounts) (c : Client) : (s.create c).requests = s.requests := rfl

@[simp] theorem clients_create (s : Accounts) (c : Client) :
    (s.create c).clients = s.clients.alloc c := rfl

@[simp] theorem requests_destroy (s : Accounts) (i : ℕ) (c : Client) :
    (s.destroy i c).requests = s.requests := by
  unfold destroy removeConnection
  cases c.socket <;> cases c.perClient <;> rfl

/-- A client is made, or none. -/
theorem Accepts.shared (h : Accepts setup peer overdrawn s s') :
    s'.requests = s.requests ∧
      (s'.clients = s.clients ∨ ∃ c, c.peerAddress = peer ∧ s'.clients = s.clients.alloc c) := by
  cases h with
  | unaccounted => exact ⟨rfl, .inr ⟨_, rfl, rfl⟩⟩
  | accounted hget hdecides =>
      have hshared := hget.shared
      have hrequests : Accounts.requests _ = s.requests := hshared.requests
      have hclients : Accounts.clients _ = s.clients := hshared.clients
      cases hdecides with
      | missingKnock | tooMany => exact ⟨hrequests, .inl hclients⟩
      | delayed | connected => exact ⟨hrequests, .inr ⟨_, rfl, congrArg (Heap.alloc · _) hclients⟩⟩

theorem onTimer_clients (s : Accounts) (i : ℕ) (c : Client) :
    (s.onTimer i c).clients =
      ((s.clients.modify i fun c => { c with socket := none }).alloc
        ⟨.connection, c.peerAddress, c.socket, c.perClient⟩).free i :=
  clients_destroy _ i _

@[simp] theorem onTimer_requests (s : Accounts) (i : ℕ) (c : Client) :
    (s.onTimer i c).requests = s.requests := requests_destroy _ i _

/-- A datagram makes a request, or none. -/
theorem onDatagram_shared (setup : AccountSetup) (nftSet : Option (List UInt8)) (peer : SocketAddress)
    (payload : List UInt8) (overdrawn : Bool) (s : Accounts) :
    (s.onDatagram setup nftSet peer payload overdrawn).clients = s.clients ∧
      (s.onDatagram setup nftSet peer payload overdrawn).requests =
        match onUdpDatagram setup.util (peer.toInteger setup.address != 0) payload with
        | .handled _ => s.requests
        | .request _ _ => s.requests.alloc ⟨nftSet, peer⟩ := by
  have hget := getClientAccounting_gets setup peer s
  unfold onDatagram
  generalize s.getClientAccounting setup peer = res at hget
  have hshared := hget.shared
  cases hget with
  | unaccounted hzero => simp [hzero, onUdpDatagram]
  | found hzero | inserted hzero =>
      have hne : (peer.toInteger setup.address != 0) = true := bne_iff_ne.mpr hzero
      simp only [hne]
      cases onUdpDatagram setup.util true payload with
      | handled acts =>
          have hacts := fun p => hshared.trans (shared_performs p overdrawn acts _)
          exact ⟨(hacts _).clients, (hacts _).requests⟩
      | request => exact ⟨hshared.clients, congrArg (Heap.alloc · _) hshared.requests⟩

theorem onKnockAnswer_clients (setup : AccountSetup) (k : ℕ) (knock : PendingKnock)
    (result overdrawn : Bool) (s : Accounts) :
    (s.onKnockAnswer setup k knock result overdrawn).clients = s.clients := by
  have hget := getClientAccounting_gets setup knock.address s
  unfold onKnockAnswer
  generalize s.getClientAccounting setup knock.address = res at hget
  have hshared := hget.shared
  cases hget with
  | unaccounted => rfl
  | found | inserted =>
      have hacts := fun p => hshared.trans (shared_performs p overdrawn
        (Request.onCheckCredentials ⟨knock.nftSet, setup.hostToString knock.address⟩ true result) _)
      dsimp only
      split <;> exact (hacts _).clients

/-- The answer to a knock frees its request. -/
theorem onKnockAnswer_shared {knock : PendingKnock} (ha : knock.address.toInteger setup.address ≠ 0)
    (k : ℕ) (result overdrawn : Bool) (s : Accounts) :
    (s.onKnockAnswer setup k knock result overdrawn).clients = s.clients ∧
      (s.onKnockAnswer setup k knock result overdrawn).requests = s.requests.free k := by
  refine ⟨onKnockAnswer_clients setup k knock result overdrawn s, ?_⟩
  have hget := getClientAccounting_gets setup knock.address s
  unfold onKnockAnswer
  generalize s.getClientAccounting setup knock.address = res at hget
  have hshared := hget.shared
  cases hget with
  | unaccounted hzero => exact (ha hzero).elim
  | found | inserted =>
      have hacts := fun p => hshared.trans (shared_performs p overdrawn
        (Request.onCheckCredentials ⟨knock.nftSet, setup.hostToString knock.address⟩ true result) _)
      simp only [if_pos (Daemon.delete_mem_onCheckCredentials _ result)]
      exact congrArg (Heap.free · k) (hacts _).requests

/-! ### Knocks in the journal -/

/-- The knocks that were accepted. -/
def knocks (s : Accounts) : List RecordEntry := s.log.filter fun e => e.event == .setKnocked

theorem knocks_of_log {es : List RecordEntry} (h : s'.log = s.log ++ es)
    (hes : ∀ e ∈ es, e.event ≠ .setKnocked) : s'.knocks = s.knocks := by
  have hnone : es.filter (fun e => e.event == .setKnocked) = [] :=
    List.filter_eq_nil_iff.mpr fun e he heq => hes e he (beq_iff_eq.mp heq)
  unfold knocks
  rw [h, List.filter_append, hnone, List.append_nil]

@[simp] theorem knocks_updateTokenBucket (p size : ℕ) (overdrawn : Bool) (s : Accounts) :
    (s.updateTokenBucket p size overdrawn).knocks = s.knocks :=
  knocks_of_log rfl fun e he => by simp [List.mem_singleton.mp he]

@[simp] theorem knocks_charge (c : Client) (size : ℕ) (overdrawn : Bool) (s : Accounts) :
    (s.charge c size overdrawn).knocks = s.knocks := by
  unfold charge
  cases c.perClient with
  | none => rfl
  | some p => exact knocks_updateTokenBucket ..

@[simp] theorem knocks_create (c : Client) (s : Accounts) : (s.create c).knocks = s.knocks := rfl

@[simp] theorem knocks_destroy (i : ℕ) (c : Client) (s : Accounts) :
    (s.destroy i c).knocks = s.knocks := by
  cases hper : c.perClient with
  | none => exact congrArg (List.filter _) (log_destroy_none hper)
  | some p => exact knocks_of_log (log_destroy_some hper) fun e he => by simp [List.mem_singleton.mp he]

@[simp] theorem knocks_onTimer (i : ℕ) (c : Client) (s : Accounts) :
    (s.onTimer i c).knocks = s.knocks := knocks_destroy ..

@[simp] theorem knocks_onSocketReady (i : ℕ) (c : Client) (overdrawn : Bool) (s : Accounts) :
    (s.onSocketReady i c overdrawn).knocks = s.knocks := (knocks_destroy ..).trans (knocks_charge ..)

@[simp] theorem knocks_onCleanupTimer (s : Accounts) : s.onCleanupTimer.knocks = s.knocks := by
  refine knocks_of_log rfl fun e he => ?_
  obtain ⟨p, -, rfl⟩ := List.mem_map.mp he
  simp

theorem Gets.knocks {res : Option ℕ × Accounts} (h : Gets setup peer s res) : res.2.knocks = s.knocks :=
  congrArg (List.filter _) h.frame.1

theorem Accepts.knocks (h : Accepts setup peer overdrawn s s') : s'.knocks = s.knocks := by
  cases h with
  | unaccounted => rfl
  | @accounted p s₁ _ hget hdecides =>
      have hcharged : (s₁.updateTokenBucket p 1 overdrawn).knocks = s.knocks :=
        (knocks_updateTokenBucket ..).trans hget.knocks
      cases hdecides <;> exact hcharged

/-- An act on a record sets its flag, or no knock is noted. -/
theorem knocks_perform {p : ℕ} {act : KnockAct} {e : RecordEntry}
    (he : e ∈ (perform p overdrawn s act).knocks) :
    e ∈ s.knocks ∨ act = .setKnocked ∧ e.address = (s.record p).map (·.address) := by
  cases act with
  | setKnocked =>
      have hlog : (perform p overdrawn s .setKnocked).knocks =
          s.knocks ++ [⟨s.now, p, (s.record p).map (·.address), .setKnocked⟩] := List.filter_append ..
      rw [hlog, List.mem_append, List.mem_singleton] at he
      rcases he with he | rfl
      · exact .inl he
      · exact .inr ⟨rfl, rfl⟩
  | updateTokenBucket size => exact .inl (knocks_updateTokenBucket p size overdrawn s ▸ he)
  | malformedKnocks | rejectedKnocks | acceptedKnocks | nftAddElement | delete => exact .inl he

theorem address_perform (p : ℕ) (act : KnockAct) (s : Accounts) :
    ((perform p overdrawn s act).record p).map (·.address) = (s.record p).map (·.address) := by
  cases act with
  | updateTokenBucket size => simp [perform, Function.comp_def]
  | setKnocked => simp [perform, Function.comp_def, PerClientAccounting.setKnocked]
  | malformedKnocks | rejectedKnocks | acceptedKnocks | nftAddElement | delete => rfl

theorem knocks_performs {p : ℕ} {acts : List KnockAct} {e : RecordEntry}
    (he : e ∈ (acts.foldl (perform p overdrawn) s).knocks) :
    e ∈ s.knocks ∨ .setKnocked ∈ acts ∧ e.address = (s.record p).map (·.address) := by
  induction acts generalizing s with
  | nil => exact .inl he
  | cons act acts ih =>
      rcases ih he with he | ⟨hmem, ha⟩
      · rcases knocks_perform he with he | ⟨rfl, ha⟩
        · exact .inl he
        · exact .inr ⟨List.mem_cons_self, ha⟩
      · exact .inr ⟨List.mem_cons_of_mem _ hmem, ha.trans (address_perform p act s)⟩

/-- A datagram does not set the flag by itself. -/
theorem knocks_onDatagram (setup : AccountSetup) (nftSet : Option (List UInt8)) (peer : SocketAddress)
    (payload : List UInt8) (overdrawn : Bool) (s : Accounts) :
    ∀ e ∈ (s.onDatagram setup nftSet peer payload overdrawn).knocks, e ∈ s.knocks := by
  intro e he
  have hget := getClientAccounting_gets setup peer s
  unfold onDatagram at he
  generalize s.getClientAccounting setup peer = res at hget he
  obtain ⟨_ | p, s₁⟩ := res
  · exact hget.knocks ▸ he
  · cases hd : onUdpDatagram setup.util true payload with
    | handled acts =>
        simp only [hd] at he
        rcases knocks_performs he with he | ⟨hmem, -⟩
        · exact hget.knocks ▸ he
        · exact (setKnocked_not_mem_of_handled hd hmem).elim
    | request =>
        simp only [hd] at he
        exact hget.knocks ▸ he

/-- The answer to a knock sets the flag of its address, if it is positive. -/
theorem knocks_onKnockAnswer {k : ℕ} {knock : PendingKnock} {result : Bool} {e : RecordEntry}
    (he : e ∈ (s.onKnockAnswer setup k knock result overdrawn).knocks) :
    e ∈ s.knocks ∨ result = true ∧ e.address = some (knock.address.toInteger setup.address) := by
  have hget := getClientAccounting_gets setup knock.address s
  unfold onKnockAnswer at he
  generalize s.getClientAccounting setup knock.address = res at hget he
  obtain ⟨_ | p, s₁⟩ := res
  · exact .inl (hget.knocks ▸ he)
  · dsimp only at he
    generalize hreq : (⟨knock.nftSet, setup.hostToString knock.address⟩ : Request) = req at he
    obtain ⟨-, ⟨r, hr, ha⟩, -⟩ := hget.changes
    have hfold : e ∈ ((req.onCheckCredentials true result).foldl (perform p overdrawn) s₁).knocks := by
      split at he <;> exact he
    rcases knocks_performs hfold with he | ⟨hmem, haddress⟩
    · exact .inl (hget.knocks ▸ he)
    · refine .inr ⟨?_, ?_⟩
      · cases result with
        | true => rfl
        | false => simp [Request.onCheckCredentials] at hmem
      · rw [haddress, hr, Option.map_some, ha]

/-! ### The counters of knocks -/

/-- The counters have counted what was done. -/
structure Booked (acts : List KnockAct) (s s' : Accounts) : Prop where
  accepted : s'.metrics.acceptedKnocks = s.metrics.acceptedKnocks + acts.count .acceptedKnocks
  rejected : s'.metrics.rejectedKnocks = s.metrics.rejectedKnocks + acts.count .rejectedKnocks
  malformed : s'.metrics.malformedKnocks = s.metrics.malformedKnocks + acts.count .malformedKnocks

theorem Booked.of_metrics (h : s'.metrics = s.metrics) : Booked [] s s' := by
  constructor <;> simp [h]

theorem Booked.trans {acts acts' : List KnockAct} {s₁ : Accounts} (h : Booked acts s s₁)
    (h' : Booked acts' s₁ s') : Booked (acts ++ acts') s s' where
  accepted := by rw [h'.accepted, h.accepted, List.count_append, Nat.add_assoc]
  rejected := by rw [h'.rejected, h.rejected, List.count_append, Nat.add_assoc]
  malformed := by rw [h'.malformed, h.malformed, List.count_append, Nat.add_assoc]

@[simp] theorem metrics_charge (c : Client) (size : ℕ) (overdrawn : Bool) (s : Accounts) :
    (s.charge c size overdrawn).metrics = s.metrics := by
  unfold charge
  cases c.perClient <;> rfl

@[simp] theorem metrics_destroy (i : ℕ) (c : Client) (s : Accounts) : (s.destroy i c).metrics = s.metrics := by
  unfold destroy removeConnection
  cases c.socket <;> cases c.perClient <;> rfl

theorem Gets.metrics {res : Option ℕ × Accounts} (h : Gets setup peer s res) : res.2.metrics = s.metrics := by
  cases h <;> rfl

theorem booked_perform (p : ℕ) (overdrawn : Bool) (act : KnockAct) (s : Accounts) :
    Booked [act] s (perform p overdrawn s act) := by
  cases act <;> constructor <;> rfl

theorem booked_performs (p : ℕ) (overdrawn : Bool) (acts : List KnockAct) (s : Accounts) :
    Booked acts s (acts.foldl (perform p overdrawn) s) := by
  induction acts generalizing s with
  | nil => exact .of_metrics rfl
  | cons act acts ih => exact (booked_perform p overdrawn act s).trans (ih _)

/-- No knock was handled. -/
structure Quiet (s s' : Accounts) : Prop where
  knocks : s'.knocks = s.knocks
  booked : Booked [] s s'

theorem Quiet.refl (s : Accounts) : Quiet s s := ⟨rfl, .of_metrics rfl⟩

theorem Quiet.trans {s₁ : Accounts} (h : Quiet s s₁) (h' : Quiet s₁ s') : Quiet s s' :=
  ⟨h'.knocks.trans h.knocks, h.booked.trans h'.booked⟩

theorem quiet_charge (c : Client) (size : ℕ) (overdrawn : Bool) (s : Accounts) :
    Quiet s (s.charge c size overdrawn) := ⟨knocks_charge .., .of_metrics (metrics_charge ..)⟩

theorem quiet_destroy (i : ℕ) (c : Client) (s : Accounts) : Quiet s (s.destroy i c) :=
  ⟨knocks_destroy .., .of_metrics (metrics_destroy ..)⟩

theorem quiet_onTimer (i : ℕ) (c : Client) (s : Accounts) : Quiet s (s.onTimer i c) :=
  ⟨knocks_onTimer .., .of_metrics (metrics_destroy ..)⟩

theorem quiet_onSocketReady (i : ℕ) (c : Client) (overdrawn : Bool) (s : Accounts) :
    Quiet s (s.onSocketReady i c overdrawn) :=
  (quiet_charge c 4 overdrawn s).trans (quiet_destroy i c _)

theorem quiet_onCleanupTimer (s : Accounts) : Quiet s s.onCleanupTimer :=
  ⟨knocks_onCleanupTimer s, .of_metrics rfl⟩

theorem Accepts.quiet (h : Accepts setup peer overdrawn s s') : Quiet s s' := by
  refine ⟨h.knocks, ?_⟩
  cases h with
  | unaccounted => exact .of_metrics rfl
  | accounted hget hdecides =>
      have hmetrics := hget.metrics
      cases hdecides <;> constructor <;> exact (hmetrics ▸ rfl)

/-- A datagram of an accounted peer. -/
theorem booked_onDatagram (setup : AccountSetup) (nftSet : Option (List UInt8)) (peer : SocketAddress)
    (payload : List UInt8) (overdrawn : Bool) (s : Accounts) :
    Booked (match onUdpDatagram setup.util (peer.toInteger setup.address != 0) payload with
      | .handled acts => acts
      | .request _ _ => []) s (s.onDatagram setup nftSet peer payload overdrawn) := by
  have hget := getClientAccounting_gets setup peer s
  have hmetrics := hget.metrics
  unfold onDatagram
  generalize s.getClientAccounting setup peer = res at hget hmetrics
  cases hget with
  | unaccounted hzero =>
      simp only [hzero, bne_self_eq_false, onUdpDatagram, if_true]
      exact .of_metrics rfl
  | found hzero | inserted hzero =>
      have hne : (peer.toInteger setup.address != 0) = true := bne_iff_ne.mpr hzero
      simp only [hne]
      cases onUdpDatagram setup.util true payload with
      | handled acts => exact Booked.trans (.of_metrics hmetrics) (booked_performs ..)
      | request => exact .of_metrics hmetrics

/-- An answer. -/
theorem booked_onKnockAnswer {setup : AccountSetup} {knock : PendingKnock}
    (hzero : knock.address.toInteger setup.address ≠ 0) (k : ℕ) (result overdrawn : Bool) (s : Accounts) :
    Booked (Request.onCheckCredentials ⟨knock.nftSet, setup.hostToString knock.address⟩ true result) s
      (s.onKnockAnswer setup k knock result overdrawn) := by
  have hget := getClientAccounting_gets setup knock.address s
  have hmetrics := hget.metrics
  unfold onKnockAnswer
  generalize s.getClientAccounting setup knock.address = res at hget hmetrics
  cases hget with
  | unaccounted hz => exact (hzero hz).elim
  | found | inserted =>
      simp only [if_pos (Daemon.delete_mem_onCheckCredentials _ result)]
      have hacts := fun p => Booked.trans (.of_metrics hmetrics) (booked_performs p overdrawn
        (Request.onCheckCredentials ⟨knock.nftSet, setup.hostToString knock.address⟩ true result) _)
      exact ⟨(hacts _).accepted, (hacts _).rejected, (hacts _).malformed⟩

end Accounts

/-! ## The requests of the daemon -/

namespace Daemon

variable {setup : DaemonSetup} {s s' : Daemon}

@[simp] theorem requests_emits (es : List (Callbacks.Entry Requester)) (s : Daemon) :
    (s.emits es).requests = s.requests := rfl

@[simp] theorem requests_cancel (r : Requester) (s : Daemon) : (s.cancel r).requests = s.requests := by
  unfold cancel
  split
  · rfl
  · split <;> rfl

@[simp] theorem requests_checkCredentials (r : Requester) (username password : List UInt8)
    (reload : ReloadAnswers) (s : Daemon) :
    (s.checkCredentials r username password reload).requests = s.requests := by
  unfold checkCredentials
  dsimp only
  split <;> rfl

@[simp] theorem requests_settle (id : ℕ) (stock : PipeStock UInt8) (r : Result) (s : Daemon) :
    (s.settle id stock r).requests = s.requests := by
  cases r with
  | alive | crashed => rfl
  | destroyed c =>
      unfold settle
      dsimp only
      split <;> simp

/-- A destructor does not end the process. -/
theorem crashed_settle (id : ℕ) (stock : PipeStock UInt8) (c : Connection) (s : Daemon) :
    (s.settle id stock (.destroyed c)).checker.crashed = s.checker.crashed := by
  unfold settle
  simp only [checker_emits]
  split
  · unfold cancel
    split
    · rfl
    · split
      · rfl
      · change (Checker.cancelJob _ _ _).crashed = _
        unfold Checker.cancelJob
        split <;> rfl
  · rfl

theorem requests_event {id : ℕ} {c : Connection} {e : Event} {ans : Answers} {reload : ReloadAnswers}
    (hs : s.event setup id c e ans reload = some s') : s'.requests = s.requests := by
  obtain ⟨⟨stock, r⟩, -, rfl⟩ := Option.map_eq_some_iff.mp hs
  simp only
  split <;> simp

theorem requests_onDatagram (setup : DaemonSetup) (nftSet : Option (List UInt8)) (address : SocketAddress)
    (payload : List UInt8) (reload : ReloadAnswers) (s : Daemon) :
    (s.onDatagram setup nftSet address payload reload).requests =
      match onUdpDatagram setup.verifier.util (setup.accounted address) payload, s.checked reload with
      | .handled _, _ => s.requests
      | .request _ _, .calledBack =>
        (s.requests.alloc ⟨nftSet, address⟩).free s.requests.allocated
      | .request _ _, _ => s.requests.alloc ⟨nftSet, address⟩ := by
  unfold onDatagram
  cases hd : onUdpDatagram setup.verifier.util (setup.accounted address) payload with
  | handled => rfl
  | request username password =>
      have ha : setup.accounted address = true := by
        by_contra hn
        rw [(Bool.not_eq_true _).mp hn] at hd
        cases hd
      dsimp only
      cases s.checked reload with
      | throws | queued => simp
      | calledBack =>
          have ha : setup.accounted (⟨nftSet, address⟩ : PendingKnock).address = true := ha
          rw [answer_eq ha]
          simp

/-- The request of a job whose callback is still to come. -/
theorem Coherent.pending (h : Coherent setup s) {call k : ℕ} {job : Job}
    (hj : s.checker.jobs call = some job) (hr : s.callbacks call = some (.knock k))
    (hn : job.canceled = false) : ∃ knock, s.requests.get k = some knock := by
  have ht : s.view.tickets call = some ⟨.knock k, false⟩ := by simp [view, tickets, hj, hr, hn]
  have hw : (if (s.requests.get k).isSome then s.cancelPtr (.knock k) else none) = some call :=
    (h.inv.waits _ _).mpr ht
  refine Option.isSome_iff_exists.mp ?_
  by_contra hnone
  rw [if_neg hnone] at hw
  cases hw

/-- The callback of a request frees it; no other callback touches the requests. -/
theorem Coherent.requests_done (h : Coherent setup s) {call : ℕ} {job : Job}
    (hj : s.checker.jobs call = some job) (result : Bool) (ans : Answers) :
    (s.done setup call job result ans).requests =
      if job.canceled then s.requests else
        match s.callbacks call with
        | some (.knock k) => s.requests.free k
        | _ => s.requests := by
  have hend : ∀ t : Daemon, (t.deleteJob call job result).requests = t.requests := by
    intro t
    unfold deleteJob
    split <;> rfl
  rw [done_eq]
  refine (hend _).trans ?_
  cases hn : job.canceled with
  | true => rfl
  | false =>
      obtain ⟨r, hr, -⟩ := h.ticket hj
      simp only [Bool.false_eq_true, if_false, emits, hr]
      cases r with
      | connection id =>
          unfold callBack
          simp only [emits]
          split
          · exact requests_settle _ _ _ _
          · rfl
      | knock k =>
          obtain ⟨knock, hk⟩ := h.pending hj hr hn
          unfold callBack
          simp only [emits, hk, answer_eq (h.accounted k knock hk)]

end Daemon

end UoLogin

import Mathlib.Algebra.BigOperators.Ring.Finset
import Mathlib.Algebra.Order.Group.Int
import UoLogin.Connection.Counters
import UoLogin.Instance
import UoLogin.Lib.Journal

set_option autoImplicit false

/-!
# The metrics of the daemon

`Instance::metrics` is changed by the connections only: `Metered` is the daemon with the connection
lists of its listeners and a journal of what the connections did, and the value of a counter is the
sum of its changes in the journal. A listener's destructor deletes its connections.

* `CountedSlot`: what every connection has contributed, live or past; `counted_run`: in every run;
* **`metrics_exact`**: the gauges are the numbers of connections and of game server sockets, never go
  below zero and end at zero; the login counters are ordered; the counters of the bytes are what
  `splice()` has taken from the sockets.
-/

namespace UoLogin

open Connection

namespace Slot

def isLive : Slot → Bool
  | .live _ => true
  | _ => false

def log : Slot → List Act
  | .vacant => []
  | .live c | .gone c => c.log

/-- A live connection with a socket to a game server. -/
def outgoing : Slot → Bool
  | .live c => c.outgoing.defined
  | _ => false

/-- What a direction has ever taken from its source. -/
def taken : Slot → Dir → List UInt8
  | .vacant, _ => []
  | .live c, d | .gone c, d => (c.splice d).taken

end Slot

/-- A counter that is also brought down. -/
def Metric.gauge : Metric → Bool
  | .clientConnections | .serverConnections => true
  | _ => false

/-- The changes of a connection that came to a stage and was deleted. -/
def Stage.allChanges (g : Stage) (m : Metric) : List ℤ :=
  g.changes m ++ if m.gauge && g.counts m then [-1] else []

structure Metered where
  inst : Instance := {}
  /-- the members `connections` of the listeners -/
  connections : List ℕ := []
  journal : List (ℕ × Act) := []

namespace Metered

variable {setup : Setup} {s s' : Metered}

/-- Connection `id` is the only one that has changed. -/
def follow (s : Metered) (id : ℕ) (inst : Instance) (connections : List ℕ) : Metered where
  inst := inst
  connections := connections
  journal := s.journal ++
    ((inst.conns id).log.drop (s.inst.conns id).log.length).map fun a => (id, a)

/-- A connection leaves the list of its listener when it is deleted. -/
def relink (s : Metered) (id : ℕ) (inst : Instance) : List ℕ :=
  match inst.conns id with
  | .live _ => s.connections
  | _ => s.connections.erase id

/-- `delete` of a connection of a listener. -/
def dispose (s : Metered) (id : ℕ) : Metered :=
  match s.inst.conns id with
  | .live c =>
    s.follow id (s.inst.settle id s.inst.stock (.destroyed c)) (s.connections.erase id)
  | _ => s

/-- The destructors of the listeners. -/
def destroyListeners (s : Metered) : Metered := s.connections.foldl dispose s

def step (setup : Setup) (s : Metered) (input : Input) : Option Metered :=
  (Instance.step setup s.inst input).map fun inst =>
    match input with
    | .accept id _ _ => s.follow id inst (id :: s.connections)
    | .arrive id _ _ => s.follow id inst s.connections
    | .event id _ _ => s.follow id inst (s.relink id inst)
    | .discard _ => { s with inst := inst }

/-- The runs of the daemon. -/
def Run (setup : Setup) (inputs : List Input) (s : Metered) : Prop :=
  Machine.run (step setup) {} inputs = some s

/-- The sum of the changes of a counter in a journal. -/
def total (m : Metric) (journal : List (ℕ × Act)) : ℤ := (changes m (journal.map Prod.snd)).sum

/-- The value of a counter. -/
def metric (s : Metered) (m : Metric) : ℤ := total m s.journal

/-- The connections of the whole run. -/
def ever (s : Metered) : Finset ℕ := Journal.parties s.journal

/-! ## The contribution of one connection -/

structure Gone (g : Stage) (c : Connection) : Prop where
  once : ∀ m, m.ofBytes = false → changes m c.log = g.allChanges m
  bytes : ∀ d, (changes (bytesMetric d) c.log).sum = (c.splice d).taken.length

inductive CountedSlot : Slot → Prop
  | vacant : CountedSlot .vacant
  | live {c : Connection} (h : CountedLive c)
      (ho : c.outgoing.defined = (Stage.reached c.state).established) : CountedSlot (.live c)
  | gone {g : Stage} {c : Connection} (h : Gone g c) : CountedSlot (.gone c)

theorem gone_destructor {g : Stage} {c : Connection} (h : Counted g c)
    (ho : g.established = c.outgoing.defined) (stock : PipeStock UInt8) :
    Gone g (c.destructor stock).2 := by
  have hlog : (c.destructor stock).2.log = c.log ++ c.destructorLog := rfl
  have hremove : ∀ m, changes m (if c.perClient.isSome then [Act.removeConnection] else []) = [] := by
    intro m
    split <;> rfl
  have hchanges : ∀ m, changes m c.destructorLog = if m.gauge && g.counts m then [-1] else [] := by
    intro m
    unfold destructorLog
    rw [changes_append, changes_append, hremove, List.append_nil, ← ho]
    cases hg : g.established <;> cases m <;> simp [changes, Act.delta, Metric.gauge, Stage.counts, hg]
  constructor
  · intro m hm
    rw [hlog, changes_append, h.once m hm, hchanges]
    rfl
  · intro d
    rw [hlog, changes_append, hchanges, List.sum_append, h.bytes]
    cases d <;> exact add_zero _

/-! ## Every run -/

/-- The invariant of the metered daemon while the process runs. -/
structure Inv (setup : Setup) (s : Metered) : Prop where
  good : Instance.Good setup s.inst
  journal : ∀ id, Journal.of s.journal id = (s.inst.conns id).log
  nodup : s.connections.Nodup
  linked : ∀ id, id ∈ s.connections ↔ ∃ c, s.inst.conns id = .live c
  slots : ∀ id, CountedSlot (s.inst.conns id)

/-- A change of one connection whose log grows keeps the journal. -/
theorem journal_follow (h : ∀ id, Journal.of s.journal id = (s.inst.conns id).log) {id : ℕ}
    {inst : Instance} (connections : List ℕ) (hother : ∀ j, j ≠ id → inst.conns j = s.inst.conns j)
    (hlog : (s.inst.conns id).log <+: (inst.conns id).log) (j : ℕ) :
    Journal.of (s.follow id inst connections).journal j = (inst.conns j).log := by
  change Journal.of (s.journal ++ _) j = _
  rw [Journal.of_append, h]
  by_cases hj : j = id
  · subst hj
    rw [Journal.of_entries_self]
    obtain ⟨more, hmore⟩ := hlog
    rw [← hmore, List.drop_left]
  · rw [Journal.of_entries_ne (Ne.symm hj), List.append_nil, hother j hj]

/-- Whatever changes one connection keeps the invariant, if it keeps the daemon good, continues the
log and counts right. -/
theorem Inv.follow (h : Inv setup s) {id : ℕ} {slot : Slot} {inst : Instance} {connections : List ℕ}
    (hgood : Instance.Good setup inst) (hconns : inst.conns = Function.update s.inst.conns id slot)
    (hlog : (s.inst.conns id).log <+: slot.log) (hslot : CountedSlot slot) (hnodup : connections.Nodup)
    (hself : id ∈ connections ↔ ∃ c, slot = .live c)
    (hothers : ∀ j, j ≠ id → (j ∈ connections ↔ j ∈ s.connections)) :
    Inv setup (s.follow id inst connections) := by
  have hat : inst.conns id = slot := by rw [hconns, Function.update_self]
  have hother : ∀ j, j ≠ id → inst.conns j = s.inst.conns j := by
    intro j hj
    rw [hconns, Function.update_of_ne hj]
  refine ⟨hgood, journal_follow h.journal connections hother (hat ▸ hlog), hnodup, fun j => ?_,
    fun j => ?_⟩
  · change j ∈ connections ↔ ∃ c, inst.conns j = .live c
    by_cases hj : j = id
    · subst hj
      rw [hat]
      exact hself
    · rw [hothers j hj, hother j hj]
      exact h.linked j
  · change CountedSlot (inst.conns j)
    by_cases hj : j = id
    · subst hj
      rw [hat]
      exact hslot
    · rw [hother j hj]
      exact h.slots j

/-- A connection that is deleted leaves the list. -/
theorem Inv.follow_gone (h : Inv setup s) {id : ℕ} {c : Connection} {inst : Instance}
    (hgood : Instance.Good setup inst)
    (hconns : inst.conns = Function.update s.inst.conns id (.gone c))
    (hlog : (s.inst.conns id).log <+: c.log) (hslot : CountedSlot (.gone c)) :
    Inv setup (s.follow id inst (s.connections.erase id)) := by
  refine h.follow hgood hconns hlog hslot (h.nodup.erase id) ?_ fun j hj => ?_
  · exact ⟨fun hmem => ((List.Nodup.mem_erase_iff h.nodup).mp hmem).1.elim rfl, by
      rintro ⟨c', he⟩
      cases he⟩
  · rw [List.Nodup.mem_erase_iff h.nodup]
    exact and_iff_right hj

theorem countedSlot_live {c : Connection} (hi : Connection.Inv setup c) (h : CountedLive c) :
    CountedSlot (.live c) := by
  refine .live h ((congrArg Resources.outgoing hi.resources).trans ?_)
  cases c.state <;> rfl

theorem inv_empty : Inv setup {} where
  good := Instance.good_empty
  journal := fun _ => rfl
  nodup := List.nodup_nil
  linked := fun _ => ⟨fun h => (List.not_mem_nil h).elim, fun ⟨_, h⟩ => nomatch h⟩
  slots := fun _ => .vacant

theorem Inv.countedLive (h : Inv setup s) {id : ℕ} {c : Connection} (hc : s.inst.conns id = .live c) :
    CountedLive c ∧ (Stage.reached c.state).established = c.outgoing.defined := by
  have hslot := h.slots id
  rw [hc] at hslot
  cases hslot with
  | live h ho => exact ⟨h, ho.symm⟩

/-- **Every input keeps the invariant**, unless it ends the process. -/
theorem inv_step {input : Input} (h : Inv setup s) (hs : step setup s input = some s')
    (hrunning : s'.inst.crashed = none) : Inv setup s' := by
  obtain ⟨inst, hinst, rfl⟩ := Option.map_eq_some_iff.mp hs
  have hgood := Instance.good_step h.good hinst
  obtain ⟨hcrashed, hstep⟩ := Instance.step_cases hinst
  cases hstep with
  | @accept id remoteHost perClient hc =>
      have hnot : id ∉ s.connections := by
        intro hmem
        obtain ⟨c, hc'⟩ := (h.linked id).mp hmem
        cases hc.symm.trans hc'
      refine h.follow hgood rfl ?_ ?_ (List.nodup_cons.mpr ⟨hnot, h.nodup⟩) ?_ fun j hj => ?_
      · rw [hc]
        exact List.nil_prefix
      · exact .live (counted_new _ _) rfl
      · exact ⟨fun _ => ⟨_, rfl⟩, fun _ => List.mem_cons_self⟩
      · rw [List.mem_cons]
        exact or_iff_right hj
  | @arrive id side bytes c hc =>
      obtain ⟨hcounted, -⟩ := h.countedLive hc
      have hmem := (h.linked id).mpr ⟨c, hc⟩
      refine h.follow hgood rfl ?_ ?_ h.nodup ⟨fun _ => ⟨_, rfl⟩, fun _ => hmem⟩ fun j hj => Iff.rfl
      · rw [hc]
        cases side <;> exact List.prefix_rfl
      · refine countedSlot_live (Instance.inv_arrive (h.good.live hc) side bytes) ?_
        cases side <;>
          exact hcounted.silent rfl fun d => by cases d <;> rfl
  | @event id e ans c hc stock r hd =>
      have hi := h.good.live hc
      have hcalled := dispatch_called hi hd
      have hcounted := hcalled.counted hi (h.countedLive hc).1
      have hlog : (s.inst.conns id).log <+: r.conn.log := by
        rw [hc]
        exact hcalled.log_grows
      have hinv := dispatch_inv hi hd
      cases r with
      | alive c' =>
          have hmem := (h.linked id).mpr ⟨c, hc⟩
          have hrelink : s.relink id (s.inst.settle id stock (.alive c')) = s.connections := by
            unfold relink
            simp only [Instance.settle, Instance.setConn, Function.update_self]
          change Inv setup (s.follow id _ (s.relink id _))
          rw [hrelink]
          exact h.follow hgood rfl hlog (countedSlot_live hinv hcounted) h.nodup
            ⟨fun _ => ⟨_, rfl⟩, fun _ => hmem⟩ fun j hj => Iff.rfl
      | destroyed c' =>
          have hrelink : s.relink id (s.inst.settle id stock (.destroyed c')) = s.connections.erase id := by
            unfold relink
            simp only [Instance.settle, Instance.setConn, Function.update_self]
          obtain ⟨g, hg, ho⟩ := hcounted
          change Inv setup (s.follow id _ (s.relink id _))
          rw [hrelink]
          exact h.follow_gone hgood rfl (hlog.trans (List.prefix_append _ _))
            (.gone (gone_destructor hg ho stock))
      | crashed why c' => cases hrunning
  | discard => exact ⟨hgood, h.journal, h.nodup, h.linked, h.slots⟩

/-- **The invariant holds in every run**, while the process runs. -/
theorem counted_run {inputs : List Input} (h : Run setup inputs s) (hrunning : s.inst.crashed = none) :
    Inv setup s := by
  refine Machine.invariant (I := fun s : Metered => s.inst.crashed = none → Inv setup s)
    (fun s input s' hI hs hrunning => ?_) (fun _ => inv_empty) h hrunning
  refine inv_step (hI ?_) hs hrunning
  obtain ⟨inst, hinst, -⟩ := Option.map_eq_some_iff.mp hs
  exact (Instance.step_cases hinst).1

/-! ## The totals -/

theorem Inv.metric_eq (h : Inv setup s) (m : Metric) :
    s.metric m = ∑ id ∈ s.ever, (changes m (s.inst.conns id).log).sum := by
  refine (Journal.sum_filterMap (Act.delta m) s.journal).trans ?_
  refine Finset.sum_congr rfl fun id _ => ?_
  rw [h.journal]
  rfl

/-- Every connection has at least counted itself. -/
theorem Inv.mem_ever (h : Inv setup s) (id : ℕ) : id ∈ s.ever ↔ s.inst.conns id ≠ .vacant := by
  unfold ever
  rw [Journal.mem_parties, h.journal]
  have hslot := h.slots id
  generalize s.inst.conns id = slot at hslot
  cases hslot with
  | vacant => exact ⟨fun hne => (hne rfl).elim, fun hne => (hne rfl).elim⟩
  | @live c hc ho =>
      refine ⟨fun _ he => (nomatch he), fun _ hnil => ?_⟩
      have hone := hc.once .clientConnectionsAccepted rfl
      rw [show c.log = [] from hnil] at hone
      cases hone
  | @gone g c hc =>
      refine ⟨fun _ he => (nomatch he), fun _ hnil => ?_⟩
      have hone := hc.once .clientConnectionsAccepted rfl
      rw [show c.log = [] from hnil] at hone
      cases hone

/-- Counting the live connections of a kind. -/
theorem Inv.sum_live (h : Inv setup s) {p : Slot → Bool}
    (hp : ∀ slot, p slot = true → slot.isLive = true) :
    ∑ id ∈ s.ever, (if p (s.inst.conns id) then (1 : ℤ) else 0) =
      (s.connections.filter fun id => p (s.inst.conns id)).length := by
  have hfilter : s.ever.filter (fun id => p (s.inst.conns id) = true) =
      (s.connections.filter fun id => p (s.inst.conns id)).toFinset := by
    ext id
    simp only [Finset.mem_filter, List.mem_toFinset, List.mem_filter, h.mem_ever, h.linked]
    refine and_congr_left fun hid => ?_
    have hlive := hp _ hid
    cases hs : s.inst.conns id with
    | vacant | gone => simp [hs, Slot.isLive] at hlive
    | live c => simp
  rw [Finset.sum_boole, hfilter, List.toFinset_card_of_nodup (h.nodup.filter _)]

theorem CountedSlot.clientConnections {slot : Slot} (h : CountedSlot slot) :
    (changes .clientConnections slot.log).sum = if slot.isLive then 1 else 0 := by
  cases h with
  | vacant => rfl
  | live h ho => exact congrArg List.sum (h.once .clientConnections rfl)
  | gone h => exact congrArg List.sum (h.once .clientConnections rfl)

theorem CountedSlot.serverConnections {slot : Slot} (h : CountedSlot slot) :
    (changes .serverConnections slot.log).sum = if slot.outgoing then 1 else 0 := by
  cases h with
  | vacant => rfl
  | @live c h ho =>
      change (changes _ c.log).sum = if c.outgoing.defined then 1 else 0
      rw [h.once .serverConnections rfl, ho]
      cases c.state <;> rfl
  | @gone g c h =>
      change (changes _ c.log).sum = 0
      rw [h.once .serverConnections rfl]
      cases hg : g.counts .serverConnections <;>
        simp [Stage.allChanges, Stage.changes, Metric.gauge, hg]

theorem Inv.clientConnections (h : Inv setup s) :
    s.metric .clientConnections = s.connections.length := by
  have hall : (s.connections.filter fun id => (s.inst.conns id).isLive) = s.connections := by
    refine List.filter_eq_self.mpr fun id hid => ?_
    obtain ⟨c, hc⟩ := (h.linked id).mp hid
    rw [hc]
    rfl
  rw [h.metric_eq, Finset.sum_congr rfl fun id _ => (h.slots id).clientConnections,
    h.sum_live fun _ hlive => hlive, hall]

theorem Inv.serverConnections (h : Inv setup s) :
    s.metric .serverConnections = (s.connections.filter fun id => (s.inst.conns id).outgoing).length := by
  rw [h.metric_eq, Finset.sum_congr rfl fun id _ => (h.slots id).serverConnections,
    h.sum_live fun slot ho => ?_]
  cases slot with
  | vacant | gone => cases ho
  | live c => rfl

/-- What a connection adds to two sums in every stage holds of the totals. -/
theorem Inv.metrics_le (h : Inv setup s) {ms : List Metric} {m : Metric}
    (hslot : ∀ id, (ms.map fun m => (changes m (s.inst.conns id).log).sum).sum ≤
      (changes m (s.inst.conns id).log).sum) :
    (ms.map s.metric).sum ≤ s.metric m := by
  have hsum : (ms.map s.metric).sum =
      ∑ id ∈ s.ever, (ms.map fun m => (changes m (s.inst.conns id).log).sum).sum := by
    clear hslot
    induction ms with
    | nil => simp
    | cons m ms ih =>
        simp only [List.map_cons, List.sum_cons]
        rw [Finset.sum_add_distrib, ← ih, ← h.metric_eq]
  rw [hsum, h.metric_eq]
  exact Finset.sum_le_sum fun id _ => hslot id

/-- A connection raises each gauge at most once, and brings it down after that. -/
theorem CountedSlot.gauge {slot : Slot} (h : CountedSlot slot) {m : Metric} (hm : m.gauge = true) :
    changes m slot.log <+: [1, -1] := by
  have hbytes : m.ofBytes = false := by cases m <;> first | rfl | cases hm
  cases h with
  | vacant => exact List.nil_prefix
  | @live c h ho =>
      change changes m c.log <+: _
      rw [h.once m hbytes, Stage.changes]
      split
      · exact List.prefix_append [1] [-1]
      · exact List.nil_prefix
  | @gone g c h =>
      change changes m c.log <+: _
      rw [h.once m hbytes]
      cases hg : g.counts m <;> simp [Stage.allChanges, Stage.changes, hm, hg]

theorem sum_nonneg_of_gauge {l : List ℤ} (h : l <+: [1, -1]) : 0 ≤ l.sum := by
  rcases List.prefix_cons_iff.mp h with rfl | ⟨l', rfl, h'⟩
  · decide
  · rcases List.prefix_cons_iff.mp h' with rfl | ⟨l, rfl, h''⟩
    · decide
    · rw [List.prefix_nil.mp h'']
      decide

/-- **No gauge is ever below zero**, at any entry of the journal. -/
theorem Inv.total_nonneg (h : Inv setup s) {m : Metric} (hm : m.gauge = true)
    {p : List (ℕ × Act)} (hp : p <+: s.journal) : 0 ≤ total m p := by
  refine Journal.sum_nonneg (Act.delta m) fun id => sum_nonneg_of_gauge ?_
  have hof := Journal.of_mono hp id
  rw [h.journal] at hof
  exact (hof.filterMap (Act.delta m)).trans ((h.slots id).gauge hm)

/-- The other counters of a connection are those of its stage. -/
theorem CountedSlot.stage {slot : Slot} (h : CountedSlot slot) :
    slot.log = [] ∨ ∃ g : Stage, ∀ m, m.ofBytes = false → m.gauge = false →
      changes m slot.log = g.changes m := by
  cases h with
  | vacant => exact .inl rfl
  | live h ho => exact .inr ⟨_, fun m hm _ => h.once m hm⟩
  | @gone g c h =>
      refine .inr ⟨g, fun m hm hg => (h.once m hm).trans ?_⟩
      rw [Stage.allChanges, hg]
      exact List.append_nil _

/-- A connection is counted for at most one verdict. -/
theorem Inv.logins (h : Inv setup s) :
    s.metric .acceptedLogins + s.metric .rejectedLogins + s.metric .malformedLogins ≤
      s.metric .clientConnectionsAccepted := by
  have hle : ([Metric.acceptedLogins, .rejectedLogins, .malformedLogins].map s.metric).sum ≤
      s.metric .clientConnectionsAccepted := by
    refine h.metrics_le fun id => ?_
    rcases (h.slots id).stage with hnil | ⟨g, hg⟩
    · rw [hnil]
      decide
    · simp only [List.map_cons, List.map_nil]
      rw [hg _ rfl rfl, hg _ rfl rfl, hg _ rfl rfl, hg _ rfl rfl]
      cases g with
      | reached s => cases s <;> decide
      | malformed | rejected | unlisted | unconnected => decide
  simp only [List.map_cons, List.map_nil, List.sum_cons, List.sum_nil] at hle
  omega

/-- A connect ends at most once, after a positive verdict. -/
theorem Inv.connects (h : Inv setup s) :
    s.metric .serverConnectionsEstablished + s.metric .serverConnectionsFailed ≤
      s.metric .acceptedLogins := by
  have hle : ([Metric.serverConnectionsEstablished, .serverConnectionsFailed].map s.metric).sum ≤
      s.metric .acceptedLogins := by
    refine h.metrics_le fun id => ?_
    rcases (h.slots id).stage with hnil | ⟨g, hg⟩
    · rw [hnil]
      decide
    · simp only [List.map_cons, List.map_nil]
      rw [hg _ rfl rfl, hg _ rfl rfl, hg _ rfl rfl]
      cases g with
      | reached s => cases s <;> decide
      | malformed | rejected | unlisted | unconnected => decide
  simp only [List.map_cons, List.map_nil, List.sum_cons, List.sum_nil] at hle
  omega

theorem CountedSlot.bytes {slot : Slot} (h : CountedSlot slot) (d : Dir) :
    (changes (bytesMetric d) slot.log).sum = (slot.taken d).length := by
  cases h with
  | vacant => rfl
  | live h ho => exact h.bytes d
  | gone h => exact h.bytes d

/-! ## The destructors of the listeners -/

theorem Inv.dispose (h : Inv setup s) (hrunning : s.inst.crashed = none) (id : ℕ) :
    Inv setup (s.dispose id) := by
  unfold Metered.dispose
  split
  · rename_i c hc
    obtain ⟨hcounted, ho⟩ := h.countedLive hc
    have hpipes : PipesSound s.inst.stock (withConn s.inst.family id c) := by
      rw [Instance.withConn_family (Instance.family_live hc)]
      exact h.good.pipes hrunning
    refine h.follow_gone (h.good.settle_destroyed hrunning hpipes) rfl ?_
      (.gone (gone_destructor hcounted ho _))
    rw [hc]
    exact List.prefix_append _ _
  · exact h

theorem crashed_dispose (s : Metered) (id : ℕ) : (s.dispose id).inst.crashed = s.inst.crashed := by
  unfold dispose
  split <;> rfl

theorem Inv.connections_dispose (h : Inv setup s) {id : ℕ} (hid : id ∈ s.connections) :
    (s.dispose id).connections = s.connections.erase id := by
  obtain ⟨c, hc⟩ := (h.linked id).mp hid
  unfold Metered.dispose
  rw [hc]
  rfl

/-- The destructors leave no connection. -/
theorem Inv.destroyListeners (h : Inv setup s) (hrunning : s.inst.crashed = none) :
    Inv setup s.destroyListeners ∧ s.destroyListeners.connections = [] := by
  have hall : ∀ l {s : Metered}, s.connections = l → Inv setup s → s.inst.crashed = none →
      Inv setup (l.foldl Metered.dispose s) ∧ (l.foldl Metered.dispose s).connections = [] := by
    intro l
    induction l with
    | nil => exact fun hl hI _ => ⟨hI, hl⟩
    | cons id l ih =>
        intro s hl hI hc
        refine ih ?_ (hI.dispose hc id) ((crashed_dispose s id).trans hc)
        rw [hI.connections_dispose (hl ▸ List.mem_cons_self), hl, List.erase_cons_head]
  exact hall _ rfl h hrunning

/-- **What the metrics say.** -/
structure Exact (s : Metered) : Prop where
  /-- the lists of the listeners hold the live connections, each once -/
  linked : s.connections.Nodup ∧ ∀ id, id ∈ s.connections ↔ ∃ c, s.inst.conns id = .live c
  ever : ∀ id, id ∈ s.ever ↔ s.inst.conns id ≠ .vacant
  clientConnections : s.metric .clientConnections = s.connections.length
  serverConnections : s.metric .serverConnections =
    (s.connections.filter fun id => (s.inst.conns id).outgoing).length
  /-- also inside the handlers -/
  noUnderflow : ∀ p, p <+: s.journal → 0 ≤ total .clientConnections p ∧ 0 ≤ total .serverConnections p
  logins : s.metric .acceptedLogins + s.metric .rejectedLogins + s.metric .malformedLogins ≤
    s.metric .clientConnectionsAccepted
  connects : s.metric .serverConnectionsEstablished + s.metric .serverConnectionsFailed ≤
    s.metric .acceptedLogins
  clientBytes : s.metric .clientBytes = ∑ id ∈ s.ever, ((s.inst.conns id).taken .inOut).length
  serverBytes : s.metric .serverBytes = ∑ id ∈ s.ever, ((s.inst.conns id).taken .outIn).length

theorem Inv.exact (h : Inv setup s) : Exact s where
  linked := ⟨h.nodup, h.linked⟩
  ever := h.mem_ever
  clientConnections := h.clientConnections
  serverConnections := h.serverConnections
  noUnderflow := fun _ hp => ⟨h.total_nonneg rfl hp, h.total_nonneg rfl hp⟩
  logins := h.logins
  connects := h.connects
  clientBytes := by
    rw [h.metric_eq, Nat.cast_sum]
    exact Finset.sum_congr rfl fun id _ => (h.slots id).bytes .inOut
  serverBytes := by
    rw [h.metric_eq, Nat.cast_sum]
    exact Finset.sum_congr rfl fun id _ => (h.slots id).bytes .outIn

/-- **Gauges and counters are exact over whole runs**, and the gauges are zero once the listeners are
destroyed. -/
theorem metrics_exact {inputs : List Input} (h : Run setup inputs s)
    (hrunning : s.inst.crashed = none) :
    Exact s ∧ Exact s.destroyListeners ∧ s.destroyListeners.connections = [] ∧
      s.destroyListeners.metric .clientConnections = 0 ∧
      s.destroyListeners.metric .serverConnections = 0 := by
  have hI := counted_run h hrunning
  obtain ⟨hI', hnone⟩ := hI.destroyListeners hrunning
  refine ⟨hI.exact, hI'.exact, hnone, ?_, ?_⟩
  · rw [hI'.clientConnections, hnone]
    rfl
  · rw [hI'.serverConnections, hnone]
    rfl

/-- The run of a client that is connected to the game server and sends one byte. -/
def sampleInputs : List Input :=
  Instance.sampleCheck ++ Instance.sampleReady ++ [.arrive 0 .client [7],
    .event 0 (.incomingReady { read := true }) { receive := .upTo 0, sendReceived := .upTo 0 }]

theorem metrics_exact_of_sample :
    ∃ s, Run (Instance.sampleSetup []) sampleInputs s ∧ s.inst.crashed = none ∧ Exact s ∧
      s.metric .clientConnections = 1 ∧ s.metric .serverConnections = 1 ∧
      s.metric .clientBytes = 1 := by
  obtain ⟨s, h, hrunning, hclient, hserver, hbytes⟩ : ∃ s,
      Run (Instance.sampleSetup []) sampleInputs s ∧ s.inst.crashed = none ∧
        s.metric .clientConnections = 1 ∧ s.metric .serverConnections = 1 ∧
        s.metric .clientBytes = 1 := ⟨_, rfl, rfl, rfl, rfl, rfl⟩
  exact ⟨s, h, hrunning, (metrics_exact h hrunning).1, hclient, hserver, hbytes⟩

end Metered

end UoLogin

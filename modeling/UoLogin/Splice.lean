import UoLogin.Lib.Pool

set_option autoImplicit false

/-!
# Splices and the pipe stock

`Splice` moves bytes from a socket into a pipe (`receiveFrom`) and out of the pipe into another
socket (`sendTo`). The pipe comes from the `PipeStock` when it is needed, goes back when it is
empty, and is dropped when the `Splice` dies with bytes left in it (`Splice.destroy`).

The kernel and the stock answer by choices that are inputs of the model: `SpliceChoice` says how a
call of `splice()` ends, `GetNow` which pipe `Stock::GetNow` returns. A failed `assert` and an
exception are the two ways out of a call (`Stop`).

`splice_moved`: a `splice()` that moves bytes moves a non-empty prefix of the queue, in order and no
longer than asked for.
-/

namespace UoLogin

variable {β : Type*}

/-- The asserts of the modelled source files. -/
inductive Assertion where
  | receiveFromSize
  | sendToPipe
  | sendToSize
  | sendServerListFill
  | sendServerListEmpty
  | receivePlayServerState
  | receivePlayServerEmpty
  | receivePlayServerFill
  | receiveLoginState
  | receiveLoginFill
  | checkCredentialsState
  | incomingConnectPending
  | incomingInitialRead
  | incomingServerListRead
  | incomingPipeFull
  | outgoingIncomingDefined
  | outgoingConnectPending
  | outgoingState
  | outgoingPipeFull
  | sendInitialFill
  | connectSuccessState
  | connectErrorState
  | getOpen
  deriving DecidableEq, Repr

/-- How a call ends other than by returning: a failed `assert`, or an exception. -/
inductive Stop where
  | abort (a : Assertion)
  | throws
  deriving DecidableEq, Repr

/-- How one call of `splice()` ends: it moves at most `n + 1` bytes, returns 0, or fails with
`EAGAIN` or another error. -/
inductive SpliceChoice where
  | upTo (n : ℕ)
  | zero
  | again
  | error
  deriving DecidableEq, Repr

/-- The `splice()` goes through, as far as there are bytes and room. -/
def SpliceChoice.flows : SpliceChoice → Bool
  | .upTo _ | .again => true
  | .zero | .error => false

/-- What one call of `splice()` returns, with the bytes it moves and those it leaves. -/
inductive Spliced (β : Type*) where
  | moved (bytes rest : List β)
  | zero
  | again
  | error

/-- `splice()` from a queue, asked for at most `len` bytes. Nothing to move is `EAGAIN`. -/
def splice (queue : List β) (len : ℕ) : SpliceChoice → Spliced β
  | .upTo n =>
    if (queue.take (min (n + 1) len)).isEmpty then .again
    else .moved (queue.take (min (n + 1) len)) (queue.drop (min (n + 1) len))
  | .zero => .zero
  | .again => .again
  | .error => .error

theorem splice_moved {queue bytes rest : List β} {len : ℕ} {ch : SpliceChoice}
    (h : splice queue len ch = .moved bytes rest) :
    bytes ≠ [] ∧ bytes ++ rest = queue ∧ bytes.length ≤ len := by
  cases ch with
  | upTo n =>
      simp only [splice] at h
      split at h
      · cases h
      · rename_i hne
        cases h
        refine ⟨fun he => hne (by rw [he]; rfl), List.take_append_drop .., ?_⟩
        rw [List.length_take]
        omega
  | zero => cases h
  | again => cases h
  | error => cases h

/-- A `splice()` that moves everything it was asked for was willing to. -/
theorem splice_moved_all {queue bytes rest : List β} {len : ℕ} {ch : SpliceChoice}
    (h : splice queue len ch = .moved bytes rest) (hlen : len ≤ bytes.length) :
    ∃ n, ch = .upTo n ∧ len ≤ n + 1 := by
  cases ch with
  | upTo n =>
      refine ⟨n, rfl, ?_⟩
      simp only [splice] at h
      split at h
      · cases h
      · cases h
        rw [List.length_take] at hlen
        omega
  | zero => cases h
  | again => cases h
  | error => cases h

theorem eq_zero_of_splice {queue : List β} {len : ℕ} {ch : SpliceChoice}
    (h : splice queue len ch = .zero) : ch = .zero := by
  cases ch with
  | zero => rfl
  | upTo n =>
      simp only [splice] at h
      split at h <;> cases h
  | again | error => cases h

theorem eq_error_of_splice {queue : List β} {len : ℕ} {ch : SpliceChoice}
    (h : splice queue len ch = .error) : ch = .error := by
  cases ch with
  | error => rfl
  | upTo n =>
      simp only [splice] at h
      split at h <;> cases h
  | again | zero => cases h

/-! ## The stock -/

/-- Anonymous pipes, pooled; the content of a pipe is the kernel's. -/
abbrev PipeStock (β : Type*) := Pool β

/-- Which pipe `Stock::GetNow` returns: the `k`-th idle one if there is one, a new one, or none
because `pipe()` fails in `PipeStock::Create`. -/
inductive GetNow where
  | idle (k : ℕ)
  | create
  | throws
  deriving DecidableEq, Repr

/-- `Stock::GetNow`. -/
def PipeStock.getNow (stock : PipeStock β) : GetNow → Option (ℕ × PipeStock β)
  | .idle k => some ((stock.take k).getD stock.create)
  | .create => some stock.create
  | .throws => none

/-! ## Splices -/

/-- The members of `Splice`, and two histories: the bytes it took from its source and the bytes it
delivered to its sink. -/
structure Splice (β : Type*) where
  pipe : Option ℕ := none
  size : ℕ := 0
  receivedBytes : ℕ := 0
  sentBytes : ℕ := 0
  taken : List β := []
  delivered : List β := []

inductive ReceiveResult where
  | ok
  | socketBlocking
  | socketClosed
  | pipeFull
  | error
  deriving DecidableEq, Repr

inductive SendResult where
  | ok
  | partialSend
  | socketBlocking
  | error
  deriving DecidableEq, Repr

/-- What `receiveFrom` leaves behind: `moved` came from the source, which still holds `queue`. -/
structure Received (β : Type*) where
  stock : PipeStock β
  splice : Splice β
  moved : List β
  queue : List β
  result : ReceiveResult

/-- What `sendTo` leaves behind: `moved` went to the sink. -/
structure Sent (β : Type*) where
  stock : PipeStock β
  splice : Splice β
  moved : List β
  result : SendResult

namespace Splice

/-- The pipe of a `Splice`, from the stock if it has none yet. -/
def acquire (stock : PipeStock β) (s : Splice β) (get : GetNow) : Except Stop (ℕ × PipeStock β) :=
  match s.pipe with
  | some p => .ok (p, stock)
  | none =>
    if s.size ≠ 0 then .error (.abort .receiveFromSize)
    else match stock.getNow get with
      | none => .error .throws
      | some r => .ok r

/-- `received_bytes = 0`. -/
def clearReceived (s : Splice β) : Splice β := { s with receivedBytes := 0 }

/-- The limit of one `splice()` into the pipe, `1ULL << 30`. -/
def receiveLimit : ℕ := 1 <<< 30

/-- `Splice::ReceiveFrom`. -/
def receiveFrom (stock : PipeStock β) (s : Splice β) (queue : List β) (get : GetNow)
    (ch : SpliceChoice) : Except Stop (Received β) :=
  match s.acquire stock get with
  | .error e => .error e
  | .ok (p, stock) =>
    match UoLogin.splice queue receiveLimit ch with
    | .moved bytes rest =>
      .ok { stock := stock.write p (stock.content p ++ bytes)
            splice := { s with pipe := some p
                               size := s.size + bytes.length
                               receivedBytes := s.receivedBytes + bytes.length
                               taken := s.taken ++ bytes }
            moved := bytes
            queue := rest
            result := .ok }
    | .zero =>
      if s.size = 0 then
        .ok { stock := stock.put p, splice := { s with pipe := none }, moved := [], queue := queue
              result := .socketClosed }
      else
        .ok { stock := stock, splice := { s with pipe := some p }, moved := [], queue := queue
              result := .socketClosed }
    | .again =>
      .ok { stock := stock, splice := { s with pipe := some p }, moved := [], queue := queue
            result := if s.size = 0 then .socketBlocking else .pipeFull }
    | .error =>
      .ok { stock := stock, splice := { s with pipe := some p }, moved := [], queue := queue
            result := .error }

/-- `Splice::SendTo`. -/
def sendTo (stock : PipeStock β) (s : Splice β) (ch : SpliceChoice) : Except Stop (Sent β) :=
  match s.pipe with
  | none => .error (.abort .sendToPipe)
  | some p =>
    if s.size = 0 then .error (.abort .sendToSize)
    else match UoLogin.splice (stock.content p) s.size ch with
      | .moved bytes rest =>
        let s' := { s with size := s.size - bytes.length
                           sentBytes := s.sentBytes + bytes.length
                           delivered := s.delivered ++ bytes }
        if s'.size = 0 then
          .ok { stock := (stock.write p rest).put p, splice := { s' with pipe := none }
                moved := bytes, result := .ok }
        else
          .ok { stock := stock.write p rest, splice := s', moved := bytes, result := .partialSend }
      | .zero => .ok { stock := stock, splice := s, moved := [], result := .error }
      | .again => .ok { stock := stock, splice := s, moved := [], result := .socketBlocking }
      | .error => .ok { stock := stock, splice := s, moved := [], result := .error }

/-- `sendTo` on a pipe with bytes in it drains it, leaves some in it, or fails without effect. -/
theorem sendTo_cases {s : Splice β} (stock : PipeStock β) (ch : SpliceChoice) (hp : s.pipe.isSome)
    (hz : s.size ≠ 0) :
    ∃ sent, s.sendTo stock ch = .ok sent ∧ sent.splice.taken = s.taken ∧
      sent.splice.delivered = s.delivered ++ sent.moved ∧
      ((sent.result = .ok ∧ sent.splice.size = 0 ∧ ∃ n, ch = .upTo n ∧ s.size ≤ n + 1) ∨
        ((sent.result = .partialSend ∨ sent.result = .socketBlocking) ∧ sent.splice.size ≠ 0 ∧
          sent.splice.pipe.isSome) ∨
        (sent.result = .error ∧ sent.splice = s ∧ sent.moved = [] ∧ ch.flows = false)) := by
  obtain ⟨p, hp'⟩ := Option.isSome_iff_exists.mp hp
  have hnil : s.delivered = s.delivered ++ [] := (List.append_nil _).symm
  unfold sendTo
  rw [hp']
  simp only [if_neg hz]
  cases hsp : UoLogin.splice (stock.content p) s.size ch with
  | moved bytes rest =>
      obtain ⟨hne, happ, hle⟩ := splice_moved hsp
      simp only
      by_cases hrest : s.size - bytes.length = 0
      · rw [if_pos hrest]
        exact ⟨_, rfl, rfl, rfl, .inl ⟨rfl, hrest, splice_moved_all hsp (by omega)⟩⟩
      · rw [if_neg hrest]
        exact ⟨_, rfl, rfl, rfl, .inr (.inl ⟨.inl rfl, hrest, rfl⟩)⟩
  | zero =>
      obtain rfl := eq_zero_of_splice hsp
      exact ⟨_, rfl, rfl, hnil, .inr (.inr ⟨rfl, rfl, rfl, rfl⟩)⟩
  | again => exact ⟨_, rfl, rfl, hnil, .inr (.inl ⟨.inr rfl, hz, hp⟩)⟩
  | error =>
      obtain rfl := eq_error_of_splice hsp
      exact ⟨_, rfl, rfl, hnil, .inr (.inr ⟨rfl, rfl, rfl, rfl⟩)⟩

/-- It fails if the `splice()` does not go through. -/
theorem sendTo_of_not_flows {s : Splice β} (stock : PipeStock β) {ch : SpliceChoice}
    (hp : s.pipe.isSome) (hz : s.size ≠ 0) (hch : ch.flows = false) :
    ∃ sent, s.sendTo stock ch = .ok sent ∧ sent.result = .error := by
  obtain ⟨p, hp'⟩ := Option.isSome_iff_exists.mp hp
  cases ch with
  | upTo n => cases hch
  | again => cases hch
  | zero => exact ⟨⟨stock, s, [], .error⟩, by simp [sendTo, hp', hz, UoLogin.splice], rfl⟩
  | error => exact ⟨⟨stock, s, [], .error⟩, by simp [sendTo, hp', hz, UoLogin.splice], rfl⟩

/-- `receiveFrom` into an empty buffer throws, takes a front of the queue, or takes nothing. -/
theorem receiveFrom_cases {s : Splice β} (stock : PipeStock β) (queue : List β) (get : GetNow)
    (ch : SpliceChoice) (hz : s.size = 0) :
    s.receiveFrom stock queue get ch = .error .throws ∨
      ∃ got, s.receiveFrom stock queue get ch = .ok got ∧ got.moved ++ got.queue = queue ∧
        got.splice.taken = s.taken ++ got.moved ∧ got.splice.delivered = s.delivered ∧
        ((got.result = .ok ∧ got.splice.size ≠ 0 ∧ got.splice.pipe.isSome ∧
            got.splice.receivedBytes = s.receivedBytes + got.moved.length) ∨
          ((got.result = .socketBlocking ∨ got.result = .socketClosed ∨ got.result = .error) ∧
            got.moved = [] ∧ got.splice.size = 0)) := by
  have hnil : s.taken = s.taken ++ [] := (List.append_nil _).symm
  unfold receiveFrom
  have hacq : s.acquire stock get = .error .throws ∨ ∃ r, s.acquire stock get = .ok r := by
    unfold acquire
    cases s.pipe with
    | some p => exact .inr ⟨_, rfl⟩
    | none =>
        simp only [if_neg (not_not.mpr hz)]
        cases PipeStock.getNow stock get with
        | none => exact .inl rfl
        | some r => exact .inr ⟨r, rfl⟩
  rcases hacq with h | ⟨⟨p, stock'⟩, h⟩
  · rw [h]
    exact .inl rfl
  rw [h]
  refine .inr ?_
  cases hsp : UoLogin.splice queue receiveLimit ch with
  | moved bytes rest =>
      obtain ⟨hne, happ, hle⟩ := splice_moved hsp
      have hpos := List.length_pos_iff.mpr hne
      exact ⟨_, rfl, happ, rfl, rfl, .inl ⟨rfl, (by omega : s.size + bytes.length ≠ 0), rfl, rfl⟩⟩
  | zero =>
      simp only [if_pos hz]
      exact ⟨_, rfl, rfl, hnil, rfl, .inr ⟨.inr (.inl rfl), rfl, hz⟩⟩
  | again =>
      simp only [if_pos hz]
      exact ⟨_, rfl, rfl, hnil, rfl, .inr ⟨.inl rfl, rfl, hz⟩⟩
  | error => exact ⟨_, rfl, rfl, hnil, rfl, .inr ⟨.inr (.inr rfl), rfl, hz⟩⟩

/-- It throws if it needs a pipe and there is none. -/
theorem receiveFrom_throws_iff {s : Splice β} (stock : PipeStock β) (queue : List β) (get : GetNow)
    (ch : SpliceChoice) (hz : s.size = 0) :
    s.receiveFrom stock queue get ch = .error .throws ↔ s.pipe = none ∧ get = .throws := by
  have hok : ∀ {r}, s.acquire stock get = .ok r → s.receiveFrom stock queue get ch ≠ .error .throws := by
    intro r hr h
    unfold receiveFrom at h
    rw [hr] at h
    simp only at h
    cases hsp : UoLogin.splice queue receiveLimit ch <;> simp [hsp, hz] at h
  cases hp : s.pipe with
  | some p =>
      refine iff_of_false (hok (r := (p, stock)) ?_) fun h => nomatch h.1
      simp only [acquire, hp]
  | none =>
      by_cases hget : get = .throws
      · refine iff_of_true ?_ ⟨rfl, hget⟩
        simp [receiveFrom, acquire, hp, hz, hget, PipeStock.getNow]
      · obtain ⟨r, hr⟩ : ∃ r, stock.getNow get = some r := by
          cases get with
          | idle k => exact ⟨_, rfl⟩
          | create => exact ⟨_, rfl⟩
          | throws => exact (hget rfl).elim
        refine iff_of_false (hok (r := r) ?_) fun h => hget h.2
        simp [acquire, hp, hz, hr]

/-- `Splice::~Splice`: an empty pipe is reused, another one is destroyed. -/
def destroy (stock : PipeStock β) (s : Splice β) : PipeStock β :=
  match s.pipe with
  | none => stock
  | some p => if s.size = 0 then stock.put p else stock

end Splice

end UoLogin

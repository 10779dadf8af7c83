import Mathlib.Data.List.Basic

set_option autoImplicit false

/-!
# Decoders

A decoder takes a value off the front of a sequence, or fails.

* `Decoder`: with `take`, `expect`, `many`;
* `Reads d bytes a`: from every sequence that begins with `bytes`, `d` takes exactly these and returns
  `a`;
* **`Reads.bind`**, **`reads_many_cons`**: what is read one after the other.
-/

namespace Codec

/-- A decoder of values of type `α` over the alphabet `σ`. -/
def Decoder (σ α : Type) : Type := List σ → Option (α × List σ)

namespace Decoder

variable {σ α β : Type}

instance : Monad (Decoder σ) where
  pure a := fun input => some (a, input)
  bind d f := fun input =>
    match d input with
    | none => none
    | some (a, rest) => f a rest

/-- The next `n` symbols. -/
def take (n : ℕ) : Decoder σ (List σ) := fun input =>
  if n ≤ input.length then some (input.take n, input.drop n) else none

/-- Exactly this symbol. -/
def expect [DecidableEq σ] (x : σ) : Decoder σ Unit
  | [] => none
  | y :: rest => if y = x then some ((), rest) else none

/-- As many values. -/
def many (d : Decoder σ α) : ℕ → Decoder σ (List α)
  | 0 => pure []
  | n + 1 => do
    let a ← d
    let as ← many d n
    pure (a :: as)

/-- The decoder takes exactly these symbols, whatever follows them, and returns this value. -/
def Reads (d : Decoder σ α) (bytes : List σ) (a : α) : Prop :=
  ∀ rest, d (bytes ++ rest) = some (a, rest)

theorem reads_pure (a : α) : Reads (pure a : Decoder σ α) [] a := fun _ => rfl

theorem reads_take {n : ℕ} {bytes : List σ} (h : bytes.length = n) : Reads (take n) bytes bytes := by
  intro rest
  have hle : n ≤ (bytes ++ rest).length := by simp [← h]
  rw [take, if_pos hle, ← h, List.take_left, List.drop_left]

theorem reads_expect [DecidableEq σ] (x : σ) : Reads (expect x) [x] () := fun _ => if_pos rfl

/-- **One decoder after the other.** -/
theorem Reads.bind {d : Decoder σ α} {f : α → Decoder σ β} {xs ys : List σ} {a : α} {b : β}
    (h : Reads d xs a) (h' : Reads (f a) ys b) : Reads (d >>= f) (xs ++ ys) b := by
  intro rest
  rw [List.append_assoc]
  change (match d (xs ++ (ys ++ rest)) with
    | none => none
    | some (a, rest) => f a rest) = _
  rw [h]
  exact h' rest

/-- The last step only computes. -/
theorem Reads.map {d : Decoder σ α} {xs : List σ} {a : α} (h : Reads d xs a) (f : α → β) :
    Reads (d >>= fun a => pure (f a)) xs (f a) := by
  have hbind := h.bind (f := fun a => pure (f a)) (reads_pure (f a))
  rwa [List.append_nil] at hbind

theorem reads_many_zero (d : Decoder σ α) : Reads (many d 0) [] [] := reads_pure []

theorem reads_many_cons {d : Decoder σ α} {n : ℕ} {xs ys : List σ} {a : α} {as : List α}
    (h : Reads d xs a) (h' : Reads (many d n) ys as) : Reads (many d (n + 1)) (xs ++ ys) (a :: as) :=
  h.bind (h'.map (a :: ·))

end Decoder

end Codec

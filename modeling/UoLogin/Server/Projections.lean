import UoLogin.Server.Runs

set_option autoImplicit false

/-!
# The daemon and its parts

The accounting, the connections with their pipes, and the database with its jobs were modelled each by
itself, with inputs in any order. The whole daemon makes them do nothing else: what is proved about a part
holds of the daemon.

* `Daemon.projects_checker`, `Daemon.projects_instance`: the database and the connections of a daemon;
* `projects_accounts`, `projects_daemon`: the accounting and the rest;
* **`parts_run`**: a run of the whole daemon is a run of every part. The destructors at the shutdown are
  not among the inputs of the accounting and of the `Instance`.
-/

namespace UoLogin

open Connection Machine

namespace Daemon

variable {setup : DaemonSetup}

/-- The process has not ended. -/
def Running (s : Daemon) : Prop := s.inst.crashed = none ∧ s.checker.crashed = none

/-- The inputs before the shutdown. -/
def stepOpen (setup : DaemonSetup) (s : Daemon) (input : Input) : Option Daemon :=
  match input with
  | .destroy _ => none
  | input => s.step setup input

theorem step_of_stepOpen {s s' : Daemon} {input : Input} (hs : s.stepOpen setup input = some s') :
    s.step setup input = some s' ∧ ∀ id, input ≠ .destroy id := by
  cases input with
  | destroy => cases hs
  | _ => exact ⟨hs, fun _ he => by cases he⟩

theorem stepOpen_of_step {s s' : Daemon} {input : Input} (hs : s.step setup input = some s')
    (hn : ∀ id, input ≠ .destroy id) : s.stepOpen setup input = some s' := by
  cases input with
  | destroy id => exact (hn id rfl).elim
  | _ => exact hs

theorem run_stepOpen {s s' : Daemon} {inputs : List Input}
    (hrun : Machine.run (step setup) s inputs = some s')
    (hn : ∀ input ∈ inputs, ∀ id, input ≠ .destroy id) :
    Machine.run (stepOpen setup) s inputs = some s' := by
  induction inputs generalizing s with
  | nil => exact hrun
  | cons input inputs ih =>
      obtain ⟨t, ht, hrest⟩ := Option.bind_eq_some_iff.mp hrun
      rw [run_cons, stepOpen_of_step ht (hn input List.mem_cons_self), Option.bind_some]
      exact ih hrest fun input hi => hn input (List.mem_cons_of_mem _ hi)

/-- A running daemon was running before. -/
theorem Running.of_step {s s' : Daemon} {input : Input} (h : Coherent setup s)
    (hs : s.step setup input = some s') : s.Running := by
  obtain ⟨hinst, hchecker, -⟩ := step_moves h hs
  exact ⟨hinst, hchecker⟩

theorem SameChecker.eq {s t : Checker} (h : SameChecker s t) (hcrashed : t.crashed = s.crashed) : t = s := by
  obtain ⟨hdatabase, hjobs, hcalls⟩ := h
  cases s
  cases t
  cases hdatabase
  cases hjobs
  cases hcalls
  cases hcrashed
  rfl

/-- The database and the jobs. -/
theorem projects_checker : Projection (step setup) (Checker.step setup.verifier) Daemon.checker
    (Coherent setup) Running where
  keeps := fun _ _ _ h hs => coherent_step h hs
  back := fun _ _ _ h hs _ => .of_step h hs
  step := by
    intro s input s' h _ hs hrunning
    obtain ⟨inputs, t, hrun, hsame, hcrashed⟩ := step_checker h hs
    have ht : t = s'.checker := hsame.eq ((hcrashed hrunning.2).trans hrunning.2.symm)
    exact ⟨inputs, ht ▸ hrun⟩

/-- The connections and their pipes. -/
theorem projects_instance : Projection (stepOpen setup) (Instance.step setup.setup) Daemon.inst
    (Coherent setup) Running where
  keeps := fun _ _ _ h hs => coherent_step h (step_of_stepOpen hs).1
  back := fun _ _ _ h hs _ => .of_step h (step_of_stepOpen hs).1
  step := by
    intro s input s' h _ hs hrunning
    obtain ⟨hs, hn⟩ := step_of_stepOpen hs
    obtain ⟨inputs, inst, hrun, -, hinst⟩ := step_instance h hs hn
    exact ⟨inputs, hinst hrunning.1 ▸ hrun⟩

end Daemon

namespace Server

variable {setup : ServerSetup} {s s' : Server} {d : Database} {inputs : List Input}

/-- What helps to show what the parts do. -/
def Sound (setup : ServerSetup) (s : Server) : Prop := s.running = true → Agrees setup s

/-- Before the shutdown. -/
def Open (s : Server) : Prop := s.running = true ∧ s.stopping = false

theorem sound_step {input : Input} (h : Sound setup s) (hs : step setup s input = some s') :
    Sound setup s' := (kept_step h hs).agrees

theorem not_shutdown {input : Input} (h : Sound setup s) (hs : step setup s input = some s')
    (hopen : s'.Open) : input ≠ .shutdown := by
  rintro rfl
  cases ((h (running_of_step hs)).shutdown hs).stopping.symm.trans hopen.2

theorem open_of_step {input : Input} (h : Sound setup s) (hs : step setup s input = some s')
    (hopen : s'.Open) : s.Open :=
  ⟨running_of_step hs, ((kept_step h hs).stopping (not_shutdown h hs hopen)).symm.trans hopen.2⟩

theorem projects_accounts : Projection (step setup) (Accounts.step setup.accounts) Server.accounts
    (Sound setup) Open where
  keeps := fun _ _ _ h hs => sound_step h hs
  back := fun _ _ _ h hs hopen => open_of_step h hs hopen
  step := fun _ _ _ h _ hs hopen => (kept_step h hs).accounts (not_shutdown h hs hopen)

theorem projects_daemon : Projection (step setup) (Daemon.step setup.daemon) Server.daemon (Sound setup)
    fun s => s.running = true where
  keeps := fun _ _ _ h hs => sound_step h hs
  back := fun _ _ _ _ hs _ => running_of_step hs
  step := by
    intro s input s' h _ hs _
    obtain ⟨inputs, hrun, -⟩ := (kept_step h hs).daemon
    exact ⟨inputs, hrun⟩

theorem projects_open : Projection (step setup) (Daemon.stepOpen setup.daemon) Server.daemon (Sound setup)
    Open where
  keeps := fun _ _ _ h hs => sound_step h hs
  back := fun _ _ _ h hs hopen => open_of_step h hs hopen
  step := by
    intro s input s' h _ hs hopen
    obtain ⟨inputs, hrun, htells⟩ := (kept_step h hs).daemon
    refine ⟨inputs, Daemon.run_stepOpen hrun fun input' hi id he => ?_⟩
    subst he
    exact not_shutdown h hs hopen (htells _ hi)

/-- **The parts do nothing else than by themselves.** -/
structure Projects (setup : ServerSetup) (d : Database) (s : Server) : Prop where
  daemon : ∃ inputs, Daemon.Run setup.daemon d inputs s.daemon
  checker : ∃ inputs, Machine.run (Checker.step setup.daemon.verifier) { database := d } inputs =
    some s.daemon.checker
  /-- before the shutdown -/
  accounts : s.stopping = false → ∃ inputs, Accounts.Run setup.accounts inputs s.accounts
  connections : s.stopping = false → ∃ inputs, Instance.Run setup.daemon.setup inputs s.daemon.inst

theorem sound_new (d : Database) : Sound setup { daemon := { checker := { database := d } } } :=
  fun _ => agrees_new d

/-- **A run of the daemon is a run of every part of it.** -/
theorem parts_run (h : Run setup d inputs s) (hrunning : s.running = true) : Projects setup d s where
  daemon := (projects_daemon.run (sound_new d) h hrunning).2.2
  checker := by
    have hchecker : Projection (step setup) (Checker.step setup.daemon.verifier) (fun s => s.daemon.checker)
        (Sound setup) fun s => s.running = true :=
      projects_daemon.trans Daemon.projects_checker (fun s hI hP => (hI hP).coherent) fun s _ hP =>
        running_iff.mp hP
    exact (hchecker.run (sound_new d) h hrunning).2.2
  accounts := fun hstop => (projects_accounts.run (sound_new d) h ⟨hrunning, hstop⟩).2.2
  connections := fun hstop => by
    have hinst : Projection (step setup) (Instance.step setup.daemon.setup) (fun s => s.daemon.inst)
        (Sound setup) Open :=
      projects_open.trans Daemon.projects_instance (fun s hI hP => (hI hP.1).coherent) fun s _ hP =>
        running_iff.mp hP.1
    exact (hinst.run (sound_new d) h ⟨hrunning, hstop⟩).2.2

theorem parts_run_of_sample : ∃ s, Run sampleServer Checker.sampleDatabase sampleVisit s ∧
    s.stopping = false ∧ Projects sampleServer Checker.sampleDatabase s := by
  obtain ⟨s, h, hrunning, hstop⟩ : ∃ s, Run sampleServer Checker.sampleDatabase sampleVisit s ∧
      s.running = true ∧ s.stopping = false := ⟨_, rfl, rfl, rfl⟩
  exact ⟨s, h, hstop, parts_run h hrunning⟩

end Server

end UoLogin

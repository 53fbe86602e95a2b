import LuaPosix.Posix.Popen

/-! # One stage at a time

What one call of `popen` does, process by process: the parent keeps its end of the new pipe, the
child replaces its standard descriptor, gives up the parent's end and executes its task. No child
comes to a value, so each is described by its final state and the reason it left. -/

namespace LuaPosix.Popen

open LuaPattern (LStr)

variable {ω : Type} {E : System}

/-! ## Moving a descriptor -/

/-- Closing always succeeds. -/
theorem run_close (p : Process ω) (fd : Nat) : (close fd).run p = ⟨(p.close fd, .ok ()), []⟩ := rfl

/-- Whether `move_fd` succeeds: there is nothing to move, or `dup2` succeeds. -/
def moveOk (E : System) (pid from_fd to_fd : Nat) : Bool :=
  from_fd == to_fd || E.dup2 pid from_fd to_fd

/-- A process after `move_fd`. -/
def Process.move (p : Process ω) (from_fd to_fd : Nat) : Process ω :=
  if from_fd = to_fd then p else (p.dup2 from_fd to_fd).close from_fd

/-- A move keeps the pid. -/
@[simp] theorem Process.move_pid (p : Process ω) (from_fd to_fd : Nat) :
    (p.move from_fd to_fd).pid = p.pid := by
  rw [Process.move]
  split_ifs <;> rfl

/-- It starts nothing. -/
@[simp] theorem Process.move_started (p : Process ω) (from_fd to_fd : Nat) :
    (p.move from_fd to_fd).started = p.started := by
  rw [Process.move]
  split_ifs <;> rfl

/-- The error of `move_fd`. -/
def dup2Error : LuaError := .error "error dup2-ing"

/-- `move_fd` moves, or it raises the error of `dup2`. -/
theorem run_move_fd (p : Process ω) (from_fd to_fd : Nat) :
    (move_fd E from_fd to_fd).run p = if moveOk E p.pid from_fd to_fd
      then ⟨(p.move from_fd to_fd, .ok ()), []⟩ else ⟨(p, .error (.raises dup2Error)), []⟩ := by
  by_cases h : from_fd = to_fd
  · subst h
    rw [if_pos (by simp [moveOk]), move_fd, if_neg (by simp), Process.move, if_pos rfl]
    rfl
  · have hdup : moveOk E p.pid from_fd to_fd = E.dup2 p.pid from_fd to_fd := by
      rw [moveOk, beq_false_of_ne h, Bool.false_or]
    rw [hdup, move_fd, if_pos h, Process.move, if_neg h]
    cases hok : E.dup2 p.pid from_fd to_fd with
    | true =>
        have hdup2 : (dup2 E from_fd to_fd).run p = ⟨(p.dup2 from_fd to_fd, .ok true), []⟩ := by
          rw [dup2, Forking.run_bind_of_ok (Forking.run_get p), hok]
          rfl
        rw [Forking.run_bind_of_ok hdup2]
        rfl
    | false =>
        have hdup2 : (dup2 E from_fd to_fd).run p = ⟨(p, .ok false), []⟩ := by
          rw [dup2, Forking.run_bind_of_ok (Forking.run_get p), hok]
          rfl
        rw [Forking.run_bind_of_ok hdup2]
        rfl

/-! ## Executing a task -/

/-- A process in which a task has started. -/
def Process.start (p : Process ω) (task : Task) (args : List LuaValue) : Process ω :=
  { p with started := p.started ++ [⟨task, args, p.fds⟩] }

/-- Starting a task keeps the pid. -/
@[simp] theorem Process.start_pid (p : Process ω) (task : Task) (args : List LuaValue) :
    (p.start task args).pid = p.pid := rfl

/-- How `os.exit` leaves. -/
def exitStop (E : System) (code : LuaValue) : Stop :=
  match E.exitStatus code with
  | .ok status => .ends (.exit status)
  | .error e => .raises e

/-- Leaving ends the process with the code. -/
theorem run_exit (p : Process ω) (code : LuaValue) :
    (exit E code).run p = ⟨(p, .error (exitStop E code)), []⟩ := by
  rw [exit, exitStop]
  cases E.exitStatus code <;> rfl

/-- How a task leaves its process. -/
def Task.stop (E : System) (pid : Nat) : Task → Stop
  | .table H t =>
      match E.execp pid (E.remove H t).1 (E.remove H t).2 t with
      | .ok _ => .ends (._exit (toInt (E.errno pid)))
      | .error stop => stop
  | .function (.returns v) =>
      exitStop E (if v = .nil ∨ v = .boolean false then .integer 0 else v)
  | .function (.raises e) => .raises e
  | .function (.ends how) => .ends how

/-- A task that is started is noted. -/
theorem run_start (p : Process ω) (task : Task) (args : List LuaValue) :
    (start task args).run p = ⟨(p.start task args, .ok ()), []⟩ := rfl

/-- `execp` leaves the process as it is. -/
theorem run_execp (p : Process ω) (path : LuaValue) (H : Heap) (argt : Nat) :
    (execp E path H argt).run p = ⟨(p, E.execp p.pid path H argt), []⟩ := by
  rw [execp, Forking.run_bind_of_ok (Forking.run_get p)]
  cases E.execp p.pid path H argt <;> rfl

/-- **A task never comes back**: it starts, and leaves its process as `Task.stop` says. -/
theorem run_execx (p : Process ω) (task : Task) (args : List LuaValue) :
    (execx E task args).run p
      = ⟨(p.start task args, .error (task.stop E p.pid)), []⟩ := by
  cases task with
  | table H t =>
      have hexecp := run_execp (E := E) (p.start (.table H t) args) (E.remove H t).1
        (E.remove H t).2 t
      rw [Process.start_pid] at hexecp
      rw [execx, Forking.run_bind_of_ok (run_start p _ args), Task.stop]
      cases hend : E.execp p.pid (E.remove H t).1 (E.remove H t).2 t with
      | ok _ =>
          rw [hend] at hexecp
          rw [Forking.run_bind_of_ok hexecp]
          rfl
      | error stop =>
          rw [hend] at hexecp
          exact Forking.run_bind_of_error hexecp
  | function result =>
      rw [execx, exitWith]
      cases result with
      | returns v => exact run_exit _ _
      | raises e => rfl
      | ends how => rfl

/-! ## One call of `popen` -/

/-- A computation that always leaves, with the final process and the reason. -/
def Leaves (x : ProcM ω Unit) (g : Process ω → Process ω × Stop) : Prop :=
  ∀ p, x.run p = ⟨((g p).1, .error (g p).2), []⟩

/-- The caller of a `fork`. -/
def Process.forking (p : Process ω) : Process ω := { p with forks := p.forks + 1 }

/-- The copy a `fork` makes. -/
def Process.child (p : Process ω) (pid : Nat) : Process ω := { p.forking with pid := pid }

/-- The child of a stage: it replaces its standard descriptor, gives up the parent's end of the
pipe, and goes on as `g` says. -/
def prologue (E : System) (e : Ends) (g : Process ω → Process ω × Stop) (p : Process ω) :
    Process ω × Stop :=
  if moveOk E p.pid e.child_fd e.out_fd then g ((p.move e.child_fd e.out_fd).close e.parent_fd)
  else (p, .raises dup2Error)

/-- The error where the pipe function gives no pipe. -/
def pipeFailure : LuaM (Option (Nat × Nat)) → Option LuaError
  | .ok (some _) => none
  | .ok none => some (.error "error opening pipe")
  | .error e => some e

section PopenWith

variable {child : (fd in_fd out_fd : Nat) → ProcM ω Unit} {mode : String} {p : Process ω}
  {read_fd write_fd pid : Nat} {e : Ends}

/-- A pipe that the system gives is opened. -/
theorem run_pipe (hpipe : E.pipe p.pipes = .ok (some (read_fd, write_fd))) :
    (pipe E).run p = ⟨(p.pipe read_fd write_fd, .ok (some (read_fd, write_fd))), []⟩ := by
  rw [pipe, Forking.run_bind_of_ok (Forking.run_get p), hpipe]
  rfl

/-- The caller of `fork` continues with the pid, the child with 0 until it leaves. -/
theorem run_fork_bind {α : Type} {f : Option Nat → ProcM ω α} {l : Process ω × Stop}
    (hfork : E.fork p.forks = some pid)
    (hchild : (f (some 0)).run (p.child pid) = ⟨(l.1, .error l.2), []⟩) :
    (fork E >>= f).run p = ⟨((f (some pid)).run p.forking).self,
      Forking.left [l] ++ ((f (some pid)).run p.forking).forked⟩ := by
  have hfork' : (fork E).run p = (Forking.fork (fun p : Process ω => (p.forking, some pid))
      (fun p => (p.child pid, some 0)) : ProcM ω (Option Nat)).run p := by
    rw [fork, Forking.run_bind_of_ok (Forking.run_get p), hfork]
    rfl
  rw [Forking.run_bind_congr hfork']
  exact Forking.run_fork_bind hchild

/-- No process is forked where `fork` fails. -/
theorem run_fork_none (hfork : E.fork p.forks = none) :
    (fork E).run p = ⟨(p.forking, .ok none), []⟩ := by
  rw [fork, Forking.run_bind_of_ok (Forking.run_get p), hfork]
  rfl

/-- Without a pipe the call raises, and nothing was opened. -/
theorem run_popenWith_pipeFailure {err : LuaError}
    (hpipe : pipeFailure (E.pipe p.pipes) = some err) :
    (popenWith E child mode).run p
      = ⟨({ p with pipes := p.pipes + 1 }, .error (.raises err)), []⟩ := by
  rw [popenWith]
  cases hres : E.pipe p.pipes with
  | error e =>
      rw [hres] at hpipe
      obtain rfl := Option.some.inj hpipe
      have hrun : (pipe E).run p
          = ⟨({ p with pipes := p.pipes + 1 }, .error (.raises e)), []⟩ := by
        rw [pipe, Forking.run_bind_of_ok (Forking.run_get p), hres]
        rfl
      exact Forking.run_bind_of_error hrun
  | ok fds =>
      rw [hres] at hpipe
      cases fds with
      | some _ => cases hpipe
      | none =>
          obtain rfl := Option.some.inj hpipe
          have hrun : (pipe E).run p = ⟨({ p with pipes := p.pipes + 1 }, .ok none), []⟩ := by
            rw [pipe, Forking.run_bind_of_ok (Forking.run_get p), hres]
            rfl
          rw [Forking.run_bind_of_ok hrun]
          rfl

/-- An invalid mode is only noticed with the pipe open. -/
theorem run_popenWith_invalid (hpipe : E.pipe p.pipes = .ok (some (read_fd, write_fd)))
    (hends : popenEnds mode read_fd write_fd = none) :
    (popenWith E child mode).run p
      = ⟨(p.pipe read_fd write_fd, .error (.raises (.error "invalid mode"))), []⟩ := by
  rw [popenWith, Forking.run_bind_of_ok (run_pipe hpipe)]
  simp only [hends]
  rfl

/-- And so is a failed `fork`. -/
theorem run_popenWith_forkFailure (hpipe : E.pipe p.pipes = .ok (some (read_fd, write_fd)))
    (hends : popenEnds mode read_fd write_fd = some e) (hfork : E.fork p.forks = none) :
    (popenWith E child mode).run p
      = ⟨((p.pipe read_fd write_fd).forking, .error (.raises (.error "error forking"))), []⟩ := by
  rw [popenWith, Forking.run_bind_of_ok (run_pipe hpipe)]
  simp only [hends]
  rw [Forking.run_bind_of_ok (run_fork_none (p := p.pipe read_fd write_fd) hfork)]
  rfl

/-- **One stage**: the parent keeps its end and the pid, the child runs its prologue. -/
theorem run_popenWith (child : (fd in_fd out_fd : Nat) → ProcM ω Unit)
    {g : Process ω → Process ω × Stop} (hpipe : E.pipe p.pipes = .ok (some (read_fd, write_fd)))
    (hends : popenEnds mode read_fd write_fd = some e) (hfork : E.fork p.forks = some pid)
    (hchild : Leaves (child e.child_fd e.in_fd e.out_fd) g) :
    (popenWith E child mode).run p
      = ⟨((p.pipe read_fd write_fd).forking.close e.child_fd, .ok ⟨[pid], e.parent_fd⟩),
          Forking.left [prologue E e g ((p.pipe read_fd write_fd).child pid)]⟩ := by
  have hpid : pid ≠ 0 := Nat.ne_of_gt (E.fork_pos hfork)
  rw [popenWith, Forking.run_bind_of_ok (run_pipe hpipe)]
  simp only [hends]
  rw [run_fork_bind (p := p.pipe read_fd write_fd)
    (l := prologue E e g ((p.pipe read_fd write_fd).child pid)) hfork]
  · simp only [if_neg hpid]
    rfl
  · simp only [if_true]
    have hmove := run_move_fd (E := E) ((p.pipe read_fd write_fd).child pid) e.child_fd e.out_fd
    rw [prologue]
    by_cases hok : moveOk E ((p.pipe read_fd write_fd).child pid).pid e.child_fd e.out_fd
    · rw [if_pos hok] at hmove
      rw [if_pos hok, Forking.run_bind_of_ok hmove, Forking.run_bind_of_ok (run_close _ _)]
      exact Forking.run_bind_of_error (hchild _)
    · rw [if_neg hok] at hmove
      rw [if_neg hok]
      exact Forking.run_bind_of_error hmove

end PopenWith

/-! ## The stages of a pipeline -/

section Stages

variable {mode : String} {p q : Process ω} {read_fd write_fd pid i : Nat} {e : Ends}
  {tasks : List Task} {pfd : Pfd} {t : Stop}

/-- How a later stage goes on after its prologue: it takes over the descriptor of the stage
before and executes its task. -/
def takeOver (E : System) (fd in_fd : Nat) (task : Task) (p : Process ω) : Process ω × Stop :=
  if moveOk E p.pid fd in_fd then ((p.move fd in_fd).start task [], task.stop E p.pid)
  else (p, .raises dup2Error)

/-- The arguments `popen` gives a function. -/
def fdArgs (e : Ends) : List LuaValue := [fdValue e.child_fd, fdValue e.in_fd, fdValue e.out_fd]

/-- `execx` ends as its task does. -/
theorem leaves_execx (task : Task) (args : List LuaValue) :
    Leaves (ω := ω) (execx E task args) fun p => (p.start task args, task.stop E p.pid) :=
  fun p => run_execx p task args

/-- A child that takes over a pipe ends as its task does, or by the move. -/
theorem leaves_takeOver (fd in_fd : Nat) (task : Task) :
    Leaves (ω := ω) (exitWith E do
      move_fd E fd in_fd
      execx E task []
      return .nil) (takeOver E fd in_fd task) := by
  intro p
  have hmove := run_move_fd (E := E) p fd in_fd
  rw [exitWith, takeOver]
  by_cases hok : moveOk E p.pid fd in_fd
  · rw [if_pos hok] at hmove
    rw [if_pos hok]
    refine Forking.run_bind_of_error ?_
    rw [Forking.run_bind_of_ok hmove]
    have hexecx := run_execx (E := E) (p.move fd in_fd) task []
    rw [Process.move_pid] at hexecx
    exact Forking.run_bind_of_error hexecx
  · rw [if_neg hok] at hmove
    rw [if_neg hok]
    exact Forking.run_bind_of_error (Forking.run_bind_of_error hmove)

/-- The caller once a stage has opened. -/
def Process.opened (p : Process ω) (read_fd write_fd : Nat) (e : Ends) : Process ω :=
  (p.pipe read_fd write_fd).forking.close e.child_fd

/-- The child of the first stage. -/
def firstChild (E : System) (task : Task) (e : Ends) (p : Process ω) : Process ω × Stop :=
  prologue E e (fun p => (p.start task (fdArgs e), task.stop E p.pid)) p

/-- The child of a later stage, where `fd` is the descriptor kept of the stage before. -/
def nextChild (E : System) (fd : Nat) (task : Task) (e : Ends) (p : Process ω) :
    Process ω × Stop :=
  prologue E e (takeOver E fd e.in_fd task) p

/-- **The first stage.** -/
theorem run_popen (task : Task) (hpipe : E.pipe p.pipes = .ok (some (read_fd, write_fd)))
    (hends : popenEnds mode read_fd write_fd = some e) (hfork : E.fork p.forks = some pid) :
    (popen E task mode).run p
      = ⟨(p.opened read_fd write_fd e, .ok ⟨[pid], e.parent_fd⟩),
          Forking.left [firstChild E task e ((p.pipe read_fd write_fd).child pid)]⟩ :=
  run_popenWith _ hpipe hends hfork (leaves_execx task (fdArgs e))

/-- **A later stage**: the descriptor of the stage before is closed in the caller. -/
theorem run_nextStage (tasks : List Task) (pfd : Pfd) (i : Nat)
    (hpipe : E.pipe p.pipes = .ok (some (read_fd, write_fd)))
    (hends : popenEnds mode read_fd write_fd = some e) (hfork : E.fork p.forks = some pid) :
    (nextStage E tasks mode pfd i).run p
      = ⟨((p.opened read_fd write_fd e).close pfd.fd, .ok ⟨pfd.pids ++ [pid], e.parent_fd⟩),
          Forking.left [nextChild E pfd.fd (taskAt tasks i) e
            ((p.pipe read_fd write_fd).child pid)]⟩ := by
  have hpopen := run_popenWith (fun _ in_fd _ => exitWith E do
      move_fd E pfd.fd in_fd
      execx E (taskAt tasks i) []
      return .nil) hpipe hends hfork
    (leaves_takeOver (E := E) (ω := ω) pfd.fd e.in_fd (taskAt tasks i))
  rw [nextStage, Forking.run_bind_of_left hpopen]
  rfl

/-- A stage that raises raises out of the pipeline. -/
theorem run_nextStage_error
    (h : ∀ child, (popenWith E child mode).run p = ⟨(q, .error t), []⟩) :
    (nextStage E tasks mode pfd i).run p = ⟨(q, .error t), []⟩ :=
  Forking.run_bind_of_error (h _)

/-- Stage `k` gets its pipe and its process. -/
def Opens (E : System) (k : Nat) : Prop :=
  (∃ read_fd write_fd, E.pipe k = .ok (some (read_fd, write_fd))) ∧ ∃ pid, E.fork k = some pid

/-- The two modes. -/
def ValidMode (mode : String) : Prop := mode = "r" ∨ mode = "w"

/-- A valid mode names the ends. -/
theorem exists_popenEnds (h : ValidMode mode) (read_fd write_fd : Nat) :
    ∃ e, popenEnds mode read_fd write_fd = some e := by
  rcases h with rfl | rfl
  · exact ⟨_, rfl⟩
  · exact ⟨_, rfl⟩

/-- No other mode does. -/
theorem popenEnds_of_not_validMode (h : ¬ ValidMode mode) (read_fd write_fd : Nat) :
    popenEnds mode read_fd write_fd = none := by
  obtain ⟨hr, hw⟩ := not_or.mp h
  rw [popenEnds, if_neg hr, if_neg hw]

/-- A stage that does not open raises, with nothing opened or with both ends of its pipe. -/
theorem run_popenWith_error (h : ¬ (ValidMode mode ∧ Opens E p.pipes)) (hp : p.forks = p.pipes) :
    ∃ q err, (∀ child, (popenWith E child mode).run p = ⟨(q, .error (.raises err)), []⟩) ∧
      ((pipeFailure (E.pipe p.pipes) ≠ none ∧ q.fds = p.fds) ∨
        ∃ read_fd write_fd, E.pipe p.pipes = .ok (some (read_fd, write_fd)) ∧
          q.fds = (p.pipe read_fd write_fd).fds) := by
  cases hpipe : pipeFailure (E.pipe p.pipes) with
  | some err =>
      exact ⟨_, err, fun _ => run_popenWith_pipeFailure hpipe, .inl ⟨by simp, rfl⟩⟩
  | none =>
      obtain ⟨read_fd, write_fd, hfds⟩ :
          ∃ read_fd write_fd, E.pipe p.pipes = .ok (some (read_fd, write_fd)) := by
        cases hres : E.pipe p.pipes with
        | error err =>
            rw [hres] at hpipe
            cases hpipe
        | ok fds =>
            cases fds with
            | none =>
                rw [hres] at hpipe
                cases hpipe
            | some fds => exact ⟨fds.1, fds.2, rfl⟩
      by_cases hmode : ValidMode mode
      · obtain ⟨e, hends⟩ := exists_popenEnds hmode read_fd write_fd
        have hfork : E.fork p.forks = none := by
          by_contra hne
          obtain ⟨pid, hpid⟩ := Option.ne_none_iff_exists'.mp hne
          exact h ⟨hmode, ⟨read_fd, write_fd, hfds⟩, pid, hp ▸ hpid⟩
        exact ⟨_, _, fun _ => run_popenWith_forkFailure hfds hends hfork,
          .inr ⟨read_fd, write_fd, hfds, rfl⟩⟩
      · exact ⟨_, _, fun _ => run_popenWith_invalid hfds
          (popenEnds_of_not_validMode hmode read_fd write_fd), .inr ⟨read_fd, write_fd, hfds, rfl⟩⟩

end Stages

end LuaPosix.Popen

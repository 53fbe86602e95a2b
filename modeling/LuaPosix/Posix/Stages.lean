import LuaPosix.Posix.ChildExec
import LuaPosix.Posix.Pipeline

/-! # How the stages leave

Whatever the descriptors are and whichever calls of a child fail, each process a pipeline forks
leaves the Lua code on its own: for good where its descriptors can be moved and its task ends the
process, else by an error. -/

namespace LuaPosix.Popen

variable {ω : Type} {E : System} {mode : String}

/-! ## When a child ends -/

/-- What `os.exit` takes. -/
def ExitValue (E : System) (v : LuaValue) : Prop :=
  v = .nil ∨ (∃ b, v = .boolean b) ∨ ∃ status, v.tointegerx E.numerals.strtod = some status

/-- A task ends its process: a table for which `execp` has what it needs once the first value is
removed, or a function that ends the process itself or returns something `os.exit` takes. -/
def Task.EndsProcess (E : System) (pid : Nat) : Task → Prop
  | .table H t => ∃ file, E.Executes pid (E.remove H t).1 (E.remove H t).2 t file
  | .function (.returns v) => ExitValue E v
  | .function (.raises _) => False
  | .function (.ends _) => True

/-- Undefined behaviour ends nothing. -/
theorem undefined_not_ends : ¬ ∃ how, Stop.undefined = .ends how := by
  rintro ⟨how, h⟩
  cases h

/-- An error does not end the process. -/
theorem raises_not_ends (e : LuaError) : ¬ ∃ how, Stop.raises e = .ends how := by
  rintro ⟨how, h⟩
  cases h

/-- Leaving ends the process where the code is a status. -/
theorem exitStop_ends {code : LuaValue} :
    (∃ how, exitStop E code = .ends how) ↔ ∃ status, E.exitStatus code = .ok status := by
  rw [exitStop]
  cases E.exitStatus code with
  | ok status => exact ⟨fun _ => ⟨status, rfl⟩, fun _ => ⟨_, rfl⟩⟩
  | error e =>
      refine iff_of_false (raises_not_ends e) ?_
      rintro ⟨status, h⟩
      cases h

/-- A code is a status where it is a boolean or a number. -/
theorem exitStatus_ok (v : LuaValue) :
    (∃ status, E.exitStatus v = .ok status) ↔
      (∃ b, v = .boolean b) ∨ ∃ status, v.tointegerx E.numerals.strtod = some status := by
  by_cases hbool : ∃ b, v = .boolean b
  · obtain ⟨b, rfl⟩ := hbool
    exact ⟨fun _ => .inl ⟨b, rfl⟩, fun _ => ⟨_, rfl⟩⟩
  · rw [or_iff_right hbool, System.exitStatus.eq_2 E v fun b h => hbool ⟨b, h⟩]
    cases v.tointegerx E.numerals.strtod with
    | some status => exact ⟨fun _ => ⟨status, rfl⟩, fun _ => ⟨_, rfl⟩⟩
    | none =>
        constructor
        · rintro ⟨status, h⟩
          simp only at h
          split_ifs at h
        · rintro ⟨status, h⟩
          cases h

/-- `exit(v or 0)` ends the process for these values, and raises for the others. -/
theorem exitStop_ends_iff (v : LuaValue) :
    (∃ how, exitStop E (if v = .nil ∨ v = .boolean false then .integer 0 else v) = .ends how) ↔
      ExitValue E v := by
  rw [exitStop_ends]
  by_cases hfalse : v = .nil ∨ v = .boolean false
  · rw [if_pos hfalse]
    refine ⟨fun _ => ?_, fun _ => ⟨_, rfl⟩⟩
    rcases hfalse with h | h
    · exact .inl h
    · exact .inr (.inl ⟨false, h⟩)
  · rw [if_neg hfalse, exitStatus_ok, ExitValue]
    exact ⟨.inr, fun h => h.resolve_left (not_or.mp hfalse).1⟩

/-- How the table of a task leaves its process, if `execp` has what it needs. -/
theorem Task.stop_table {H : Heap} {t pid : Nat} {file : LuaPattern.LStr}
    (h : E.Executes pid (E.remove H t).1 (E.remove H t).2 t file) :
    (Task.table H t).stop E pid
      = if E.execvp pid file (E.remove H t).2 t = none then
          .ends (.exec file (programArgs (E.vector file (E.remove H t).2 t)))
        else .ends (._exit (toInt (E.errno pid))) := by
  rw [Task.stop, execp_of_executes h]
  split_ifs <;> rfl

/-- **A task ends its process** exactly under that condition, whether the program can be run or
not. -/
theorem Task.stop_ends_iff (pid : Nat) (task : Task) :
    (∃ how, task.stop E pid = .ends how) ↔ task.EndsProcess E pid := by
  cases task with
  | table H t =>
      by_cases h : ∃ file, E.Executes pid (E.remove H t).1 (E.remove H t).2 t file
      · obtain ⟨file, hfile⟩ := h
        refine ⟨fun _ => ⟨file, hfile⟩, fun _ => ?_⟩
        rw [Task.stop_table hfile]
        split_ifs
        · exact ⟨_, rfl⟩
        · exact ⟨_, rfl⟩
      · refine iff_of_false ?_ h
        rw [Task.stop]
        rcases execp_of_not_executes h with ⟨e, he⟩ | hundefined
        · rw [he]
          exact raises_not_ends e
        · rw [hundefined]
          exact undefined_not_ends
  | function result =>
      cases result with
      | returns v => exact exitStop_ends_iff v
      | raises e => exact iff_of_false (raises_not_ends e) not_false
      | ends how => exact ⟨fun _ => trivial, fun _ => ⟨how, rfl⟩⟩

/-! ## The children of a stage -/

/-- The prologue of a child ends where its move succeeds and the rest ends. -/
theorem prologue_ends_iff (e : Ends) (g : Process ω → Process ω × Stop) (p : Process ω) :
    (∃ how, (prologue E e g p).2 = .ends how) ↔ moveOk E p.pid e.child_fd e.out_fd = true ∧
      ∃ how, (g ((p.move e.child_fd e.out_fd).close e.parent_fd)).2 = .ends how := by
  rw [prologue]
  by_cases hok : moveOk E p.pid e.child_fd e.out_fd = true
  · rw [if_pos hok]
    exact ⟨fun h => ⟨hok, h⟩, And.right⟩
  · rw [if_neg hok]
    exact iff_of_false (raises_not_ends dup2Error) fun h => hok h.1

/-- A child that takes over a pipe ends where its move succeeds and its task ends. -/
theorem takeOver_ends_iff (fd in_fd : Nat) (task : Task) (p : Process ω) :
    (∃ how, (takeOver E fd in_fd task p).2 = .ends how) ↔
      moveOk E p.pid fd in_fd = true ∧ task.EndsProcess E p.pid := by
  rw [takeOver]
  by_cases hok : moveOk E p.pid fd in_fd = true
  · rw [if_pos hok]
    exact ⟨fun h => ⟨hok, (Task.stop_ends_iff _ task).mp h⟩,
      fun h => (Task.stop_ends_iff _ task).mpr h.2⟩
  · rw [if_neg hok]
    exact iff_of_false (raises_not_ends dup2Error) fun h => hok h.1

/-- The child of the `k`-th stage made ends: its descriptors can be moved, and its task ends. -/
structure StageEnds (E : System) (mode : String) (k : Nat) (task : Task) : Prop where
  /-- Its standard descriptor can be replaced. -/
  own : ∀ {r w e pid}, Opening E mode k r w e pid → moveOk E pid e.child_fd e.out_fd = true
  /-- It can take over the descriptor of the stage before. -/
  previous : ∀ {j r w e pid r' w' e' pid'}, k = j + 1 → Opening E mode j r' w' e' pid' →
    Opening E mode k r w e pid → moveOk E pid e'.parent_fd e.in_fd = true
  /-- The task ends its process. -/
  task : ∀ {r w e pid}, Opening E mode k r w e pid → task.EndsProcess E pid

/-- A stage opens with the same ends and the same child. -/
theorem Opening.unique {k r w pid r' w' pid' : Nat} {e e' : Ends} (h : Opening E mode k r w e pid)
    (h' : Opening E mode k r' w' e' pid') : e = e' ∧ pid = pid' := by
  cases h.pipe.symm.trans h'.pipe
  exact ⟨Option.some.inj (h.ends.symm.trans h'.ends), Option.some.inj (h.fork.symm.trans h'.fork)⟩

/-- What is known of the caller after stage `k`, whose descriptor `fd` it keeps, fresh descriptors
or not. -/
structure Between (E : System) (mode : String) (k fd : Nat) (p : Process ω) : Prop where
  pipes : p.pipes = k + 1
  forks : p.forks = k + 1
  started : p.started = []
  kept : ∃ r w e pid, Opening E mode k r w e pid ∧ fd = e.parent_fd

section Child

variable {p : Process ω} {r w pid : Nat} {e : Ends}

/-- The child of the first stage ends. -/
theorem firstChild_ends_iff (ho : Opening E mode 0 r w e pid) (task : Task) (p : Process ω) :
    (∃ how, (firstChild E task e (p.child pid)).2 = .ends how) ↔ StageEnds E mode 0 task := by
  have hpid : (((p.child pid).move e.child_fd e.out_fd).close e.parent_fd).pid = pid :=
    Process.move_pid _ _ _
  rw [firstChild, prologue_ends_iff, Task.stop_ends_iff, hpid]
  constructor
  · rintro ⟨hmove, htask⟩
    refine ⟨fun ho' => ?_, fun h => absurd h (Nat.succ_ne_zero _).symm, fun ho' => ?_⟩
    · obtain ⟨rfl, rfl⟩ := ho.unique ho'
      exact hmove
    · obtain ⟨-, rfl⟩ := ho.unique ho'
      exact htask
  · exact fun h => ⟨h.own ho, h.task ho⟩

/-- The child of a later stage ends. -/
theorem Between.nextChild_ends_iff {k fd : Nat} {q : Process ω} (hq : Between E mode k fd q)
    (ho : Opening E mode (k + 1) r w e pid) (task : Task) (p : Process ω) :
    (∃ how, (nextChild E fd task e (p.child pid)).2 = .ends how) ↔
      StageEnds E mode (k + 1) task := by
  -- what it takes over is the parent's end of the stage before
  obtain ⟨r₀, w₀, e₀, pid₀, ho₀, rfl⟩ := hq.kept
  have hpid : (((p.child pid).move e.child_fd e.out_fd).close e.parent_fd).pid = pid :=
    Process.move_pid _ _ _
  rw [nextChild, prologue_ends_iff, takeOver_ends_iff, hpid]
  constructor
  · rintro ⟨hown, hprevious, htask⟩
    refine ⟨fun ho' => ?_, fun hj ho₁ ho' => ?_, fun ho' => ?_⟩
    · obtain ⟨rfl, rfl⟩ := ho.unique ho'
      exact hown
    · cases hj
      obtain ⟨rfl, rfl⟩ := ho.unique ho'
      rw [← (ho₀.unique ho₁).1]
      exact hprevious
    · obtain ⟨-, rfl⟩ := ho.unique ho'
      exact htask
  · exact fun h => ⟨h.own ho, h.previous rfl ho₀ ho, h.task ho⟩

/-- The process forked for the `k`-th stage made, which runs the `i`-th task, and how it left. -/
structure StageChild (E : System) (mode : String) (tasks : List Task) (k i : Nat)
    (l : Process ω × Stop) : Prop where
  started : ∀ s ∈ l.1.started, s.task = taskAt tasks i
  ends_iff : (∃ how, l.2 = .ends how) ↔ StageEnds E mode k (taskAt tasks i)

/-- A child starts what it goes on with. -/
theorem prologue_started {g : Process ω → Process ω × Stop} {P : Start ω → Prop}
    (hp : p.started = [])
    (hg : ∀ q : Process ω, q.started = [] → ∀ s ∈ (g q).1.started, P s) :
    ∀ s ∈ (prologue E e g p).1.started, P s := by
  rw [prologue]
  split_ifs
  · exact hg _ ((Process.move_started p _ _).trans hp)
  · intro s hs
    rw [show (p, Stop.raises dup2Error).1.started = [] from hp] at hs
    exact absurd hs List.not_mem_nil

/-- A process starts its task. -/
theorem start_started (hp : p.started = []) (task : Task) (args : List LuaValue) :
    ∀ s ∈ (p.start task args).started, s.task = task := by
  intro s hs
  have hmem : s ∈ p.started ++ [⟨task, args, p.fds⟩] := hs
  rw [hp, List.nil_append, List.mem_singleton] at hmem
  rw [hmem]

/-- The child of the first stage. -/
theorem stageChild_first (ho : Opening E mode 0 r w e pid) (tasks : List Task) (i : Nat)
    (hp : p.started = []) :
    StageChild E mode tasks 0 i (firstChild E (taskAt tasks i) e (p.child pid)) :=
  ⟨prologue_started hp fun _ hq => start_started hq _ _, firstChild_ends_iff ho _ p⟩

/-- The child of a later stage. -/
theorem Between.stageChild {k fd : Nat} (hp : Between E mode k fd p)
    (ho : Opening E mode (k + 1) r w e pid) (tasks : List Task) (i : Nat) :
    StageChild E mode tasks (k + 1) i
      (nextChild E fd (taskAt tasks i) e ((p.pipe r w).child pid)) := by
  refine ⟨prologue_started hp.started fun q hq => ?_, hp.nextChild_ends_iff ho _ _⟩
  rw [takeOver]
  split_ifs
  · exact start_started ((Process.move_started q _ _).trans hq) _ _
  · intro s hs
    rw [show (q, Stop.raises dup2Error).1.started = [] from hq] at hs
    exact absurd hs List.not_mem_nil

end Child

/-- The children, followed through the rounds. -/
def stageChildren (E : System) (mode : String) (tasks : List Task) : Followed ω where
  caller := Between E mode
  child := StageChild E mode tasks
  raised _ _ := True

/-- **The children of every run** are those of its stages. -/
theorem stageChildren_kept (E : System) (mode : String) (tasks : List Task) (self : Nat)
    (T : Nat → Option ω) :
    (stageChildren E mode tasks).Kept E mode tasks (Process.initial self T) where
  pipes hp := hp.pipes
  forks hp := hp.forks
  first ho := ⟨rfl, rfl, rfl, _, _, _, _, ho, rfl⟩
  first_child ho i := stageChild_first ho tasks i rfl
  first_raised _ := trivial
  next hp ho := ⟨congrArg (· + 1) hp.pipes, congrArg (· + 1) hp.forks, hp.started, _, _, _, _, ho,
    rfl⟩
  next_child hp ho i := hp.stageChild ho tasks i
  next_raised _ _ := trivial

end LuaPosix.Popen

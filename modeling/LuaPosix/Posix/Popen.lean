import LuaPosix.Posix.Process

/-! # `popen`, `popen_pipeline` and `spawn`

Each task runs in a process of its own. `popen` connects it to the caller by a pipe; the later
stages of `popen_pipeline` are functions that first take over the descriptor of the stage
before. -/

namespace LuaPosix.Popen

open LuaPattern (LStr)

/-- What `popen` returns. -/
structure Pfd where
  pids : List Nat
  fd : Nat
  deriving DecidableEq, Repr

/-- The descriptors of a stage: the ends of its pipe that the parent and the child keep, and the
standard descriptors the child leaves alone and replaces. -/
structure Ends where
  parent_fd : Nat
  child_fd : Nat
  in_fd : Nat
  out_fd : Nat
  deriving DecidableEq, Repr

/-- `STDIN_FILENO`. -/
def STDIN_FILENO : Nat := 0

/-- `STDOUT_FILENO`. -/
def STDOUT_FILENO : Nat := 1

/-- `parent_fd, child_fd, in_fd, out_fd` by the mode. -/
def popenEnds (mode : String) (read_fd write_fd : Nat) : Option Ends :=
  if mode = "r" then some ⟨read_fd, write_fd, STDIN_FILENO, STDOUT_FILENO⟩
  else if mode = "w" then some ⟨write_fd, read_fd, STDOUT_FILENO, STDIN_FILENO⟩
  else none

/-- A descriptor as a Lua value. -/
def fdValue (fd : Nat) : LuaValue := .integer (BitVec.ofNat 64 fd)

section Model

variable {ω : Type} (E : System)

/-- `move_fd(from_fd, to_fd)`. -/
def move_fd (from_fd to_fd : Nat) : ProcM ω Unit :=
  if from_fd ≠ to_fd then do
    let ok ← dup2 E from_fd to_fd
    if ok then close from_fd else raise (.error "error dup2-ing")
  else return ()

/-- The task starts in its process. -/
def start (task : Task) (args : List LuaValue) : ProcM ω Unit :=
  Forking.modify fun p => { p with started := p.started ++ [⟨task, args, p.fds⟩] }

/-- Call the function of a task. -/
def FunctionResult.call : FunctionResult → ProcM ω LuaValue
  | .returns v => return v
  | .raises e => raise e
  | .ends how => Forking.leave (.ends how)

/-- `exit(f(...) or 0)`. -/
def exitWith (call : ProcM ω LuaValue) : ProcM ω Unit := do
  let v ← call
  exit E (if v = .nil ∨ v = .boolean false then .integer 0 else v)

/-- `Pexecx(task, ...)`. -/
def execx (task : Task) (args : List LuaValue) : ProcM ω Unit :=
  match task with
  | .table H t => do
      start task args
      execp E (E.remove H t).1 (E.remove H t).2 t
      let n ← errno E
      _exit n
  | .function result =>
      exitWith E do
        start task args
        result.call

/-- `Ppopen(task, mode, pipe_fn)`, where `child fd in_fd out_fd` is `Pexecx` of the task. -/
def popenWith (child : (fd in_fd out_fd : Nat) → ProcM ω Unit) (mode : String) : ProcM ω Pfd := do
  let fds ← pipe E
  match fds with
  | none => raise (.error "error opening pipe")
  | some (read_fd, write_fd) =>
      match popenEnds mode read_fd write_fd with
      | none => raise (.error "invalid mode")
      | some e => do
          let pid ← fork E
          match pid with
          | none => raise (.error "error forking")
          | some pid => do
              if pid = 0 then
                move_fd E e.child_fd e.out_fd
                close e.parent_fd
                child e.child_fd e.in_fd e.out_fd
              close e.child_fd
              return { pids := [pid], fd := e.parent_fd }

/-- `popen(task, mode, pipe_fn)`. -/
def popen (task : Task) (mode : String) : ProcM ω Pfd :=
  popenWith E (fun fd in_fd out_fd => execx E task [fdValue fd, fdValue in_fd, fdValue out_fd]) mode

/-- Calling nil raises. -/
def nilTask : Task := .function (.raises (.error "attempt to call a nil value"))

/-- `tasks[i]`. -/
def taskAt (tasks : List Task) : (i : Nat) → Task
  | 0 => nilTask
  | i + 1 => tasks[i]?.getD nilTask

/-- `first`, and the stages from `from` to `to` by `inc`. -/
def stages (n : Nat) (mode : String) : Nat × List Nat :=
  if mode = "w" then (n, (List.range' 1 (n - 1)).reverse) else (1, List.range' 2 (n - 1))

/-- One round of the loop of `Ppopen_pipeline`. -/
def nextStage (tasks : List Task) (mode : String) (pfd : Pfd) (i : Nat) : ProcM ω Pfd := do
  let pfd_next ← popenWith E (fun _ in_fd _ => exitWith E do
      move_fd E pfd.fd in_fd
      execx E (taskAt tasks i) []
      return .nil) mode
  close pfd.fd
  return { fd := pfd_next.fd, pids := pfd.pids ++ pfd_next.pids.take 1 }

/-- `popen_pipeline(tasks, mode, pipe_fn)`. -/
def popen_pipeline (tasks : List Task) (mode : String) : ProcM ω Pfd := do
  let pfd ← popen E (taskAt tasks (stages tasks.length mode).1) mode
  (stages tasks.length mode).2.foldlM (nextStage E tasks mode) pfd

/-- `spawn(task, ...)`: a status and a reason, or the number and message of an error. -/
def spawn (task : Task) (args : List LuaValue) : ProcM ω (LuaValue × LuaValue) := do
  let pid ← fork E
  match pid with
  | none => return (E.forkError.2, E.forkError.1)
  | some pid => do
      if pid = 0 then
        execx E task args
      return ((E.wait pid).2, (E.wait pid).1)

end Model

end LuaPosix.Popen

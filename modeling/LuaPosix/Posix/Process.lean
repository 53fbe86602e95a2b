import LuaPosix.Lib.Forking
import LuaPosix.Lua.Sequence
import LuaPosix.Posix.Exec

/-! # Processes

Processes with a table of open descriptors, and the calls `posix.init` makes of them: `fork`,
`dup2`, `close`, `execp`, `_exit`, `os.exit` and the pipe function. What the kernel and the
caller's own functions answer is a parameter; a descriptor table only knows the files the
caller had open before, and the ends of the pipes made since. `execp` is the C function of
`posix.unistd`, on a stack of its own. -/

namespace LuaPosix.Popen

open LuaPattern (LStr)
open Traversal (Layout)

/-! ## Descriptor tables -/

/-- The end of a pipe. -/
inductive PipeEnd where
  | read
  | write
  deriving DecidableEq, Repr

/-- An open file: one of the caller's, or an end of what the `k`-th call of the pipe function
made. -/
inductive File (ω : Type) where
  | inherited (f : ω)
  | pipe (k : Nat) (e : PipeEnd)
  deriving DecidableEq, Repr

/-- A descriptor table. -/
abbrev Fds (ω : Type) := Nat → Option (File ω)

/-! ## Tasks -/

/-- How a process ends for good. -/
inductive End where
  /-- Another program runs in it. -/
  | exec (path : LStr) (argv : List LStr)
  /-- `os.exit`. -/
  | exit (status : Int)
  /-- `_exit`. -/
  | _exit (status : Int)
  deriving DecidableEq, Repr

/-- Why a process leaves the Lua code: an error that reaches the top of the call, its end, or a
step that C leaves undefined. -/
inductive Stop where
  | raises (e : LuaError)
  | ends (how : End)
  | undefined
  deriving DecidableEq, Repr

/-- What calling a Lua function in its process comes to. -/
inductive FunctionResult where
  /-- Its first value, nil where there is none. -/
  | returns (v : LuaValue)
  | raises (e : LuaError)
  /-- It ends the process itself. -/
  | ends (how : End)
  deriving DecidableEq, Repr

/-- A task: a table of the heap it is given in, whose list is for `execp`, or something to call. -/
inductive Task where
  | table (H : Heap) (t : Nat)
  | function (result : FunctionResult)

/-! ## Processes -/

/-- A task that was started: its arguments and the descriptors of its process. -/
structure Start (ω : Type) where
  task : Task
  args : List LuaValue
  fds : Fds ω

/-- A process. -/
structure Process (ω : Type) where
  pid : Nat
  fds : Fds ω
  /-- The calls of the pipe function so far. -/
  pipes : Nat
  /-- The calls of `fork` so far. -/
  forks : Nat
  /-- The tasks it has started. -/
  started : List (Start ω)

/-- What the rest of the system answers. -/
structure System where
  /-- The `k`-th call of the pipe function: an error, nil, or a read and a write descriptor. -/
  pipe : Nat → LuaM (Option (Nat × Nat))
  /-- The `k`-th `fork` of the caller: nil, or the pid of the child. -/
  fork : Nat → Option Nat
  fork_pos : ∀ {k pid}, fork k = some pid → 0 < pid
  /-- The message and number of a failed `fork`. -/
  forkError : LuaValue × LuaValue
  /-- Whether `dup2` succeeds in a process. -/
  dup2 : (pid : Nat) → (oldfd newfd : Nat) → Bool
  /-- What `execp` finds in a process: room on its stack, memory, and which programs cannot be
  run. -/
  frame : (pid : Nat) → Environment Unistd.Call
  /-- `errno` of a process whose program could not be run. -/
  errno : (pid : Nat) → LuaInteger
  /-- The reason and status `wait` reports of a child, or its error. -/
  wait : (pid : Nat) → LuaValue × LuaValue
  /-- Numerals, and the texts of numbers. -/
  numerals : Numerals
  /-- The operator `#`. -/
  length : Length
  /-- How tables are laid out. -/
  layout : Layout fun _ : LuaValue => LuaValue

/-- Computations of a process. -/
abbrev ProcM (ω : Type) := Forking (Process ω) Stop

/-- Raise an error. -/
def raise {ω α : Type} (e : LuaError) : ProcM ω α := Forking.leave (.raises e)

/-- End the process. -/
def ends {ω α : Type} (how : End) : ProcM ω α := Forking.leave (.ends how)

section Calls

variable {ω : Type} (E : System)

/-! ## System calls -/

/-- Close a descriptor of a process. -/
def Process.close (p : Process ω) (fd : Nat) : Process ω :=
  { p with fds := Function.update p.fds fd none }

/-- Make `newfd` refer to what `oldfd` does. -/
def Process.dup2 (p : Process ω) (oldfd newfd : Nat) : Process ω :=
  { p with fds := Function.update p.fds newfd (p.fds oldfd) }

/-- The two ends of a new pipe at two descriptors. -/
def Process.pipe (p : Process ω) (read_fd write_fd : Nat) : Process ω :=
  { p with
    fds := Function.update (Function.update p.fds read_fd (some (.pipe p.pipes .read))) write_fd
      (some (.pipe p.pipes .write))
    pipes := p.pipes + 1 }

/-- `close(fd)`; nobody looks at its result. -/
def close (fd : Nat) : ProcM ω Unit := Forking.modify fun p => p.close fd

/-- `dup2(oldfd, newfd)`, nil where it fails. -/
def dup2 (oldfd newfd : Nat) : ProcM ω Bool := do
  let p ← Forking.get
  if E.dup2 p.pid oldfd newfd then
    Forking.modify fun p => p.dup2 oldfd newfd
    return true
  else return false

/-- `(pipe_fn or pipe)()`. -/
def pipe : ProcM ω (Option (Nat × Nat)) := do
  let p ← Forking.get
  match E.pipe p.pipes with
  | .ok (some (read_fd, write_fd)) => do
      Forking.modify fun p => p.pipe read_fd write_fd
      return some (read_fd, write_fd)
  | .ok none => do
      Forking.modify fun p => { p with pipes := p.pipes + 1 }
      return none
  | .error e => do
      Forking.modify fun p => { p with pipes := p.pipes + 1 }
      raise e

/-- `fork()`: nil, the pid of the child in the parent, 0 in the child. -/
def fork : ProcM ω (Option Nat) := do
  let p ← Forking.get
  match E.fork p.forks with
  | some pid =>
      Forking.fork (fun p => ({ p with forks := p.forks + 1 }, some pid))
        (fun p => ({ p with forks := p.forks + 1, pid := pid }, some 0))
  | none => do
      Forking.modify fun p => { p with forks := p.forks + 1 }
      return none

/-- `#t`. -/
def System.objlen (H : Heap) (t : Nat) : LuaInteger :=
  BitVec.ofNat 64 (E.length.len (H.tables t))

/-- `remove(t, 1)`. -/
def System.remove (H : Heap) (t : Nat) : LuaValue × Heap :=
  H.removeFirst E.layout t (E.objlen H t)

/-- The arguments a program finds in its vector: those before the first NULL. -/
def programArgs (argv : List (Option LStr)) : List LStr :=
  (argv.takeWhile Option.isSome).reduceOption

/-- The end of a process whose program was replaced by its last call. -/
def replacedBy (calls : List Unistd.Call) : Stop :=
  match calls.getLast? with
  | some (.execvp path argv) => .ends (.exec path (programArgs argv))
  | _ => .undefined

/-- What `execp(path, argt)` comes to in a process: it returns where the program cannot be run, and
raises what `runexec` raises. -/
def System.execp (pid : Nat) (path : LuaValue) (H : Heap) (argt : Nat) : Except Stop Unit :=
  match (Unistd.Pexecp E.numerals E.objlen (E.frame pid) H [path, .table argt]).run
      FrameM.start with
  | .ok _ _ => .ok ()
  | .error (.fault (.raises e)) _ => .error (.raises e)
  | .error .replaced s => .error (replacedBy s.rest)
  | .error _ _ => .error .undefined

/-- `execp(path, argt)`. -/
def execp (path : LuaValue) (H : Heap) (argt : Nat) : ProcM ω Unit := do
  let p ← Forking.get
  match E.execp p.pid path H argt with
  | .ok () => return ()
  | .error stop => Forking.leave stop

/-- `select(2, errno())`. -/
def errno : ProcM ω LuaInteger := do
  let p ← Forking.get
  return E.errno p.pid

/-- `_exit(status)`. -/
def _exit (status : LuaInteger) : ProcM ω Unit := ends (._exit (toInt status))

/-- The status `os.exit` takes from its argument: a boolean, or what converts to an integer. -/
def System.exitStatus (code : LuaValue) : LuaM Int :=
  match code with
  | .boolean b => .ok (if b then 0 else 1)
  | v =>
      match v.tointegerx E.numerals.strtod with
      | some status => .ok (toInt status)
      | none =>
          if v.isnumber E.numerals.strtod then
            .error (.argerror 1 "number has no integer representation")
          else .error (.argerror 1 ("number expected, got " ++ LuaValue.typename (some v)))

/-- `os.exit(code)`. -/
def exit (code : LuaValue) : ProcM ω Unit :=
  match E.exitStatus code with
  | .ok status => ends (.exit status)
  | .error e => raise e

end Calls

end LuaPosix.Popen

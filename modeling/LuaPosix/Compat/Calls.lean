import LuaPosix.Compat.ModeMunch

/-! # The calls of `posix.compat`

The functions that take a mode string, over a process with a file mode creation mask and a
record of the system calls it makes. The kernel is a parameter: what `stat` reports and what
each other call returns. Arguments are those `argscheck` lets through. -/

namespace LuaPosix

open LuaPattern

/-- A system call with its arguments. -/
inductive Syscall (ν : Type) where
  | stat (path : LStr)
  | chmod (path : LStr) (mode : ν)
  | open (path : LStr) (oflags : ν) (mode : Option ν)
  | mkdir (path : LStr) (mode : ν)
  | mkfifo (path : LStr) (mode : ν)
  | msgget (key msgflg : ν)
  | umask (mask : ν)
  deriving DecidableEq, Repr

/-- The calls that touch neither the file system nor a message queue: `stat` only reads, and
`umask` is a matter of the process. -/
def Syscall.isLocal {ν : Type} : Syscall ν → Bool
  | .stat _ | .umask _ => true
  | _ => false

/-- The rest of the system: the mode `stat` reports for a path, what the other calls return,
and the platform's `fcntl.h` constants. -/
structure Kernel (ν ρ : Type) where
  /-- `st_mode` of a path, none where `stat` fails. -/
  stMode : LStr → Option ν
  /-- What a call returns to Lua. -/
  answer : Syscall ν → ρ
  O_CREAT : ν
  O_WRONLY : ν
  O_TRUNC : ν

/-- A process: its file mode creation mask and the system calls it has made. -/
structure Proc (ν : Type) where
  mask : ν
  calls : List (Syscall ν)
  deriving DecidableEq, Repr

/-- Calls of the process that may raise; what was done before an error stays done. -/
abbrev PosixM (ν : Type) := ExceptT LuaError (StateM (Proc ν))

section Calls

variable {ν ρ : Type} [DecidableEq ν] (B : Bitwise ν) (K : Kernel ν ρ)

/-- `RWXALL`. -/
def RWXALL : ν := B.bor (B.ofNat S_IRWXU) [B.ofNat S_IRWXG, B.ofNat S_IRWXO]

/-- `FCREAT`. -/
def FCREAT : ν := B.bor K.O_CREAT [K.O_WRONLY, K.O_TRUNC]

/-- Make a system call and return its answer. -/
def syscall (c : Syscall ν) : PosixM ν ρ := do
  modify fun p => { p with calls := p.calls ++ [c] }
  return K.answer c

/-- `stat(path).st_mode`, nil when `stat` fails. -/
def sysStat (path : LStr) : PosixM ν (Option ν) := do
  modify fun p => { p with calls := p.calls ++ [.stat path] }
  return K.stMode path

/-- `umask(2)`: set the mask to the low nine bits of the argument and return the old one. -/
def sysUmask (mask : ν) : PosixM ν ν := do
  let p ← get
  set ({ mask := B.band mask [RWXALL B], calls := p.calls ++ [.umask mask] } : Proc ν)
  return p.mask

/-- `mode_munch` for argument `i` of `name`: its bits, or an argument error. -/
def munchOrRaise (name : String) (i : Nat) (mode : ν) (modestr : Option LStr) : PosixM ν ν :=
  match modeMunch B mode modestr with
  | .ok (.mode bits) => return bits
  | .ok (.bad err) => throw (argerror name i err)
  | .error e => throw e

/-- `posix.chmod(path, modestr)`. -/
def chmod (path modestr : LStr) : PosixM ν ρ := do
  let mode ← sysStat K path
  let bits ← munchOrRaise B "chmod" 2 (mode.getD (B.ofNat 0)) (some modestr)
  syscall K (.chmod path (B.band bits [RWXALL B]))

/-- `posix.creat(path, modestr)`. -/
def creat (path modestr : LStr) : PosixM ν ρ := do
  let bits ← munchOrRaise B "creat" 2 (B.ofNat 0) (some modestr)
  syscall K (.open path (FCREAT B K) (some (B.band bits [RWXALL B])))

/-- `posix.mkdir(path)`. -/
def mkdir (path : LStr) : PosixM ν ρ := syscall K (.mkdir path (RWXALL B))

/-- `posix.mkfifo(path)`. -/
def mkfifo (path : LStr) : PosixM ν ρ := syscall K (.mkfifo path (RWXALL B))

/-- `posix.msgget(key, msgflg, modestr)`; `bor` raises on a missing `msgflg`. -/
def msgget (key : ν) (msgflg : Option ν) (modestr : Option LStr) : PosixM ν ρ := do
  let bits ← munchOrRaise B "msgget" 3 (B.ofNat 0) modestr
  match msgflg with
  | some msgflg => syscall K (.msgget key (B.bor msgflg [B.band bits [RWXALL B]]))
  | none => throw (.error "attempt to perform bitwise operation on a nil value")

/-- `posix.open(path, oflags, modestr)`; the mode only matters with `O_CREAT`. -/
def posixOpen (path : LStr) (oflags : ν) (modestr : Option LStr) : PosixM ν ρ := do
  if B.band oflags [K.O_CREAT] ≠ B.ofNat 0 then
    let bits ← munchOrRaise B "open" 3 (B.ofNat 0) modestr
    syscall K (.open path oflags (some (B.band bits [RWXALL B])))
  else syscall K (.open path oflags none)

/-- `posix.umask(modestr)`. -/
def umask (modestr : Option LStr) : PosixM ν LStr := do
  let modestr := modestr.getD []
  -- The mask can only be read by setting it.
  let mode ← sysUmask B (B.ofNat 0)
  let _ ← sysUmask B mode
  let mode := B.band (B.bnot mode) [RWXALL B]
  if modestr ≠ [] then
    let bits ← munchOrRaise B "umask" 1 mode (some modestr)
    let mode := B.band bits [RWXALL B]
    let _ ← sysUmask B (B.bnot mode)
    return pushmode B mode
  else return pushmode B mode

end Calls

/-! ## Running a call -/

section Exec

variable {ν ρ α β : Type}

/-- Run a call: its result or error, and the process afterwards. -/
def exec (call : PosixM ν α) (p : Proc ν) : Except LuaError α × Proc ν := call.run p

/-- A value is returned without a call. -/
@[simp] theorem exec_pure (a : α) (p : Proc ν) : exec (pure a) p = (.ok a, p) := rfl

/-- An error is raised without a call. -/
@[simp] theorem exec_throw (e : LuaError) (p : Proc ν) :
    exec (throw e : PosixM ν α) p = (.error e, p) := rfl

/-- A computation goes on from the process that the first part leaves, unless that raises. -/
theorem exec_bind (x : PosixM ν α) (f : α → PosixM ν β) (p : Proc ν) :
    exec (x >>= f) p = match exec x p with
      | (.ok a, p) => exec (f a) p
      | (.error e, p) => (.error e, p) := by
  have hbind : exec (x >>= f) p = (match x.run p with
      | (.ok a, p) => (f a).run p
      | (.error e, p) => (.error e, p)) := by
    rw [exec, ExceptT.run_bind]
    simp only [bind, StateT.bind]
    obtain ⟨r | r, p'⟩ := x.run p <;> rfl
  exact hbind

/-- A system call is answered and written down. -/
@[simp] theorem exec_syscall (K : Kernel ν ρ) (c : Syscall ν) (p : Proc ν) :
    exec (syscall K c) p = (.ok (K.answer c), { p with calls := p.calls ++ [c] }) := rfl

/-- `stat` is answered and written down. -/
@[simp] theorem exec_sysStat (K : Kernel ν ρ) (path : LStr) (p : Proc ν) :
    exec (sysStat K path) p = (.ok (K.stMode path), { p with calls := p.calls ++ [.stat path] }) :=
  rfl

/-- `umask` gives the old mask and sets the new one. -/
@[simp] theorem exec_sysUmask (B : Bitwise ν) (mask : ν) (p : Proc ν) :
    exec (sysUmask B mask) p
      = (.ok p.mask, ⟨B.band mask [RWXALL B], p.calls ++ [.umask mask]⟩) := rfl

end Exec

/-! ## Rejected mode strings -/

section Rejected

variable {ν ρ α : Type} (B : Bitwise ν) (K : Kernel ν ρ)

/-- A call raises and leaves the mask, the file system and the message queues alone. -/
def RaisesUnchanged (call : PosixM ν α) (p : Proc ν) : Prop :=
  ∃ e calls, exec call p = (.error e, { p with calls := p.calls ++ calls }) ∧
    ∀ c ∈ calls, c.isLocal

/-- A rejected mode string makes `munchOrRaise` raise, whatever the starting mode. -/
theorem munchOrRaise_bad {mode : ν} {modestr : Option LStr} {err : Option String}
    (h : modeMunch B mode modestr = .ok (.bad err)) (name : String) (i : Nat) :
    munchOrRaise B name i mode modestr = throw (argerror name i err) := by
  rw [munchOrRaise, h]

variable {modestr : LStr}
  (h : ∀ m, ∃ err, modeMunch B m (some modestr) = .ok (.bad err))

include h

/-- `chmod` refuses such a mode before it calls anything. -/
theorem chmod_rejected (path : LStr) (p : Proc ν) :
    RaisesUnchanged (chmod B K path modestr) p := by
  obtain ⟨err, herr⟩ := h ((K.stMode path).getD (B.ofNat 0))
  refine ⟨argerror "chmod" 2 err, [.stat path], ?_, by simp [Syscall.isLocal]⟩
  simp only [chmod, exec_bind, exec_sysStat, munchOrRaise_bad B herr, exec_throw]

/-- `creat` refuses such a mode before it calls anything. -/
theorem creat_rejected (path : LStr) (p : Proc ν) :
    RaisesUnchanged (creat B K path modestr) p := by
  obtain ⟨err, herr⟩ := h (B.ofNat 0)
  refine ⟨argerror "creat" 2 err, [], ?_, by simp⟩
  simp only [creat, exec_bind, munchOrRaise_bad B herr, exec_throw, List.append_nil]

/-- `msgget` refuses such a mode before it calls anything. -/
theorem msgget_rejected (key : ν) (msgflg : Option ν) (p : Proc ν) :
    RaisesUnchanged (msgget B K key msgflg (some modestr)) p := by
  obtain ⟨err, herr⟩ := h (B.ofNat 0)
  refine ⟨argerror "msgget" 3 err, [], ?_, by simp⟩
  simp only [msgget, exec_bind, munchOrRaise_bad B herr, exec_throw, List.append_nil]

variable [DecidableEq ν]

/-- `open` refuses such a mode where it needs one, before it calls anything. -/
theorem posixOpen_rejected (path : LStr) {oflags : ν}
    (hcreat : B.band oflags [K.O_CREAT] ≠ B.ofNat 0) (p : Proc ν) :
    RaisesUnchanged (posixOpen B K path oflags (some modestr)) p := by
  obtain ⟨err, herr⟩ := h (B.ofNat 0)
  refine ⟨argerror "open" 3 err, [], ?_, by simp⟩
  simp only [posixOpen, if_pos hcreat, exec_bind, munchOrRaise_bad B herr, exec_throw,
    List.append_nil]

/-- `umask` has set the mask to zero and back before it looks at its argument. -/
theorem umask_rejected (hne : modestr ≠ []) {p : Proc ν}
    (hmask : B.band p.mask [RWXALL B] = p.mask) :
    RaisesUnchanged (umask B (some modestr)) p := by
  obtain ⟨err, herr⟩ := h (B.band (B.bnot p.mask) [RWXALL B])
  refine ⟨argerror "umask" 1 err, [.umask (B.ofNat 0), .umask p.mask], ?_,
    by simp [Syscall.isLocal]⟩
  simp only [umask, exec_bind, exec_sysUmask, Option.getD_some, hmask, if_pos hne,
    munchOrRaise_bad B herr, exec_throw, List.append_assoc, List.singleton_append]

end Rejected

end LuaPosix

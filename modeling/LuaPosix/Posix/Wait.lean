import LuaPosix.Lua.Binding
import LuaPosix.Posix.Stages
import LuaPosix.Posix.Wiring

/-! # `wait`, and what `spawn` makes of it

`wait` takes the status word of `waitpid(2)` apart. The word is laid out as Linux does it: the
signal in the low seven bits, the mark of a core dump above it, then the exit status or the signal
that stopped the child. `spawn` returns what `wait` says of the child that ran the task, so that
what the task did in its process comes back to the caller through a status word. -/

namespace LuaPosix.Wait

open LuaPattern (LStr)

/-! ## Status words -/

/-- The word that `waitpid(2)` stores. -/
abbrev Status := BitVec 32

/-- `WTERMSIG`. -/
def WTERMSIG (status : Status) : BitVec 32 := status &&& 0x7f#32

/-- `WIFEXITED`. -/
def WIFEXITED (status : Status) : Bool := WTERMSIG status == 0#32

/-- `WEXITSTATUS`. -/
def WEXITSTATUS (status : Status) : BitVec 32 := (status &&& 0xff00#32) >>> 8

/-- The word plus one, as a `signed char`, halved. -/
def WIFSIGNALED (status : Status) : Bool :=
  0 < ((((status &&& 0x7f#32) + 1#32).setWidth 8).sshiftRight 1).toInt

/-- `WIFSTOPPED`. -/
def WIFSTOPPED (status : Status) : Bool := (status &&& 0xff#32) == 0x7f#32

/-- `WSTOPSIG`. -/
def WSTOPSIG (status : Status) : BitVec 32 := WEXITSTATUS status

/-- What can have happened to a child. -/
inductive Change where
  | exited (status : BitVec 8)
  | killed (signal : BitVec 7) (core : Bool)
  | stopped (signal : BitVec 8)
  | continued
  deriving DecidableEq, Repr

/-- The word for it. -/
def Change.status : Change → Status
  | .exited status => status.setWidth 32 <<< 8
  | .killed signal core => signal.setWidth 32 ||| if core then 0x80#32 else 0#32
  | .stopped signal => signal.setWidth 32 <<< 8 ||| 0x7f#32
  | .continued => 0xffff#32

/-- The signals that kill are numbers from 1 to 126. -/
def Change.Proper : Change → Prop
  | .killed signal _ => 0 < signal.toNat ∧ signal.toNat < 127
  | _ => True

/-- The status of an exit reads as one. -/
theorem exited_status : ∀ s : BitVec 8, WIFEXITED (Change.exited s).status = true ∧
    WEXITSTATUS (Change.exited s).status = s.setWidth 32 := by
  decide +kernel

/-- So does that of a signal. -/
theorem killed_status : ∀ (s : BitVec 7) (core : Bool), 0 < s.toNat → s.toNat < 127 →
    WIFEXITED (Change.killed s core).status = false ∧
      WIFSIGNALED (Change.killed s core).status = true ∧
      WTERMSIG (Change.killed s core).status = s.setWidth 32 := by
  decide +kernel

/-- So does that of a stop. -/
theorem stopped_status : ∀ s : BitVec 8, WIFEXITED (Change.stopped s).status = false ∧
    WIFSIGNALED (Change.stopped s).status = false ∧ WIFSTOPPED (Change.stopped s).status = true ∧
    WSTOPSIG (Change.stopped s).status = s.setWidth 32 := by
  decide +kernel

/-- The one of a continued child reads as none of them. -/
theorem continued_status : WIFEXITED Change.continued.status = false ∧
    WIFSIGNALED Change.continued.status = false ∧ WIFSTOPPED Change.continued.status = false := by
  decide

/-! ## `wait` -/

/-- What `waitpid(2)` comes to: -1 with an error number, 0 where no child has changed, or a child
and its status. -/
structure Waited where
  pid : BitVec 32
  status : Status
  errno : Int

/-- What `Pwait` pushes behind the pid. -/
def report (status : Status) : List LuaValue :=
  if WIFEXITED status then
    [.string "exited".toList, .integer ((WEXITSTATUS status).signExtend 64)]
  else if WIFSIGNALED status then
    [.string "killed".toList, .integer ((WTERMSIG status).signExtend 64)]
  else if WIFSTOPPED status then
    [.string "stopped".toList, .integer ((WSTOPSIG status).signExtend 64)]
  else []

/-- `wait(pid, options)`. -/
def Pwait {σ : Type} (strtod : LStr → Option Rat) (strerror : Int → LStr)
    (waitpid : (pid : BitVec 32) → (options : Int) → σ → Waited × σ) (args : List LuaValue) :
    BindingM σ (BitVec 32 × Int) (List LuaValue) := do
  let pid ← optinteger strtod args 1 (-1)
  let options ← optint strtod args 2 0
  checknargs args 2
  -- `pid_t` takes the low 32 bits.
  let r ← BindingM.syscall (pid.setWidth 32, options) Waited.errno
    (waitpid (pid.setWidth 32) options)
  if r.pid = -1 then return pusherror strerror (← BindingM.errno) none
  else if r.pid = 0 then return [.integer 0, .string "running".toList]
  else return .integer (r.pid.signExtend 64) :: report r.status

/-- The reason and the number for what has happened to a child. -/
def Change.report : Change → List LuaValue
  | .exited status => [.string "exited".toList, .integer (status.setWidth 64)]
  | .killed signal _ => [.string "killed".toList, .integer (signal.setWidth 64)]
  | .stopped signal => [.string "stopped".toList, .integer (signal.setWidth 64)]
  | .continued => []

/-- A number of less than 32 bits is widened as it is. -/
theorem signExtend_setWidth {n : Nat} (hn : n < 32) (v : BitVec n) :
    (v.setWidth 32).signExtend 64 = v.setWidth 64 := by
  have hmsb : (v.setWidth 32).msb = false := by
    rw [BitVec.msb_setWidth, BitVec.getLsbD_of_ge v _ (by omega), Bool.and_false]
  have hlt : v.toNat < 2 ^ 32 := v.isLt.trans (Nat.pow_lt_pow_right (by decide) hn)
  rw [BitVec.signExtend_eq_setWidth_of_msb_false hmsb]
  apply BitVec.eq_of_toNat_eq
  rw [BitVec.toNat_setWidth, BitVec.toNat_setWidth, BitVec.toNat_setWidth, Nat.mod_eq_of_lt hlt]

/-- **A status word is taken apart** into what had happened. -/
theorem report_status {c : Change} (h : c.Proper) : report c.status = c.report := by
  cases c with
  | exited s =>
      obtain ⟨hexited, hstatus⟩ := exited_status s
      rw [report, if_pos hexited, hstatus, signExtend_setWidth (by decide)]
      rfl
  | killed s core =>
      obtain ⟨hexited, hsignaled, hsignal⟩ := killed_status s core h.1 h.2
      rw [report, if_neg (by simp [hexited]), if_pos hsignaled, hsignal,
        signExtend_setWidth (by decide)]
      rfl
  | stopped s =>
      obtain ⟨hexited, hsignaled, hstopped, hsignal⟩ := stopped_status s
      rw [report, if_neg (by simp [hexited]), if_neg (by simp [hsignaled]), if_pos hstopped,
        hsignal, signExtend_setWidth (by decide)]
      rfl
  | continued =>
      obtain ⟨hexited, hsignaled, hstopped⟩ := continued_status
      rw [report, if_neg (by simp [hexited]), if_neg (by simp [hsignaled]),
        if_neg (by simp [hstopped])]
      rfl

/-! ## `spawn` -/

open Popen

variable {ω : Type} {E : System}

/-- How a process that ends ends: by the status it gives, of which eight bits are kept, or as the
program that runs in it does. -/
def changeOf (program : LStr → List LStr → Change) : End → Change
  | .exit status | ._exit status => .exited (BitVec.ofInt 8 status)
  | .exec path argv => program path argv

/-- The second and third value of a call. -/
def secondThird (vs : List LuaValue) : LuaValue × LuaValue :=
  (vs[1]?.getD .nil, vs[2]?.getD .nil)

/-- `waitpid(2)` of a child gives it and the word for how it has ended. -/
def waitpidOf (pid : Nat) (c : Change) (_ : BitVec 32) (_ : Int) (s : Unit) : Waited × Unit :=
  (⟨BitVec.ofNat 32 pid, c.status, 0⟩, s)

/-- `wait` of a child that has ended is `Pwait` of it. -/
def WaitsFor (E : System) (program : LStr → List LStr → Change) (pid : Nat) (how : End) : Prop :=
  ∃ strerror vs w, (Pwait E.numerals.strtod strerror (waitpidOf pid (changeOf program how))
    [fdValue pid]).run World.start = .ok vs w ∧ E.wait pid = secondThird vs

/-- `Pwait` of a child. -/
theorem run_Pwait (strtod : LStr → Option Rat) (strerror : Int → LStr) {pid : Nat}
    (hpos : 0 < pid) (hpid : pid < 2 ^ 31) (c : Change) :
    ∃ w, (Pwait strtod strerror (waitpidOf pid c) [fdValue pid]).run World.start
      = .ok (.integer ((BitVec.ofNat 32 pid).signExtend 64) :: report c.status) w := by
  have hzero : BitVec.ofNat 32 pid ≠ 0 := by
    intro h
    have hbits := congrArg BitVec.toNat h
    rw [BitVec.toNat_ofNat, Nat.mod_eq_of_lt (by omega)] at hbits
    exact absurd hbits (Nat.ne_of_gt hpos)
  have hneg : BitVec.ofNat 32 pid ≠ -1 := by
    intro h
    have hbits := congrArg BitVec.toNat h
    rw [BitVec.toNat_ofNat, Nat.mod_eq_of_lt (by omega)] at hbits
    have hones : (-1 : BitVec 32).toNat = 2 ^ 32 - 1 := by decide
    omega
  have hrun : (Pwait strtod strerror (waitpidOf pid c) [fdValue pid]).run World.start
      = (if BitVec.ofNat 32 pid = -1 then
          (do return pusherror strerror (← BindingM.errno) none : BindingM Unit (BitVec 32 × Int) _)
        else if BitVec.ofNat 32 pid = 0 then return [.integer 0, .string "running".toList]
        else return .integer ((BitVec.ofNat 32 pid).signExtend 64) :: report c.status).run
          ⟨0, .empty, (), [((BitVec.ofNat 64 pid).setWidth 32, 0)]⟩ := rfl
  rw [hrun, if_neg hneg, if_neg hzero]
  exact ⟨_, rfl⟩

/-- What `exit(f(...) or 0)` takes from the value of a function. -/
def exitValue (v : LuaValue) : LuaValue :=
  if v = .nil ∨ v = .boolean false then .integer 0 else v

/-- `spawn`, once it has forked. -/
theorem run_spawn {p : Process ω} {pid : Nat} (task : Task) (args : List LuaValue)
    (hfork : E.fork p.forks = some pid) :
    (spawn E task args).run p = ⟨(p.forking, .ok ((E.wait pid).2, (E.wait pid).1)),
      Forking.left [((p.child pid).start task args, task.stop E pid)]⟩ := by
  have hpid : pid ≠ 0 := Nat.ne_of_gt (E.fork_pos hfork)
  rw [spawn, run_fork_bind (l := ((p.child pid).start task args, task.stop E pid)) hfork]
  · simp only [if_neg hpid]
    rfl
  · exact Forking.run_bind_of_error (run_execx _ task args)

/-- The reason and number of a child that has ended. -/
theorem wait_eq {program : LStr → List LStr → Change} {pid : Nat} {how : End} (hpos : 0 < pid)
    (hpid : pid < 2 ^ 31) (hproper : (changeOf program how).Proper)
    (hwait : WaitsFor E program pid how) :
    E.wait pid = secondThird (fdValue pid :: (changeOf program how).report) := by
  obtain ⟨strerror, vs, w, hrun, hwait⟩ := hwait
  obtain ⟨w', hrun'⟩ := run_Pwait E.numerals.strtod strerror hpos hpid
    (changeOf program how)
  rw [hrun'] at hrun
  cases hrun
  rw [hwait, report_status hproper]
  rfl

/-- What `spawn` has to return for a task. -/
def Reported (E : System) (program : LStr → List LStr → Change) (pid : Nat) (task : Task)
    (r : LuaValue × LuaValue) : Prop :=
  match task with
  | .function (.returns v) => ∀ n, E.exitStatus (exitValue v) = .ok n →
      r = (.integer ((BitVec.ofInt 8 n).setWidth 64), .string "exited".toList)
  | .function (.ends how) => r = (secondThird (fdValue pid :: (changeOf program how).report)).swap
  -- The error unwinds into the caller's continuation.
  | .function (.raises _) => True
  | .table H t => ∀ file, E.Executes pid (E.remove H t).1 (E.remove H t).2 t file →
      if E.execvp pid file (E.remove H t).2 t = none then
        r = (secondThird (fdValue pid ::
          (program file (programArgs (E.vector file (E.remove H t).2 t))).report)).swap
      else r = (.integer ((BitVec.ofInt 8 (toInt (E.errno pid))).setWidth 64),
        .string "exited".toList)

/-- **`spawn` reports its task**: the status a function returns, 0 for nil, false and true, in its
low eight bits, or how it ended the process itself; how the program of an argument list ended; and
where the program cannot be run, the low eight bits of the error number. -/
theorem spawn_reports (program : LStr → List LStr → Change)
    (hproper : ∀ path argv, (program path argv).Proper) {p : Process ω} {pid : Nat} (task : Task)
    (args : List LuaValue) (hfork : E.fork p.forks = some pid) (hpid : pid < 2 ^ 31)
    (hwait : ∀ how, task.stop E pid = .ends how → WaitsFor E program pid how) :
    ∃ r, (spawn E task args).run p = ⟨(p.forking, .ok r),
        Forking.left [((p.child pid).start task args, task.stop E pid)]⟩ ∧
      Reported E program pid task r := by
  have hends : ∀ how, task.stop E pid = .ends how →
      E.wait pid = secondThird (fdValue pid :: (changeOf program how).report) := by
    intro how hhow
    refine wait_eq (E.fork_pos hfork) hpid ?_ (hwait how hhow)
    cases how with
    | exec path argv => exact hproper path argv
    | exit status | _exit status => exact trivial
  refine ⟨_, run_spawn task args hfork, ?_⟩
  cases task with
  | function result =>
      cases result with
      | raises e => exact trivial
      | ends how => exact congrArg Prod.swap (hends how rfl)
      | returns v =>
          intro n hn
          have hstop : (Task.function (.returns v)).stop E pid = .ends (.exit n) := by
            rw [Task.stop, exitStop, show (if v = .nil ∨ v = .boolean false then _ else v)
              = exitValue v from rfl, hn]
          rw [hends _ hstop]
          rfl
  | table H t =>
      intro file hfile
      have hstop := Task.stop_table hfile
      by_cases hexec : E.execvp pid file (E.remove H t).2 t = none
      · rw [if_pos hexec] at hstop ⊢
        exact congrArg Prod.swap (hends _ hstop)
      · rw [if_neg hexec] at hstop ⊢
        rw [hends _ hstop]
        rfl

/-- A system on which every child exits with 7. -/
def sevenSystem : System :=
  { quietSystem with
    wait := fun pid => secondThird (fdValue pid :: report (Change.exited 7).status) }

/-- The value 263 comes back as 7. -/
theorem spawn_reports_seven :
    ∃ r, (spawn sevenSystem (.function (.returns (.integer 263))) []).run
        (Process.initial 0 stdTable) = ⟨((Process.initial 0 stdTable).forking, .ok r),
          Forking.left [(((Process.initial 0 stdTable).child 1).start
            (.function (.returns (.integer 263))) [], .ends (.exit 263))]⟩ ∧
      r = (.integer 7, .string "exited".toList) := by
  obtain ⟨r, hrun, hr⟩ := spawn_reports (E := sevenSystem) (p := Process.initial 0 stdTable)
    (fun _ _ => .exited 7) (fun _ _ => trivial) (.function (.returns (.integer 263))) [] rfl
    (by decide) fun how hhow => by
      obtain rfl : End.exit 263 = how := Stop.ends.inj hhow
      have hpos : 0 < 1 := by decide
      obtain ⟨w, hrun⟩ := run_Pwait sevenSystem.numerals.strtod (fun _ => []) hpos (by decide)
        (.exited 7)
      exact ⟨_, _, w, hrun, rfl⟩
  exact ⟨r, hrun, hr 263 rfl⟩

end LuaPosix.Wait

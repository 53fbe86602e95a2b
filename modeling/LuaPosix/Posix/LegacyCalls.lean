import LuaPosix.Posix.LegacyTime
import LuaPosix.Posix.Resource

/-! # Legacy calls of clocks, limits, sleeps and dates

Functions of `posix.deprecated` that call one of `posix.time` or `posix.sys.resource` and take
its first value apart, with the bindings of the clocks and of `strptime`. -/

namespace LuaPosix.LegacyCalls

open LuaPattern (LStr)
open Traversal (Layout)
open Time (Timespec Tm pushtm pushtimespec LegacyTm)

/-! ## Clocks and `strptime` -/

/-- The calls of the C library. -/
inductive Call where
  | clock_getres (clk : Int)
  | clock_gettime (clk : Int)
  | strptime (s fmt : LStr)
  deriving DecidableEq

/-- What the rest of the system answers, in a state of its own. -/
structure System (σ : Type) where
  num : Numerals
  strerror : Int → LStr
  clock_getres : (clk : Int) → σ → (SysResult 32 × Timespec) × σ
  clock_gettime : (clk : Int) → σ → (SysResult 32 × Timespec) × σ
  /-- The structure filled in and how much of the string was read, or none for NULL. -/
  strptime : (s fmt : LStr) → σ → Option (Tm × Nat) × σ

section Bindings

variable {σ : Type} (S : System σ) (args : List LuaValue)
  (L : Layout fun _ : LuaValue => LuaValue)

/-- What `clock_getres` and `clock_gettime` make of their call. -/
def clockCall (name : String) (call : Int → Call)
    (f : Int → σ → (SysResult 32 × Timespec) × σ) : BindingM σ Call (List LuaValue) := do
  let clk ← checkint S.num.strtod args 1
  checknargs args 1
  let x ← BindingM.syscall (call clk) (fun x => x.1.errno) (f clk)
  if cint x.1.value = -1 then
    return pusherror S.strerror (← BindingM.errno) (some name.toList)
  else do
    let table ← pushtimespec L x.2
    return [table]

/-- `clock_getres(clk)`. -/
def Pclock_getres : BindingM σ Call (List LuaValue) :=
  clockCall S args L "clock_getres" .clock_getres S.clock_getres

/-- `clock_gettime(clk)`. -/
def Pclock_gettime : BindingM σ Call (List LuaValue) :=
  clockCall S args L "clock_gettime" .clock_gettime S.clock_gettime

/-- `strptime(s, format)`. Nothing is returned where the string does not match. -/
def Pstrptime : BindingM σ Call (List LuaValue) := do
  let s ← checklstring args S.num.numberText 1
  let fmt ← checklstring args S.num.numberText 2
  checknargs args 2
  match ← BindingM.libcall (.strptime (cstring s) (cstring fmt))
      (S.strptime (cstring s) (cstring fmt)) with
  | some (t, n) => do
      let table ← pushtm L t
      return [table, .integer (BitVec.ofNat 64 (n + 1))]
  | none => return []

end Bindings

/-! ## The functions of `posix.deprecated` -/

/-- The time of day. -/
def CLOCK_REALTIME : LuaInteger := 0

/-- A clock that is never set. -/
def CLOCK_MONOTONIC : LuaInteger := 1

/-- The time a process has run. -/
def CLOCK_PROCESS_CPUTIME_ID : LuaInteger := 2

/-- The time a thread has run. -/
def CLOCK_THREAD_CPUTIME_ID : LuaInteger := 3

/-- `get_clk_id_const(name)`: the realtime clock for what is no name of another. -/
def get_clk_id_const (name : LuaValue) : LuaValue :=
  .integer <|
    if name = .string "monotonic".toList then CLOCK_MONOTONIC
    else if name = .string "process_cputime_id".toList then CLOCK_PROCESS_CPUTIME_ID
    else if name = .string "thread_cputime_id".toList then CLOCK_THREAD_CPUTIME_ID
    else CLOCK_REALTIME

/-- Seconds of processor time. -/
def RLIMIT_CPU : LuaInteger := 0

/-- The size of a file. -/
def RLIMIT_FSIZE : LuaInteger := 1

/-- The size of the data segment. -/
def RLIMIT_DATA : LuaInteger := 2

/-- The size of the stack. -/
def RLIMIT_STACK : LuaInteger := 3

/-- The size of a core file. -/
def RLIMIT_CORE : LuaInteger := 4

/-- One more than the largest descriptor. -/
def RLIMIT_NOFILE : LuaInteger := 7

/-- The size of the address space. -/
def RLIMIT_AS : LuaInteger := 9

/-- The names of the limits. -/
def RLIMIT_MAP : List (String × LuaInteger) :=
  [("core", RLIMIT_CORE), ("cpu", RLIMIT_CPU), ("data", RLIMIT_DATA), ("fsize", RLIMIT_FSIZE),
    ("nofile", RLIMIT_NOFILE), ("stack", RLIMIT_STACK), ("as", RLIMIT_AS)]

/-- `string.lower`. -/
def lower (s : LStr) : LStr := s.map Char.toLower

/-- `RLIMIT_MAP[lower(rcstr)]`, with the error for another name. -/
def resourceId (N : Numerals) (rcstr : LuaValue) : LuaM LuaValue := do
  let s ← checklstring [rcstr] N.numberText 1
  match RLIMIT_MAP.lookup (String.ofList (lower s)) with
  | some rc => return .integer rc
  | none => .error (.argerror 1 ("invalid option '" ++ String.ofList s ++ "'"))

section Wrappers

variable {σ κ : Type} (L : Layout fun _ : LuaValue => LuaValue)

/-- `local r = f(...); return r.a, r.b`. -/
def twoFields (f : BindingM σ κ (List LuaValue)) (a b : String) :
    BindingM σ κ (List LuaValue) := do
  let r := first (← f)
  let x ← BindingM.read fun H => H.getfield r a
  let y ← BindingM.read fun H => H.getfield r b
  return [x, y]

section Clocks

variable (O : Operators) (S : System σ) (args : List LuaValue)

/-- `clock_getres(name)`. -/
def clock_getres : BindingM σ Call (List LuaValue) :=
  twoFields (Pclock_getres S [get_clk_id_const (first args)] L) "tv_sec" "tv_nsec"

/-- `clock_gettime(name)`. -/
def clock_gettime : BindingM σ Call (List LuaValue) :=
  twoFields (Pclock_gettime S [get_clk_id_const (first args)] L) "tv_sec" "tv_nsec"

/-- `strptime(s, fmt)`. -/
def strptime : BindingM σ Call (List LuaValue) := do
  let results ← Pstrptime S [args.getD 0 .nil, args.getD 1 .nil] L
  let legacytm ← LegacyTm O L (first results)
  return [legacytm, results.getD 1 .nil]

end Clocks

section Limits

variable (S : Resource.System σ) (args : List LuaValue)

/-- `getrlimit(rcstr)`. -/
def getrlimit : BindingM σ Resource.Call (List LuaValue) := do
  let rc ← resourceId S.num (first args)
  twoFields (Resource.Pgetrlimit S [rc] L) "rlim_cur" "rlim_max"

/-- `v or lim.name`. -/
def orField (v lim : LuaValue) (name : String) : BindingM σ κ LuaValue :=
  if v.truthy then return v else BindingM.read fun H => H.getfield lim name

/-- The table that `setrlimit` sets: the limits that are not given are those there are. -/
def limits (rc cur max : LuaValue) : BindingM σ Resource.Call LuaValue := do
  let lim ← if cur = .nil ∨ max = .nil then first <$> Resource.Pgetrlimit S [rc] L
    else pure .nil
  let rlim_cur ← orField cur lim "rlim_cur"
  let rlim_max ← orField max lim "rlim_max"
  BindingM.construct L [("rlim_cur", rlim_cur), ("rlim_max", rlim_max)]

/-- `setrlimit(rcstr, cur, max)`. -/
def setrlimit : BindingM σ Resource.Call (List LuaValue) := do
  let rc ← resourceId S.num (first args)
  let limits ← limits L S rc (args.getD 1 .nil) (args.getD 2 .nil)
  Resource.Psetrlimit S [rc, limits]

end Limits

/-- The table that `nanosleep` hands on. -/
def requested (sec nsec : LuaValue) : BindingM σ κ LuaValue :=
  BindingM.construct L [("tv_sec", sec), ("tv_nsec", nsec)]

/-- `nanosleep(sec, nsec)`. -/
def nanosleep (S : Time.System σ) (args : List LuaValue) :
    BindingM σ Time.Call (List LuaValue) := do
  let req ← requested L (args.getD 0 .nil) (args.getD 1 .nil)
  let results ← Time.Pnanosleep S [req] L
  if first results = .integer 0 then return [.integer 0]
  else do
    let timespec := results.getD 3 .nil
    let tv_sec ← BindingM.read fun H => H.getfield timespec "tv_sec"
    let tv_nsec ← BindingM.read fun H => H.getfield timespec "tv_nsec"
    return [results.getD 0 .nil, results.getD 1 .nil, results.getD 2 .nil, tv_sec, tv_nsec]

end Wrappers

/-- A small instance: clocks that stand still, and no string is a date. -/
def System.undated : System Unit where
  num := .zero
  strerror _ := []
  clock_getres _ s := ((.returned 0 0, ⟨0, 1⟩), s)
  clock_gettime _ s := ((.returned 0 0, ⟨0, 0⟩), s)
  strptime _ _ s := (none, s)

end LuaPosix.LegacyCalls

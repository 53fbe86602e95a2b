import LuaPosix.Lib.Machine
import LuaPosix.Posix.Sockaddr

/-! # Options of sockets

`setsockopt` makes the bytes of an option from its arguments and `getsockopt` makes values of such
bytes, each by a `switch` of its own over the levels and names. What the system makes of the bytes
it is given is its own affair: it doubles the size of a buffer and turns a flag into 0 or 1. A
program gets what the system has kept of what it set, in the form that belongs to the option, until
the system changes it; it is what was given if and only if the system kept it as it was and it fits
into that form. -/

namespace LuaPosix.Sockopt

open LuaPattern (LStr)
open Bytes (Byte Memory)
open Traversal (Layout)
open Sockets (Presentation)

/-- The constants of the switches, all of a level different. -/
structure Constants where
  SOL_SOCKET : Int
  IPPROTO_IPV6 : Int
  IPPROTO_TCP : Int
  SO_LINGER : Int
  SO_RCVTIMEO : Int
  SO_SNDTIMEO : Int
  /-- Not everywhere. -/
  SO_BINDTODEVICE : Option Int
  IPV6_JOIN_GROUP : Int
  IPV6_LEAVE_GROUP : Int

/-- A descriptor, the level and the name of an option. -/
abbrev Key := Int × Int × Int

/-- What the system keeps of each option of each descriptor. -/
abbrev Options := Key → List Byte

/-- What comes of a call of `setsockopt(2)`: an error number, or what the system keeps. -/
abbrev Outcome (α : Type) := Except Int α

/-- The calls of the C library. -/
inductive Call where
  | setsockopt (fd level optname : Int) (val : List Byte)
  | getsockopt (fd level optname : Int) (len : Nat)

/-- What runs on it. -/
abbrev OptionM := BindingM Options Call

/-- The system. -/
structure System where
  C : Constants
  N : Numerals
  P : Presentation
  strerror : Int → LStr
  /-- The name of a device is handed out with the zero that ends it. -/
  zero : Bool

/-! ## Values of options -/

/-- The variables of the bindings that a value can be in. -/
inductive Form where
  | vint
  | linger
  | tv
  | ifname
  | mreq6
  deriving DecidableEq, Repr

/-- `IFNAMSIZ`. -/
def IFNAMSIZ : Nat := 16

/-- `sizeof`. -/
def Form.size : Form → Nat
  | .vint => 4
  | .linger => 8
  | .tv => 16
  | .ifname => IFNAMSIZ
  | .mreq6 => 20

/-- `struct linger`. -/
def lingerBytes (l_onoff l_linger : BitVec 32) : List Byte :=
  Bytes.ofNumber l_onoff ++ Bytes.ofNumber l_linger

/-- `struct timeval`. -/
def timevalBytes (tv_sec tv_usec : BitVec 64) : List Byte :=
  Bytes.ofNumber tv_sec ++ Bytes.ofNumber tv_usec

/-- `strncpy(ifname, name, IFNAMSIZ - 1)`, with a zero behind: the bytes before the first. -/
def ifnameBytes (name : LStr) : List Byte :=
  ((toBytes name).take (IFNAMSIZ - 1)).takeWhile (· ≠ 0)

section Model

variable (S : System)

/-- `inet_pton(AF_INET6, addr, &mreq6.ipv6mr_multiaddr)`, after `memset`: its result is not looked
at. -/
def mreq6Bytes (addr : LStr) : List Byte :=
  Bytes.read (Bytes.write (fun _ => 0) 0 ((S.P.inet_pton .AF_INET6 addr).getD [])) 0 20

/-- What `val` points to in `getsockopt`. -/
def getForm (C : Constants) (level optname : Int) : Form :=
  if level = C.SOL_SOCKET then
    if optname = C.SO_LINGER then .linger
    else if optname = C.SO_RCVTIMEO ∨ optname = C.SO_SNDTIMEO then .tv
    else if some optname = C.SO_BINDTODEVICE then .ifname
    else .vint
  else .vint

/-- The name of a device as it is handed out. -/
def System.shown (name : List Byte) : List Byte :=
  if S.zero ∧ name ≠ [] then name ++ [0] else name

/-- What `getsockopt(2)` hands out of what is kept. -/
def handedOut (level optname : Int) (kept : List Byte) : List Byte :=
  if getForm S.C level optname = .ifname then S.shown kept else kept

/-- `setsockopt(fd, level, optname, val, len)`, which fails with an error number, or after which the
system keeps what it has made of the value. -/
def setsockopt (outcome : Outcome (List Byte)) (fd level optname : Int) (val : List Byte) :
    OptionM Int := fun w =>
  match outcome with
  | .error e => .ok (-1) { w with
      errno := e, calls := w.calls ++ [.setsockopt fd level optname val] }
  | .ok kept => .ok 0 { w with
      sys := Function.update w.sys (fd, level, optname) kept
      calls := w.calls ++ [.setsockopt fd level optname val] }

/-- `getsockopt(fd, level, optname, val, &len)`: what there is room for, and its length. -/
def getsockopt (fails : Option Int) (fd level optname : Int) (val : Memory) (len : Nat) :
    OptionM (Option (Memory × Nat)) := fun w =>
  match fails with
  | some e => .ok none { w with
      errno := e, calls := w.calls ++ [.getsockopt fd level optname len] }
  | none =>
      let bytes := (handedOut S level optname (w.sys (fd, level, optname))).take len
      .ok (some (Bytes.write val 0 bytes, bytes.length)) { w with
        calls := w.calls ++ [.getsockopt fd level optname len] }

/-- What the switch of `setsockopt` makes `val` point to: NULL unless the option has a form of its
own. -/
def switchValue (level optname : Int) (args : List LuaValue) : LuaM (Option (List Byte)) :=
  if level = S.C.SOL_SOCKET then
    if optname = S.C.SO_LINGER then do
      checknargs args 5
      let l_onoff ← checkinteger S.N.strtod args 4
      let l_linger ← checkinteger S.N.strtod args 5
      return some (lingerBytes (l_onoff.setWidth 32) (l_linger.setWidth 32))
    else if optname = S.C.SO_RCVTIMEO ∨ optname = S.C.SO_SNDTIMEO then do
      checknargs args 5
      let tv_sec ← checkinteger S.N.strtod args 4
      let tv_usec ← checkinteger S.N.strtod args 5
      return some (timevalBytes tv_sec tv_usec)
    else if some optname = S.C.SO_BINDTODEVICE then do
      checknargs args 4
      let name ← checklstring args S.N.numberText 4
      return some (ifnameBytes name)
    else do
      checknargs args 4
      return none
  else if level = S.C.IPPROTO_IPV6 then
    if optname = S.C.IPV6_JOIN_GROUP ∨ optname = S.C.IPV6_LEAVE_GROUP then do
      checknargs args 4
      let addr ← checklstring args S.N.numberText 4
      return some (mreq6Bytes S (cstring addr))
    else do
      checknargs args 4
      return none
  else if level = S.C.IPPROTO_TCP then do
    checknargs args 4
    return none
  -- at any other level the number of arguments is not looked at
  else return none

/-- `val`, which falls back to an `int`. -/
def value (level optname : Int) (args : List LuaValue) : LuaM (List Byte) := do
  match ← switchValue S level optname args with
  | some val => return val
  | none => do
      let vint ← checkinteger S.N.strtod args 4
      return Bytes.ofNumber (vint.setWidth 32)

/-- `setsockopt(fd, level, optname, ...)`. -/
def Psetsockopt (outcome : Outcome (List Byte)) (args : List LuaValue) :
    OptionM (List LuaValue) := do
  let fd ← checkint S.N.strtod args 1
  let level ← checkint S.N.strtod args 2
  let optname ← checkint S.N.strtod args 3
  let val ← value S level optname args
  let r ← setsockopt outcome fd level optname val
  return pushresult S.strerror (← BindingM.errno) (some "setsockopt".toList) r

/-- An `int`, as a value. -/
def number (v : BitVec 32) : LuaValue := .integer (v.signExtend 64)

/-- What `getsockopt` returns: the error of the call, or what there is in its variable. -/
def pushOption (L : Layout fun _ : LuaValue => LuaValue) (form : Form) :
    Option (Memory × Nat) → OptionM (List LuaValue)
  | none => return pusherror S.strerror (← BindingM.errno) (some "getsockopt".toList)
  | some (m, len) =>
      match form with
      | .tv => return [← BindingM.newtable L
          [("tv_sec", .integer (Bytes.load 64 m 0)), ("tv_usec", .integer (Bytes.load 64 m 8))]]
      | .linger => return [← BindingM.newtable L
          [("l_linger", number (Bytes.load 32 m 4)), ("l_onoff", number (Bytes.load 32 m 0))]]
      | .ifname => return [.string (ofBytes (Bytes.read m 0 len))]
      | _ => return [number (Bytes.load 32 m 0)]

/-- `getsockopt(fd, level, optname)`, where the variables contain anything. -/
def Pgetsockopt (L : Layout fun _ : LuaValue => LuaValue) (fails : Option Int) (stale : Memory)
    (args : List LuaValue) : OptionM (List LuaValue) := do
  let fd ← checkint S.N.strtod args 1
  let level ← checkint S.N.strtod args 2
  let optname ← checkint S.N.strtod args 3
  checknargs args 3
  let form := getForm S.C level optname
  let val := if form = .vint then Bytes.store stale 0 (0 : BitVec 32) else stale
  pushOption S L form (← getsockopt S fails fd level optname val form.size)

end Model

/-! ## Settings -/

/-- The name of a device. -/
structure Device where
  name : List Byte
  length_lt : name.length < IFNAMSIZ
  zero_notMem : 0 ∉ name

/-- Devices are the same if their names are. -/
theorem Device.eq_of_name {d d' : Device} (h : d.name = d'.name) : d = d' := by
  cases d
  cases h
  rfl

/-- What an option is set to. -/
inductive Setting where
  | int (v : BitVec 32)
  | linger (l_onoff l_linger : BitVec 32)
  | timeval (tv_sec tv_usec : LuaInteger)
  | device (d : Device)
  | membership (mreq : List Byte)

namespace Setting

/-- Its form. -/
def form : Setting → Form
  | int _ => .vint
  | linger _ _ => .linger
  | timeval _ _ => .tv
  | device _ => .ifname
  | membership _ => .mreq6

/-- Its bytes. -/
def bytes : Setting → List Byte
  | int v => Bytes.ofNumber v
  | linger l_onoff l_linger => lingerBytes l_onoff l_linger
  | timeval tv_sec tv_usec => timevalBytes tv_sec tv_usec
  | device d => d.name
  | membership mreq => mreq

end Setting

/-- The device that a string names: its first bytes, up to a zero. -/
def deviceOf (name : LStr) : Device where
  name := ifnameBytes name
  length_lt := by
    have hle : (ifnameBytes name).length ≤ ((toBytes name).take (IFNAMSIZ - 1)).length :=
      (List.takeWhile_prefix _).length_le
    have htake := List.length_take_le (IFNAMSIZ - 1) (toBytes name)
    exact Nat.lt_of_le_of_lt (hle.trans htake) (by decide)
  zero_notMem hmem := absurd (List.mem_takeWhile_imp hmem) (by decide)

/-- What a call of `setsockopt` asks for. -/
structure Request where
  fd : Int
  level : Int
  optname : Int
  setting : Setting

/-- The option that is set. -/
def Request.key (q : Request) : Key := (q.fd, q.level, q.optname)

/-- The call that asks the system for it. -/
def Request.call (q : Request) : Call := .setsockopt q.fd q.level q.optname q.setting.bytes

section Requests

variable (S : System)

/-- The form in which an option is set: that in which it is got, but for memberships. -/
def setForm (C : Constants) (level optname : Int) : Form :=
  if level ≠ C.SOL_SOCKET ∧ level = C.IPPROTO_IPV6 ∧
      (optname = C.IPV6_JOIN_GROUP ∨ optname = C.IPV6_LEAVE_GROUP) then .mreq6
  else getForm C level optname

/-- The check of the arguments of an option without a form of its own: at other levels there may be
any number of them. -/
def checkCount (level : Int) (args : List LuaValue) : LuaM Unit :=
  if level = S.C.SOL_SOCKET ∨ level = S.C.IPPROTO_IPV6 ∨ level = S.C.IPPROTO_TCP then
    checknargs args 4
  else return ()

/-- The arguments behind the first three, in the form of the option. -/
def settingOf (level optname : Int) (args : List LuaValue) : LuaM Setting :=
  match setForm S.C level optname with
  | .linger => do
      checknargs args 5
      let l_onoff ← checkinteger S.N.strtod args 4
      let l_linger ← checkinteger S.N.strtod args 5
      return .linger (l_onoff.setWidth 32) (l_linger.setWidth 32)
  | .tv => do
      checknargs args 5
      let tv_sec ← checkinteger S.N.strtod args 4
      let tv_usec ← checkinteger S.N.strtod args 5
      return .timeval tv_sec tv_usec
  | .ifname => do
      checknargs args 4
      let name ← checklstring args S.N.numberText 4
      return .device (deviceOf name)
  | .mreq6 => do
      checknargs args 4
      let addr ← checklstring args S.N.numberText 4
      return .membership (mreq6Bytes S (cstring addr))
  | .vint => do
      checkCount S level args
      let vint ← checkinteger S.N.strtod args 4
      return .int (vint.setWidth 32)

/-- What a setting is made of. -/
inductive Taken (args : List LuaValue) : Setting → Prop where
  | int {vint} : checkinteger S.N.strtod args 4 = .ok vint → Taken args (.int (vint.setWidth 32))
  | linger {l_onoff l_linger} : checkinteger S.N.strtod args 4 = .ok l_onoff →
      checkinteger S.N.strtod args 5 = .ok l_linger →
      Taken args (.linger (l_onoff.setWidth 32) (l_linger.setWidth 32))
  | timeval {tv_sec tv_usec} : checkinteger S.N.strtod args 4 = .ok tv_sec →
      checkinteger S.N.strtod args 5 = .ok tv_usec → Taken args (.timeval tv_sec tv_usec)
  | device {name} : checklstring args S.N.numberText 4 = .ok name →
      Taken args (.device (deviceOf name))
  | membership {addr} : checklstring args S.N.numberText 4 = .ok addr →
      Taken args (.membership (mreq6Bytes S (cstring addr)))

/-- The arguments of `setsockopt`. -/
def request (args : List LuaValue) : LuaM Request := do
  let fd ← checkint S.N.strtod args 1
  let level ← checkint S.N.strtod args 2
  let optname ← checkint S.N.strtod args 3
  let setting ← settingOf S level optname args
  return ⟨fd, level, optname, setting⟩

variable {S} {outcome : Outcome (List Byte)} {args : List LuaValue} {w : World Options Call}

/-- A form of the option's own. -/
theorem value_of_some {level optname : Int} {x : LuaM Setting}
    (h : switchValue S level optname args = (fun x => some x.bytes) <$> x) :
    value S level optname args = Setting.bytes <$> x := by
  rw [value, h]
  cases x <;> rfl

/-- An `int`, after a check. -/
theorem value_of_none {level optname : Int} {check : LuaM PUnit}
    (h : switchValue S level optname args = (fun _ => none) <$> check) :
    value S level optname args = Setting.bytes <$> (do
      check
      let vint ← checkinteger S.N.strtod args 4
      return .int (vint.setWidth 32)) := by
  rw [value, h]
  cases check with
  | error e => rfl
  | ok u =>
      show ((checkinteger S.N.strtod args 4 >>= fun vint => _ : LuaM (List Byte))) = _
      cases checkinteger S.N.strtod args 4 <;> rfl

/-- The inner switch of `SOL_SOCKET` finds the form of the option. -/
theorem value_eq_of_socket {level optname : Int} (hsocket : level = S.C.SOL_SOCKET) :
    value S level optname args = Setting.bytes <$> settingOf S level optname args := by
  have hform : setForm S.C level optname = getForm S.C level optname :=
    if_neg fun h => h.1 hsocket
  rw [settingOf, hform, getForm, if_pos hsocket]
  -- the cases are those of the inner switch
  by_cases hlinger : optname = S.C.SO_LINGER
  · rw [if_pos hlinger]
    refine value_of_some ?_
    simp only [switchValue, if_pos hsocket, if_pos hlinger, map_bind, map_pure]
    rfl
  rw [if_neg hlinger]
  by_cases htv : optname = S.C.SO_RCVTIMEO ∨ optname = S.C.SO_SNDTIMEO
  · rw [if_pos htv]
    refine value_of_some ?_
    simp only [switchValue, if_pos hsocket, if_neg hlinger, if_pos htv, map_bind, map_pure]
    rfl
  rw [if_neg htv]
  by_cases hifname : some optname = S.C.SO_BINDTODEVICE
  · rw [if_pos hifname]
    refine value_of_some ?_
    simp only [switchValue, if_pos hsocket, if_neg hlinger, if_neg htv, if_pos hifname, map_bind,
      map_pure]
    rfl
  · rw [if_neg hifname]
    refine value_of_none ?_
    rw [switchValue, if_pos hsocket, if_neg hlinger, if_neg htv, if_neg hifname, checkCount,
      if_pos (.inl hsocket)]
    cases checknargs args 4 <;> rfl

/-- At the other levels the switch finds the multicast groups; everything else is an `int`. -/
theorem value_eq_of_not_socket {level optname : Int} (hsocket : level ≠ S.C.SOL_SOCKET) :
    value S level optname args = Setting.bytes <$> settingOf S level optname args := by
  have hgetForm : getForm S.C level optname = .vint := if_neg hsocket
  by_cases hmreq6 : level = S.C.IPPROTO_IPV6 ∧
    (optname = S.C.IPV6_JOIN_GROUP ∨ optname = S.C.IPV6_LEAVE_GROUP)
  · have hform : setForm S.C level optname = .mreq6 := if_pos ⟨hsocket, hmreq6⟩
    rw [settingOf, hform]
    refine value_of_some ?_
    simp only [switchValue, if_neg hsocket, if_pos hmreq6.1, if_pos hmreq6.2, map_bind, map_pure]
    rfl
  · have hform : setForm S.C level optname = .vint := by
      rw [setForm, if_neg fun h => hmreq6 h.2, hgetForm]
    rw [settingOf, hform]
    refine value_of_none ?_
    rw [switchValue, if_neg hsocket, checkCount]
    -- only at a level that the switch knows the arguments are counted
    by_cases hipv6 : level = S.C.IPPROTO_IPV6
    · rw [if_pos hipv6, if_neg fun h => hmreq6 ⟨hipv6, h⟩, if_pos (.inr (.inl hipv6))]
      cases checknargs args 4 <;> rfl
    rw [if_neg hipv6]
    by_cases htcp : level = S.C.IPPROTO_TCP
    · rw [if_pos htcp, if_pos (.inr (.inr htcp))]
      cases checknargs args 4 <;> rfl
    · rw [if_neg htcp, if_neg (by rintro (h | h | h) <;> contradiction)]
      rfl

/-- **The switch finds the form of the option.** -/
theorem value_eq {level optname : Int} :
    value S level optname args = Setting.bytes <$> settingOf S level optname args := by
  by_cases hsocket : level = S.C.SOL_SOCKET
  · exact value_eq_of_socket hsocket
  · exact value_eq_of_not_socket hsocket

/-- **`setsockopt` does what it is asked for.** -/
theorem run_Psetsockopt : (Psetsockopt S outcome args).run w
    = ((liftM (request S args) : OptionM Request) >>= fun q => do
        let r ← setsockopt outcome q.fd q.level q.optname q.setting.bytes
        return pushresult S.strerror (← BindingM.errno) (some "setsockopt".toList) r).run w := by
  rw [Psetsockopt, request]
  cases hfd : checkint S.N.strtod args 1 with
  | error e => rfl
  | ok fd =>
  cases hlevel : checkint S.N.strtod args 2 with
  | error e => rfl
  | ok level =>
  cases hoptname : checkint S.N.strtod args 3 with
  | error e => rfl
  | ok optname =>
  show ((liftM (value S level optname args) : OptionM (List Byte)) >>= fun val => do
    let r ← setsockopt outcome fd level optname val
    return pushresult S.strerror (← BindingM.errno) (some "setsockopt".toList) r).run w
      = ((liftM (do
        let setting ← settingOf S level optname args
        return ⟨fd, level, optname, setting⟩ : LuaM Request) : OptionM Request) >>=
          fun q => _).run w
  rw [value_eq]
  cases settingOf S level optname args <;> rfl

/-- An argument that is wrong. -/
theorem run_Psetsockopt_of_error {e : LuaError} (h : request S args = .error e) :
    (Psetsockopt S outcome args).run w = .error (.raises e) w := by
  rw [run_Psetsockopt, h]
  rfl

/-- A call that fails. -/
theorem run_Psetsockopt_of_fails {q : Request} {e : Int} (h : request S args = .ok q) : ∃ w',
    (Psetsockopt S (.error e) args).run w
      = .ok (pusherror S.strerror e (some "setsockopt".toList)) w' ∧
      w'.sys = w.sys ∧ w'.calls = w.calls ++ [q.call] := by
  rw [run_Psetsockopt, h]
  exact ⟨_, rfl, rfl, rfl⟩

/-- A call that succeeds: the system is handed the setting, and keeps what it makes of it. -/
theorem run_Psetsockopt_of_kept {q : Request} (kept : List Byte) (h : request S args = .ok q) :
    ∃ w', (Psetsockopt S (.ok kept) args).run w = .ok [.integer 0] w' ∧
      w'.sys = Function.update w.sys q.key kept ∧ w'.calls = w.calls ++ [q.call] := by
  rw [run_Psetsockopt, h]
  exact ⟨_, rfl, rfl, rfl⟩

/-- **The arguments that a setting is made of**, and its form. -/
theorem taken_of_settingOf {level optname : Int} {x : Setting}
    (h : settingOf S level optname args = .ok x) :
    Taken S args x ∧ x.form = setForm S.C level optname := by
  rw [settingOf] at h
  -- the form decides which arguments are read
  cases hform : setForm S.C level optname with
  | linger =>
      rw [hform] at h
      obtain ⟨-, -, h⟩ := LuaM.bind_eq_ok.mp h
      obtain ⟨l_onoff, honoff, h⟩ := LuaM.bind_eq_ok.mp h
      obtain ⟨l_linger, hlinger, h⟩ := LuaM.bind_eq_ok.mp h
      cases h
      exact ⟨.linger honoff hlinger, rfl⟩
  | tv =>
      rw [hform] at h
      obtain ⟨-, -, h⟩ := LuaM.bind_eq_ok.mp h
      obtain ⟨tv_sec, hsec, h⟩ := LuaM.bind_eq_ok.mp h
      obtain ⟨tv_usec, husec, h⟩ := LuaM.bind_eq_ok.mp h
      cases h
      exact ⟨.timeval hsec husec, rfl⟩
  | ifname =>
      rw [hform] at h
      obtain ⟨-, -, h⟩ := LuaM.bind_eq_ok.mp h
      obtain ⟨name, hname, h⟩ := LuaM.bind_eq_ok.mp h
      cases h
      exact ⟨.device hname, rfl⟩
  | mreq6 =>
      rw [hform] at h
      obtain ⟨-, -, h⟩ := LuaM.bind_eq_ok.mp h
      obtain ⟨addr, haddr, h⟩ := LuaM.bind_eq_ok.mp h
      cases h
      exact ⟨.membership haddr, rfl⟩
  | vint =>
      rw [hform] at h
      obtain ⟨-, -, h⟩ := LuaM.bind_eq_ok.mp h
      obtain ⟨vint, hvint, h⟩ := LuaM.bind_eq_ok.mp h
      cases h
      exact ⟨.int hvint, rfl⟩

end Requests

/-! ## What is got -/

/-- What a program reads of the value it got: the fields of the table, in the order in which they
are given, or the value itself. -/
def readBack (H : Heap) : Form → LuaValue → List LuaValue
  | .linger, .table t =>
      [H.get t (Heap.fieldName "l_onoff"), H.get t (Heap.fieldName "l_linger")]
  | .tv, .table t => [H.get t (Heap.fieldName "tv_sec"), H.get t (Heap.fieldName "tv_usec")]
  | _, v => [v]

section Getting

variable (S : System)

/-- The values of a setting, in the order of the arguments. -/
def Setting.values : Setting → List LuaValue
  | .int n => [number n]
  | .linger l_onoff l_linger => [number l_onoff, number l_linger]
  | .timeval tv_sec tv_usec => [.integer tv_sec, .integer tv_usec]
  | .device d => [.string (ofBytes (S.shown d.name))]
  | .membership _ => []

/-- The arguments of `getsockopt`. -/
def optionArgs (args : List LuaValue) : LuaM Key := do
  let fd ← checkint S.N.strtod args 1
  let level ← checkint S.N.strtod args 2
  let optname ← checkint S.N.strtod args 3
  checknargs args 3
  return (fd, level, optname)

variable {S} {L : Layout fun _ : LuaValue => LuaValue} {m : Memory} {x : Setting}

/-- The two words of a linger are read back. -/
theorem load_lingerBytes (a b : BitVec 32) :
    Bytes.load 32 (Bytes.write m 0 (lingerBytes a b)) 0 = a ∧
      Bytes.load 32 (Bytes.write m 0 (lingerBytes a b)) 4 = b := by
  have hstore : Bytes.write m 0 (lingerBytes a b) = Bytes.store (Bytes.store m 0 a) 4 b :=
    Bytes.write_append m _ _
  rw [hstore]
  exact ⟨(Bytes.load_store_of_disjoint _ b (by decide) (by decide)).trans
    (Bytes.load_store _ a (by decide)), Bytes.load_store _ b (by decide)⟩

/-- So are the two of a timeval. -/
theorem load_timevalBytes (a b : BitVec 64) :
    Bytes.load 64 (Bytes.write m 0 (timevalBytes a b)) 0 = a ∧
      Bytes.load 64 (Bytes.write m 0 (timevalBytes a b)) 8 = b := by
  have hstore : Bytes.write m 0 (timevalBytes a b) = Bytes.store (Bytes.store m 0 a) 8 b :=
    Bytes.write_append m _ _
  rw [hstore]
  exact ⟨(Bytes.load_store_of_disjoint _ b (by decide) (by decide)).trans
    (Bytes.load_store _ a (by decide)), Bytes.load_store _ b (by decide)⟩

/-- The bytes of a setting as they are handed out. -/
def Setting.shown (S : System) : Setting → List Byte
  | .device d => S.shown d.name
  | x => x.bytes

/-- What is handed out of a setting. -/
theorem handedOut_bytes {level optname : Int} (hx : x.form = getForm S.C level optname) :
    handedOut S level optname x.bytes = x.shown S := by
  rw [handedOut, ← hx]
  cases x with
  | device d => exact if_pos rfl
  | _ => exact if_neg nofun

/-- There is room for it in the variable. -/
theorem length_shown (hmreq6 : x.form ≠ .mreq6) : (x.shown S).length ≤ x.form.size := by
  cases x with
  | device d =>
      have hlt := d.length_lt
      show (System.shown S d.name).length ≤ IFNAMSIZ
      rw [System.shown]
      split_ifs
      · rw [List.length_append]
        exact hlt
      · exact Nat.le_of_lt hlt
  | membership mreq => exact absurd rfl hmreq6
  | _ => exact Nat.le_refl _

/-- The value made of the bytes of a setting. -/
theorem run_pushOption {w : World Options Call} (hmreq6 : x.form ≠ .mreq6) : ∃ v w',
    (pushOption S L x.form (some (Bytes.write m 0 (x.shown S), (x.shown S).length))).run w
      = .ok [v] w' ∧ w'.sys = w.sys ∧ readBack w'.heap x.form v = x.values S := by
  cases x with
  | int n =>
      refine ⟨_, w, rfl, rfl, ?_⟩
      exact congrArg (fun v => [number v]) (Bytes.load_store m n (by decide))
  | linger a b =>
      obtain ⟨ha, hb⟩ := load_lingerBytes (m := m) a b
      exact ⟨_, _, rfl, rfl, congrArg₂ (fun v v' => [v, v'])
        ((Heap.get_newtable _ _).trans (congrArg number ha))
        ((Heap.get_newtable _ _).trans (congrArg number hb))⟩
  | timeval a b =>
      obtain ⟨ha, hb⟩ := load_timevalBytes (m := m) a b
      exact ⟨_, _, rfl, rfl, congrArg₂ (fun v v' => [v, v'])
        ((Heap.get_newtable _ _).trans (congrArg _ ha))
        ((Heap.get_newtable _ _).trans (congrArg _ hb))⟩
  | device d =>
      refine ⟨_, w, rfl, rfl, ?_⟩
      exact congrArg (fun bs => [LuaValue.string (ofBytes bs)]) (Bytes.read_write m)
  | membership mreq => exact absurd rfl hmreq6

/-- **An option is got in the form it was set in.** -/
theorem run_Pgetsockopt {w : World Options Call} {args : List LuaValue} {fd level optname : Int}
    (stale : Memory) (hargs : optionArgs S args = .ok (fd, level, optname))
    (hx : w.sys (fd, level, optname) = x.bytes) (hform : x.form = setForm S.C level optname)
    (hmreq6 : x.form ≠ .mreq6) : ∃ v w', (Pgetsockopt S L none stale args).run w = .ok [v] w' ∧
      w'.sys = w.sys ∧ readBack w'.heap x.form v = x.values S := by
  -- the two switches agree where it is no membership
  have hget : x.form = getForm S.C level optname := by
    rw [hform, setForm] at hmreq6
    rw [hform, setForm]
    split_ifs at hmreq6 ⊢ with h
    · exact absurd rfl hmreq6
    · rfl
  rw [optionArgs] at hargs
  rw [Pgetsockopt]
  generalize checkint S.N.strtod args 1 = c₁, checkint S.N.strtod args 2 = c₂,
    checkint S.N.strtod args 3 = c₃, checknargs args 3 = c₄ at hargs ⊢
  cases c₁ <;> cases c₂ <;> cases c₃ <;> cases c₄ <;> cases hargs
  -- `vint` is 0 before the call, the other variables are what they were
  let m := if getForm S.C level optname = .vint then Bytes.store stale 0 (0 : BitVec 32) else stale
  let bytes := (handedOut S level optname (w.sys (fd, level, optname))).take
    (getForm S.C level optname).size
  let w₁ : World Options Call := { w with
    calls := w.calls ++ [.getsockopt fd level optname (getForm S.C level optname).size] }
  have hbytes : bytes = x.shown S := by
    show (handedOut S level optname (w.sys (fd, level, optname))).take _ = _
    rw [hx, ← hget, handedOut_bytes hget, List.take_of_length_le (length_shown hmreq6)]
  show ∃ v w', (pushOption S L (getForm S.C level optname)
    (some (Bytes.write m 0 bytes, bytes.length))).run w₁ = .ok [v] w' ∧ _
  rw [← hget, hbytes]
  exact run_pushOption hmreq6

end Getting

/-! ## What is given and what is got -/

section Given

variable (S : System)

/-- The integer is in the range of an `int`. -/
def IsInt (d : LuaInteger) : Prop := -2 ^ 31 ≤ d.toInt ∧ d.toInt < 2 ^ 31

/-- Arguments that fit into the form of an option. -/
def Fits (given : List LuaValue) : Form → Prop
  | .vint => ∃ d, given = [.integer d] ∧ IsInt d
  | .linger => ∃ d d', given = [.integer d, .integer d'] ∧ IsInt d ∧ IsInt d'
  | .tv => ∃ d d', given = [.integer d, .integer d']
  | .ifname => ∃ d : Device, given = [.string (ofBytes (S.shown d.name))]
  | .mreq6 => False

variable {S} {level optname : Int} {args : List LuaValue} {x : Setting}

/-- An integer comes back from an `int` where it is one. -/
theorem number_setWidth_eq_iff (d : LuaInteger) :
    number (d.setWidth 32) = .integer d ↔ IsInt d := by
  have hinteger : number (d.setWidth 32) = .integer d ↔ (d.setWidth 32).signExtend 64 = d :=
    ⟨fun h => LuaValue.integer.inj h, congrArg _⟩
  have hbmod := BitVec.toInt_eq_toNat_bmod d
  rw [Int.bmod_def] at hbmod
  rw [hinteger, ← BitVec.toInt_inj, BitVec.toInt_signExtend_of_le (by decide),
    BitVec.toInt_setWidth, Int.bmod_def, IsInt]
  omega

/-- An `int` that was extended is one. -/
theorem isInt_signExtend (v : BitVec 32) : IsInt (v.signExtend 64) := by
  rw [IsInt, BitVec.toInt_signExtend_of_le (by decide)]
  exact ⟨BitVec.le_toInt v, BitVec.toInt_lt⟩

/-- The argument behind the first three. -/
theorem getElem?_of_drop {v : LuaValue} {l : List LuaValue} (h : args.drop 3 = v :: l) :
    args[3]? = some v ∧ args[4]? = l.head? := by
  have h₃ : (args.drop 3)[0]? = args[3]? := List.getElem?_drop
  have h₄ : (args.drop 3)[1]? = args[4]? := List.getElem?_drop
  rw [← h₃, ← h₄, h]
  exact ⟨rfl, by cases l <;> rfl⟩

/-- An argument that is an integer is the one checked. -/
theorem checkinteger_of_integer {narg : Nat} {d d' : LuaInteger}
    (h : checkinteger S.N.strtod args narg = .ok d) (hd : args[narg - 1]? = some (.integer d')) :
    d = d' := by
  rw [checkinteger, expectinteger, hd] at h
  exact (Except.ok.inj h).symm

/-- The name that is handed out names the device. -/
theorem deviceOf_shown (d : Device) : (deviceOf (ofBytes (S.shown d.name))).name = d.name := by
  have hnonzero : ∀ b ∈ d.name, decide (b ≠ 0) = true := fun b hb =>
    decide_eq_true fun h => d.zero_notMem (h ▸ hb)
  have hall : d.name.takeWhile (· ≠ 0) = d.name := List.takeWhile_eq_self_iff.mpr hnonzero
  have hlength : d.name.length ≤ IFNAMSIZ - 1 := Nat.le_sub_one_of_lt d.length_lt
  show ((toBytes (ofBytes (S.shown d.name))).take (IFNAMSIZ - 1)).takeWhile (· ≠ 0) = _
  rw [toBytes_ofBytes, System.shown]
  split_ifs
  · rw [List.take_append, List.take_of_length_le hlength, List.takeWhile_append_of_pos hnonzero]
    generalize IFNAMSIZ - 1 - d.name.length = n
    cases n <;> exact List.append_nil _
  · rw [List.take_of_length_le hlength, hall]

/-- The values of a setting fit into its form. -/
theorem fits_of_values_eq {given : List LuaValue} (hmreq6 : x.form ≠ .mreq6)
    (h : x.values S = given) : Fits S given x.form := by
  subst h
  cases x with
  | int v => exact ⟨_, rfl, isInt_signExtend v⟩
  | linger a b => exact ⟨_, _, rfl, isInt_signExtend a, isInt_signExtend b⟩
  | timeval a b => exact ⟨a, b, rfl⟩
  | device d => exact ⟨d, rfl⟩
  | membership mreq => exact absurd rfl hmreq6

/-- A setting reads as the arguments it was made of where they fit into its form. -/
theorem values_eq_of_fits (hx : Taken S args x) (hfits : Fits S (args.drop 3) x.form) :
    x.values S = args.drop 3 := by
  cases hx with
  | int hd =>
      obtain ⟨d', hgiven, hint⟩ := hfits
      obtain rfl := checkinteger_of_integer hd (getElem?_of_drop hgiven).1
      rw [hgiven, Setting.values, (number_setWidth_eq_iff _).mpr hint]
  | linger hd hd' =>
      obtain ⟨e, e', hgiven, hint, hint'⟩ := hfits
      obtain ⟨h₃, h₄⟩ := getElem?_of_drop hgiven
      obtain rfl := checkinteger_of_integer hd h₃
      obtain rfl := checkinteger_of_integer hd' h₄
      rw [hgiven, Setting.values, (number_setWidth_eq_iff _).mpr hint,
        (number_setWidth_eq_iff _).mpr hint']
  | timeval hd hd' =>
      obtain ⟨e, e', hgiven⟩ := hfits
      obtain ⟨h₃, h₄⟩ := getElem?_of_drop hgiven
      obtain rfl := checkinteger_of_integer hd h₃
      obtain rfl := checkinteger_of_integer hd' h₄
      exact hgiven.symm
  | device hname =>
      obtain ⟨d, hgiven⟩ := hfits
      rw [checklstring, (getElem?_of_drop hgiven).1] at hname
      obtain rfl := Except.ok.inj hname
      rw [hgiven, Setting.values, deviceOf_shown]
  | membership haddr => exact hfits.elim

/-- Two words that are pushed as the same number are one. -/
theorem number_inj {v v' : BitVec 32} (h : number v = number v') : v = v' :=
  (signExtend_64_inj (by decide)).mp (LuaValue.integer.inj h)

/-- A setting is determined by its values, in the forms in which settings are got. -/
theorem eq_of_values_eq {kept : Setting} (hform : kept.form = x.form) (hmreq6 : x.form ≠ .mreq6)
    (h : kept.values S = x.values S) : kept = x := by
  cases x with
  | int v =>
      cases kept <;> cases hform
      exact congrArg Setting.int (number_inj (List.singleton_inj.mp h))
  | linger a b =>
      cases kept <;> cases hform
      obtain ⟨ha, hb⟩ := List.cons_eq_cons.mp h
      exact congrArg₂ Setting.linger (number_inj ha) (number_inj (List.singleton_inj.mp hb))
  | timeval a b =>
      cases kept <;> cases hform
      cases h
      rfl
  | device d =>
      cases kept <;> cases hform
      rename_i d'
      -- the name that is handed out has the device's name in it
      have hshown : ofBytes (S.shown d'.name) = ofBytes (S.shown d.name) :=
        LuaValue.string.inj (List.singleton_inj.mp h)
      exact congrArg Setting.device (Device.eq_of_name
        ((deviceOf_shown d').symm.trans ((congrArg (fun l => (deviceOf l).name) hshown).trans
          (deviceOf_shown d))))
  | membership mreq => exact absurd rfl hmreq6

/-- **What is got is what was given** if and only if the system keeps the setting as it is and the
arguments fit into the form of the option. -/
theorem kept_values_eq_iff {kept : Setting} (hx : Taken S args x) (hform : kept.form = x.form)
    (hmreq6 : x.form ≠ .mreq6) :
    kept.values S = args.drop 3 ↔ kept = x ∧ Fits S (args.drop 3) x.form := by
  constructor
  · intro h
    have hfits : Fits S (args.drop 3) x.form := by
      rw [← hform] at hmreq6 ⊢
      exact fits_of_values_eq hmreq6 h
    exact ⟨eq_of_values_eq hform hmreq6 (h.trans (values_eq_of_fits hx hfits).symm), hfits⟩
  · rintro ⟨rfl, hfits⟩
    exact values_eq_of_fits hx hfits

/-- What a request was made of. -/
theorem settingOf_of_request {q : Request} (h : request S args = .ok q) :
    settingOf S q.level q.optname args = .ok q.setting := by
  obtain ⟨fd, -, h⟩ := LuaM.bind_eq_ok.mp h
  obtain ⟨level, -, h⟩ := LuaM.bind_eq_ok.mp h
  obtain ⟨optname, -, h⟩ := LuaM.bind_eq_ok.mp h
  obtain ⟨setting, hsetting, h⟩ := LuaM.bind_eq_ok.mp h
  cases h
  exact hsetting

end Given

/-! ## Programs -/

section Programs

variable (S : System) (L : Layout fun _ : LuaValue => LuaValue)

/-- A call of `setsockopt` that has succeeded, and what the system keeps of it: a setting of the
same form, if not the same. -/
structure Done where
  args : List LuaValue
  request : Request
  request_eq : Sockopt.request S args = .ok request
  kept : Setting
  kept_form : kept.form = request.setting.form

/-- A program, and its own book: of each option, the call that has set it and what the system keeps
of it, until the system changes it. -/
structure Session where
  world : World Options Call
  ledger : Key → Option (Done S)

/-- What happens next: a call, which fails or not, or a change that the system makes to any
option, also of its own accord or because another one is set. -/
inductive Label where
  | setsockopt (outcome : Outcome Setting) (args : List LuaValue)
  | getsockopt (fails : Option Int) (stale : Memory) (args : List LuaValue)
  | changed (key : Key) (val : List Byte)

variable {S} in
/-- The book after a call of `setsockopt`. -/
def Session.noted (s : Session S) (outcome : Outcome Setting) (args : List LuaValue) :
    Key → Option (Done S) :=
  match outcome with
  | .error _ => s.ledger
  | .ok kept =>
      match h : request S args with
      | .ok q => Function.update s.ledger q.key
          -- of what is kept in another form the book knows nothing
          (if hkept : kept.form = q.setting.form then some ⟨args, q, h, kept, hkept⟩ else none)
      | .error _ => s.ledger

variable {S} in
/-- The next state. -/
def Session.next (s : Session S) : Label → Option (Session S)
  | .setsockopt outcome args => some
      { world := BindingM.worldAfter
          ((Psetsockopt S (outcome.map Setting.bytes) args).run s.world)
        ledger := s.noted outcome args }
  | .getsockopt fails stale args => some
      { s with world := BindingM.worldAfter ((Pgetsockopt S L fails stale args).run s.world) }
  | .changed key val => some
      { world := { s.world with sys := Function.update s.world.sys key val }
        ledger := Function.update s.ledger key none }

/-- The machine: at first the program has set nothing. -/
def machine : Machine (Session S) Label := ⟨fun s => ∀ key, s.ledger key = none, Session.next L⟩

variable {S L} {s : Session S}

/-- A call with a wrong argument sets nothing. -/
theorem Session.noted_of_error {outcome : Outcome Setting} {args : List LuaValue} {e : LuaError}
    (h : request S args = .error e) : s.noted outcome args = s.ledger := by
  cases outcome with
  | error e' => rfl
  | ok kept =>
      rw [Session.noted]
      split
      · next q hq => cases h.symm.trans hq
      · rfl

/-- Of a call that succeeds the book says what was asked for and what is kept. -/
theorem Session.noted_of_ok {args : List LuaValue} (kept : Setting) {q : Request}
    (h : request S args = .ok q) : ∃ d, s.noted (.ok kept) args = Function.update s.ledger q.key d ∧
      ∀ d' ∈ d, d'.request = q ∧ d'.kept = kept := by
  rw [Session.noted]
  split
  · next q' hq =>
    obtain rfl : q = q' := Except.ok.inj (h.symm.trans hq)
    refine ⟨_, rfl, fun d' hd' => ?_⟩
    split_ifs at hd' with hkept
    · cases hd'
      exact ⟨rfl, rfl⟩
    · cases hd'
  · next e he => cases h.symm.trans he

/-- **The book is right**: the system was asked for what the book says, and keeps what the book
says. -/
def Session.Right (s : Session S) : Prop :=
  ∀ key, ∀ d ∈ s.ledger key, d.request.key = key ∧ d.request.call ∈ s.world.calls ∧
    s.world.sys key = d.kept.bytes

/-- Reading changes no option and forgets no call. -/
structure OnlyReads (w w' : World Options Call) : Prop where
  sys_eq : w'.sys = w.sys
  calls_subset : w.calls ⊆ w'.calls

/-- Nothing at all is done. -/
theorem OnlyReads.refl (w : World Options Call) : OnlyReads w w := ⟨rfl, List.Subset.refl _⟩

/-- One thing after the other. -/
theorem OnlyReads.trans {w w' w'' : World Options Call} (h : OnlyReads w w')
    (h' : OnlyReads w' w'') : OnlyReads w w'' :=
  ⟨h'.sys_eq.trans h.sys_eq, List.Subset.trans h.calls_subset h'.calls_subset⟩

/-- `getsockopt(2)` reads, whether it fails or not. -/
theorem onlyReads_getsockopt {w : World Options Call} (fails : Option Int)
    (fd level optname : Int) (val : Memory) (len : Nat) : ∃ r w',
      (getsockopt S fails fd level optname val len).run w = .ok r w' ∧ OnlyReads w w' := by
  cases fails <;> exact ⟨_, _, rfl, rfl, List.subset_append_left _ _⟩

/-- Making a value of what was got calls nothing. -/
theorem onlyReads_pushOption {form : Form} {r : Option (Memory × Nat)} {w : World Options Call} :
    OnlyReads w (BindingM.worldAfter ((pushOption S L form r).run w)) := by
  cases r with
  | none => exact .refl w
  | some p =>
      cases form with
      | tv =>
          simp only [pushOption, EStateM.run_bind, BindingM.run_newtable]
          exact ⟨rfl, List.Subset.refl _⟩
      | linger =>
          simp only [pushOption, EStateM.run_bind, BindingM.run_newtable]
          exact ⟨rfl, List.Subset.refl _⟩
      | _ => exact .refl w

/-- **`getsockopt` reads**, whatever its arguments are. -/
theorem onlyReads_Pgetsockopt {fails : Option Int} {stale : Memory} {args : List LuaValue}
    {w : World Options Call} :
    OnlyReads w (BindingM.worldAfter ((Pgetsockopt S L fails stale args).run w)) := by
  rw [Pgetsockopt]
  generalize checkint S.N.strtod args 1 = fd, checkint S.N.strtod args 2 = level,
    checkint S.N.strtod args 3 = optname, checknargs args 3 = n
  cases fd with
  | error e => exact .refl w
  | ok fd =>
  cases level with
  | error e => exact .refl w
  | ok level =>
  cases optname with
  | error e => exact .refl w
  | ok optname =>
  cases n with
  | error e => exact .refl w
  | ok u =>
  obtain ⟨r, w', hrun, hreads⟩ := onlyReads_getsockopt (S := S) (w := w) fails fd level optname
    (if getForm S.C level optname = .vint then Bytes.store stale 0 (0 : BitVec 32) else stale)
    (getForm S.C level optname).size
  show OnlyReads w (BindingM.worldAfter ((getsockopt S fails fd level optname _ _ >>=
    pushOption S L (getForm S.C level optname)).run w))
  rw [BindingM.run_bind_of_ok hrun]
  exact hreads.trans onlyReads_pushOption

/-- What is written down at one key leaves the others right. -/
theorem Session.Right.update (h : s.Right) {w : World Options Call} {key : Key} {val : List Byte}
    {d : Option (Done S)} (hsys : w.sys = Function.update s.world.sys key val)
    (hcalls : s.world.calls ⊆ w.calls)
    (hd : ∀ d' ∈ d, d'.request.key = key ∧ d'.request.call ∈ w.calls ∧ val = d'.kept.bytes) :
    (⟨w, Function.update s.ledger key d⟩ : Session S).Right := by
  intro key' d' (hd' : d' ∈ Function.update s.ledger key d key')
  show _ ∧ _ ∧ w.sys key' = _
  rw [hsys]
  by_cases hkey : key' = key
  · subst hkey
    rw [Function.update_self]
    exact hd d' (by rwa [Function.update_self] at hd')
  · rw [Function.update_of_ne hkey]
    rw [Function.update_of_ne hkey] at hd'
    obtain ⟨hkey', hcall, hkept⟩ := h key' d' hd'
    exact ⟨hkey', hcalls hcall, hkept⟩

/-- What leaves the options alone leaves the book right. -/
theorem Session.Right.of_sys (h : s.Right) {w : World Options Call}
    (hsys : w.sys = s.world.sys) (hcalls : s.world.calls ⊆ w.calls) :
    (⟨w, s.ledger⟩ : Session S).Right := fun key d hd => by
  obtain ⟨hkey, hcall, hkept⟩ := h key d hd
  exact ⟨hkey, hcalls hcall, (congrFun hsys key).trans hkept⟩

/-- **One step** leaves the book right. -/
theorem Session.Right.next (h : s.Right) {l : Label} {s' : Session S}
    (hs : s.next L l = some s') : s'.Right := by
  cases l with
  | getsockopt fails stale args =>
      cases hs
      exact h.of_sys onlyReads_Pgetsockopt.sys_eq onlyReads_Pgetsockopt.calls_subset
  | changed key val =>
      cases hs
      exact h.update rfl (List.Subset.refl _) nofun
  | setsockopt outcome args =>
      cases hs
      cases hq : request S args with
      | error e =>
          -- the system is not called
          rw [run_Psetsockopt_of_error hq, Session.noted_of_error hq]
          exact h.of_sys rfl (List.Subset.refl _)
      | ok q =>
          cases outcome with
          | error e =>
              -- the call is made, and changes nothing
              obtain ⟨w', hrun, hsys, hcalls⟩ :=
                run_Psetsockopt_of_fails (e := e) (w := s.world) hq
              show (⟨BindingM.worldAfter ((Psetsockopt S (.error e) args).run s.world),
                s.ledger⟩ : Session S).Right
              rw [hrun]
              exact h.of_sys hsys (hcalls ▸ List.subset_append_left _ _)
          | ok kept =>
              -- what the system keeps is written down with the request
              obtain ⟨w', hrun, hsys, hcalls⟩ :=
                run_Psetsockopt_of_kept (w := s.world) kept.bytes hq
              obtain ⟨d, hnoted, hd⟩ := Session.noted_of_ok (s := s) kept hq
              show (⟨BindingM.worldAfter ((Psetsockopt S (.ok kept.bytes) args).run s.world),
                s.noted (.ok kept) args⟩ : Session S).Right
              rw [hrun, hnoted]
              refine h.update hsys (hcalls ▸ List.subset_append_left _ _) fun d' hd' => ?_
              obtain ⟨rfl, rfl⟩ := hd d' hd'
              refine ⟨rfl, ?_, rfl⟩
              show _ ∈ w'.calls
              rw [hcalls]
              exact List.mem_append_right _ (List.mem_singleton.mpr rfl)

/-- The book is right at any moment of a run. -/
theorem Session.right_of_reachable (hs : (machine S L).Reachable (fun _ _ => True) s) :
    s.Right :=
  hs.invariant
    (fun s hinit key d hd => absurd hd (by rw [hinit key]; nofun))
    fun _ _ _ hright _ hstep => hright.next hstep

/-- **What is set is got back**: at any moment, an option that the system has not changed since the
program set it, for which the system was asked with the bytes of the setting, is got in its own form
with what the system has kept of it; and that is what was given if and only if the system kept it as
it was and it fits into the form. -/
theorem getsockopt_returns_setting (hs : (machine S L).Reachable (fun _ _ => True) s) {key : Key}
    {d : Done S} (hd : s.ledger key = some d) (hmreq6 : d.request.setting.form ≠ .mreq6)
    {args : List LuaValue} (hargs : optionArgs S args = .ok key) (stale : Memory) :
    d.request.call ∈ s.world.calls ∧ ∃ v w',
      (Pgetsockopt S L none stale args).run s.world = .ok [v] w' ∧
      readBack w'.heap d.request.setting.form v = d.kept.values S ∧
      (readBack w'.heap d.request.setting.form v = d.args.drop 3 ↔
        d.kept = d.request.setting ∧ Fits S (d.args.drop 3) d.request.setting.form) := by
  -- what is kept is what the book says, and the book has only calls that have succeeded
  obtain ⟨rfl, hcall, hsys⟩ := Session.right_of_reachable hs key d hd
  obtain ⟨htaken, hform⟩ := taken_of_settingOf (settingOf_of_request d.request_eq)
  obtain ⟨v, w', hrun, -, hread⟩ := run_Pgetsockopt (L := L) stale hargs hsys
    (d.kept_form.trans hform) (d.kept_form ▸ hmreq6)
  rw [d.kept_form] at hread
  refine ⟨hcall, v, w', hrun, hread, ?_⟩
  rw [hread]
  exact kept_values_eq_iff htaken d.kept_form hmreq6

/-- Where the zero is handed out, no name of a device is got back as it was given. -/
theorem not_fits_ifname (hzero : S.zero) {name : LStr} (hname : name ≠ [])
    (hstring : Char.ofNat 0 ∉ name) : ¬ Fits S [.string name] .ifname := by
  rintro ⟨d, hgiven⟩
  have hshown : name = ofBytes (S.shown d.name) := by
    cases hgiven
    rfl
  by_cases hd : d.name = []
  · refine hname ?_
    rw [hshown, System.shown, if_neg fun h => h.2 hd, hd]
    rfl
  · refine hstring ?_
    rw [hshown, System.shown, if_pos ⟨hzero, hd⟩, ofBytes, List.map_append]
    exact List.mem_append_right _ (List.mem_singleton.mpr rfl)

end Programs

/-- Linux hands the zero out. -/
def System.linux : System where
  C := ⟨1, 41, 6, 13, 20, 21, some 25, 20, 21⟩
  N := .zero
  P := Sockets.loopback
  strerror _ := []
  zero := true

/-- Nothing is set. -/
def Session.unset : Session System.linux := ⟨⟨0, .empty, fun _ => [], []⟩, fun _ => none⟩

/-- A timeout of a second and a half, which is kept as it is, and a buffer of 4096 bytes, whose size
is doubled. -/
private def setTimeout : List Label :=
  [.setsockopt (.ok (.timeval 1 500000))
      [.integer 3, .integer 1, .integer 20, .integer 1, .integer 500000],
    .setsockopt (.ok (.int 8192)) [.integer 3, .integer 1, .integer 8, .integer 4096]]

/-- A timeout, as it is read. -/
private def getTimeout : List LuaValue := [.integer 3, .integer 1, .integer 20]

/-- The size of the buffer, as it is read. -/
private def getBuffer : List LuaValue := [.integer 3, .integer 1, .integer 8]

/-- The timeout is got as it was given, the size of the buffer is not. -/
theorem getsockopt_setTimeout : ∃ s,
    (machine System.linux Heap.newestFirst).run .unset setTimeout = some s ∧
    (∃ v w', (Pgetsockopt .linux Heap.newestFirst none (fun _ => 0) getTimeout).run s.world
        = .ok [v] w' ∧ readBack w'.heap .tv v = [.integer 1, .integer 500000]) ∧
    ∃ v w', (Pgetsockopt .linux Heap.newestFirst none (fun _ => 0) getBuffer).run s.world
        = .ok [v] w' ∧ readBack w'.heap .vint v = [.integer 8192] := by
  have hrun : (machine System.linux Heap.newestFirst).run .unset setTimeout = some _ := rfl
  have hreach := Machine.Reachable.of_run (P := fun _ _ => True) (fun _ => rfl)
    (fun _ _ _ => trivial) hrun
  have htimeout : optionArgs .linux getTimeout = .ok (3, 1, 20) := rfl
  have hbuffer : optionArgs .linux getBuffer = .ok (3, 1, 8) := rfl
  obtain ⟨-, v, w', hget, hread, -⟩ := getsockopt_returns_setting hreach rfl (by nofun) htimeout
    fun _ => 0
  obtain ⟨-, v₈, w₈, hget₈, hread₈, -⟩ := getsockopt_returns_setting hreach rfl (by nofun) hbuffer
    fun _ => 0
  exact ⟨_, hrun, ⟨v, w', hget, hread⟩, v₈, w₈, hget₈, hread₈⟩

end LuaPosix.Sockopt

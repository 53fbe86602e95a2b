import LuaPosix.Lib.Machine
import LuaPosix.Lua.Expressions
import LuaPosix.Posix.PollReports

/-! # Pseudo-terminals

`openpty` makes a pseudo-terminal by five calls, each of which can fail, while other processes make
and give up terminals of their own. It keeps both descriptors or none: the descriptors that a
program holds are those that it had before and those that the results of `openpty` name, less those
that it has closed. -/

namespace LuaPosix.Openpty

open LuaPattern (LStr)

/-! ## The kernel -/

/-- An open file: an end of a pseudo-terminal, the master with the number it is listed under; or
something else. -/
inductive File where
  | master (tty number : Nat)
  | slave (tty : Nat)
  | other
  deriving DecidableEq

/-- The terminal of a file. -/
def File.tty : File → Option Nat
  | .master n _ | .slave n => some n
  | .other => none

/-- A pseudo-terminal that is listed under a number. -/
structure Tty where
  tty : Nat
  locked : Bool
  deriving DecidableEq

/-- The descriptors of the program, the terminals by their numbers and how many have been made so
far by anyone. A number is used again, a terminal is not. -/
structure Kernel where
  fds : Nat → Option File
  ptys : Nat → Option Tty
  made : Nat
  listed_lt : ∀ k, ∀ t ∈ ptys k, t.tty < made
  listed_once : ∀ k k', ∀ t ∈ ptys k, ∀ t' ∈ ptys k', t.tty = t'.tty → k = k'
  file_lt : ∀ fd, ∀ f ∈ fds fd, ∀ n ∈ f.tty, n < made
  /-- A terminal is listed while its master is open. -/
  master_listed : ∀ fd n k, fds fd = some (.master n k) → ∃ locked, ptys k = some ⟨n, locked⟩

namespace Kernel

variable (K : Kernel)

/-- A new terminal, with its master at a descriptor. -/
def openMaster (fd number : Nat) (hnumber : K.ptys number = none) : Kernel where
  fds := Function.update K.fds fd (some (.master K.made number))
  ptys := Function.update K.ptys number (some ⟨K.made, true⟩)
  made := K.made + 1
  listed_lt k t ht := by
    by_cases hk : k = number
    · subst hk
      rw [Function.update_self] at ht
      obtain rfl := Option.some.inj ht
      exact Nat.lt_succ_self _
    · rw [Function.update_of_ne hk] at ht
      exact (K.listed_lt k t ht).trans (Nat.lt_succ_self _)
  listed_once k k' t ht t' ht' htty := by
    by_cases hk : k = number <;> by_cases hk' : k' = number
    · rw [hk, hk']
    · subst hk
      rw [Function.update_self] at ht
      rw [Function.update_of_ne hk'] at ht'
      obtain rfl := Option.some.inj ht
      exact absurd htty.symm (Nat.ne_of_lt (K.listed_lt k' t' ht'))
    · subst hk'
      rw [Function.update_self] at ht'
      rw [Function.update_of_ne hk] at ht
      obtain rfl := Option.some.inj ht'
      exact absurd htty (Nat.ne_of_lt (K.listed_lt k t ht))
    · rw [Function.update_of_ne hk] at ht
      rw [Function.update_of_ne hk'] at ht'
      exact K.listed_once k k' t ht t' ht' htty
  file_lt fd' f hf n hn := by
    by_cases hfd : fd' = fd
    · subst hfd
      rw [Function.update_self] at hf
      obtain rfl := Option.some.inj hf
      obtain rfl := Option.some.inj hn
      exact Nat.lt_succ_self _
    · rw [Function.update_of_ne hfd] at hf
      exact (K.file_lt fd' f hf n hn).trans (Nat.lt_succ_self _)
  master_listed fd' n k hmaster := by
    by_cases hfd : fd' = fd
    · subst hfd
      rw [Function.update_self] at hmaster
      cases hmaster
      exact ⟨true, Function.update_self _ _ _⟩
    · rw [Function.update_of_ne hfd] at hmaster
      obtain ⟨locked, hk⟩ := K.master_listed fd' n k hmaster
      have hne : k ≠ number := by
        rintro rfl
        rw [hnumber] at hk
        cases hk
      exact ⟨locked, by rw [Function.update_of_ne hne, hk]⟩

/-- A file of another kind at a descriptor, or the slave of the terminal listed under a number. -/
def openFile (fd : Nat) (f : File) (hf : ∀ n ∈ f.tty, n < K.made)
    (hslave : ∀ n k, f ≠ .master n k) : Kernel where
  fds := Function.update K.fds fd (some f)
  ptys := K.ptys
  made := K.made
  listed_lt := K.listed_lt
  listed_once := K.listed_once
  file_lt fd' f' hf' n hn := by
    by_cases hfd : fd' = fd
    · subst hfd
      rw [Function.update_self] at hf'
      obtain rfl := Option.some.inj hf'
      exact hf n hn
    · rw [Function.update_of_ne hfd] at hf'
      exact K.file_lt fd' f' hf' n hn
  master_listed fd' n k hmaster := by
    by_cases hfd : fd' = fd
    · subst hfd
      rw [Function.update_self] at hmaster
      exact absurd (Option.some.inj hmaster) (hslave n k)
    · rw [Function.update_of_ne hfd] at hmaster
      exact K.master_listed fd' n k hmaster

/-- The slave of a terminal can be opened. -/
def unlock (n : Nat) : Kernel where
  fds := K.fds
  ptys k := (K.ptys k).map fun t => if t.tty = n then ⟨n, false⟩ else t
  made := K.made
  listed_lt k t ht := by
    obtain ⟨t₀, ht₀, rfl⟩ := Option.map_eq_some_iff.mp ht
    split_ifs with hn
    · exact hn ▸ K.listed_lt k t₀ ht₀
    · exact K.listed_lt k t₀ ht₀
  listed_once k k' t ht t' ht' htty := by
    obtain ⟨t₀, ht₀, rfl⟩ := Option.map_eq_some_iff.mp ht
    obtain ⟨t₁, ht₁, rfl⟩ := Option.map_eq_some_iff.mp ht'
    refine K.listed_once k k' t₀ ht₀ t₁ ht₁ ?_
    split_ifs at htty with h₀ h₁ h₁ <;> simp_all
  file_lt := K.file_lt
  master_listed fd n' k hmaster := by
    obtain ⟨locked, hk⟩ := K.master_listed fd n' k hmaster
    rw [hk]
    by_cases hn : n' = n
    · subst hn
      exact ⟨false, by simp⟩
    · exact ⟨locked, by simp [hn]⟩

/-- A descriptor is closed. -/
def close (fd : Nat) : Kernel where
  fds := Function.update K.fds fd none
  ptys := K.ptys
  made := K.made
  listed_lt := K.listed_lt
  listed_once := K.listed_once
  file_lt fd' f hf := by
    by_cases hfd : fd' = fd
    · subst hfd
      rw [Function.update_self] at hf
      cases hf
    · rw [Function.update_of_ne hfd] at hf
      exact K.file_lt fd' f hf
  master_listed fd' n k hmaster := by
    by_cases hfd : fd' = fd
    · subst hfd
      rw [Function.update_self] at hmaster
      cases hmaster
    · rw [Function.update_of_ne hfd] at hmaster
      exact K.master_listed fd' n k hmaster

/-- The file of a descriptor. -/
def file (fd : Int) : Option File := if 0 ≤ fd then K.fds fd.toNat else none

end Kernel

/-- What other processes do leaves the descriptors of the program alone and the terminals that it
has the master of. -/
structure Apart (K K' : Kernel) : Prop where
  fds : K'.fds = K.fds
  made : K.made ≤ K'.made
  listed : ∀ fd n k, K.fds fd = some (.master n k) → K'.ptys k = K.ptys k

/-! ## Calls -/

/-- The calls of the C library. -/
inductive Call where
  | open_ (path : LStr) (oflags : Int) (mode : Option (BitVec 32))
  | grantpt (fd : Int)
  | unlockpt (fd : Int)
  | ptsname (fd : Int)
  | close (fd : Int)
  deriving DecidableEq

/-- What runs on it. -/
abbrev PtyM := BindingM Kernel Call

/-- Why the kernel refuses a call. -/
inductive Refusal where
  | noDescriptor
  | noTerminal
  | badDescriptor
  | notTerminal
  | locked
  | gone

/-- The name that `openpt` opens. -/
def ptmx : LStr := "/dev/ptmx".toList

/-- The constants and names of the system. -/
structure System where
  N : Numerals
  strerror : Int → LStr
  errno : Refusal → Int
  O_RDWR : LuaInteger
  O_NOCTTY : LuaInteger
  /-- The name of the slave of the terminal with this number. -/
  slaveName : Nat → LStr
  /-- The number of the terminal whose slave has this name. -/
  number : LStr → Option Nat
  number_slaveName : ∀ k, number (slaveName k) = some k
  number_ptmx : number ptmx = none
  slaveName_text : ∀ k, Char.ofNat 0 ∉ slaveName k

/-- What the rest of the world does around the calls: other processes have their turn before each,
each can fail for a reason of its own, and the kernel picks a free descriptor and number, if there
is any. -/
structure Answers where
  others : Call → Kernel → Kernel
  others_apart : ∀ call K, Apart K (others call K)
  fails : Call → Option Int
  place : ∀ fds : Nat → Option File, Option { fd : Nat // fds fd = none ∧ fd < 2 ^ 31 }
  free : ∀ ptys : Nat → Option Tty, Option { k : Nat // ptys k = none }

section Library

variable (S : System) (A : Answers)

/-- A call, whose result is -1 or NULL where it fails. -/
def libcall {α : Type} (call : Call) (f : Kernel → Except Int (α × Kernel)) : PtyM (Option α) :=
  fun w =>
    match A.fails call with
    | some e => .ok none { w with
        errno := e, sys := A.others call w.sys, calls := w.calls ++ [call] }
    | none =>
        match f (A.others call w.sys) with
        | .ok (a, K) => .ok (some a) { w with sys := K, calls := w.calls ++ [call] }
        | .error e => .ok none { w with
            errno := e, sys := A.others call w.sys, calls := w.calls ++ [call] }

/-- `open(path, oflags, mode)`. -/
def openPath (path : LStr) (K : Kernel) : Except Int (Int × Kernel) :=
  match A.place K.fds with
  | none => .error (S.errno .noDescriptor)
  | some fd =>
      if path = ptmx then
        match A.free K.ptys with
        | none => .error (S.errno .noTerminal)
        | some k => .ok (fd.1, K.openMaster fd.1 k.1 k.2)
      else
        match S.number path with
        | none => .ok (fd.1, K.openFile fd.1 .other (fun _ h => nomatch h) (fun _ _ => nofun))
        | some k =>
            match h : K.ptys k with
            | none => .error (S.errno .gone)
            | some t =>
                if t.locked then .error (S.errno .locked)
                else .ok (fd.1, K.openFile fd.1 (.slave t.tty)
                  (fun _ hn => Option.some.inj hn ▸ K.listed_lt k t h) (fun _ _ => nofun))

/-- What needs a master. -/
def onMaster {α : Type} (fd : Int) (f : Nat → Nat → α × Kernel) (K : Kernel) :
    Except Int (α × Kernel) :=
  match K.file fd with
  | some (.master n k) => .ok (f n k)
  | some _ => .error (S.errno .notTerminal)
  | none => .error (S.errno .badDescriptor)

/-- `close(fd)`. Where it fails for a reason of its own the descriptor is closed all the same. -/
def closeFd (fd : Int) : PtyM (Option Int) := fun w =>
  match (A.others (.close fd) w.sys).file fd, A.fails (.close fd) with
  | none, _ => .ok none { w with
      errno := S.errno .badDescriptor, sys := A.others (.close fd) w.sys
      calls := w.calls ++ [.close fd] }
  | some _, some e => .ok none { w with
      errno := e, sys := (A.others (.close fd) w.sys).close fd.toNat
      calls := w.calls ++ [.close fd] }
  | some _, none => .ok (some 0) { w with
      sys := (A.others (.close fd) w.sys).close fd.toNat, calls := w.calls ++ [.close fd] }

end Library

/-! ## Bindings -/

section Model

variable (S : System) (A : Answers)

/-- `pushresult(L, r, info)`. -/
def push (info : Option LStr) (r : Option Int) : PtyM (List LuaValue) := do
  return pushresult S.strerror (← BindingM.errno) info (r.getD (-1))

/-- `openpt(oflags)`. -/
def Popenpt (args : List LuaValue) : PtyM (List LuaValue) := do
  let flags ← checkint S.N.strtod args 1
  checknargs args 1
  push S none (← libcall A (.open_ ptmx flags none) (openPath S A ptmx))

/-- `grantpt(fd)`. The slave is the program's already. -/
def Pgrantpt (args : List LuaValue) : PtyM (List LuaValue) := do
  let fd ← checkint S.N.strtod args 1
  checknargs args 1
  push S (some "grantpt".toList)
    (← libcall A (.grantpt fd) fun K => onMaster S fd (fun _ _ => (0, K)) K)

/-- `unlockpt(fd)`. -/
def Punlockpt (args : List LuaValue) : PtyM (List LuaValue) := do
  let fd ← checkint S.N.strtod args 1
  checknargs args 1
  push S (some "unlockpt".toList)
    (← libcall A (.unlockpt fd) fun K => onMaster S fd (fun n _ => (0, K.unlock n)) K)

/-- `ptsname(fd)`. -/
def Pptsname (args : List LuaValue) : PtyM (List LuaValue) := do
  let fd ← checkint S.N.strtod args 1
  checknargs args 1
  match ← libcall A (.ptsname fd) fun K => onMaster S fd (fun _ k => (S.slaveName k, K)) K with
  | none => return pusherror S.strerror (← BindingM.errno) (some "getptsname".toList)
  | some slave => return [.string slave]

/-- `open(path, oflags, mode)`. -/
def Popen (args : List LuaValue) : PtyM (List LuaValue) := do
  let path ← cstring <$> checklstring args S.N.numberText 1
  let oflags ← checkint S.N.strtod args 2
  checknargs args 3
  let mode ← optinteger S.N.strtod args 3 511
  push S (some path) (← libcall A (.open_ path oflags (some (mode.setWidth 32)))
    (openPath S A path))

/-- `close(fd)`. -/
def Pclose (args : List LuaValue) : PtyM (List LuaValue) := do
  let fd ← checkint S.N.strtod args 1
  checknargs args 1
  push S none (← closeFd S A fd)

/-- `bor(O_RDWR, O_NOCTTY)`. -/
def oflags : LuaValue := .integer (S.O_RDWR ||| S.O_NOCTTY)

/-- The second and the third of the values of a call. -/
def errorOf (vs : List LuaValue) : List LuaValue := [vs[1]?.getD .nil, vs[2]?.getD .nil]

/-- What `openpty` does with its master: the slave and its name, or a message and a number. -/
def openSlave (master : LuaValue) : PtyM (Except (List LuaValue) (List LuaValue)) := do
  let ok ← Pgrantpt S A [master]
  if (first ok).truthy then
    let ok ← Punlockpt S A [master]
    if (first ok).truthy then
      let slave_name ← Pptsname S A [master]
      if (first slave_name).truthy then
        let slave ← Popen S A [first slave_name, oflags S]
        if (first slave).truthy then return .ok [first slave, first slave_name]
        else return .error (errorOf slave)
      else return .error (errorOf slave_name)
    else return .error (errorOf ok)
  else return .error (errorOf ok)

/-- `openpty()`. -/
def Popenpty : PtyM (List LuaValue) := do
  let master ← Popenpt S A [oflags S]
  if (first master).truthy then
    match ← openSlave S A (first master) with
    | .ok slave => return first master :: slave
    | .error e =>
        let _ ← Pclose S A [first master]
        return .nil :: e
  else return .nil :: errorOf master

end Model

/-! ## A terminal in the making -/

/-- A descriptor as a value. -/
def fdValue (fd : Nat) : LuaValue := .integer (BitVec.ofInt 64 fd)

/-- A descriptor is an `int`. -/
theorem toInt_fdValue {fd : Nat} (h : fd < 2 ^ 31) : toInt (BitVec.ofInt 64 fd) = fd :=
  Poll.toInt_ofInt ⟨by omega, by exact_mod_cast h⟩

/-- The program has the master of a terminal made since, and nothing else has changed for it. -/
structure Held (K₀ K : Kernel) (m n k : Nat) (locked : Bool) : Prop where
  free : K₀.fds m = none
  int : m < 2 ^ 31
  fds : K.fds = Function.update K₀.fds m (some (.master n k))
  listed : K.ptys k = some ⟨n, locked⟩
  new : K₀.made ≤ n
  steady : ∀ fd n k, K₀.fds fd = some (.master n k) → K.ptys k = K₀.ptys k

/-- The program has both ends of a terminal made since, and nothing else has changed for it. -/
structure Paired (K₀ K : Kernel) (m s n k : Nat) : Prop where
  master_free : K₀.fds m = none
  slave_free : K₀.fds s = none
  ne : s ≠ m
  master_int : m < 2 ^ 31
  slave_int : s < 2 ^ 31
  fds : K.fds = Function.update (Function.update K₀.fds m (some (.master n k))) s (some (.slave n))
  listed : K.ptys k = some ⟨n, false⟩
  new : K₀.made ≤ n
  made : n < K.made
  steady : ∀ fd n k, K₀.fds fd = some (.master n k) → K.ptys k = K₀.ptys k

section Making

variable {K₀ K K' : Kernel} {m n k : Nat} {locked : Bool}

/-- A new terminal. -/
theorem Apart.held (h : Apart K₀ K) {fd : Nat} (hfd : K.fds fd = none ∧ fd < 2 ^ 31) {number : Nat}
    (hnumber : K.ptys number = none) :
    Held K₀ (K.openMaster fd number hnumber) fd K.made number true where
  free := h.fds ▸ hfd.1
  int := hfd.2
  fds := congrArg (fun t => Function.update t fd _) h.fds
  listed := Function.update_self _ _ _
  new := h.made
  steady fd' n k hmaster := by
    have hmaster' : K.fds fd' = some (.master n k) := by rw [h.fds, hmaster]
    obtain ⟨locked, hlisted⟩ := K.master_listed fd' n k hmaster'
    have hne : k ≠ number := by
      rintro rfl
      rw [hnumber] at hlisted
      cases hlisted
    show Function.update K.ptys number _ k = _
    rw [Function.update_of_ne hne, h.listed fd' n k hmaster]

/-- The others have their turn. -/
theorem Held.apart (h : Held K₀ K m n k locked) (hothers : Apart K K') :
    Held K₀ K' m n k locked where
  free := h.free
  int := h.int
  fds := hothers.fds.trans h.fds
  listed := by
    rw [hothers.listed m n k (by rw [h.fds, Function.update_self]), h.listed]
  new := h.new
  steady fd n' k' hmaster := by
    have hne : fd ≠ m := by
      rintro rfl
      rw [h.free] at hmaster
      cases hmaster
    have hmaster' : K.fds fd = some (.master n' k') := by
      rw [h.fds, Function.update_of_ne hne, hmaster]
    rw [hothers.listed fd n' k' hmaster', h.steady fd n' k' hmaster]

/-- The slave is unlocked. -/
theorem Held.unlock (h : Held K₀ K m n k locked) : Held K₀ (K.unlock n) m n k false where
  free := h.free
  int := h.int
  fds := h.fds
  listed := by
    show (K.ptys k).map _ = _
    rw [h.listed, Option.map_some, if_pos rfl]
  new := h.new
  steady fd n' k' hmaster := by
    obtain ⟨b, hlisted⟩ := K₀.master_listed fd n' k' hmaster
    have hlt : n' < K₀.made := K₀.listed_lt k' _ hlisted
    have hne : n' ≠ n := Nat.ne_of_lt (hlt.trans_le h.new)
    show (K.ptys k').map _ = _
    rw [h.steady fd n' k' hmaster, hlisted, Option.map_some, if_neg hne]

/-- The master is closed again. -/
theorem Held.close (h : Held K₀ K m n k locked) : Apart K₀ (K.close m) where
  fds := by
    show Function.update K.fds m none = _
    rw [h.fds, Function.update_idem, ← h.free, Function.update_eq_self]
  made := h.new.trans (Nat.le_of_lt (K.listed_lt k _ h.listed))
  listed fd n' k' := h.steady fd n' k'

/-- The slave is opened. -/
theorem Held.paired (h : Held K₀ K m n k false) {s : Nat} (hs : K.fds s = none ∧ s < 2 ^ 31)
    {f : File} (hf : f = .slave n) (hlt : ∀ n ∈ f.tty, n < K.made) (hne : ∀ n k, f ≠ .master n k) :
    Paired K₀ (K.openFile s f hlt hne) m s n k := by
  have hsm : s ≠ m := by
    rintro rfl
    rw [h.fds, Function.update_self] at hs
    cases hs.1
  refine ⟨h.free, ?_, hsm, h.int, hs.2, ?_, h.listed, h.new, K.listed_lt k _ h.listed, h.steady⟩
  · rw [← hs.1, h.fds, Function.update_of_ne hsm]
  · show Function.update K.fds s _ = _
    rw [h.fds, hf]

end Making

/-! ## The calls -/

/-- What the message of an error begins with. -/
def Call.info : Call → Option LStr
  | .open_ path _ mode => if mode.isSome then some path else none
  | .grantpt _ => some "grantpt".toList
  | .unlockpt _ => some "unlockpt".toList
  | .ptsname _ => some "getptsname".toList
  | .close _ => none

section Stages

variable (S : System) (A : Answers)

/-- The calls that `openpty` makes, if all goes well. -/
def stages (m k : Nat) : List Call :=
  [.open_ ptmx (toInt (S.O_RDWR ||| S.O_NOCTTY)) none, .grantpt m, .unlockpt m, .ptsname m,
    .open_ (S.slaveName k) (toInt (S.O_RDWR ||| S.O_NOCTTY)) (some 511)]

/-- Why a call has failed: for a reason of its own, or there was no descriptor or number left. -/
inductive Cause : Call → Int → Prop where
  | own {call : Call} {e : Int} : A.fails call = some e → Cause call e
  | noDescriptor {path : LStr} {flags : Int} {mode : Option (BitVec 32)}
      {fds : Nat → Option File} :
      A.place fds = none → Cause (.open_ path flags mode) (S.errno .noDescriptor)
  | noTerminal {path : LStr} {flags : Int} {mode : Option (BitVec 32)} {ptys : Nat → Option Tty} :
      A.free ptys = none → Cause (.open_ path flags mode) (S.errno .noTerminal)

/-- The calls up to the first that has failed, and its error. -/
def Stopped (l made : List Call) (vs : List LuaValue) : Prop :=
  ∃ done call rest e, l = done ++ call :: rest ∧ made = done ++ [call] ∧
    (∀ c ∈ done, A.fails c = none) ∧ Cause S A call e ∧
    vs = pusherror S.strerror e call.info

variable {S A} {call : Call} {l made : List Call} {vs : List LuaValue} {e : Int}

/-- The call that fails first stops the others. -/
theorem Cause.stopped (h : Cause S A call e) :
    Stopped S A (call :: l) [call] (pusherror S.strerror e call.info) :=
  ⟨[], call, l, e, rfl, rfl, fun _ hc => absurd hc List.not_mem_nil, h, rfl⟩

/-- A call that succeeds is followed by the others. -/
theorem Stopped.cons (h : Stopped S A l made vs) (hcall : A.fails call = none) :
    Stopped S A (call :: l) (call :: made) vs := by
  obtain ⟨done, call', rest, e, rfl, rfl, hdone, hcause, rfl⟩ := h
  refine ⟨call :: done, call', rest, e, rfl, rfl, fun c hc => ?_, hcause, rfl⟩
  obtain rfl | hc := List.mem_cons.mp hc
  · exact hcall
  · exact hdone c hc

end Stages

/-! ## The calls one by one -/

section Calls

variable {S : System} {A : Answers} {w : World Kernel Call} {α : Type} {call : Call}
  {f : Kernel → Except Int (α × Kernel)} {e : Int}

/-- A call that the system fails sets `errno`. -/
theorem run_libcall_fails (h : A.fails call = some e) : (libcall A call f).run w
    = .ok none ⟨e, w.heap, A.others call w.sys, w.calls ++ [call]⟩ := by
  show libcall A call f w = _
  rw [libcall, h]

/-- A call that succeeds leaves `errno` alone. -/
theorem run_libcall_ok (h : A.fails call = none) {a : α} {K : Kernel}
    (hf : f (A.others call w.sys) = .ok (a, K)) : (libcall A call f).run w
      = .ok (some a) ⟨w.errno, w.heap, K, w.calls ++ [call]⟩ := by
  show libcall A call f w = _
  simp only [libcall, h, hf]

/-- A call that the kernel refuses sets `errno`. -/
theorem run_libcall_error (h : A.fails call = none)
    (hf : f (A.others call w.sys) = .error e) : (libcall A call f).run w
      = .ok none ⟨e, w.heap, A.others call w.sys, w.calls ++ [call]⟩ := by
  show libcall A call f w = _
  simp only [libcall, h, hf]

/-- A binding makes a call and returns its values, or the error of the call. -/
def Makes (S : System) (A : Answers) (w : World Kernel Call) (call : Call)
    (x : PtyM (List LuaValue)) (ok : List LuaValue → Kernel → Prop) (held : Kernel → Prop) : Prop :=
  ∃ vs w', x.run w = .ok vs w' ∧ w'.calls = w.calls ++ [call] ∧
    ((A.fails call = none ∧ ok vs w'.sys) ∨
      ∃ e, Cause S A call e ∧ vs = pusherror S.strerror e call.info ∧ held w'.sys)

/-- What a binding does after its checks. -/
theorem makes_libcall {g : Option α → PtyM (List LuaValue)} (values : α → List LuaValue)
    {ok : List LuaValue → Kernel → Prop} {held : Kernel → Prop}
    (hnone : ∀ w', (g none).run w' = .ok (pusherror S.strerror w'.errno call.info) w')
    (hok : ∀ a K, f (A.others call w.sys) = .ok (a, K) →
      (∀ w', (g (some a)).run w' = .ok (values a) w') ∧ ok (values a) K)
    (herror : ∀ e, f (A.others call w.sys) = .error e → Cause S A call e)
    (hheld : held (A.others call w.sys)) : Makes S A w call (libcall A call f >>= g) ok held := by
  cases hfails : A.fails call with
  | some e =>
      exact ⟨_, _, (BindingM.run_bind_of_ok (run_libcall_fails hfails)).trans (hnone _), rfl,
        .inr ⟨e, .own hfails, rfl, hheld⟩⟩
  | none =>
      cases hf : f (A.others call w.sys) with
      | ok a =>
          obtain ⟨hrun, hvalues⟩ := hok a.1 a.2 hf
          exact ⟨_, _, (BindingM.run_bind_of_ok (run_libcall_ok hfails hf)).trans (hrun _), rfl,
            .inl ⟨hfails, hvalues⟩⟩
      | error e =>
          exact ⟨_, _, (BindingM.run_bind_of_ok (run_libcall_error hfails hf)).trans (hnone _), rfl,
            .inr ⟨e, herror e hf, rfl, hheld⟩⟩

/-- `pushresult` of what a call has returned. -/
theorem run_push {info : Option LStr} {r : Int} (hr : 0 ≤ r) : (push S info (some r)).run w
    = .ok [.integer (BitVec.ofInt 64 r)] w := by
  show EStateM.Result.ok (pushresult S.strerror w.errno info r) w = _
  rw [pushresult, if_neg (by omega)]

/-- A descriptor passes the check. -/
theorem checkint_fdValue {fd : Nat} (h : fd < 2 ^ 31) :
    checkint S.N.strtod [fdValue fd] 1 = .ok (fd : Int) := by
  show Except.ok (toInt (BitVec.ofInt 64 fd)) = _
  rw [toInt_fdValue h]

variable {K₀ : Kernel} {m n k : Nat} {locked : Bool}

/-- Where the program has the master, a call on it finds it. -/
theorem Held.onMaster (h : Held K₀ w.sys m n k locked) {g : Kernel → Nat → Nat → α × Kernel} :
    onMaster S m (g (A.others call w.sys)) (A.others call w.sys)
      = .ok (g (A.others call w.sys) n k) := by
  have hfile : (A.others call w.sys).file m = some (.master n k) := by
    rw [Kernel.file, if_pos (Int.natCast_nonneg m), Int.toNat_natCast,
      (h.apart (A.others_apart call w.sys)).fds, Function.update_self]
  rw [Openpty.onMaster, hfile]

/-- `grantpt` leaves the terminal as it is. -/
theorem Held.grantpt (h : Held K₀ w.sys m n k locked) :
    Makes S A w (.grantpt m) (Pgrantpt S A [fdValue m])
      (fun vs K => vs = [.integer 0] ∧ Held K₀ K m n k locked) (Held K₀ · m n k locked) := by
  have hothers := h.apart (A.others_apart (.grantpt m) w.sys)
  rw [Pgrantpt, checkint_fdValue h.int]
  refine makes_libcall (fun _ => [.integer 0]) (fun w' => rfl) (fun a K hf => ?_)
    (fun e hf => ?_) hothers
  · rw [h.onMaster (g := fun K _ _ => (0, K))] at hf
    cases hf
    exact ⟨fun w' => rfl, rfl, hothers⟩
  · rw [h.onMaster (g := fun K _ _ => (0, K))] at hf
    cases hf

/-- `unlockpt` unlocks it. -/
theorem Held.unlockpt (h : Held K₀ w.sys m n k locked) :
    Makes S A w (.unlockpt m) (Punlockpt S A [fdValue m])
      (fun vs K => vs = [.integer 0] ∧ Held K₀ K m n k false) (Held K₀ · m n k locked) := by
  have hothers := h.apart (A.others_apart (.unlockpt m) w.sys)
  rw [Punlockpt, checkint_fdValue h.int]
  refine makes_libcall (fun _ => [.integer 0]) (fun w' => rfl) (fun a K hf => ?_)
    (fun e hf => ?_) hothers
  · rw [h.onMaster (g := fun K n _ => (0, K.unlock n))] at hf
    cases hf
    exact ⟨fun w' => rfl, rfl, hothers.unlock⟩
  · rw [h.onMaster (g := fun K n _ => (0, K.unlock n))] at hf
    cases hf

/-- `ptsname` gives the slave's name. -/
theorem Held.ptsname (h : Held K₀ w.sys m n k locked) :
    Makes S A w (.ptsname m) (Pptsname S A [fdValue m])
      (fun vs K => vs = [.string (S.slaveName k)] ∧ Held K₀ K m n k locked)
      (Held K₀ · m n k locked) := by
  have hothers := h.apart (A.others_apart (.ptsname m) w.sys)
  rw [Pptsname, checkint_fdValue h.int]
  refine makes_libcall (fun slave => [.string slave]) (fun w' => rfl) (fun a K hf => ?_)
    (fun e hf => ?_) hothers
  · rw [h.onMaster (g := fun K _ k => (S.slaveName k, K))] at hf
    cases hf
    exact ⟨fun w' => rfl, rfl, hothers⟩
  · rw [h.onMaster (g := fun K _ k => (S.slaveName k, K))] at hf
    cases hf

/-- No slave is called as the master is. -/
theorem slaveName_ne_ptmx (k : Nat) : S.slaveName k ≠ ptmx := by
  intro hname
  have hnumber := S.number_slaveName k
  rw [hname, S.number_ptmx] at hnumber
  cases hnumber

/-- The name of the slave leads to its terminal, as long as the program has the master: it is
neither locked nor gone. -/
theorem Held.openPath {K : Kernel} (h : Held K₀ K m n k false) :
    (∃ s K', openPath S A (S.slaveName k) K = .ok ((s : Nat), K') ∧ Paired K₀ K' m s n k) ∨
      A.place K.fds = none ∧ openPath S A (S.slaveName k) K = .error (S.errno .noDescriptor) := by
  cases hplace : A.place K.fds with
  | none => exact .inr ⟨rfl, by rw [Openpty.openPath, hplace]⟩
  | some fd =>
      refine .inl ?_
      simp only [Openpty.openPath, hplace, if_neg (slaveName_ne_ptmx k), S.number_slaveName]
      split
      · next hgone =>
          rw [h.listed] at hgone
          cases hgone
      · next t hlisted =>
          have ht : t = ⟨n, false⟩ := Option.some.inj (hlisted.symm.trans h.listed)
          rw [if_neg (by rw [ht]; exact Bool.false_ne_true)]
          exact ⟨fd.1, _, rfl, h.paired fd.2 (by rw [ht]) _ _⟩

/-- `open` of a slave, with the mode it has by default. -/
theorem Popen_slaveName : Popen S A [.string (S.slaveName k), oflags S]
    = libcall A (.open_ (S.slaveName k) (toInt (S.O_RDWR ||| S.O_NOCTTY)) (some 511))
        (Openpty.openPath S A (S.slaveName k)) >>= push S (some (S.slaveName k)) := by
  have hname : cstring (S.slaveName k) = S.slaveName k := cstring_eq_self (S.slaveName_text k)
  have hopen : Popen S A [.string (S.slaveName k), oflags S]
      = libcall A (.open_ (cstring (S.slaveName k)) (toInt (S.O_RDWR ||| S.O_NOCTTY)) (some 511))
        (Openpty.openPath S A (cstring (S.slaveName k))) >>=
          push S (some (cstring (S.slaveName k))) := rfl
  rw [hopen, hname]

/-- An unlocked slave is opened at a free descriptor. -/
theorem Held.open_slave (h : Held K₀ w.sys m n k false) :
    Makes S A w (.open_ (S.slaveName k) (toInt (S.O_RDWR ||| S.O_NOCTTY)) (some 511))
      (Popen S A [.string (S.slaveName k), oflags S])
      (fun vs K => ∃ s, vs = [fdValue s] ∧ Paired K₀ K m s n k) (Held K₀ · m n k false) := by
  have hothers := h.apart (A.others_apart
    (.open_ (S.slaveName k) (toInt (S.O_RDWR ||| S.O_NOCTTY)) (some 511)) w.sys)
  have hpath := hothers.openPath (S := S) (A := A)
  rw [Popen_slaveName]
  refine makes_libcall (fun r => [.integer (BitVec.ofInt 64 r)]) (fun w' => rfl) (fun a K hf => ?_)
    (fun e hf => ?_) hothers
  · obtain ⟨s, K', hok, hpaired⟩ | ⟨-, herror⟩ := hpath
    · rw [hok] at hf
      cases hf
      exact ⟨fun w' => run_push (Int.natCast_nonneg s), s, rfl, hpaired⟩
    · rw [herror] at hf
      cases hf
  · obtain ⟨s, K', hok, -⟩ | ⟨hplace, herror⟩ := hpath
    · rw [hok] at hf
      cases hf
    · rw [herror] at hf
      cases hf
      exact .noDescriptor hplace

/-- A new master. -/
theorem openPath_ptmx {K : Kernel} (h : Apart K₀ K) :
    (∃ m K' n k, openPath S A ptmx K = .ok ((m : Nat), K') ∧ Held K₀ K' m n k true) ∨
      (A.place K.fds = none ∧ openPath S A ptmx K = .error (S.errno .noDescriptor)) ∨
      (A.free K.ptys = none ∧ openPath S A ptmx K = .error (S.errno .noTerminal)) := by
  cases hplace : A.place K.fds with
  | none => exact .inr (.inl ⟨rfl, by rw [openPath, hplace]⟩)
  | some fd =>
      simp only [openPath, hplace, if_pos]
      cases hfree : A.free K.ptys with
      | none => exact .inr (.inr ⟨rfl, rfl⟩)
      | some k => exact .inl ⟨fd.1, _, _, _, rfl, h.held fd.2 k.2⟩

/-- `openpt` makes a terminal of the caller's own, still locked. -/
theorem makes_openpt :
    Makes S A w (.open_ ptmx (toInt (S.O_RDWR ||| S.O_NOCTTY)) none) (Popenpt S A [oflags S])
      (fun vs K => ∃ m n k, vs = [fdValue m] ∧ Held w.sys K m n k true) (Apart w.sys) := by
  have hothers := A.others_apart (.open_ ptmx (toInt (S.O_RDWR ||| S.O_NOCTTY)) none) w.sys
  have hopen : Popenpt S A [oflags S]
      = libcall A (.open_ ptmx (toInt (S.O_RDWR ||| S.O_NOCTTY)) none) (openPath S A ptmx)
        >>= push S none := rfl
  have hpath := openPath_ptmx (S := S) (A := A) hothers
  rw [hopen]
  refine makes_libcall (fun r => [.integer (BitVec.ofInt 64 r)]) (fun w' => rfl) (fun a K hf => ?_)
    (fun e hf => ?_) hothers
  · obtain ⟨m, K', n, k, hok, hheld⟩ | ⟨-, herror⟩ | ⟨-, herror⟩ := hpath
    · rw [hok] at hf
      cases hf
      exact ⟨fun w' => run_push (Int.natCast_nonneg m), m, n, k, rfl, hheld⟩
    · rw [herror] at hf
      cases hf
    · rw [herror] at hf
      cases hf
  · obtain ⟨m, K', n, k, hok, -⟩ | ⟨hplace, herror⟩ | ⟨hfree, herror⟩ := hpath
    · rw [hok] at hf
      cases hf
    · rw [herror] at hf
      cases hf
      exact .noDescriptor hplace
    · rw [herror] at hf
      cases hf
      exact .noTerminal hfree

end Calls

/-! ## One call of `openpty` -/

section Whole

variable {S : System} {A : Answers} {w : World Kernel Call} {K₀ : Kernel} {m n k : Nat}
  {call : Call} {l : List Call}

/-- Go on with the values of a call, if there are any. -/
def attempt (x : PtyM (List LuaValue))
    (rest : List LuaValue → PtyM (Except (List LuaValue) (List LuaValue))) :
    PtyM (Except (List LuaValue) (List LuaValue)) := do
  let vs ← x
  if (first vs).truthy then rest vs else return .error (errorOf vs)

/-- What follows the first call, one attempt after another. -/
theorem openSlave_eq (master : LuaValue) : openSlave S A master
    = attempt (Pgrantpt S A [master]) fun _ => attempt (Punlockpt S A [master]) fun _ =>
        attempt (Pptsname S A [master]) fun slave_name =>
          attempt (Popen S A [first slave_name, oflags S]) fun slave =>
            return .ok [first slave, first slave_name] := rfl

/-- With a master in hand, either all of these calls are made and the program has the slave as
well, or the calls up to the first that fails. -/
def Gets (S : System) (A : Answers) (K₀ : Kernel) (m n k : Nat) (l : List Call)
    (w : World Kernel Call) (x : PtyM (Except (List LuaValue) (List LuaValue))) : Prop :=
  ∃ r w' made, x.run w = .ok r w' ∧ w'.calls = w.calls ++ made ∧
    ((∃ s, r = .ok [fdValue s, .string (S.slaveName k)] ∧ Paired K₀ w'.sys m s n k ∧ made = l ∧
        ∀ c ∈ l, A.fails c = none) ∨
      ∃ vs locked, r = .error (errorOf vs) ∧ Held K₀ w'.sys m n k locked ∧ Stopped S A l made vs)

/-- An attempt that succeeds goes on, one that fails stops. -/
theorem gets_attempt {x : PtyM (List LuaValue)}
    {rest : List LuaValue → PtyM (Except (List LuaValue) (List LuaValue))}
    {ok : List LuaValue → Kernel → Prop} {locked : Bool}
    (hx : Makes S A w call x ok (Held K₀ · m n k locked))
    (htruthy : ∀ vs K, ok vs K → (first vs).truthy = true)
    (hrest : ∀ vs w₁, ok vs w₁.sys → Gets S A K₀ m n k l w₁ (rest vs)) :
    Gets S A K₀ m n k (call :: l) w (attempt x rest) := by
  obtain ⟨vs, w₁, hrun, hcalls, ⟨hfails, hok⟩ | ⟨e, hcause, rfl, hheld⟩⟩ := hx
  · obtain ⟨r, w', made, hrest, hmade, hresult⟩ := hrest vs w₁ hok
    refine ⟨r, w', call :: made, ?_, ?_, hresult.imp ?_ ?_⟩
    · rw [attempt, BindingM.run_bind_of_ok hrun, if_pos (htruthy vs _ hok), hrest]
    · rw [hmade, hcalls, List.append_assoc, List.singleton_append]
    · rintro ⟨s, rfl, hpaired, rfl, hall⟩
      exact ⟨s, rfl, hpaired, rfl, List.forall_mem_cons.mpr ⟨hfails, hall⟩⟩
    · rintro ⟨vs, locked, rfl, hheld, hstopped⟩
      exact ⟨vs, locked, rfl, hheld, hstopped.cons hfails⟩
  · exact ⟨_, w₁, [call], BindingM.run_bind_of_ok hrun, hcalls,
      .inr ⟨_, locked, rfl, hheld, hcause.stopped⟩⟩

/-- What `openpty` does with its master. -/
theorem gets_openSlave (h : Held K₀ w.sys m n k true) :
    Gets S A K₀ m n k (stages S m k).tail w (openSlave S A (fdValue m)) := by
  rw [openSlave_eq]
  refine gets_attempt h.grantpt ?_ fun vs₁ w₁ hok => ?_
  · rintro vs K ⟨rfl, -⟩
    rfl
  refine gets_attempt hok.2.unlockpt ?_ fun vs₂ w₂ hok => ?_
  · rintro vs K ⟨rfl, -⟩
    rfl
  refine gets_attempt hok.2.ptsname ?_ fun vs₃ w₃ hok => ?_
  · rintro vs K ⟨rfl, -⟩
    rfl
  obtain ⟨rfl, hheld⟩ := hok
  refine gets_attempt hheld.open_slave ?_ fun vs₄ w₄ hok => ?_
  · rintro vs K ⟨s, rfl, -⟩
    rfl
  obtain ⟨s, rfl, hpaired⟩ := hok
  exact ⟨_, w₄, [], rfl, (List.append_nil _).symm,
    .inl ⟨s, rfl, hpaired, rfl, fun c hc => absurd hc List.not_mem_nil⟩⟩

/-- What a close leaves: the descriptor is not open, and no other has changed. -/
theorem run_closeFd (fd : Int) : ∃ r w', (closeFd S A fd).run w = .ok r w' ∧
    w'.calls = w.calls ++ [.close fd] ∧
    (((A.others (.close fd) w.sys).file fd = none ∧ w'.sys = A.others (.close fd) w.sys) ∨
      ((A.others (.close fd) w.sys).file fd ≠ none ∧
        w'.sys = (A.others (.close fd) w.sys).close fd.toNat)) := by
  cases hfile : (A.others (.close fd) w.sys).file fd with
  | none =>
      exact ⟨none, _, by show closeFd S A fd w = _; rw [closeFd, hfile], rfl, .inl ⟨rfl, rfl⟩⟩
  | some f =>
      cases hfails : A.fails (.close fd) with
      | some e =>
          exact ⟨none, _, by show closeFd S A fd w = _; rw [closeFd, hfile, hfails], rfl,
            .inr ⟨nofun, rfl⟩⟩
      | none =>
          exact ⟨some 0, _, by show closeFd S A fd w = _; rw [closeFd, hfile, hfails], rfl,
            .inr ⟨nofun, rfl⟩⟩

/-- `close` closes, whatever it returns. -/
theorem Held.run_Pclose {locked : Bool} (h : Held K₀ w.sys m n k locked) : ∃ vs w',
    (Pclose S A [fdValue m]).run w = .ok vs w' ∧ Apart K₀ w'.sys ∧
      w'.calls = w.calls ++ [.close m] := by
  have hothers := h.apart (A.others_apart (.close m) w.sys)
  obtain ⟨r, w', hrun, hcalls, ⟨hfile, -⟩ | ⟨-, hsys⟩⟩ := run_closeFd (S := S) (A := A) (w := w) m
  · rw [Kernel.file, if_pos (Int.natCast_nonneg m), Int.toNat_natCast, hothers.fds,
      Function.update_self] at hfile
    cases hfile
  · rw [Pclose, checkint_fdValue h.int]
    refine ⟨_, w', BindingM.run_bind_of_ok hrun, ?_, hcalls⟩
    rw [hsys, Int.toNat_natCast]
    exact hothers.close

/-- **A call of `openpty`** keeps both ends of a new terminal, after five calls that have all
succeeded; or nothing, and reports the first that has failed. -/
theorem run_Popenpty : ∃ vs w' made, (Popenpty S A).run w = .ok vs w' ∧
    w'.calls = w.calls ++ made ∧
    ((∃ m s n k, vs = [fdValue m, fdValue s, .string (S.slaveName k)] ∧
        Paired w.sys w'.sys m s n k ∧ made = stages S m k ∧ ∀ c ∈ made, A.fails c = none) ∨
      (Apart w.sys w'.sys ∧ ∃ m k tried, Stopped S A (stages S m k) tried vs ∧
        (made = tried ∨ made = tried ++ [.close m]))) := by
  obtain ⟨vs, w₁, hrun, hcalls, ⟨hfails, m, n, k, rfl, hheld⟩ | ⟨e, hcause, rfl, happart⟩⟩ :=
    makes_openpt (S := S) (A := A) (w := w)
  · obtain ⟨r, w₂, made, hslave, hmade, hresult⟩ := gets_openSlave (S := S) (A := A) hheld
    have hrest : (Popenpty S A).run w = (openSlave S A (fdValue m) >>= fun r =>
        match r with
        | .ok slave => return fdValue m :: slave
        | .error e => do
            let _ ← Pclose S A [fdValue m]
            return .nil :: e).run w₁ := by
      rw [Popenpty, BindingM.run_bind_of_ok hrun]
      rfl
    rw [BindingM.run_bind_of_ok hslave] at hrest
    have hcalls₂ : w₂.calls = w.calls ++ ([.open_ ptmx (toInt (S.O_RDWR ||| S.O_NOCTTY)) none]
        ++ made) := by
      rw [hmade, hcalls, List.append_assoc]
    obtain ⟨s, rfl, hpaired, rfl, hall⟩ | ⟨vs, locked, rfl, hheld₂, hstopped⟩ := hresult
    · refine ⟨_, w₂, _, hrest, hcalls₂, .inl ⟨m, s, n, k, rfl, hpaired, rfl, ?_⟩⟩
      exact List.forall_mem_cons.mpr ⟨hfails, hall⟩
    · obtain ⟨vs', w₃, hclose, happart, hcalls₃⟩ := hheld₂.run_Pclose (S := S) (A := A)
      have hvs : .nil :: errorOf vs = vs := by
        obtain ⟨_, _, _, _, -, -, -, -, rfl⟩ := hstopped
        rfl
      refine ⟨vs, w₃, _, ?_, ?_, .inr ⟨happart, m, k, _, hstopped.cons hfails, .inr rfl⟩⟩
      · rw [hrest, BindingM.run_bind_of_ok hclose, hvs]
        rfl
      · rw [hcalls₃, hcalls₂, List.append_assoc, List.singleton_append]
  · exact ⟨_, w₁, _, BindingM.run_bind_of_ok hrun, hcalls,
      .inr ⟨happart, 0, 0, _, hcause.stopped, .inl rfl⟩⟩

end Whole

/-! ## Sessions -/

/-- What a program knows of a descriptor from the results of its calls: it had it before, or it is
an end of its `i`-th terminal. -/
inductive Role where
  | before
  | master (i : Nat)
  | slave (i : Nat)
  deriving DecidableEq

/-- The number of a terminal. -/
def Role.terminal : Role → Option Nat
  | .before => none
  | .master i | .slave i => some i

/-- A program. The last two fields are its own book: what its descriptors are, and the names of the
slaves. -/
structure Session where
  world : World Kernel Call
  start : Kernel
  ledger : Nat → Option Role
  names : List LStr

/-- What happens next: a call, with what the rest of the world does around it. -/
inductive Label where
  | openpty (A : Answers)
  | close (A : Answers) (args : List LuaValue)

/-- `openpty` has returned. -/
def Session.opened (s : Session) : List LuaValue → Session
  | [.integer m, .integer fd, .string name] => { s with
      ledger := Function.update (Function.update s.ledger m.toNat (some (.master s.names.length)))
        fd.toNat (some (.slave s.names.length))
      names := s.names ++ [name] }
  | _ => s

/-- `close` has been called with a descriptor. -/
def Session.closed (s : Session) : LuaM Int → Session
  | .ok fd => { s with
      ledger := if 0 ≤ fd then Function.update s.ledger fd.toNat none else s.ledger }
  | .error _ => s

section Machine

variable (S : System)

/-- The descriptor that `close` is called with. -/
def closeArg (args : List LuaValue) : LuaM Int := do
  let fd ← checkint S.N.strtod args 1
  checknargs args 1
  return fd

/-- The next state. -/
def Session.next (s : Session) : Label → Option Session
  | .openpty A =>
      match (Popenpty S A).run s.world with
      | .ok vs w => some { s.opened vs with world := w }
      | .error _ w => some { s with world := w }
  | .close A args => some { s.closed (closeArg S args) with
      world := BindingM.worldAfter ((Pclose S A args).run s.world) }

/-- A program that has made no terminal. -/
structure Session.Start (s : Session) : Prop where
  sys : s.world.sys = s.start
  ledger : s.ledger = fun fd => (s.start.fds fd).map fun _ => .before
  names : s.names = []

/-- The machine. -/
def machine : Machine Session Label := ⟨Session.Start, Session.next S⟩

end Machine

/-- What the book says of a descriptor, if `tty` and `number` are the program's terminals. -/
def fileOf (start : Kernel) (tty number : Nat → Nat) (fd : Nat) : Role → Option File
  | .before => start.fds fd
  | .master i => some (.master (tty i) (number i))
  | .slave i => some (.slave (tty i))

/-- **The book is right**: each descriptor is what it says, and no other is open. The terminals are
different ones, made by the program, whose slaves have the names written down; those whose masters
are open are listed and unlocked. -/
structure Session.Right (S : System) (s : Session) (tty number : Nat → Nat) : Prop where
  fds : ∀ fd, s.world.sys.fds fd = (s.ledger fd).bind (fileOf s.start tty number fd)
  before : ∀ fd, s.ledger fd = some .before → s.start.fds fd ≠ none
  known : ∀ fd, ∀ r ∈ s.ledger fd, ∀ i ∈ r.terminal, i < s.names.length
  different : ∀ i j, i < s.names.length → j < s.names.length → tty i = tty j → i = j
  new : ∀ i < s.names.length, s.start.made ≤ tty i ∧ tty i < s.world.sys.made
  made : s.start.made ≤ s.world.sys.made
  names : s.names = (List.range s.names.length).map fun i => S.slaveName (number i)
  listed : ∀ fd i, s.ledger fd = some (.master i) →
    s.world.sys.ptys (number i) = some ⟨tty i, false⟩

section Runs

variable {S : System} {s : Session} {tty number : Nat → Nat} {K : Kernel} {m fd n k : Nat}

/-- What is there once an entry is removed was there before. -/
theorem eq_some_of_update_none {α : Type} {f : Nat → Option α} {fd fd' : Nat} {a : α}
    (h : Function.update f fd none fd' = some a) : f fd' = some a := by
  by_cases hfd : fd' = fd
  · subst hfd
    rw [Function.update_self] at h
    cases h
  · rwa [Function.update_of_ne hfd] at h

/-- Nothing has changed for the program. -/
theorem Session.Right.apart (h : s.Right S tty number) {w : World Kernel Call}
    (hw : Apart s.world.sys w.sys) : ({ s with world := w } : Session).Right S tty number where
  fds fd := (congrFun hw.fds fd).trans (h.fds fd)
  before := h.before
  known := h.known
  different := h.different
  new i hi := ⟨(h.new i hi).1, (h.new i hi).2.trans_le hw.made⟩
  made := h.made.trans hw.made
  names := h.names
  listed fd i hi := by
    have hfd : s.world.sys.fds fd = some (.master (tty i) (number i)) := by
      rw [h.fds, hi]
      rfl
    exact (hw.listed fd _ _ hfd).trans (h.listed fd i hi)

/-- A descriptor is closed. -/
theorem Session.Right.close (h : s.Right S tty number) {w : World Kernel Call}
    (hfds : w.sys.fds = Function.update s.world.sys.fds fd none)
    (hmade : s.world.sys.made ≤ w.sys.made)
    (hlisted : ∀ fd n k, s.world.sys.fds fd = some (.master n k) →
      w.sys.ptys k = s.world.sys.ptys k) :
    ({ s with world := w, ledger := Function.update s.ledger fd none } : Session).Right S tty
      number where
  fds fd' := by
    show w.sys.fds fd' = (Function.update s.ledger fd none fd').bind _
    rw [hfds]
    by_cases hfd : fd' = fd
    · subst hfd
      rw [Function.update_self, Function.update_self]
      rfl
    · rw [Function.update_of_ne hfd, Function.update_of_ne hfd]
      exact h.fds fd'
  before fd' hfd := h.before fd' (eq_some_of_update_none hfd)
  known fd' r hr := h.known fd' r (eq_some_of_update_none hr)
  different := h.different
  new i hi := ⟨(h.new i hi).1, (h.new i hi).2.trans_le hmade⟩
  made := h.made.trans hmade
  names := h.names
  listed fd' i hi := by
    have hi := eq_some_of_update_none hi
    have hmaster : s.world.sys.fds fd' = some (.master (tty i) (number i)) := by
      rw [h.fds, hi]
      rfl
    exact (hlisted fd' _ _ hmaster).trans (h.listed fd' i hi)

/-- A descriptor as a number. -/
theorem toNat_fdValue (hfd : fd < 2 ^ 31) : (BitVec.ofInt 64 fd).toNat = fd := by
  rw [BitVec.toNat_ofInt]
  omega

/-- The program writes down a new pair. -/
theorem Session.opened_pair (hm : m < 2 ^ 31) (hfd : fd < 2 ^ 31) {name : LStr} :
    s.opened [fdValue m, fdValue fd, .string name] = { s with
      ledger := Function.update (Function.update s.ledger m (some (.master s.names.length))) fd
        (some (.slave s.names.length))
      names := s.names ++ [name] } := by
  rw [fdValue, fdValue, Session.opened, toNat_fdValue hm, toNat_fdValue hfd]

/-- What is at a descriptor once there is something new at two of them. -/
theorem update_update_eq_some {α : Type} {f : Nat → Option α} {m fd fd' : Nat} {a b c : α}
    (h : Function.update (Function.update f m (some a)) fd (some b) fd' = some c) :
    (fd' = fd ∧ c = b) ∨ (fd' = m ∧ c = a) ∨ f fd' = some c := by
  by_cases hfd : fd' = fd
  · subst hfd
    rw [Function.update_self] at h
    exact .inl ⟨rfl, (Option.some.inj h).symm⟩
  rw [Function.update_of_ne hfd] at h
  by_cases hm : fd' = m
  · subst hm
    rw [Function.update_self] at h
    exact .inr (.inl ⟨rfl, (Option.some.inj h).symm⟩)
  · rw [Function.update_of_ne hm] at h
    exact .inr (.inr h)

/-- What the book said before, it says of the same files with a terminal more. -/
theorem Session.Right.fileOf_update (h : s.Right S tty number) {r : Role}
    (hr : s.ledger fd = some r) :
    fileOf s.start (Function.update tty s.names.length n)
      (Function.update number s.names.length k) fd r = fileOf s.start tty number fd r := by
  have hne : ∀ i ∈ r.terminal, i ≠ s.names.length := fun i hi =>
    Nat.ne_of_lt (h.known fd r hr i hi)
  cases r with
  | before => rfl
  | master i => rw [fileOf, fileOf, Function.update_of_ne (hne i rfl),
      Function.update_of_ne (hne i rfl)]
  | slave i => rw [fileOf, fileOf, Function.update_of_ne (hne i rfl)]

/-- A number larger than those before it is not one of them. -/
theorem eq_of_update_eq {f : Nat → Nat} {N n : Nat}
    (hf : ∀ i j, i < N → j < N → f i = f j → i = j) (hn : ∀ i < N, f i < n) {i j : Nat}
    (hi : i < N + 1) (hj : j < N + 1)
    (heq : Function.update f N n i = Function.update f N n j) : i = j := by
  obtain hi | rfl := Nat.lt_succ_iff_lt_or_eq.mp hi
  · obtain hj | rfl := Nat.lt_succ_iff_lt_or_eq.mp hj
    · rw [Function.update_of_ne (Nat.ne_of_lt hi), Function.update_of_ne (Nat.ne_of_lt hj)] at heq
      exact hf i j hi hj heq
    · rw [Function.update_of_ne (Nat.ne_of_lt hi), Function.update_self] at heq
      exact absurd heq (Nat.ne_of_lt (hn i hi))
  · obtain hj | rfl := Nat.lt_succ_iff_lt_or_eq.mp hj
    · rw [Function.update_self, Function.update_of_ne (Nat.ne_of_lt hj)] at heq
      exact absurd heq.symm (Nat.ne_of_lt (hn j hj))
    · rfl

/-- The descriptors, with a pair more. -/
theorem Session.Right.fds_pair (h : s.Right S tty number) (fd' : Nat) :
    Function.update (Function.update s.world.sys.fds m (some (.master n k))) fd
        (some (.slave n)) fd'
      = (Function.update (Function.update s.ledger m (some (.master s.names.length))) fd
          (some (.slave s.names.length)) fd').bind
        (fileOf s.start (Function.update tty s.names.length n)
          (Function.update number s.names.length k) fd') := by
  by_cases hslave : fd' = fd
  · subst hslave
    rw [Function.update_self, Function.update_self, Option.bind_some, fileOf,
      Function.update_self]
  rw [Function.update_of_ne hslave, Function.update_of_ne hslave]
  by_cases hmaster : fd' = m
  · subst hmaster
    rw [Function.update_self, Function.update_self, Option.bind_some, fileOf,
      Function.update_self, Function.update_self]
  rw [Function.update_of_ne hmaster, Function.update_of_ne hmaster, h.fds]
  cases hr : s.ledger fd' with
  | none => rfl
  | some r => exact (h.fileOf_update hr).symm

/-- There is a new pair. -/
theorem Session.Right.openpty (h : s.Right S tty number) {w : World Kernel Call}
    (hw : Paired s.world.sys w.sys m fd n k) :
    ({ s.opened [fdValue m, fdValue fd, .string (S.slaveName k)] with world := w } : Session).Right
      S (Function.update tty s.names.length n) (Function.update number s.names.length k) := by
  have htty : ∀ i < s.names.length, Function.update tty s.names.length n i = tty i :=
    fun i hi => Function.update_of_ne (Nat.ne_of_lt hi) _ _
  have hnumber : ∀ i < s.names.length, Function.update number s.names.length k i = number i :=
    fun i hi => Function.update_of_ne (Nat.ne_of_lt hi) _ _
  have hlength : (s.names ++ [S.slaveName k]).length = s.names.length + 1 :=
    List.length_append
  rw [Session.opened_pair hw.master_int hw.slave_int]
  constructor
  case fds => exact fun fd' => (congrFun hw.fds fd').trans (h.fds_pair fd')
  case before =>
    intro fd' hfd'
    obtain ⟨-, hrole⟩ | ⟨-, hrole⟩ | hfd' := update_update_eq_some hfd'
    · cases hrole
    · cases hrole
    · exact h.before fd' hfd'
  case known =>
    intro fd' r hr i hi
    rw [hlength]
    obtain ⟨-, rfl⟩ | ⟨-, rfl⟩ | hr := update_update_eq_some hr
    · exact Option.some.inj hi ▸ Nat.lt_succ_self _
    · exact Option.some.inj hi ▸ Nat.lt_succ_self _
    · exact (h.known fd' r hr i hi).trans (Nat.lt_succ_self _)
  case different =>
    intro i j hi hj heq
    rw [hlength] at hi hj
    exact eq_of_update_eq h.different (fun i hi => (h.new i hi).2.trans_le hw.new) hi hj heq
  case new =>
    intro i hi
    rw [hlength] at hi
    obtain hi | rfl := Nat.lt_succ_iff_lt_or_eq.mp hi
    · rw [htty i hi]
      exact ⟨(h.new i hi).1, ((h.new i hi).2.trans_le hw.new).trans hw.made⟩
    · rw [Function.update_self]
      exact ⟨h.made.trans hw.new, hw.made⟩
  case made => exact h.made.trans (hw.new.trans (Nat.le_of_lt hw.made))
  case names =>
    show s.names ++ [S.slaveName k] = _
    rw [hlength, List.range_succ, List.map_append, List.map_singleton, Function.update_self]
    congr 1
    refine h.names.trans (List.map_congr_left fun i hi => ?_)
    rw [hnumber i (List.mem_range.mp hi)]
  case listed =>
    intro fd' i hi
    obtain ⟨-, hrole⟩ | ⟨-, hrole⟩ | hi := update_update_eq_some hi
    · cases hrole
    · cases hrole
      rw [Function.update_self, Function.update_self]
      exact hw.listed
    · have hlt := h.known fd' _ hi i rfl
      have hfile : s.world.sys.fds fd' = some (.master (tty i) (number i)) := by
        rw [h.fds, hi]
        rfl
      rw [htty i hlt, hnumber i hlt]
      exact (hw.steady fd' _ _ hfile).trans (h.listed fd' i hi)

/-- The calls of `close`, whatever their arguments. -/
theorem Session.Right.Pclose (h : s.Right S tty number) (A : Answers) (args : List LuaValue) :
    ({ s.closed (closeArg S args) with
      world := BindingM.worldAfter ((Pclose S A args).run s.world) } : Session).Right S tty
        number := by
  rw [closeArg, Openpty.Pclose]
  cases hfd : checkint S.N.strtod args 1 with
  | error e => exact h
  | ok fd =>
      cases hnargs : checknargs args 1 with
      | error e => exact h
      | ok u =>
          obtain ⟨r, w, hrun, -, hclosed⟩ := run_closeFd (S := S) (A := A) (w := s.world) fd
          have hworld : BindingM.worldAfter ((closeFd S A fd >>= push S none).run s.world) = w := by
            rw [BindingM.run_bind_of_ok hrun]
            rfl
          have hothers := A.others_apart (.close fd) s.world.sys
          show Session.Right S { s with
            ledger := if 0 ≤ fd then Function.update s.ledger fd.toNat none else s.ledger
            world := BindingM.worldAfter ((closeFd S A fd >>= push S none).run s.world) } tty number
          rw [hworld]
          obtain ⟨hfile, hsys⟩ | ⟨hfile, hsys⟩ := hclosed
          · have happart : Apart s.world.sys w.sys := hsys ▸ hothers
            by_cases hpos : 0 ≤ fd
            · rw [Kernel.file, if_pos hpos, hothers.fds] at hfile
              rw [if_pos hpos]
              refine h.close ?_ happart.made happart.listed
              rw [happart.fds, ← hfile, Function.update_eq_self]
            · rw [if_neg hpos]
              exact h.apart happart
          · have hpos : 0 ≤ fd := by
              by_contra hneg
              exact hfile (if_neg hneg)
            rw [if_pos hpos]
            refine h.close ?_ ?_ ?_
            · rw [hsys]
              exact congrArg (fun t => Function.update t fd.toNat none) hothers.fds
            · rw [hsys]
              exact hothers.made
            · rw [hsys]
              exact hothers.listed

/-- At the start nothing is held. -/
theorem right_start (hs : s.Start) : s.Right S (fun _ => 0) fun _ => 0 := by
  have hledger : ∀ fd, s.ledger fd = (s.start.fds fd).map fun _ => .before := congrFun hs.ledger
  have hlength : ∀ i, ¬i < s.names.length := by
    intro i hi
    rw [hs.names] at hi
    exact absurd hi (Nat.not_lt_zero i)
  constructor
  case fds =>
    intro fd
    rw [hs.sys, hledger]
    cases hfd : s.start.fds fd with
    | none => rfl
    | some f => exact hfd.symm
  case before =>
    intro fd hfd hnone
    rw [hledger, hnone] at hfd
    cases hfd
  case known =>
    intro fd r hr i hi
    obtain ⟨f, -, rfl⟩ := Option.map_eq_some_iff.mp ((hledger fd).symm.trans hr)
    cases hi
  case different => exact fun i j hi => absurd hi (hlength i)
  case new => exact fun i hi => absurd hi (hlength i)
  case made => rw [hs.sys]
  case names =>
    rw [hs.names]
    rfl
  case listed =>
    intro fd i hi
    obtain ⟨f, -, hrole⟩ := Option.map_eq_some_iff.mp ((hledger fd).symm.trans hi)
    cases hrole

/-- **The invariant** of all sessions: the book is right. -/
theorem right_of_reachable (h : (machine S).Reachable (fun _ _ => True) s) :
    ∃ tty number, s.Right S tty number := by
  refine h.invariant (I := fun s => ∃ tty number, s.Right S tty number)
    (fun s hs => ⟨_, _, right_start hs⟩) ?_
  rintro s l s' ⟨tty, number, hright⟩ - hnext
  cases l with
  | openpty A =>
      obtain ⟨vs, w, made, hrun, -, ⟨m, fd, n, k, rfl, hpaired, -⟩ | ⟨happart, hstopped⟩⟩ :=
        run_Popenpty (S := S) (A := A) (w := s.world)
      all_goals
        replace hnext : (match (Popenpty S A).run s.world with
          | .ok vs w => some { s.opened vs with world := w }
          | .error _ w => some { s with world := w }) = some s' := hnext
        rw [hrun] at hnext
        obtain rfl := Option.some.inj hnext
      · exact ⟨_, _, hright.openpty hpaired⟩
      · obtain ⟨m, k, tried, ⟨done, call, rest, e, -, -, -, -, rfl⟩, -⟩ := hstopped
        exact ⟨_, _, hright.apart happart⟩
  | close A args =>
      cases hnext
      exact ⟨_, _, hright.Pclose A args⟩

/-- A descriptor is free if and only if the book has nothing for it. -/
theorem Session.Right.eq_none_iff (h : s.Right S tty number) :
    s.world.sys.fds fd = none ↔ s.ledger fd = none := by
  rw [h.fds]
  cases hr : s.ledger fd with
  | none => exact iff_of_true rfl rfl
  | some r =>
      refine iff_of_false (fun hnone => ?_) nofun
      cases r with
      | before => exact h.before fd hr hnone
      | master i => cases hnone
      | slave i => cases hnone

/-- **Nothing leaks and nothing is mixed up**: in every session, whatever fails and whatever other
processes do in between, the descriptors of the program are those that the results of its calls say,
each pair the two ends of an unlocked terminal of its own; and a call of `openpty` either returns
another such pair, at descriptors that were free, after five calls without an error, or leaves the
descriptors as they are and returns the error of the first call that failed. -/
theorem openpty_session (h : (machine S).Reachable (fun _ _ => True) s) :
    (∃ tty number, s.Right S tty number) ∧
      ∀ A, ∃ vs w made, (Popenpty S A).run s.world = .ok vs w ∧
        w.calls = s.world.calls ++ made ∧
        ((∃ m fd k, vs = [fdValue m, fdValue fd, .string (S.slaveName k)] ∧ fd ≠ m ∧
            s.ledger m = none ∧ s.ledger fd = none ∧ made = stages S m k ∧
            ∀ c ∈ made, A.fails c = none) ∨
          w.sys.fds = s.world.sys.fds ∧ ∃ m k tried, Stopped S A (stages S m k) tried vs ∧
            (made = tried ∨ made = tried ++ [.close m])) := by
  obtain ⟨tty, number, hright⟩ := right_of_reachable h
  refine ⟨⟨tty, number, hright⟩, fun A => ?_⟩
  obtain ⟨vs, w, made, hrun, hcalls, hresult⟩ := run_Popenpty (S := S) (A := A) (w := s.world)
  refine ⟨vs, w, made, hrun, hcalls, hresult.imp ?_ ?_⟩
  · rintro ⟨m, fd, n, k, hvs, hpaired, hmade, hall⟩
    exact ⟨m, fd, k, hvs, hpaired.ne, hright.eq_none_iff.mp hpaired.master_free,
      hright.eq_none_iff.mp hpaired.slave_free, hmade, hall⟩
  · rintro ⟨happart, hstopped⟩
    exact ⟨happart.fds, hstopped⟩

end Runs

/-! ## A program with the standard descriptors -/

/-- Where Linux has its slaves. -/
def pts : LStr := "/dev/pts/".toList

/-- The names of Linux. -/
def linux : System where
  N := .zero
  strerror _ := []
  errno
    | .noDescriptor => 24
    | .noTerminal => 28
    | .badDescriptor => 9
    | .notTerminal => 22
    | .locked => 5
    | .gone => 2
  O_RDWR := 2
  O_NOCTTY := 256
  slaveName k := pts ++ Nat.toDigits 10 k
  number path := if path.take 9 = pts then some (Nat.ofDigitChars 10 (path.drop 9) 0) else none
  number_slaveName k := by
    rw [show 9 = pts.length from rfl, List.take_left, List.drop_left, if_pos rfl,
      Nat.ofDigitChars_ten_toDigits]
  number_ptmx := rfl
  slaveName_text k hmem := by
    obtain hmem | hmem := List.mem_append.mp hmem
    · exact absurd hmem (by decide)
    · exact absurd (Nat.isDigit_of_mem_toDigits (by decide) (by decide) hmem) (by decide)

/-- Nothing fails and nobody else makes terminals; there are five descriptors and one number. -/
def quiet : Answers where
  others _ K := K
  others_apart _ _ := ⟨rfl, Nat.le_refl _, fun _ _ _ _ => rfl⟩
  fails _ := none
  place fds :=
    if h : fds 3 = none then some ⟨3, h, by decide⟩
    else if h : fds 4 = none then some ⟨4, h, by decide⟩ else none
  free ptys := if h : ptys 0 = none then some ⟨0, h⟩ else none

/-- Standard input, output and error. -/
def console : Kernel where
  fds fd := if fd < 3 then some .other else none
  ptys _ := none
  made := 0
  listed_lt _ _ h := nomatch h
  listed_once _ _ _ h := nomatch h
  file_lt fd f hf n hn := by
    split_ifs at hf
    · obtain rfl := Option.some.inj hf
      cases hn
    · cases hf
  master_listed fd n k h := by
    split_ifs at h
    cases h

/-- Before any call. -/
def unopened : Session := ⟨⟨0, .empty, console, []⟩, console,
  fun fd => (console.fds fd).map fun _ => .before, []⟩

/-- One call from a start with nothing open. -/
theorem reachable_console {s : Session}
    (h : (machine linux).run unopened [.openpty quiet] = some s) :
    (machine linux).Reachable (fun _ _ => True) s :=
  .of_run ⟨rfl, rfl, rfl⟩ (fun _ _ _ => trivial) h

/-- The terminal has the two descriptors that there were, and a second call reports that there is
none left. -/
theorem openpty_session_console : ∃ s,
    (machine linux).run unopened [.openpty quiet] = some s ∧
      s.ledger 3 = some (.master 0) ∧ s.ledger 4 = some (.slave 0) ∧
      (∃ tty number, s.Right linux tty number) ∧
      ∃ vs w made, (Popenpty linux quiet).run s.world = .ok vs w ∧
        w.calls = s.world.calls ++ made := by
  refine ⟨_, rfl, rfl, rfl, ?_⟩
  obtain ⟨hright, hcall⟩ := openpty_session (reachable_console rfl)
  obtain ⟨vs, w, made, hrun, hcalls, -⟩ := hcall quiet
  exact ⟨hright, vs, w, made, hrun, hcalls⟩

end LuaPosix.Openpty

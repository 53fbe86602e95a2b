import LuaPosix.Lua.Frame

/-! # `exec` and `getopt`

Both functions make a vector of C strings from a list of arguments, and keep every string of it on
the stack as long as the vector is in use. `runexec` takes what is neither a string nor a number
for the end of the vector; `Pgetopt` refuses it. -/

namespace LuaPosix.Unistd

open LuaPattern (LStr)
open BoundedStack (State Round)
open FrameM (start made Raises Overflows asText)

/-- The calls of the two functions, and the variables of C they set. -/
inductive Call where
  | execv (path : LStr) (argv : List (Option LStr))
  | execvp (path : LStr) (argv : List (Option LStr))
  | opterr (i : Int)
  | optind (i : Int)
  deriving DecidableEq, Repr

/-- `(use_shell ? execvp : execv) (path, argv)`. -/
def Call.exec (use_shell : Bool) (path : LStr) (argv : List (Option LStr)) : Call :=
  if use_shell then .execvp path argv else .execv path argv

section Model

variable (N : Numerals) (objlen : Heap → Nat → BitVec 64) (E : Environment Call) (H : Heap)
  (args : List LuaValue)

/-- `argv[i]` as it is read from the table: a C string, or NULL. -/
def readarg (t i : Nat) : FrameM Call (Option LStr) := do
  let v ← FrameM.index E H t (BitVec.ofNat 64 i)
  let text ← FrameM.tostring N v
  return text.map cstring

/-- The content of `argv`, for `n` that is -1 or more. -/
def readargv (path : LStr) (t : Nat) (n : Int) : FrameM Call (List (Option LStr)) := do
  let command ← FrameM.index E H t 0#64
  let argv0 ← match command with
    | .string s => pure (cstring s)
    | _ => do
        FrameM.pop 1
        pure path
  let rest ← (List.range n.toNat).mapM fun i => readarg N E H t (i + 1)
  -- `argv[n + 1] = NULL`, which is `argv[0]` where `n` is -1.
  return (some argv0 :: rest).take (n + 1).toNat ++ [none]

/-- The vector `runexec` passes. -/
def execArgv (path : LStr) (t : Nat) : FrameM Call (List (Option LStr)) := do
  let n := cint (objlen H t)
  -- `n + 2` is computed as an `int`.
  if 2 ^ 31 ≤ n + 2 then FrameM.undefined
  FrameM.newpointers E (n + 2)
  -- `argv[0]` is no part of a block for no pointers.
  if n = -2 then FrameM.undefined
  readargv N E H path t n

/-- `runexec(L, use_shell)`. -/
def runexec (use_shell : Bool) : FrameM Call (List LuaValue) := do
  let path ← liftM (cstring <$> checklstring args N.numberText 1)
  FrameM.checknargs E args 2
  let t ← FrameM.totable E args 2 "table"
  let argv ← execArgv N objlen E H path t
  let errno ← FrameM.call E (.exec use_shell path argv)
  FrameM.pusherror E errno path

/-- `exec(path, argt)`. -/
def Pexec : FrameM Call (List LuaValue) := runexec N objlen E H args false

/-- `execp(path, argt)`. -/
def Pexecp : FrameM Call (List LuaValue) := runexec N objlen E H args true

/-- `argv[i]` of `Pgetopt`. -/
def checkarg (t i : Nat) : FrameM Call LStr := do
  let v ← FrameM.index E H t (BitVec.ofNat 64 i)
  FrameM.checkstring N v

/-- The closure of `iter_getopt` that `Pgetopt` returns: its upvalues, once they are on the
stack. -/
def getoptClosure (iter_getopt : LuaValue) (optstring : LStr) (t : Nat) :
    FrameM Call (List LuaValue) := do
  let len := cint (objlen H t)
  let argc := len + 1
  -- `argc` and `argc + 1` are computed as an `int`, and `argv[argc]` is set.
  if 2 ^ 31 ≤ argc + 1 then FrameM.undefined
  FrameM.push E (.integer (BitVec.ofInt 64 argc))
  FrameM.push E (.string (cstring optstring))
  FrameM.newpointers E (argc + 1)
  if argc = -1 then FrameM.undefined
  discard <| (List.range argc.toNat).mapM fun i => checkarg N E H t i
  FrameM.pushcclosure iter_getopt (3 + argc).toNat

/-- `Pgetopt`, with the upvalues of the closure it returns. -/
def Pgetopt (iter_getopt : LuaValue) : FrameM Call (List LuaValue) := do
  FrameM.checknargs E args 4
  let t ← FrameM.totable E args 1 "list"
  let optstring ← liftM (checklstring args N.numberText 2)
  let opterr ← liftM (optinteger N.strtod args 3 0)
  FrameM.assign (.opterr (toInt opterr))
  let optind ← liftM (optinteger N.strtod args 4 1)
  FrameM.assign (.optind (toInt optind))
  getoptClosure N objlen E H iter_getopt optstring t

end Model

/-! ## Arguments -/

/-- What `runexec` accepts: a path and a table. -/
structure ExecArgs (N : Numerals) (args : List LuaValue) (path : LStr) (t : Nat) : Prop where
  path : cstring <$> checklstring args N.numberText 1 = .ok path
  nargs : args.length ≤ 2
  table : argument args 2 = some (.table t)

/-- An element of the list. -/
def element (H : Heap) (t i : Nat) : LuaValue := H.get t (.integer (BitVec.ofNat 64 i))

/-- `t[0]` if that is a string, else the path. -/
def command (H : Heap) (t : Nat) (path : LStr) : LStr :=
  match element H t 0 with
  | .string s => cstring s
  | _ => path

/-- The values `t[0]` leaves on the stack. -/
def commandSlots (H : Heap) (t : Nat) : Nat :=
  match element H t 0 with
  | .string _ => 1
  | _ => 0

/-- The command takes a slot or none. -/
theorem commandSlots_le_one (H : Heap) (t : Nat) : commandSlots H t ≤ 1 := by
  unfold commandSlots
  split
  · exact Nat.le_refl 1
  · exact Nat.zero_le 1

/-- The elements from 1 to `len` as strings, NULL where they are none. -/
def elements (N : Numerals) (H : Heap) (t len : Nat) : List (Option LStr) :=
  (List.range len).map fun i => (N.tolstring (element H t (i + 1))).map cstring

/-- The whole argument list: the command, the elements from 1 to `len`, and the terminating
NULL. -/
def whole (N : Numerals) (H : Heap) (path : LStr) (t len : Nat) : List (Option LStr) :=
  some (command H t path) :: elements N H t len ++ [none]

/-- The elements from 1 to `len` are strings and numbers. -/
def AllText (N : Numerals) (H : Heap) (t len : Nat) : Prop :=
  ∀ i < len, N.tolstring (element H t (i + 1)) ≠ none

/-- A length for which there is a vector. -/
def Sized (n : Int) : Prop := -1 ≤ n ∧ n + 2 < 2 ^ 31

/-! ## The vector -/

section Vector

variable {N : Numerals} {objlen : Heap → Nat → BitVec 64} {E : Environment Call} {H : Heap}
  {path : LStr} {t : Nat} {n : Int} {s : State LuaValue (List Call)}

/-- The length as an `int` is one. -/
theorem neg_le_cint {w : Nat} (r : BitVec w) : -2 ^ 31 ≤ cint r := BitVec.le_toInt _

/-- An argument stays on the stack. -/
theorem round_readarg (i : Nat) : Round E.slots .stackOverflow (readarg N E H t i)
    (.ok (asText N (element H t i), (N.tolstring (element H t i)).map cstring)) where
  ok s hroom a b hr := by
    cases hr
    rw [readarg, BoundedStack.run_bind_of_ok (FrameM.run_index hroom),
      BoundedStack.run_bind_of_ok FrameM.run_tostring]
    rfl
  error s hroom e hr := by cases hr
  full s hfull := ⟨s, by
    rw [readarg]
    exact BoundedStack.run_bind_of_error (FrameM.run_index_of_le hfull)⟩

/-- The vector that is made for a length. -/
def vectorOf (N : Numerals) (H : Heap) (path : LStr) (t : Nat) (n : Int) : List (Option LStr) :=
  (some (command H t path) :: elements N H t n.toNat).take (n + 1).toNat ++ [none]

/-- Where the length is none that wrapped around, the vector is whole. -/
theorem vectorOf_natCast (len : Nat) : vectorOf N H path t len = whole N H path t len := by
  have hlength : (some (command H t path) :: elements N H t len).length = len + 1 := by
    rw [List.length_cons, elements, List.length_map, List.length_range]
  have hsucc : ((len : Int) + 1).toNat = len + 1 := by omega
  rw [vectorOf, whole, Int.toNat_natCast, hsucc, List.take_of_length_le (Nat.le_of_eq hlength)]

/-- A vector of `n` elements has two entries more. -/
theorem length_vectorOf (hn : -1 ≤ n) : ((vectorOf N H path t n).length : Int) = n + 2 := by
  rw [vectorOf, List.length_append, List.length_take, List.length_cons, elements,
    List.length_map, List.length_range, List.length_singleton]
  omega

/-- So has the whole list. -/
theorem length_whole (len : Nat) : (whole N H path t len).length = len + 2 := by
  rw [whole, List.length_append, List.length_cons, elements, List.length_map, List.length_range]
  rfl

/-- The state after `argv[0]`. -/
def afterCommand (H : Heap) (t : Nat) (s : State LuaValue (List Call)) :
    State LuaValue (List Call) :=
  match element H t 0 with
  | .string text => s.push (.string text)
  | _ => s

/-- The slots behind the command. -/
theorem length_afterCommand :
    (afterCommand H t s).values.length = s.values.length + commandSlots H t := by
  unfold afterCommand commandSlots
  split <;> rfl

/-- The command makes no call. -/
theorem rest_afterCommand : (afterCommand H t s).rest = s.rest := by
  unfold afterCommand
  split <;> rfl

/-- Once `argv[0]` is set, the loop is what is left. -/
theorem run_readargv (hroom : s.values.length < E.slots) : (readargv N E H path t n).run s =
    (do
      let rest ← (List.range n.toNat).mapM fun i => readarg N E H t (i + 1)
      return (some (command H t path) :: rest).take (n + 1).toNat ++ [none] :
        FrameM Call (List (Option LStr))).run (afterCommand H t s) := by
  rw [readargv, BoundedStack.run_bind_of_ok (FrameM.run_index hroom)]
  unfold afterCommand command
  have helement : H.get t (.integer 0#64) = element H t 0 := rfl
  rw [helement]
  cases element H t 0 <;> rfl

/-- **With room for the arguments** the vector is made of them. -/
theorem run_readargv_of_room
    (hroom : s.values.length + commandSlots H t + n.toNat ≤ E.slots)
    (hlt : s.values.length < E.slots) :
    ∃ s', (readargv N E H path t n).run s = .ok (vectorOf N H path t n) s' ∧
      s'.values.length = s.values.length + commandSlots H t + n.toNat ∧ s'.rest = s.rest := by
  have hloop := BoundedStack.run_mapM_of_room (s := afterCommand H t s) (l := List.range n.toNat)
    (fun i _ => round_readarg (N := N) (E := E) (H := H) (t := t) (i + 1))
    (by rw [length_afterCommand, List.length_range]; exact hroom)
  refine ⟨(afterCommand H t s).pushAll ((List.range n.toNat).map fun i =>
    asText N (element H t (i + 1))), ?_, ?_, ?_⟩
  · rw [run_readargv hlt, BoundedStack.run_bind_of_ok hloop]
    rfl
  · rw [BoundedStack.State.length_pushAll, length_afterCommand, List.length_map,
      List.length_range]
  · rw [BoundedStack.State.rest_pushAll, rest_afterCommand]

/-- **Without**, an argument is pushed where there is no slot. -/
theorem run_readargv_of_full (hlt : s.values.length < E.slots)
    (hfull : E.slots < s.values.length + commandSlots H t + n.toNat) :
    ∃ s', (readargv N E H path t n).run s = .error .stackOverflow s' := by
  have hslots := commandSlots_le_one H t
  obtain ⟨s', hloop⟩ := BoundedStack.run_mapM_of_full (s := afterCommand H t s)
    (l := List.range n.toNat)
    (fun i _ => round_readarg (N := N) (E := E) (H := H) (t := t) (i + 1))
    (by rw [length_afterCommand]; omega)
    (by rw [length_afterCommand, List.length_range]; exact hfull)
    (fun i _ => ⟨_, rfl⟩)
  exact ⟨s', by rw [run_readargv hlt, BoundedStack.run_bind_of_error hloop]⟩

/-! ## The argument vector of `runexec` -/

/-- A table too long, or without a block for its vector, is refused. -/
theorem raises_execArgv (hlt : cint (objlen H t) + 2 < 2 ^ 31)
    (h : cint (objlen H t) + 2 < 0 ∨
      E.block (BitVec.ofInt 64 (cint (objlen H t) + 2) * 8#64) = none) :
    Raises ((execArgv N objlen E H path t).run s) := by
  have hle := neg_le_cint (objlen H t)
  rw [execArgv, if_neg (Int.not_le.mpr hlt)]
  exact (FrameM.raises_newpointers (by omega) hlt h).bind

/-- A size that is no `int` is undefined. -/
theorem undefined_execArgv (h : 2 ^ 31 ≤ cint (objlen H t) + 2) :
    (execArgv N objlen E H path t).run s = .error (.fault .undefined) s := by
  rw [execArgv, if_pos h]
  rfl

/-- With a block for the vector. -/
theorem run_execArgv {id : Nat} (hle : 0 ≤ cint (objlen H t) + 2)
    (hlt : cint (objlen H t) + 2 < 2 ^ 31)
    (hblock : E.block (BitVec.ofInt 64 (cint (objlen H t) + 2) * 8#64) = some id)
    (hroom : s.values.length < E.slots) : (execArgv N objlen E H path t).run s =
      (if cint (objlen H t) = -2 then FrameM.undefined
        else readargv N E H path t (cint (objlen H t))).run (s.push (.userdata id)) := by
  have hpointers := FrameM.run_newpointers hle hlt hblock hroom
  rw [execArgv, if_neg (Int.not_le.mpr hlt)]
  by_cases hn : cint (objlen H t) = -2
  · rw [if_pos hn, if_pos hn]
    exact BoundedStack.run_bind_of_ok hpointers
  · rw [if_neg hn, if_neg hn]
    exact BoundedStack.run_bind_of_ok hpointers

/-- An element is read without a call. -/
theorem local_readarg (i : Nat) : BoundedStack.Local (readarg N E H t i) :=
  FrameM.local_index.bind fun _ => FrameM.local_tostring.bind fun _ => .pure _

/-- So are all of them. -/
theorem local_readargv : BoundedStack.Local (readargv N E H path t n) := by
  have hloop (argv0 : LStr) : BoundedStack.Local (do
      let rest ← (List.range n.toNat).mapM fun i => readarg N E H t (i + 1)
      return (some argv0 :: rest).take (n + 1).toNat ++ [none] :
        FrameM Call (List (Option LStr))) :=
    (BoundedStack.Local.mapM fun i => local_readarg _).bind fun _ => .pure _
  refine FrameM.local_index.bind fun command => ?_
  cases command with
  | string text => exact (BoundedStack.Local.pure _).bind hloop
  | _ => exact (BoundedStack.Local.pop 1).bind fun _ => (BoundedStack.Local.pure path).bind hloop

/-- A vector is made without a call. -/
theorem local_execArgv : BoundedStack.Local (execArgv N objlen E H path t) := by
  have hread : ∀ _ : Unit, BoundedStack.Local (readargv N E H path t (cint (objlen H t))) :=
    fun _ => local_readargv
  have hundefined := FrameM.local_undefined.bind hread
  rw [execArgv]
  split_ifs
  · exact FrameM.local_undefined.bind fun _ => FrameM.local_newpointers.bind fun _ => hundefined
  · exact FrameM.local_undefined.bind fun _ => FrameM.local_newpointers.bind hread
  · exact FrameM.local_newpointers.bind fun _ => hundefined
  · exact FrameM.local_newpointers.bind hread

end Vector

/-! ## Runs of `runexec` -/

section Runexec

variable {N : Numerals} {objlen : Heap → Nat → BitVec 64} {E : Environment Call} {H : Heap}
  {args : List LuaValue} {use_shell : Bool} {path : LStr} {t : Nat}

/-- What `runexec` does once its arguments are checked. -/
theorem run_runexec (h : ExecArgs N args path t) :
    (runexec N objlen E H args use_shell).run start = (do
      let argv ← execArgv N objlen E H path t
      let errno ← FrameM.call E (.exec use_shell path argv)
      FrameM.pusherror E errno path : FrameM Call (List LuaValue)).run start := by
  rw [runexec, BoundedStack.run_bind_of_ok (FrameM.run_lift h.path),
    BoundedStack.run_bind_of_ok (FrameM.run_checknargs h.nargs FrameM.length_start_lt),
    BoundedStack.run_bind_of_ok (FrameM.run_totable h.table)]

/-- Other arguments are refused. -/
theorem raises_runexec (h : ¬∃ path t, ExecArgs N args path t) :
    Raises ((runexec N objlen E H args use_shell).run start) := by
  rw [runexec]
  cases hpath : cstring <$> checklstring args N.numberText 1 with
  | error e => exact (FrameM.raises_lift rfl).bind
  | ok path =>
      rw [BoundedStack.run_bind_of_ok (FrameM.run_lift rfl)]
      by_cases hnargs : args.length ≤ 2
      · rw [BoundedStack.run_bind_of_ok (FrameM.run_checknargs hnargs FrameM.length_start_lt)]
        refine (FrameM.raises_totable ?_ FrameM.length_start_lt).bind
        rintro ⟨t, htable⟩
        exact h ⟨path, t, hpath, hnargs, htable⟩
      · exact (FrameM.raises_checknargs (Nat.not_le.mp hnargs) FrameM.length_start_lt).bind

variable {s : State LuaValue (List Call)}

/-- Nothing is called without a vector. -/
theorem made_runexec_of_error (h : ExecArgs N args path t) {e : Halt}
    (herror : (execArgv N objlen E H path t).run start = .error e s) :
    made (runexec N objlen E H args use_shell) = [] := by
  have hlocal : BoundedStack.Local (execArgv N objlen E H path t) := local_execArgv
  have hrest := hlocal start
  rw [herror] at hrest
  rw [made, run_runexec h, BoundedStack.run_bind_of_error herror]
  exact hrest

/-- With a vector, one call is made. -/
theorem made_runexec_of_ok (h : ExecArgs N args path t) {argv : List (Option LStr)}
    (hok : (execArgv N objlen E H path t).run start = .ok argv s) :
    made (runexec N objlen E H args use_shell) = [.exec use_shell path argv] := by
  have hlocal : BoundedStack.Local (execArgv N objlen E H path t) := local_execArgv
  have hrest : s.rest = [] := by
    have hstart := hlocal start
    rwa [hok] at hstart
  rw [made, run_runexec h, BoundedStack.run_bind_of_ok hok]
  cases hcall : E.call (.exec use_shell path argv) with
  | none =>
      rw [BoundedStack.run_bind_of_error (FrameM.run_call_of_none hcall)]
      show s.rest ++ _ = _
      rw [hrest, List.nil_append]
  | some errno =>
      rw [BoundedStack.run_bind_of_ok (FrameM.run_call_of_some hcall), FrameM.local_pusherror _]
      show s.rest ++ _ = _
      rw [hrest, List.nil_append]

/-- The program is replaced. -/
theorem runexec_of_replaced (use_shell : Bool) (h : ExecArgs N args path t)
    {argv : List (Option LStr)}
    (hok : (execArgv N objlen E H path t).run start = .ok argv s)
    (hcall : E.call (.exec use_shell path argv) = none) :
    ∃ s', (runexec N objlen E H args use_shell).run start = .error .replaced s' ∧
      s'.rest = [.exec use_shell path argv] := by
  have hrun : (runexec N objlen E H args use_shell).run start
      = .error .replaced { s with rest := s.rest ++ [.exec use_shell path argv] } := by
    rw [run_runexec h, BoundedStack.run_bind_of_ok hok]
    exact BoundedStack.run_bind_of_error (FrameM.run_call_of_none hcall)
  have hmade : made (runexec N objlen E H args use_shell) = [.exec use_shell path argv] :=
    made_runexec_of_ok h hok
  rw [made, hrun] at hmade
  exact ⟨_, hrun, hmade⟩

/-- The program cannot be run, and there are slots for the error. -/
theorem runexec_of_returned (use_shell : Bool) (h : ExecArgs N args path t)
    {argv : List (Option LStr)} {errno : Int}
    (hok : (execArgv N objlen E H path t).run start = .ok argv s)
    (hcall : E.call (.exec use_shell path argv) = some errno)
    (hroom : s.values.length + 3 ≤ E.slots) :
    ∃ results s', (runexec N objlen E H args use_shell).run start = .ok results s' := by
  obtain ⟨s', hs'⟩ := FrameM.run_pusherror (E := E) errno path
    (s := { s with rest := s.rest ++ [.exec use_shell path argv] }) hroom
  rw [run_runexec h, BoundedStack.run_bind_of_ok hok,
    BoundedStack.run_bind_of_ok (FrameM.run_call_of_some hcall)]
  exact ⟨_, s', hs'⟩

/-- It cannot, and there are none. -/
theorem runexec_of_full (h : ExecArgs N args path t) {argv : List (Option LStr)} {errno : Int}
    (hok : (execArgv N objlen E H path t).run start = .ok argv s)
    (hcall : E.call (.exec use_shell path argv) = some errno) (hle : s.values.length ≤ E.slots)
    (hfull : E.slots < s.values.length + 3) :
    ∃ s', (runexec N objlen E H args use_shell).run start = .error .stackOverflow s' := by
  rw [run_runexec h, BoundedStack.run_bind_of_ok hok,
    BoundedStack.run_bind_of_ok (FrameM.run_call_of_some hcall)]
  exact FrameM.run_pusherror_of_full hle hfull

/-- How `runexec` ends once there is a vector. -/
theorem runexec_ends (h : ExecArgs N args path t) {argv : List (Option LStr)}
    (hok : (execArgv N objlen E H path t).run start = .ok argv s)
    (hle : s.values.length ≤ E.slots) :
    (∃ s', (runexec N objlen E H args use_shell).run start = .error .replaced s') ∨
    (∃ results s', (runexec N objlen E H args use_shell).run start = .ok results s') ∨
    E.slots < s.values.length + 3 ∧
      ∃ s', (runexec N objlen E H args use_shell).run start = .error .stackOverflow s' := by
  cases hcall : E.call (.exec use_shell path argv) with
  | none =>
      obtain ⟨s', hs', -⟩ := runexec_of_replaced _ h hok hcall
      exact .inl ⟨s', hs'⟩
  | some errno =>
      rcases Nat.lt_or_ge E.slots (s.values.length + 3) with hfull | hroom
      · exact .inr (.inr ⟨hfull, runexec_of_full h hok hcall hle hfull⟩)
      · exact .inr (.inl (runexec_of_returned _ h hok hcall hroom))

/-- There is a vector if there is a block and room for it. -/
theorem execArgv_of_room (path : LStr) (hsized : Sized (cint (objlen H t))) {id : Nat}
    (hblock : E.block (BitVec.ofInt 64 (cint (objlen H t) + 2) * 8#64) = some id)
    (hroom : 1 + commandSlots H t + (cint (objlen H t)).toNat ≤ E.slots) :
    ∃ s, (execArgv N objlen E H path t).run start
        = .ok (vectorOf N H path t (cint (objlen H t))) s ∧
      s.values.length = 1 + commandSlots H t + (cint (objlen H t)).toNat := by
  obtain ⟨hle, hlt⟩ := hsized
  have hslots : 1 < E.slots := Nat.lt_of_lt_of_le (by decide) E.minstack
  obtain ⟨s, hs, hlength, -⟩ := run_readargv_of_room (N := N) (E := E) (H := H)
    (s := (start : State LuaValue (List Call)).push (.userdata id)) hroom hslots
  refine ⟨s, ?_, hlength⟩
  rw [run_execArgv (by omega) hlt hblock FrameM.length_start_lt, if_neg (by omega), hs]

/-- With too few slots the vector overflows the stack. -/
theorem execArgv_of_full (path : LStr) (hsized : Sized (cint (objlen H t))) {id : Nat}
    (hblock : E.block (BitVec.ofInt 64 (cint (objlen H t) + 2) * 8#64) = some id)
    (hfull : E.slots < 1 + commandSlots H t + (cint (objlen H t)).toNat) :
    ∃ s, (execArgv N objlen E H path t).run start = .error .stackOverflow s := by
  obtain ⟨hle, hlt⟩ := hsized
  have hslots : 1 < E.slots := Nat.lt_of_lt_of_le (by decide) E.minstack
  rw [run_execArgv (by omega) hlt hblock FrameM.length_start_lt, if_neg (by omega)]
  exact run_readargv_of_full hslots hfull

/-- Without a size or a block for the vector, `runexec` raises an error or is undefined. -/
theorem runexec_of_no_vector (use_shell : Bool) (h : ExecArgs N args path t)
    (hnone : ¬(Sized (cint (objlen H t)) ∧
      ∃ id, E.block (BitVec.ofInt 64 (cint (objlen H t) + 2) * 8#64) = some id)) :
    Raises ((runexec N objlen E H args use_shell).run start) ∨
      ∃ s, (runexec N objlen E H args use_shell).run start = .error (.fault .undefined) s := by
  have hle := neg_le_cint (objlen H t)
  rw [run_runexec h]
  by_cases hlt : 2 ^ 31 ≤ cint (objlen H t) + 2
  · exact .inr ⟨_, BoundedStack.run_bind_of_error (undefined_execArgv hlt)⟩
  · by_cases hneg : cint (objlen H t) + 2 < 0
    · exact .inl (raises_execArgv (by omega) (.inl hneg)).bind
    · cases hblock : E.block (BitVec.ofInt 64 (cint (objlen H t) + 2) * 8#64) with
      | none => exact .inl (raises_execArgv (by omega) (.inr hblock)).bind
      | some id =>
          -- `argv[0]` is no part of a block of no bytes.
          have hsized : ¬Sized (cint (objlen H t)) := fun hsized => hnone ⟨hsized, id, hblock⟩
          rw [Sized] at hsized
          have hundefined : (execArgv N objlen E H path t).run start
              = .error (.fault .undefined) (start.push (.userdata id)) := by
            rw [run_execArgv (by omega) (by omega) hblock FrameM.length_start_lt,
              if_pos (by omega)]
            rfl
          exact .inr ⟨_, BoundedStack.run_bind_of_error hundefined⟩

/-! ## The whole argument list -/

/-- The program is called with the whole argument list, without a NULL before its end, and an
element that is neither a string nor a number is refused. -/
structure PassesWhole (N : Numerals) (objlen : Heap → Nat → BitVec 64) (E : Environment Call)
    (H : Heap) (args : List LuaValue) (use_shell : Bool) (path : LStr) (t : Nat) : Prop where
  defined : ∀ s, (runexec N objlen E H args use_shell).run start ≠ .error (.fault .undefined) s
  vector : ∀ file argv, .execv file argv ∈ made (runexec N objlen E H args use_shell) ∨
      .execvp file argv ∈ made (runexec N objlen E H args use_shell) →
    file = path ∧ argv = whole N H path t (objlen H t).toNat ∧ none ∉ argv.dropLast
  refused : ¬AllText N H t (objlen H t).toNat →
    Raises ((runexec N objlen E H args use_shell).run start)

/-- The elements are text if and only if no NULL stands before the end. -/
theorem none_notMem_dropLast_whole {len : Nat} :
    none ∉ (whole N H path t len).dropLast ↔ AllText N H t len := by
  rw [whole, List.dropLast_concat, List.mem_cons, elements, List.mem_map, AllText]
  constructor
  · rintro h i hi htext
    exact h (.inr ⟨i, List.mem_range.mpr hi, by rw [htext, Option.map_none]⟩)
  · rintro h (hcommand | ⟨i, hi, htext⟩)
    · cases hcommand
    · exact h i (List.mem_range.mp hi) (Option.map_eq_none_iff.mp htext)

/-- A call of the vector that was made. -/
theorem mem_made_exec {file : LStr} {argv argv' : List (Option LStr)}
    (h : .execv file argv' ∈ [Call.exec use_shell path argv] ∨
      .execvp file argv' ∈ [Call.exec use_shell path argv]) : file = path ∧ argv' = argv := by
  cases use_shell with
  | false =>
      rcases h with h | h
      · cases List.mem_singleton.mp h
        exact ⟨rfl, rfl⟩
      · cases List.mem_singleton.mp h
  | true =>
      rcases h with h | h
      · cases List.mem_singleton.mp h
      · cases List.mem_singleton.mp h
        exact ⟨rfl, rfl⟩

/-- The call that is made is one of the two. -/
theorem exec_mem (argv : List (Option LStr)) :
    .execv path argv ∈ [Call.exec use_shell path argv] ∨
      .execvp path argv ∈ [Call.exec use_shell path argv] := by
  cases use_shell
  · exact .inl (List.mem_singleton_self _)
  · exact .inr (List.mem_singleton_self _)

/-- A table that is refused is passed nowhere. -/
theorem passesWhole_of_raises (h : ExecArgs N args path t)
    (hraises : Raises ((execArgv N objlen E H path t).run start)) :
    PassesWhole N objlen E H args use_shell path t := by
  have hrun : Raises ((runexec N objlen E H args use_shell).run start) := by
    rw [run_runexec h]
    exact hraises.bind
  refine ⟨fun s hs => ?_, fun file argv hmem => ?_, fun _ => hrun⟩
  · obtain ⟨e, s', hs'⟩ := hrun
    rw [hs'] at hs
    cases hs
  · obtain ⟨e, s', hs'⟩ := hraises
    rw [made_runexec_of_error h hs'] at hmem
    rcases hmem with hmem | hmem <;> exact absurd hmem List.not_mem_nil

/-- A list of strings and numbers is passed whole, if there is a vector for it. -/
theorem passesWhole_of_allText (h : ExecArgs N args path t)
    (htext : AllText N H t (objlen H t).toNat) (hlt : (objlen H t).toNat + 2 < 2 ^ 31) :
    PassesWhole N objlen E H args use_shell path t := by
  have hlen : cint (objlen H t) = (objlen H t).toNat := by
    rw [cint, BitVec.toInt_setWidth, Int.bmod_def]
    omega
  have hsized : Sized (cint (objlen H t)) := by
    rw [hlen]
    exact ⟨by omega, by omega⟩
  cases hblock : E.block (BitVec.ofInt 64 (cint (objlen H t) + 2) * 8#64) with
  | none => exact passesWhole_of_raises h (raises_execArgv hsized.2 (.inr hblock))
  | some id =>
      have hrefused : ¬AllText N H t (objlen H t).toNat →
          Raises ((runexec N objlen E H args use_shell).run start) := fun hnot => absurd htext hnot
      rcases Nat.lt_or_ge E.slots (1 + commandSlots H t + (cint (objlen H t)).toNat)
        with hfull | hroom
      · obtain ⟨s, hs⟩ := execArgv_of_full (N := N) _ hsized hblock hfull
        refine ⟨fun s' hs' => ?_, fun file argv hmem => ?_, hrefused⟩
        · rw [run_runexec h, BoundedStack.run_bind_of_error hs] at hs'
          cases hs'
        · rw [made_runexec_of_error h hs] at hmem
          rcases hmem with hmem | hmem <;> exact absurd hmem List.not_mem_nil
      · obtain ⟨s, hs, hlength⟩ := execArgv_of_room (N := N) _ hsized hblock hroom
        refine ⟨fun s' hs' => ?_, fun file argv hmem => ?_, hrefused⟩
        · rcases runexec_ends h hs (hlength ▸ hroom)
            with ⟨_, hend⟩ | ⟨_, _, hend⟩ | ⟨-, _, hend⟩ <;>
          · rw [hend] at hs'
            cases hs'
        · rw [made_runexec_of_ok h hs, hlen, vectorOf_natCast] at hmem
          obtain ⟨rfl, rfl⟩ := mem_made_exec hmem
          exact ⟨rfl, rfl, none_notMem_dropLast_whole.mpr htext⟩

/-- **`exec` passes the whole argument list if and only if** its elements are strings and numbers
and their number, with two more, is an `int`; or that number wraps around to one for which there
is no block. -/
theorem passesWhole_iff (h : ExecArgs N args path t) :
    (∀ E, PassesWhole N objlen E H args use_shell path t) ↔
      cint (objlen H t) < -2 ∨
      AllText N H t (objlen H t).toNat ∧ (objlen H t).toNat + 2 < 2 ^ 31 := by
  constructor
  · intro hall
    rcases lt_or_ge (cint (objlen H t)) (-2) with hneg | hge
    · exact .inl hneg
    -- With memory and room there is a vector, and the call is made.
    obtain ⟨hdefined, hvector, -⟩ := hall (.returning
      (LUA_MINSTACK + (cint (objlen H t)).toNat) (Nat.le_add_right _ _))
    have hlt : cint (objlen H t) + 2 < 2 ^ 31 := by
      by_contra hnot
      refine hdefined start ?_
      rw [run_runexec h]
      exact BoundedStack.run_bind_of_error (undefined_execArgv (Int.not_lt.mp hnot))
    have hne : cint (objlen H t) ≠ -2 := by
      intro heq
      refine hdefined (start.push (.userdata 0)) ?_
      rw [run_runexec h]
      refine BoundedStack.run_bind_of_error ?_
      rw [run_execArgv (by omega) hlt rfl FrameM.length_start_lt, if_pos heq]
      rfl
    have hroom : 1 + commandSlots H t + (cint (objlen H t)).toNat
        ≤ 20 + (cint (objlen H t)).toNat := by
      have hslots := commandSlots_le_one H t
      omega
    obtain ⟨s, hs, -⟩ := execArgv_of_room (N := N)
      (E := .returning (LUA_MINSTACK + (cint (objlen H t)).toNat) (Nat.le_add_right _ _)) path
      ⟨by omega, hlt⟩ rfl hroom
    rw [made_runexec_of_ok h hs] at hvector
    obtain ⟨-, hwhole, hnone⟩ := hvector path _ (exec_mem _)
    have hlength : ((vectorOf N H path t (cint (objlen H t))).length : Int)
        = cint (objlen H t) + 2 := length_vectorOf (by omega)
    rw [hwhole, length_whole] at hlength
    rw [hwhole] at hnone
    exact .inr ⟨none_notMem_dropLast_whole.mp hnone, by omega⟩
  · rintro (hneg | ⟨htext, hlt⟩) E
    · exact passesWhole_of_raises h (raises_execArgv (by omega) (.inl (by omega)))
    · exact passesWhole_of_allText h htext hlt

end Runexec

/-- A heap with one table, of the given elements. -/
def listHeap (vs : List LuaValue) : Heap :=
  (vs.zipIdx 1).foldl
    (fun H p => H.set Heap.newestFirst 0 (.integer (BitVec.ofNat 64 p.2)) p.1)
    Heap.empty.createtable.2

/-- `{ "a", true, "b" }`. -/
def echoHeap : Heap := listHeap [.string ['a'], .boolean true, .string ['b']]

/-- `exec("ls", { "a", true, "b" })`. -/
def echoArgs : List LuaValue := [.string ['l', 's'], .table 0]

/-- `ls` with two arguments. -/
theorem passesWhole_echo :
    (∀ E, PassesWhole .zero (fun _ _ => 3) E echoHeap echoArgs false ['l', 's'] 0) ↔
      cint (3 : BitVec 64) < -2 ∨
      AllText .zero echoHeap 0 (3 : BitVec 64).toNat ∧ (3 : BitVec 64).toNat + 2 < 2 ^ 31 :=
  passesWhole_iff ⟨rfl, by decide, rfl⟩

/-- A boolean among the arguments ends their list. -/
theorem list_ends_at_boolean :
    made (runexec .zero (fun _ _ => 3) (.returning 20 (Nat.le_refl _)) echoHeap echoArgs false)
      = [.execv ['l', 's'] [some ['l', 's'], some ['a'], none, some ['b'], none]] ∧
    ¬PassesWhole .zero (fun _ _ => 3) (.returning 20 (Nat.le_refl _)) echoHeap echoArgs false
      ['l', 's'] 0 := by
  have hmade : made (runexec .zero (fun _ _ => 3) (.returning 20 (Nat.le_refl _)) echoHeap
      echoArgs false)
      = [.execv ['l', 's'] [some ['l', 's'], some ['a'], none, some ['b'], none]] := rfl
  refine ⟨hmade, fun h => ?_⟩
  have hvector := h.vector _ _ (.inl (by rw [hmade]; exact List.mem_singleton_self _))
  exact hvector.2.2 (by decide)

end LuaPosix.Unistd

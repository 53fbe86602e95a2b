import LuaPosix.Lib.BoundedStack
import LuaPosix.Lua.Binding

/-! # The stack of a C function

What C functions leave on the stack above their arguments. Lua guarantees room for `LUA_MINSTACK`
values there; a push beyond the room there is goes wrong, as does a closure with more upvalues
than Lua has for it. -/

namespace LuaPosix

open LuaPattern (LStr)
open BoundedStack (Comp State)

/-- How a C function ends other than by returning. -/
inductive Halt where
  | fault (f : Fault)
  /-- A value was pushed where no slot was left. -/
  | stackOverflow
  | tooManyUpvalues
  /-- The program was replaced. -/
  | replaced
  deriving DecidableEq, Repr

/-- C functions that make calls of type `κ`. -/
abbrev FrameM (κ : Type) := Comp Halt LuaValue (List κ)

/-- The slots a C function is called with at least. -/
def LUA_MINSTACK : Nat := 20

/-- The upvalues a closure can have at most. -/
def MAXUPVAL : Nat := 255

/-- `LUA_MAXINTEGER`, which no block is as long as. -/
def MAX_SIZE : Nat := 2 ^ 63 - 1

/-- What a C function may find. -/
structure Environment (κ : Type) where
  /-- The values that fit above the arguments. -/
  slots : Nat
  minstack : LUA_MINSTACK ≤ slots
  /-- The block for so many bytes, if there is memory for it. -/
  block : BitVec 64 → Option Nat
  strerror : Int → LStr
  /-- `errno` after a call that returns. -/
  call : κ → Option Int

/-- A call that returns, with memory for any block. -/
def Environment.returning {κ : Type} (slots : Nat) (h : LUA_MINSTACK ≤ slots) : Environment κ :=
  ⟨slots, h, fun _ => some 0, fun _ => [], fun _ => some 0⟩

/-- No call returns. -/
def Environment.replacing {κ : Type} : Environment κ :=
  ⟨LUA_MINSTACK, Nat.le_refl _, fun _ => some 0, fun _ => [], fun _ => none⟩

/-- The error of `checknargs(L, maxargs)`. -/
def toomanyargs (args : List LuaValue) (maxargs : Nat) : LuaError :=
  .argerror (maxargs + 1) ("no more than " ++ toString maxargs ++ " argument" ++
    (if maxargs = 1 then "" else "s") ++ " expected, got " ++ toString args.length)

/-- `luaL_argerror(L, -1, extramsg)` about the type of the value on top of the stack. -/
def badvalue (expected : String) (v : LuaValue) : LuaError :=
  .error ("bad argument #-1 (" ++ expected ++ " expected, got " ++ LuaValue.typename (some v) ++
    ")")

namespace FrameM

variable {κ : Type} (E : Environment κ) (N : Numerals) (H : Heap) (args : List LuaValue)

/-- Push a value. -/
def push (v : LuaValue) : FrameM κ Unit := BoundedStack.push E.slots .stackOverflow v

/-- `lua_pop(L, n)`. -/
def pop (n : Nat) : FrameM κ Unit := BoundedStack.pop n

/-- Raise an error. -/
def raise {α : Type} (e : LuaError) : FrameM κ α := throw (.fault (.raises e))

/-- What C leaves undefined. -/
def undefined {α : Type} : FrameM κ α := throw (.fault .undefined)

/-- An argument, checked by the auxiliary library. -/
instance : MonadLift LuaM (FrameM κ) where
  monadLift
    | .ok a => pure a
    | .error e => raise e

/-- A message on the stack. -/
def pushmessage : LuaError → FrameM κ Unit
  | .argerror _ extramsg => push E (.string extramsg.toList)
  | .error msg => push E (.string msg.toList)

/-- `checknargs(L, maxargs)`, with the message it makes beforehand. -/
def checknargs (maxargs : Nat) : FrameM κ Unit := do
  pushmessage E (toomanyargs args maxargs)
  liftM (LuaPosix.checknargs args maxargs)
  pop 1

/-- `argtypeerror(L, narg, expected)`. -/
def typeerror {α : Type} (narg : Nat) (expected : String) : FrameM κ α := do
  pushmessage E (argtypeerror args narg expected)
  raise (argtypeerror args narg expected)

/-- The table at an argument, `if (lua_type(L, narg) != LUA_TTABLE) argtypeerror(...)`. -/
def totable (narg : Nat) (expected : String) : FrameM κ Nat :=
  match argument args narg with
  | some (.table t) => return t
  | _ => typeerror E args narg expected

/-- `lua_pushinteger(L, i)` and `lua_gettable(L, t)`: the value that is on top then. -/
def index (t : Nat) (i : LuaInteger) : FrameM κ LuaValue := do
  push E (.integer i)
  BoundedStack.replace (H.get t (.integer i))
  return H.get t (.integer i)

/-- `lua_newuserdata(L, size)`. -/
def newuserdata (size : BitVec 64) : FrameM κ Unit :=
  if size.toNat < MAX_SIZE then
    match E.block size with
    | some id => push E (.userdata id)
    | none => raise (.error "not enough memory")
  else raise (.error "memory allocation error: block too big")

/-- `lua_newuserdata(L, n * sizeof(char *))`, `n` being an `int`. -/
def newpointers (n : Int) : FrameM κ Unit := newuserdata E (BitVec.ofInt 64 n * 8#64)

/-- `lua_tostring(L, -1)`: NULL, or the text that takes the place of a number on the stack. -/
def tostring (v : LuaValue) : FrameM κ (Option LStr) :=
  match N.tolstring v with
  | some s => do
      BoundedStack.replace (.string s)
      return some s
  | none => return none

/-- `luaL_checkstring(L, -1)`. -/
def checkstring (v : LuaValue) : FrameM κ LStr := do
  match ← tostring N v with
  | some s => return s
  | none => raise (badvalue "string" v)

/-- A call that may not return; `errno` where it does. -/
def call (c : κ) : FrameM κ Int := fun s =>
  match E.call c with
  | some errno => .ok errno { s with rest := s.rest ++ [c] }
  | none => .error .replaced { s with rest := s.rest ++ [c] }

/-- A variable of C is set. -/
def assign (c : κ) : FrameM κ Unit := fun s => .ok () { s with rest := s.rest ++ [c] }

/-- `lua_pushcclosure(L, fn, n)`: the upvalues, which it takes off the stack. -/
def pushcclosure (fn : LuaValue) (n : Nat) : FrameM κ (List LuaValue) := fun s =>
  if n ≤ MAXUPVAL then
    .ok (s.values.take n).reverse { s with values := fn :: s.values.drop n }
  else .error .tooManyUpvalues s

/-- `pusherror(L, info)` and the return of what it pushed. -/
def pusherror (errno : Int) (info : LStr) : FrameM κ (List LuaValue) := do
  let results := LuaPosix.pusherror E.strerror errno (some info)
  discard <| results.mapM (push E)
  return results

/-! ## Runs -/

section Runs

variable {α β : Type}

/-- How a C function is entered: nothing above its arguments, and no call made. -/
def start : State LuaValue (List κ) := ⟨[], []⟩

/-- The calls of a run from there. -/
def made (x : FrameM κ α) : List κ := (BoundedStack.after (x.run start)).rest

/-- A run that raises an error. -/
def Raises (r : EStateM.Result Halt (State LuaValue (List κ)) α) : Prop :=
  ∃ e s, r = .error (.fault (.raises e)) s

/-- A run that pushes a value where there is no slot, or makes a closure with too many upvalues. -/
def Overflows (r : EStateM.Result Halt (State LuaValue (List κ)) α) : Prop :=
  ∃ s, r = .error .stackOverflow s ∨ r = .error .tooManyUpvalues s

/-- What raises does not overflow. -/
theorem Raises.not_overflows {r : EStateM.Result Halt (State LuaValue (List κ)) α}
    (h : Raises r) : ¬Overflows r := by
  obtain ⟨e, s, rfl⟩ := h
  rintro ⟨s', h | h⟩
  · cases h
  · cases h

/-- What follows what raises is not run. -/
theorem Raises.bind {x : FrameM κ α} {f : α → FrameM κ β} {s : State LuaValue (List κ)}
    (h : Raises (x.run s)) : Raises ((x >>= f).run s) := by
  obtain ⟨e, s', h⟩ := h
  exact ⟨e, s', BoundedStack.run_bind_of_error h⟩

variable {E N H args} {s : State LuaValue (List κ)} {v : LuaValue} {t : Nat}

/-- An error is raised. -/
theorem raises_raise (e : LuaError) : Raises ((raise e : FrameM κ α).run s) := ⟨e, s, rfl⟩

/-- An error of the Lua interface is raised. -/
theorem raises_lift {x : LuaM α} {e : LuaError} (h : x = .error e) :
    Raises ((liftM x : FrameM κ α).run s) := by
  rw [h]
  exact raises_raise e

/-- A value of the Lua interface leaves the stack alone. -/
theorem run_lift {x : LuaM α} {a : α} (h : x = .ok a) :
    (liftM x : FrameM κ α).run s = .ok a s := by
  rw [h]
  rfl

/-- At the start there is a slot. -/
theorem length_start_lt : (start : State LuaValue (List κ)).values.length < E.slots :=
  Nat.lt_of_lt_of_le (Nat.zero_lt_succ 19) E.minstack

/-- A value is pushed where there is a slot. -/
theorem run_push (h : s.values.length < E.slots) : (push E v).run s = .ok () (s.push v) :=
  BoundedStack.run_push_of_lt h

/-- A message is text. -/
theorem pushmessage_eq (e : LuaError) : ∃ msg, pushmessage E e = push E (.string msg) := by
  cases e with
  | argerror narg msg => exact ⟨_, rfl⟩
  | error msg => exact ⟨_, rfl⟩

/-- So many arguments. -/
theorem run_checknargs {maxargs : Nat} (h : args.length ≤ maxargs)
    (hroom : s.values.length < E.slots) : (checknargs E args maxargs).run s = .ok () s := by
  obtain ⟨msg, hmsg⟩ := pushmessage_eq (E := E) (toomanyargs args maxargs)
  have hargs : LuaPosix.checknargs args maxargs = .ok () := if_pos h
  rw [checknargs, hmsg, BoundedStack.run_bind_of_ok (run_push hroom),
    BoundedStack.run_bind_of_ok (run_lift hargs)]
  rfl

/-- Too many arguments are refused. -/
theorem raises_checknargs {maxargs : Nat} (h : maxargs < args.length)
    (hroom : s.values.length < E.slots) : Raises ((checknargs E args maxargs).run s) := by
  obtain ⟨msg, hmsg⟩ := pushmessage_eq (E := E) (toomanyargs args maxargs)
  have hargs : LuaPosix.checknargs args maxargs = .error (toomanyargs args maxargs) :=
    if_neg (Nat.not_le.mpr h)
  rw [checknargs, hmsg, BoundedStack.run_bind_of_ok (run_push hroom)]
  exact (raises_lift hargs).bind

/-- A table is found where it is an argument. -/
theorem run_totable {narg : Nat} {expected : String} (h : argument args narg = some (.table t)) :
    (totable E args narg expected).run s = .ok t s := by
  rw [totable, h]
  rfl

/-- Another value is refused. -/
theorem raises_totable {narg : Nat} {expected : String}
    (h : ¬∃ t, argument args narg = some (.table t)) (hroom : s.values.length < E.slots) :
    Raises ((totable E args narg expected).run s) := by
  have htype : (totable E args narg expected : FrameM κ Nat) = typeerror E args narg expected := by
    unfold totable
    split
    · exact absurd ⟨_, ‹_›⟩ h
    · rfl
  obtain ⟨msg, hmsg⟩ := pushmessage_eq (E := E) (argtypeerror args narg expected)
  rw [htype, typeerror, hmsg, BoundedStack.run_bind_of_ok (run_push hroom)]
  exact raises_raise _

/-! ### Blocks -/

/-- A block for fewer pointers than none is refused. -/
theorem size_lt_iff {n : Int} (hle : -2 ^ 31 ≤ n) (hlt : n < 2 ^ 31) :
    (BitVec.ofInt 64 n * 8#64).toNat < MAX_SIZE ↔ 0 ≤ n := by
  rw [MAX_SIZE, BitVec.toNat_mul, BitVec.toNat_ofInt, BitVec.toNat_ofNat]
  omega

/-- A block for so many pointers is pushed. -/
theorem run_newpointers {n : Int} {id : Nat} (hle : 0 ≤ n) (hlt : n < 2 ^ 31)
    (hblock : E.block (BitVec.ofInt 64 n * 8#64) = some id) (hroom : s.values.length < E.slots) :
    (newpointers E n).run s = .ok () (s.push (.userdata id)) := by
  rw [newpointers, newuserdata, if_pos ((size_lt_iff (by omega) hlt).mpr hle), hblock]
  exact run_push hroom

/-- Without memory, or for a negative number of them, there is none. -/
theorem raises_newpointers {n : Int} (hle : -2 ^ 31 ≤ n) (hlt : n < 2 ^ 31)
    (h : n < 0 ∨ E.block (BitVec.ofInt 64 n * 8#64) = none) :
    Raises ((newpointers E n).run s) := by
  rw [newpointers, newuserdata]
  split_ifs with hsize
  · rcases h with hneg | hnone
    · exact absurd ((size_lt_iff hle hlt).mp hsize) (Int.not_le.mpr hneg)
    · rw [hnone]
      exact raises_raise _
  · exact raises_raise _

/-! ### Values on top -/

/-- The value with its text in place of a number. -/
def asText (N : Numerals) (v : LuaValue) : LuaValue :=
  match N.tolstring v with
  | some s => .string s
  | none => v

/-- An element is pushed where there is a slot. -/
theorem run_index {i : LuaInteger} (hroom : s.values.length < E.slots) :
    (index E H t i).run s = .ok (H.get t (.integer i)) (s.push (H.get t (.integer i))) := by
  rw [index, BoundedStack.run_bind_of_ok (run_push hroom)]
  rfl

/-- Where there is none it overflows. -/
theorem run_index_of_le {i : LuaInteger} (hfull : E.slots ≤ s.values.length) :
    (index E H t i).run s = .error .stackOverflow s := by
  rw [index]
  exact BoundedStack.run_bind_of_error (BoundedStack.run_push_of_le hfull)

/-- A number on top of the stack is made a string in its place. -/
theorem run_tostring : (tostring N v : FrameM κ (Option LStr)).run (s.push v)
    = .ok (N.tolstring v) (s.push (asText N v)) := by
  unfold tostring asText
  cases N.tolstring v with
  | some text => rfl
  | none => rfl

/-- A string or a number is taken as a text. -/
theorem run_checkstring {text : LStr} (h : N.tolstring v = some text) :
    (checkstring N v : FrameM κ LStr).run (s.push v) = .ok text (s.push (asText N v)) := by
  rw [checkstring, BoundedStack.run_bind_of_ok run_tostring, h]
  rfl

/-- Another value is refused. -/
theorem run_checkstring_none (h : N.tolstring v = none) :
    (checkstring N v : FrameM κ LStr).run (s.push v)
      = .error (.fault (.raises (badvalue "string" v))) (s.push v) := by
  rw [checkstring, BoundedStack.run_bind_of_ok run_tostring, h]
  unfold asText
  rw [h]
  rfl

/-- The values on top become the upvalues of a closure. -/
theorem run_pushcclosure {fn : LuaValue} {n : Nat} (h : n ≤ MAXUPVAL) :
    (pushcclosure fn n : FrameM κ (List LuaValue)).run s
      = .ok (s.values.take n).reverse { s with values := fn :: s.values.drop n } := if_pos h

/-! ### Calls and their errors -/

/-- An assignment is written down. -/
theorem run_assign (c : κ) :
    (assign c : FrameM κ Unit).run s = .ok () { s with rest := s.rest ++ [c] } := rfl

/-- A call that returns sets `errno` and is written down. -/
theorem run_call_of_some {c : κ} {errno : Int} (h : E.call c = some errno) :
    (call E c).run s = .ok errno { s with rest := s.rest ++ [c] } := by
  show call E c s = _
  unfold call
  rw [h]

/-- Behind a call that does not return nothing is run. -/
theorem run_call_of_none {c : κ} (h : E.call c = none) :
    (call E c).run s = .error .replaced { s with rest := s.rest ++ [c] } := by
  show call E c s = _
  unfold call
  rw [h]

/-- Each round of a loop that pushes takes one slot. -/
theorem round_push (v : LuaValue) : BoundedStack.Round E.slots .stackOverflow
    (push E v : FrameM κ Unit) (.ok (v, ())) where
  ok s hroom a b hr := by
    cases hr
    exact run_push hroom
  error s hroom e hr := by cases hr
  full s hfull := ⟨s, BoundedStack.run_push_of_le hfull⟩

/-- The results of `pusherror` take three slots. -/
theorem run_pusherror (errno : Int) (info : LStr) (hroom : s.values.length + 3 ≤ E.slots) :
    ∃ s', (pusherror E errno info).run s
      = .ok (LuaPosix.pusherror E.strerror errno (some info)) s' := by
  have hloop := BoundedStack.run_mapM_of_room (s := s)
    (l := LuaPosix.pusherror E.strerror errno (some info))
    (fun v _ => round_push v) hroom
  refine ⟨s.pushAll ((LuaPosix.pusherror E.strerror errno (some info)).map id), ?_⟩
  rw [pusherror]
  exact BoundedStack.run_bind_of_ok (BoundedStack.run_discard_of_ok hloop)

/-- With fewer slots than three the results of `pusherror` overflow. -/
theorem run_pusherror_of_full {errno : Int} {info : LStr} (hle : s.values.length ≤ E.slots)
    (hfull : E.slots < s.values.length + 3) :
    ∃ s', (pusherror E errno info).run s = .error .stackOverflow s' := by
  obtain ⟨s', hloop⟩ := BoundedStack.run_mapM_of_full (s := s)
    (l := LuaPosix.pusherror E.strerror errno (some info))
    (fun v _ => round_push v) hle hfull (fun v _ => ⟨_, rfl⟩)
  refine ⟨s', ?_⟩
  rw [pusherror]
  exact BoundedStack.run_bind_of_error (BoundedStack.run_discard_of_error hloop)

/-! ### What makes no call -/

/-- Raising makes no call. -/
theorem local_raise (e : LuaError) : BoundedStack.Local (raise e : FrameM κ α) := .throw _

/-- Undefined behaviour is left at that. -/
theorem local_undefined : BoundedStack.Local (undefined : FrameM κ α) := .throw _

/-- Pushing makes no call. -/
theorem local_push : BoundedStack.Local (push E v : FrameM κ Unit) := .push

/-- Indexing makes no call. -/
theorem local_index {i : LuaInteger} : BoundedStack.Local (index E H t i : FrameM κ LuaValue) :=
  local_push.bind fun _ => BoundedStack.Local.replace.bind fun _ => .pure _

/-- Allocating makes no call that is counted. -/
theorem local_newpointers {n : Int} : BoundedStack.Local (newpointers E n : FrameM κ Unit) := by
  rw [newpointers, newuserdata]
  split_ifs
  · cases E.block (BitVec.ofInt 64 n * 8#64) with
    | some id => exact local_push
    | none => exact local_raise _
  · exact local_raise _

/-- Converting makes no call. -/
theorem local_tostring : BoundedStack.Local (tostring N v : FrameM κ (Option LStr)) := by
  unfold tostring
  cases N.tolstring v with
  | some text => exact BoundedStack.Local.replace.bind fun _ => .pure _
  | none => exact .pure _

/-- An error is pushed without a call. -/
theorem local_pusherror {errno : Int} {info : LStr} :
    BoundedStack.Local (pusherror E errno info) := by
  rw [pusherror]
  exact ((BoundedStack.Local.mapM fun v => local_push).bind fun _ => .pure _).bind fun _ => .pure _

end Runs

end FrameM

end LuaPosix

import LuaPosix.Lua.Number
import Mathlib.Data.Rat.Floor

/-! # Lua values behind the C API

The values a C function of the module reads from the Lua stack, how they convert to numbers,
and which of them name the same entry of a table. Functions, tables and other objects are known
by their identity; the one C closure the module itself makes, `sig_handler_wrap`, is known by
its upvalues. A numeral with a fraction or an exponent is read by `strtod`, a parameter. -/

namespace LuaPosix

open LuaPattern (LStr)

/-- A C signal handler: the two macros, the module's own handler, or a function of other code. -/
inductive CHandler where
  | SIG_DFL
  | SIG_IGN
  | sig_postpone
  | foreign (addr : Nat)
  deriving DecidableEq, Repr

/-- A Lua value. A float is known by its value; infinities and NaN are `nonfinite`. -/
inductive LuaValue where
  | nil
  | boolean (b : Bool)
  | integer (i : LuaInteger)
  | float (q : Rat)
  | nonfinite
  | string (s : LStr)
  | table (id : Nat)
  /-- A Lua function, or a C function other than `sig_handler_wrap`. -/
  | function (id : Nat)
  /-- The closure of `sig_handler_wrap` over its two upvalues. -/
  | sigHandlerWrap (upvalue1 upvalue2 : LuaValue)
  | lightuserdata (p : CHandler)
  | userdata (id : Nat)
  | thread (id : Nat)
  deriving DecidableEq, Repr

namespace LuaValue

/-- `luaL_typename`, where no value stands for an absent argument. -/
def typename : Option LuaValue → String
  | none => "no value"
  | some nil => "nil"
  | some (boolean _) => "boolean"
  | some (integer _) | some (float _) | some nonfinite => "number"
  | some (string _) => "string"
  | some (table _) => "table"
  | some (function _) | some (sigHandlerWrap _ _) => "function"
  | some (lightuserdata _) | some (userdata _) => "userdata"
  | some (thread _) => "thread"

/-- `luaV_flttointns`: a float converts to an integer when it is one and in range. -/
def floatToInteger (q : Rat) : Option LuaInteger :=
  if q.den = 1 ∧ -2 ^ 63 ≤ q.num ∧ q.num < 2 ^ 63 then some (BitVec.ofInt 64 q.num) else none

/-- `lua_tointegerx`: a number or a numeral that is an integer. -/
def tointegerx (strtod : LStr → Option Rat) : LuaValue → Option LuaInteger
  | integer i => some i
  | float q => floatToInteger q
  | string s => (l_str2int s).or ((strtod s).bind floatToInteger)
  | _ => none

/-- `lua_isnumber`: a number or a numeral. -/
def isnumber (strtod : LStr → Option Rat) : LuaValue → Bool
  | integer _ | float _ | nonfinite => true
  | string s => (l_str2int s).isSome || (strtod s).isSome
  | _ => false

/-- The key a value is in a table: a float that is an integer is that integer. -/
def key : LuaValue → LuaValue
  | float q => match floatToInteger q with
      | some i => integer i
      | none => float q
  | v => v

/-- The values that are an integer in a table: that integer, and the float equal to it. -/
theorem key_eq_integer_iff {strtod : LStr → Option Rat} {v : LuaValue}
    {d : LuaInteger} :
    v.key = .integer d ↔ (∀ s, v ≠ .string s) ∧ v.tointegerx strtod = some d := by
  cases v with
  | integer i => simp [key, tointegerx]
  | float q =>
      cases hq : floatToInteger q <;> simp [key, tointegerx, hq]
  | _ => simp [key, tointegerx]

/-- `lua_touserdata`: the pointer of a light userdata, the block of a full one, NULL for the
rest. NULL is `SIG_DFL`. -/
def touserdata : LuaValue → CHandler
  | lightuserdata p => p
  | userdata id => .foreign id
  | _ => .SIG_DFL

end LuaValue

/-! ## Tables -/

/-- The content of a table without a metatable, nil where it has no entry. -/
abbrev LuaTable := LuaValue → LuaValue

/-- `lua_rawget`. -/
def rawget (t : LuaTable) (k : LuaValue) : LuaValue := t k.key

/-- `lua_rawset`. -/
def rawset (t : LuaTable) (k v : LuaValue) : LuaTable := Function.update t k.key v

/-- A key has the value that was set. -/
@[simp] theorem rawget_rawset (t : LuaTable) (k v : LuaValue) : rawget (rawset t k v) k = v := by
  simp [rawget, rawset]

/-- Other keys have their old ones. -/
theorem rawget_rawset_of_ne {t : LuaTable} {k k' v : LuaValue} (h : k'.key ≠ k.key) :
    rawget (rawset t k v) k' = rawget t k' := by
  simp [rawget, rawset, h]

/-! ## Arguments -/

section Arguments

variable (strtod : LStr → Option Rat) (args : List LuaValue)

/-- `lua_isnoneornil(L, narg)`. -/
def isnoneornil (narg : Nat) : Bool :=
  match args[narg - 1]? with
  | none | some .nil => true
  | _ => false

/-- `argtypeerror(L, narg, expected)`. -/
def argtypeerror (narg : Nat) (expected : String) : LuaError :=
  .argerror narg (expected ++ " expected, got " ++ LuaValue.typename args[narg - 1]?)

/-- `expectinteger(L, narg, expected)`. -/
def expectinteger (narg : Nat) (expected : String) : LuaM LuaInteger :=
  match args[narg - 1]?.bind (LuaValue.tointegerx strtod) with
  | some d => .ok d
  | none => .error (argtypeerror args narg expected)

/-- The cast of a Lua integer to a C `int`: its low 32 bits. -/
def toInt (d : LuaInteger) : Int := (d.setWidth 32).toInt

/-- `checkint(L, narg)`. -/
def checkint (narg : Nat) : LuaM Int := (expectinteger strtod args narg "integer").map toInt

/-- `optint(L, narg, def)`. -/
def optint (narg : Nat) (dflt : Int) : LuaM Int :=
  if isnoneornil args narg then .ok dflt
  else (expectinteger strtod args narg "integer or nil").map toInt

/-- `checkinteger(L, narg)`. -/
def checkinteger (narg : Nat) : LuaM LuaInteger := expectinteger strtod args narg "integer"

/-- `optinteger(L, narg, def)`. -/
def optinteger (narg : Nat) (dflt : LuaInteger) : LuaM LuaInteger :=
  if isnoneornil args narg then .ok dflt
  else expectinteger strtod args narg "integer or nil"

/-- `luaL_checklstring(L, narg, &len)`: a number is replaced by its text. -/
def checklstring (numberText : LuaValue → LStr) (narg : Nat) : LuaM LStr :=
  match args[narg - 1]? with
  | some (.string s) => .ok s
  | some (.integer i) => .ok (numberText (.integer i))
  | some (.float q) => .ok (numberText (.float q))
  | some .nonfinite => .ok (numberText .nonfinite)
  | _ => .error (argtypeerror args narg "string")

/-- `checknargs(L, maxargs)`. -/
def checknargs (maxargs : Nat) : LuaM Unit :=
  if args.length ≤ maxargs then .ok ()
  else .error (.argerror (maxargs + 1) ("no more than " ++ toString maxargs ++ " argument" ++
    (if maxargs = 1 then "" else "s") ++ " expected, got " ++ toString args.length))

end Arguments

/-- A C string ends at the first zero. -/
def cstring (s : LStr) : LStr := s.takeWhile (· ≠ Char.ofNat 0)

/-- `luaL_checkoption(L, narg, def, lst)` on an argument that is nil or a string: its place in
the list. -/
def checkoption (narg : Nat) (arg : Option LuaValue) (dflt : String) (lst : List String) :
    LuaM Nat :=
  let name := match arg with
    | some (.string s) => s
    | _ => dflt.toList
  match lst.findIdx? (fun o => o.toList = cstring name) with
  | some i => .ok i
  | none => .error (.argerror narg ("invalid option '" ++ String.ofList (cstring name) ++ "'"))

end LuaPosix

import LuaPosix.Lib.LuaPattern
import Mathlib.Algebra.Group.Nat.Defs

/-! # Lua integers and numerals

Integers of Lua 5.3 and later are 64-bit two's complement words. `l_str2int` is the
reference implementation's reader of integer numerals; numerals with a fraction or an
exponent are read by `strtod`, which stays a parameter wherever it could matter. -/

namespace LuaPosix

open LuaPattern (LStr isspace isxdigit)

/-- A Lua integer. -/
abbrev LuaInteger := BitVec 64

/-- Errors a Lua call raises. The position `error` and `luaL_error` put in front of a text
depends on the caller and is left out. -/
inductive LuaError where
  /-- A message raised by Lua code or by the interpreter. -/
  | error (msg : String)
  /-- `luaL_argerror(L, arg, extramsg)`. -/
  | argerror (arg : Nat) (extramsg : String)
  deriving DecidableEq, Repr

/-- Calls that may raise. -/
abbrev LuaM := Except LuaError

/-- A sequence of calls that does not fail is one in which neither part does. -/
theorem bind_eq_ok {ε α β : Type} {x : Except ε α} {f : α → Except ε β} {b : β} :
    x >>= f = .ok b ↔ ∃ a, x = .ok a ∧ f a = .ok b := by
  cases x with
  | error e =>
      constructor
      · intro h
        cases h
      · rintro ⟨a, h, -⟩
        cases h
  | ok a =>
      constructor
      · intro h
        exact ⟨a, rfl, h⟩
      · rintro ⟨a', h, hf⟩
        cases h
        exact hf

/-- A sequence of calls that does not raise is one in which neither part does. -/
theorem LuaM.bind_eq_ok {α β : Type} {x : LuaM α} {f : α → LuaM β} {b : β} :
    x >>= f = .ok b ↔ ∃ a, x = .ok a ∧ f a = .ok b := LuaPosix.bind_eq_ok

/-- `luaO_hexavalue`, for hexadecimal digits. -/
def hexavalue (c : Char) : Nat :=
  if c.isDigit then c.toNat - 48 else c.toLower.toNat - 97 + 10

/-- The value of a digit string in a base. -/
def digitsValue (base : Nat) (digits : LStr) : Nat :=
  digits.foldl (fun a c => a * base + hexavalue c) 0

/-- `isneg`: read an optional sign. -/
def isneg : LStr → Bool × LStr
  | '-' :: s => (true, s)
  | '+' :: s => (false, s)
  | s => (false, s)

/-- `l_str2int`: white space, a sign, decimal or hexadecimal digits, white space. A decimal
numeral must be in range; a hexadecimal one wraps around. -/
def l_str2int (s : LStr) : Option LuaInteger :=
  let (neg, s) := isneg (s.dropWhile isspace)
  let signed (a : Nat) : LuaInteger := if neg then -BitVec.ofNat 64 a else BitVec.ofNat 64 a
  let finish (digits rest : LStr) (a : Nat) : Option LuaInteger :=
    if digits = [] ∨ rest.dropWhile isspace ≠ [] then none else some (signed a)
  match s with
  | '0' :: 'x' :: s | '0' :: 'X' :: s =>
      finish (s.takeWhile isxdigit) (s.dropWhile isxdigit) (digitsValue 16 (s.takeWhile isxdigit))
  | s =>
      let a := digitsValue 10 (s.takeWhile Char.isDigit)
      if a ≤ 2 ^ 63 - 1 + neg.toNat then
        finish (s.takeWhile Char.isDigit) (s.dropWhile Char.isDigit) a
      else none

example : l_str2int " -0x10 ".toList = some (-16) := by decide
example : l_str2int "9223372036854775808".toList = none := by decide

/-- The decimal digits, by value. -/
theorem exists_digit {c : Char} (hc : c.isDigit) : ∃ d : Fin 10, c = Char.ofNat (48 + d) := by
  have hle : 48 ≤ c.toNat ∧ c.toNat ≤ 57 := by
    simpa [Char.isDigit, UInt32.le_iff_toNat_le, ← Char.toNat_val] using hc
  refine ⟨⟨c.toNat - 48, by omega⟩, ?_⟩
  rw [show 48 + (c.toNat - 48) = c.toNat by omega, Char.ofNat_toNat]

/-- A one-digit numeral. -/
theorem l_str2int_digit {c : Char} (hc : c.isDigit) :
    l_str2int [c] = some (BitVec.ofNat 64 (c.toNat - 48)) := by
  obtain ⟨d, rfl⟩ := exists_digit hc
  revert d
  decide

end LuaPosix

import LuaPosix.Lua.Number

/-! # Bitwise back-ends

`posix._base` takes `band`, `bor` and `bnot` from one of three modules. The code above it only
sees the number type a back-end computes on and these operations, so it is written once over
`Bitwise`; `posixBitwise` is `posix._bitwise`, the back-end of Lua 5.3 and later. -/

namespace LuaPosix

/-- A bitwise back-end together with the arithmetic of its numbers. -/
structure Bitwise (ν : Type) where
  /-- An integer constant. -/
  ofNat : Nat → ν
  /-- `band(a, ...)`. -/
  band : ν → List ν → ν
  /-- `bor(a, ...)`. -/
  bor : ν → List ν → ν
  /-- `bnot(a)`. -/
  bnot : ν → ν
  /-- `a * b`. -/
  mul : ν → ν → ν
  /-- `a + b`. -/
  add : ν → ν → ν

/-- `posix._bitwise`: the operators of 64-bit integers, folded over the arguments. -/
def posixBitwise : Bitwise LuaInteger where
  ofNat := BitVec.ofNat 64
  band a vs := vs.foldl (· &&& ·) a
  bor a vs := vs.foldl (· ||| ·) a
  bnot a := ~~~a
  mul := (· * ·)
  add := (· + ·)

/-- A constant is a 64-bit integer. -/
@[simp] theorem posixBitwise_ofNat (n : Nat) : posixBitwise.ofNat n = BitVec.ofNat 64 n := rfl

/-- `band` is the conjunction of all operands. -/
@[simp] theorem posixBitwise_band (a : LuaInteger) (vs : List LuaInteger) :
    posixBitwise.band a vs = vs.foldl (· &&& ·) a := rfl

/-- `bor` is the disjunction of all operands. -/
@[simp] theorem posixBitwise_bor (a : LuaInteger) (vs : List LuaInteger) :
    posixBitwise.bor a vs = vs.foldl (· ||| ·) a := rfl

/-- `bnot` inverts all 64 bits. -/
@[simp] theorem posixBitwise_bnot (a : LuaInteger) : posixBitwise.bnot a = ~~~a := rfl

/-- The product wraps around. -/
@[simp] theorem posixBitwise_mul (a b : LuaInteger) : posixBitwise.mul a b = a * b := rfl

/-- The sum wraps around. -/
@[simp] theorem posixBitwise_add (a b : LuaInteger) : posixBitwise.add a b = a + b := rfl

end LuaPosix

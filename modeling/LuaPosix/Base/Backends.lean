import LuaPosix.Base.Bitwise
import Mathlib.Algebra.Group.Int.Defs

/-! # The three bitwise back-ends

`posix._base` takes its operations from `posix._bitwise` on Lua 5.3 and later, from `bit` on
LuaJIT and from `bit32` otherwise. The two libraries work on 32-bit words and give a word back
as a number without or with a sign, over the doubles of the older interpreters.

* `Doubles` is what is known of those numbers, `bit32` and `bit` are the libraries over them.
* `LowWord` says what the back-ends have in common: the low 32 bits of a result.
* `Backend` bundles a back-end with that, and with the integer each of its numbers is. -/

namespace LuaPosix

/-- The integers among the doubles. Arithmetic rounds, which is exact up to `2 ^ 53`; the word
the libraries take from a number is documented between `-2 ^ 51` and `2 ^ 51`. -/
structure Doubles where
  /-- The double an integer result is rounded to. -/
  round : Int → Int
  round_exact : ∀ n : Int, n.natAbs ≤ 2 ^ 53 → round n = n
  /-- The word `bit32` and `bit` take from a number. -/
  word : Int → BitVec 32
  word_exact : ∀ n : Int, -2 ^ 51 < n → n < 2 ^ 51 → word n = BitVec.ofInt 32 n

/-- A library of 32-bit operations, by the number it gives back for a word. -/
def Doubles.bitwise (D : Doubles) (number : BitVec 32 → Int) : Bitwise Int where
  ofNat n := n
  band a vs := number (vs.foldl (fun w v => w &&& D.word v) (D.word a))
  bor a vs := number (vs.foldl (fun w v => w ||| D.word v) (D.word a))
  bnot a := number (~~~D.word a)
  mul a b := D.round (a * b)
  add a b := D.round (a + b)

/-- `bit32` of Lua 5.2: words without a sign. -/
def bit32 (D : Doubles) : Bitwise Int := D.bitwise fun w => w.toNat

/-- `bit` of LuaJIT: words with a sign. -/
def bit (D : Doubles) : Bitwise Int := D.bitwise BitVec.toInt

/-! ## What the back-ends have in common -/

/-- The low word of a back-end's numbers: its operations act on it as operations of words, and
they keep a small constant apart from everything above it. -/
structure LowWord {ν : Type} (B : Bitwise ν) where
  /-- The low 32 bits of a number. -/
  low : ν → BitVec 32
  low_ofNat : ∀ {n}, n < 2 ^ 51 → low (B.ofNat n) = BitVec.ofNat 32 n
  low_band : ∀ a vs, low (B.band a vs) = (vs.map low).foldl (· &&& ·) (low a)
  low_bor : ∀ a vs, low (B.bor a vs) = (vs.map low).foldl (· ||| ·) (low a)
  low_bnot : ∀ a, low (B.bnot a) = ~~~low a
  /-- What is left under a constant is a constant. -/
  band_ofNat : ∀ a {c}, c < 2 ^ 31 →
    B.band a [B.ofNat c] = B.ofNat (low a &&& BitVec.ofNat 32 c).toNat
  bor_ofNat : ∀ {a b c}, a < 2 ^ 31 → b < 2 ^ 31 → c < 2 ^ 31 →
    B.bor (B.ofNat a) [B.ofNat b, B.ofNat c] = B.ofNat (a ||| b ||| c)
  /-- A round of `octal_mode`. -/
  octal : ∀ {a d}, a * 8 + d < 2 ^ 51 →
    B.add (B.mul (B.ofNat a) (B.ofNat 8)) (B.ofNat d) = B.ofNat (a * 8 + d)

/-- A back-end with the integer each of its numbers is. -/
structure Backend where
  /-- Its numbers. -/
  ν : Type
  decEq : DecidableEq ν
  /-- Its operations. -/
  B : Bitwise ν
  /-- Their low words. -/
  words : LowWord B
  /-- The integer a number is. -/
  value : ν → Int
  value_ofNat : ∀ {n}, n < 2 ^ 31 → value (B.ofNat n) = n

/-- Numbers of a back-end can be compared. -/
instance (b : Backend) : DecidableEq b.ν := b.decEq

/-! ## 64-bit operators -/

/-- The bits of a small constant in a 64-bit word are those of the low word. -/
theorem and_ofNat_eq_setWidth (a : LuaInteger) {c : Nat} (hc : c < 2 ^ 31) :
    a &&& BitVec.ofNat 64 c
      = BitVec.ofNat 64 (a.setWidth 32 &&& BitVec.ofNat 32 c).toNat := by
  apply BitVec.eq_of_getLsbD_eq
  intro i hi
  rw [BitVec.getLsbD_and, BitVec.getLsbD_ofNat, BitVec.getLsbD_ofNat, BitVec.testBit_toNat,
    BitVec.getLsbD_and, BitVec.getLsbD_setWidth, BitVec.getLsbD_ofNat, decide_eq_true hi]
  by_cases h : i < 32
  · simp [h]
  · -- No bit of the constant is this high.
    have hlt : c < 2 ^ i := Nat.lt_of_lt_of_le hc (Nat.pow_le_pow_right (by decide) (by omega))
    simp [Nat.testBit_lt_two_pow hlt]

/-- The low word of a conjunction is that of the low words. -/
theorem setWidth_foldl_and (a : LuaInteger) (vs : List LuaInteger) :
    (vs.foldl (· &&& ·) a).setWidth 32
      = (vs.map (BitVec.setWidth 32)).foldl (· &&& ·) (a.setWidth 32) := by
  induction vs generalizing a with
  | nil => rfl
  | cons v vs ih => rw [List.foldl_cons, ih, BitVec.setWidth_and, List.map_cons, List.foldl_cons]

/-- The low word of a disjunction is that of the low words. -/
theorem setWidth_foldl_or (a : LuaInteger) (vs : List LuaInteger) :
    (vs.foldl (· ||| ·) a).setWidth 32
      = (vs.map (BitVec.setWidth 32)).foldl (· ||| ·) (a.setWidth 32) := by
  induction vs generalizing a with
  | nil => rfl
  | cons v vs ih => rw [List.foldl_cons, ih, BitVec.setWidth_or, List.map_cons, List.foldl_cons]

/-- The low words of 64-bit integers. -/
def posixBitwise.words : LowWord posixBitwise where
  low a := a.setWidth 32
  low_ofNat {n} _ := by rw [posixBitwise_ofNat, BitVec.setWidth_ofNat_of_le (by decide)]
  low_band a vs := setWidth_foldl_and a vs
  low_bor a vs := setWidth_foldl_or a vs
  low_bnot a := by rw [posixBitwise_bnot, BitVec.setWidth_not (by decide)]
  band_ofNat a {c} hc := and_ofNat_eq_setWidth a hc
  bor_ofNat {a b c} _ _ _ := by
    simp only [posixBitwise_bor, posixBitwise_ofNat, List.foldl_cons, List.foldl_nil,
      BitVec.ofNat_or]
  octal {a d} _ := by
    simp only [posixBitwise_add, posixBitwise_mul, posixBitwise_ofNat, BitVec.ofNat_add,
      BitVec.ofNat_mul]

/-- The word of a Lua integer is its low half. -/
@[simp] theorem posixBitwise_low (a : LuaInteger) : posixBitwise.words.low a = a.setWidth 32 :=
  rfl

/-! ## 32-bit libraries -/

section Doubles

variable (D : Doubles) {number : BitVec 32 → Int}

/-- A small number is its own word. -/
theorem Doubles.word_ofNat {n : Nat} (h : n < 2 ^ 51) : D.word n = BitVec.ofNat 32 n := by
  rw [D.word_exact n (by omega) (by omega), BitVec.ofInt_natCast]

/-- The low words of a library whose numbers carry their word, and are the word itself below
`2 ^ 31`. -/
def Doubles.words (hword : ∀ w, D.word (number w) = w)
    (hsmall : ∀ w : BitVec 32, w.toNat < 2 ^ 31 → number w = w.toNat) :
    LowWord (D.bitwise number) where
  low := D.word
  low_ofNat h := D.word_ofNat h
  low_band a vs := by
    rw [List.foldl_map]
    exact hword _
  low_bor a vs := by
    rw [List.foldl_map]
    exact hword _
  low_bnot a := hword _
  band_ofNat a {c} hc := by
    have hlt : (D.word a &&& BitVec.ofNat 32 c).toNat < 2 ^ 31 := by
      rw [BitVec.toNat_and, BitVec.toNat_ofNat, Nat.mod_eq_of_lt (by omega)]
      exact Nat.and_lt_two_pow _ hc
    have hc' : D.word (c : Int) = BitVec.ofNat 32 c := D.word_ofNat (by omega)
    show number (D.word a &&& D.word c) = _
    rw [hc', hsmall _ hlt]
    rfl
  bor_ofNat {a b c} ha hb hc := by
    have hlt : a ||| b ||| c < 2 ^ 31 := Nat.or_lt_two_pow (Nat.or_lt_two_pow ha hb) hc
    have hword : D.word a ||| D.word b ||| D.word c = BitVec.ofNat 32 (a ||| b ||| c) := by
      rw [D.word_ofNat (by omega), D.word_ofNat (by omega), D.word_ofNat (by omega),
        ← BitVec.ofNat_or, ← BitVec.ofNat_or]
    have htoNat : (BitVec.ofNat 32 (a ||| b ||| c)).toNat = a ||| b ||| c := by
      rw [BitVec.toNat_ofNat, Nat.mod_eq_of_lt (by omega)]
    show number (D.word a ||| D.word b ||| D.word c) = _
    rw [hword, hsmall _ (by omega), htoNat]
    rfl
  octal {a d} h := by
    show D.round (D.round ((a : Int) * (8 : Nat)) + d) = ((a * 8 + d : Nat) : Int)
    rw [D.round_exact (a * (8 : Nat)) (by omega), D.round_exact _ (by omega)]
    omega

/-- A word without a sign is in the documented range, and so is one with a sign. -/
theorem Doubles.word_toNat (w : BitVec 32) : D.word w.toNat = w := by
  rw [D.word_ofNat (by omega), BitVec.ofNat_toNat, BitVec.setWidth_eq]

/-- A signed word is read back as it was. -/
theorem Doubles.word_toInt (w : BitVec 32) : D.word w.toInt = w := by
  have hlo := BitVec.le_toInt w
  have hhi := BitVec.toInt_lt (x := w)
  rw [D.word_exact _ (by omega) (by omega), BitVec.ofInt_toInt]

end Doubles

/-! ## The back-ends -/

namespace Backend

/-- `posix._bitwise`. -/
def bitwise : Backend where
  ν := LuaInteger
  decEq := inferInstance
  B := posixBitwise
  words := posixBitwise.words
  value := BitVec.toInt
  value_ofNat {n} h := by
    have htoNat : (BitVec.ofNat 64 n).toNat = n := by
      rw [BitVec.toNat_ofNat, Nat.mod_eq_of_lt (by omega)]
    rw [posixBitwise_ofNat, BitVec.toInt_eq_toNat_of_lt (by omega), htoNat]

/-- `bit32`. -/
def bit32 (D : Doubles) : Backend where
  ν := Int
  decEq := inferInstance
  B := LuaPosix.bit32 D
  words := D.words D.word_toNat fun _ _ => rfl
  value := id
  value_ofNat _ := rfl

/-- `bit`. -/
def bit (D : Doubles) : Backend where
  ν := Int
  decEq := inferInstance
  B := LuaPosix.bit D
  words := D.words D.word_toInt fun w h => BitVec.toInt_eq_toNat_of_lt (by omega)
  value := id
  value_ofNat _ := rfl

end Backend

end LuaPosix

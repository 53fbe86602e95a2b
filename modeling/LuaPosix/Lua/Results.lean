import LuaPosix.Lua.Value

/-! # Results of the C functions

`pusherror` and `pushresult`, by which the C functions report the outcome of a system call.
`pushresult` takes an `int`: what a call returns is cut to 32 bits, and -1 is read as a failure.
What it reports is what the call said exactly if the call failed, or its result is an `int` other
than -1. -/

namespace LuaPosix

open LuaPattern (LStr)

/-- The outcome of a system call: it fails with an error number, or returns an integer, `errno`
being what it is then. -/
inductive SysResult (w : Nat) where
  | failed (errno : Int)
  | returned (r : BitVec w) (errno : Int)
  deriving DecidableEq, Repr

/-- What the C function returns: -1 where the call fails. -/
def SysResult.value {w : Nat} : SysResult w → BitVec w
  | .failed _ => -1#w
  | .returned r _ => r

/-- `errno` after the call. -/
def SysResult.errno {w : Nat} : SysResult w → Int
  | .failed errno => errno
  | .returned _ errno => errno

/-- The conversion of a C integer to `int`: its low 32 bits. -/
def cint {w : Nat} (r : BitVec w) : Int := (r.setWidth 32).toInt

section Results

variable (strerror : Int → LStr) (errno : Int) (info : Option LStr)

/-- `pusherror(L, info)`. -/
def pusherror : List LuaValue :=
  [.nil,
    .string (match info with
      | none => strerror errno
      | some info => info ++ ": ".toList ++ strerror errno),
    .integer (BitVec.ofInt 64 errno)]

/-- `pushresult(L, i, info)`, where `i` is an `int`. -/
def pushresult (i : Int) : List LuaValue :=
  if i = -1 then pusherror strerror errno info else [.integer (BitVec.ofInt 64 i)]

/-- `pushresult(L, call(...), info)`. -/
def SysResult.push {w : Nat} (x : SysResult w) : List LuaValue :=
  pushresult strerror x.errno info (cint x.value)

/-- The outcome is reported exactly: the message and number of a failure, else the integer. -/
def SysResult.Exact {w : Nat} (x : SysResult w) (results : List LuaValue) : Prop :=
  match x with
  | .failed errno => results = pusherror strerror errno info
  | .returned r _ => results = [.integer (BitVec.ofInt 64 r.toInt)]

end Results

/-- What a call returns is an `int` other than -1. -/
def SysResult.Fits {w : Nat} (x : SysResult w) : Prop :=
  match x with
  | .failed _ => True
  | .returned r _ => -2 ^ 31 ≤ r.toInt ∧ r.toInt < 2 ^ 31 ∧ r.toInt ≠ -1

/-- A result that passes through an `int` is reduced modulo `2 ^ 32`. -/
theorem cint_eq_bmod {w : Nat} (r : BitVec w) (hw : 32 ≤ w) :
    cint r = r.toInt.bmod (2 ^ 32) := by
  rw [cint, BitVec.toInt_setWidth, BitVec.toInt_eq_toNat_bmod, Int.bmod_bmod_of_dvd]
  exact_mod_cast Nat.pow_dvd_pow 2 hw

/-- It comes out as it was if it is in the range of an `int`. -/
theorem cint_eq_iff {w : Nat} (r : BitVec w) (hw : 32 ≤ w) :
    cint r = r.toInt ↔ -2 ^ 31 ≤ r.toInt ∧ r.toInt < 2 ^ 31 := by
  rw [cint_eq_bmod r hw, Int.bmod_def]
  omega

/-- A failure is -1 in any width. -/
theorem SysResult.cint_failed {w : Nat} (hw : 32 ≤ w) (errno : Int) :
    cint (SysResult.failed (w := w) errno).value = -1 := by
  have hneg : (-1#w).toInt = -1 := by
    rw [BitVec.neg_one_eq_allOnes, BitVec.toInt_allOnes, if_pos (by omega)]
  show cint (-1#w) = -1
  rw [(cint_eq_iff _ hw).mpr (by rw [hneg]; decide), hneg]

/-- Integers of at most 64 bits are told apart as Lua integers. -/
theorem ofInt_inj {i j : Int} (hi : -2 ^ 63 ≤ i ∧ i < 2 ^ 63) (hj : -2 ^ 63 ≤ j ∧ j < 2 ^ 63) :
    BitVec.ofInt 64 i = BitVec.ofInt 64 j ↔ i = j := by
  refine ⟨fun h => ?_, congrArg _⟩
  have htoInt := congrArg BitVec.toInt h
  rwa [BitVec.toInt_ofInt_eq_self (by decide) hi.1 hi.2,
    BitVec.toInt_ofInt_eq_self (by decide) hj.1 hj.2] at htoInt

/-- What `pushresult` pushes is an error or an integer. -/
theorem SysResult.push_cases {w : Nat} (x : SysResult w) (strerror : Int → LStr)
    (info : Option LStr) : x.push strerror info = pusherror strerror x.errno info ∨
      ∃ i, x.push strerror info = [.integer i] := by
  rw [SysResult.push, pushresult]
  by_cases hx : cint x.value = -1
  · exact .inl (if_pos hx)
  · exact .inr ⟨_, if_neg hx⟩

/-- **`pushresult` is exact** on failures, and on results that are an `int` other than -1. -/
theorem SysResult.exact_push_iff {w : Nat} (hw : 32 ≤ w) (hw' : w ≤ 64) (strerror : Int → LStr)
    (info : Option LStr) (x : SysResult w) :
    x.Exact strerror info (x.push strerror info) ↔ x.Fits := by
  cases x with
  | failed errno =>
      rw [SysResult.push, SysResult.cint_failed hw, pushresult, if_pos rfl]
      exact ⟨fun _ => trivial, fun _ => rfl⟩
  | returned r errno =>
      have hpush : (SysResult.returned r errno).push strerror info
          = if cint r = -1 then pusherror strerror errno info
            else [.integer (BitVec.ofInt 64 (cint r))] := rfl
      rw [hpush]
      show _ = [LuaValue.integer (BitVec.ofInt 64 r.toInt)] ↔
        -2 ^ 31 ≤ r.toInt ∧ r.toInt < 2 ^ 31 ∧ r.toInt ≠ -1
      have hrange : -2 ^ 63 ≤ r.toInt ∧ r.toInt < 2 ^ 63 := by
        have hpow : (2 : Int) ^ (w - 1) ≤ 2 ^ 63 := pow_le_pow_right₀ (by decide) (by omega)
        have hle := r.le_toInt
        have hlt := r.toInt_lt
        omega
      split_ifs with hneg
      · refine ⟨fun h => (nomatch h), fun ⟨hle, hlt, hne⟩ => ?_⟩
        exact absurd (((cint_eq_iff r hw).mpr ⟨hle, hlt⟩).symm.trans hneg) hne
      · have hcint : -2 ^ 63 ≤ cint r ∧ cint r < 2 ^ 63 := by
          rw [cint_eq_bmod r hw, Int.bmod_def]
          omega
        have hlist : [LuaValue.integer (BitVec.ofInt 64 (cint r))]
            = [.integer (BitVec.ofInt 64 r.toInt)] ↔ cint r = r.toInt := by
          rw [List.cons_eq_cons, LuaValue.integer.injEq, ofInt_inj hcint hrange]
          exact ⟨And.left, fun h => ⟨h, rfl⟩⟩
        rw [hlist, cint_eq_iff r hw]
        refine ⟨fun ⟨hle, hlt⟩ => ⟨hle, hlt, fun hr => hneg ?_⟩, fun h => ⟨h.1, h.2.1⟩⟩
        rw [(cint_eq_iff r hw).mpr ⟨hle, hlt⟩, hr]

end LuaPosix

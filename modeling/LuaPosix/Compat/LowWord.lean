import LuaPosix.Base.Backends
import LuaPosix.Compat.Calls
import LuaPosix.Compat.ModePrinted

/-! # Modes by their low word

`bnot` gives a different number on each back-end, and the clauses of a mode string run it
through `band` and `bor` before the mode is masked. Reading the low word is a homomorphism from
every back-end to 32-bit words: it commutes with `mode_munch`, and `pushmode` and the bits under
`RWXALL` only depend on it. -/

namespace LuaPosix

open LuaPattern

/-! ## Words -/

/-- The operations on 32-bit words. -/
def wordBitwise : Bitwise (BitVec 32) where
  ofNat := BitVec.ofNat 32
  band a vs := vs.foldl (· &&& ·) a
  bor a vs := vs.foldl (· ||| ·) a
  bnot a := ~~~a
  mul := (· * ·)
  add := (· + ·)

/-- A map of the numbers of a result. -/
def Munched.map {ν ν' : Type} (φ : ν → ν') : Munched ν → Munched ν'
  | .mode bits => .mode (φ bits)
  | .bad err => .bad err

/-- An octal string is one the libraries can take: its value is below `2 ^ 51`. -/
def OctalInRange (s : LStr) : Prop := (∀ c ∈ s, isOctal c) → octalValue s < 2 ^ 51

/-! ## `mode_munch` on words -/

section Words

variable {ν : Type} {B : Bitwise ν} (L : LowWord B)

include L

/-- A step of `rwxrwxrwx` does to the low word what it does to the number. -/
theorem LowWord.low_rwxrwxrwxStep (s : LStr) (mode : ν) {p : (Char × Nat) × Nat}
    (hp : p.1.2 < 2 ^ 51) :
    (rwxrwxrwxStep B s mode p).map L.low = rwxrwxrwxStep wordBitwise s (L.low mode) p := by
  obtain ⟨⟨c, b⟩, i⟩ := p
  rw [rwxrwxrwxStep, rwxrwxrwxStep]
  split_ifs
  · simp only [Option.map_some, L.low_bor, List.map_cons, List.map_nil, L.low_ofNat hp]
    rfl
  · simp (disch := decide) only [Option.map_some, L.low_bor, List.map_cons, List.map_nil,
      L.low_ofNat]
    rfl
  · simp (disch := decide) only [Option.map_some, L.low_bor, List.map_cons, List.map_nil,
      L.low_ofNat]
    rfl
  · rfl
  · rfl

/-- The rounds of `rwxrwxrwx` on words. -/
theorem LowWord.low_foldlM_rwxrwxrwxStep (s : LStr) {ps : List ((Char × Nat) × Nat)}
    (hps : ∀ p ∈ ps, p.1.2 < 2 ^ 51) (mode : ν) :
    (ps.foldlM (rwxrwxrwxStep B s) mode).map L.low
      = ps.foldlM (rwxrwxrwxStep wordBitwise s) (L.low mode) := by
  induction ps generalizing mode with
  | nil => rfl
  | cons p ps ih =>
      have hstep := L.low_rwxrwxrwxStep s mode (hps p (by simp))
      rw [List.foldlM_cons, List.foldlM_cons, ← hstep]
      cases rwxrwxrwxStep B s mode p with
      | none => rfl
      | some mode' => exact ih (fun q hq => hps q (by simp [hq])) mode'

/-- `rwxrwxrwx` commutes with the low word. -/
theorem LowWord.low_rwxrwxrwx (s : LStr) :
    (rwxrwxrwx B s).map L.low = rwxrwxrwx wordBitwise s := by
  rw [rwxrwxrwx, rwxrwxrwx, L.low_foldlM_rwxrwxrwxStep s (by decide), L.low_ofNat (by decide)]
  rfl

/-- `bits` on words. -/
theorem LowWord.low_whoBits (who : LStr) : L.low (whoBits B who) = whoBits wordBitwise who := by
  unfold whoBits
  split_ifs <;> simp (disch := decide) only [L.low_bor, List.map_cons, List.map_nil,
    L.low_ofNat] <;> rfl

/-- `bobs` on words. -/
theorem LowWord.low_whatBits (what : LStr) :
    L.low (whatBits B what) = whatBits wordBitwise what := by
  unfold whatBits
  split_ifs <;> simp (disch := decide) only [L.low_bor, List.map_cons, List.map_nil,
    L.low_ofNat] <;> rfl

/-- One clause on words. -/
theorem LowWord.low_mungeClause (mode : ν) (caps : List LStr) :
    L.low (mungeClause B mode caps).1 = (mungeClause wordBitwise (L.low mode) caps).1 := by
  unfold mungeClause
  split
  · simp only
    split_ifs <;> simp only [L.low_bor, L.low_band, L.low_bnot, L.low_whoBits, L.low_whatBits,
      List.map_cons, List.map_nil] <;> rfl
  · rfl

/-! ## Octal strings -/

/-- One round of `octal_mode`, in range. -/
theorem LowWord.octalModeStep_isOctal {c : Char} (hc : isOctal c) {a : Nat}
    (h : c.toNat - 48 + 8 * a < 2 ^ 51) :
    octalModeStep B (B.ofNat a) c = .ok (B.ofNat (c.toNat - 48 + 8 * a)) := by
  have hd : (BitVec.ofNat 64 (c.toNat - 48)).toNat = c.toNat - 48 := by
    rw [BitVec.toNat_ofNat, Nat.mod_eq_of_lt (by omega)]
  rw [octalModeStep, tonumber, l_str2int_digit (isDigit_of_isOctal hc)]
  simp only [hd]
  rw [L.octal (by omega), show a * 8 + (c.toNat - 48) = c.toNat - 48 + 8 * a by omega]

omit L in
/-- The value only grows with the digits. -/
theorem le_foldl_octal (s : LStr) (a : Nat) :
    a ≤ s.foldl (fun a c => c.toNat - 48 + 8 * a) a := by
  induction s generalizing a with
  | nil => exact Nat.le_refl a
  | cons c s ih => exact Nat.le_trans (by omega) (ih (c.toNat - 48 + 8 * a))

/-- The accumulator of `octal_mode` stays in range where the value is. -/
theorem LowWord.foldlM_octalModeStep {s : LStr} (hs : ∀ c ∈ s, isOctal c) {a : Nat}
    (h : s.foldl (fun a c => c.toNat - 48 + 8 * a) a < 2 ^ 51) :
    s.foldlM (octalModeStep B) (B.ofNat a)
      = .ok (B.ofNat (s.foldl (fun a c => c.toNat - 48 + 8 * a) a)) := by
  induction s generalizing a with
  | nil => rfl
  | cons c s ih =>
      have hle := le_foldl_octal s (c.toNat - 48 + 8 * a)
      rw [List.foldl_cons] at h
      rw [List.foldlM_cons, L.octalModeStep_isOctal (hs c (by simp)) (by omega)]
      exact ih (fun d hd => hs d (by simp [hd])) h

/-- `octal_mode` is exact below `2 ^ 51`. -/
theorem LowWord.octalMode_eq {s : LStr} (hs : ∀ c ∈ s, isOctal c) (h : octalValue s < 2 ^ 51) :
    octalMode B s = .ok (B.ofNat (octalValue s)) := by
  rw [octalValue_eq_foldl] at h
  rw [octalMode, L.foldlM_octalModeStep hs h, octalValue_eq_foldl]

end Words

/-- Words are their own low words. -/
def wordBitwise.words : LowWord wordBitwise where
  low w := w
  low_ofNat _ := rfl
  low_band a vs := by rw [List.map_id']; rfl
  low_bor a vs := by rw [List.map_id']; rfl
  low_bnot _ := rfl
  band_ofNat a {c} _ := by
    show a &&& BitVec.ofNat 32 c = BitVec.ofNat 32 (a &&& BitVec.ofNat 32 c).toNat
    rw [BitVec.ofNat_toNat, BitVec.setWidth_eq]
  bor_ofNat {a b c} _ _ _ := by
    show BitVec.ofNat 32 a ||| BitVec.ofNat 32 b ||| BitVec.ofNat 32 c = _
    rw [← BitVec.ofNat_or, ← BitVec.ofNat_or]
    rfl
  octal {a d} _ := by
    show BitVec.ofNat 32 a * BitVec.ofNat 32 8 + BitVec.ofNat 32 d = _
    rw [← BitVec.ofNat_mul, ← BitVec.ofNat_add]
    rfl

/-! ## `mode_munch` and `pushmode` -/

section Munch

variable {ν : Type} {B : Bitwise ν} (L : LowWord B)

include L

/-- **`mode_munch` commutes with the low word**, for every starting mode and every mode string
whose octal value the libraries can take. -/
theorem LowWord.low_modeMunch (mode : ν) {s : LStr} (hs : OctalInRange s) :
    (modeMunch B mode (some s)).map (Munched.map L.low)
      = modeMunch wordBitwise (L.low mode) (some s) := by
  by_cases hlong : s.length = 9 ∧ matched s "^[-rswx]+$"
  · simp only [modeMunch]
    rw [if_pos hlong, if_pos hlong, ← L.low_rwxrwxrwx]
    cases rwxrwxrwx B s <;> rfl
  · by_cases hoct : s ≠ [] ∧ ∀ c ∈ s, isOctal c
    · have hlt := hs hoct.2
      rw [modeMunch_octal B mode hoct.1 hoct.2, modeMunch_octal wordBitwise _ hoct.1 hoct.2,
        L.octalMode_eq hoct.2 hlt, wordBitwise.words.octalMode_eq hoct.2 hlt]
      show Except.ok (Munched.mode (L.low (B.ofNat (octalValue s)))) = _
      rw [L.low_ofNat hlt]
      rfl
    · have hoct' : ¬ matched s "^[0-7]+$" := fun h => hoct ((matched_octal s).mp h)
      simp only [modeMunch]
      rw [if_neg hlong, if_neg hlong, if_neg hoct', if_neg hoct']
      by_cases hguard : matched s clauseGuard
      · have hloop := gsubLoop_map (fun st caps => L.low_mungeClause st caps) (s.length + 1) s
          false mode (p := ⟨false, clauseItems⟩)
        rw [if_pos hguard, if_pos hguard, gsub, gsub, parse_clausePattern]
        simp only [Option.map_some, Except.map, Munched.map, hloop]
      · rw [if_neg hguard, if_neg hguard]
        rfl

/-- Constants below `2 ^ 32` are told apart from zero. -/
theorem LowWord.ofNat_eq_zero_iff {k : Nat} (hk : k < 2 ^ 32) : B.ofNat k = B.ofNat 0 ↔ k = 0 := by
  constructor
  · intro h
    have hlow := congrArg L.low h
    rw [L.low_ofNat (by omega), L.low_ofNat (by decide)] at hlow
    have hk' := congrArg BitVec.toNat hlow
    rwa [BitVec.toNat_ofNat, BitVec.toNat_ofNat, Nat.mod_eq_of_lt hk] at hk'
  · rintro rfl
    rfl

variable [DecidableEq ν]

/-- A bit of a mode is a bit of its low word. -/
theorem LowWord.testBits_eq (mode : ν) {b : Nat} (hb : b < 2 ^ 31) :
    testBits B mode b = decide ((L.low mode &&& BitVec.ofNat 32 b).toNat ≠ 0) := by
  have hiff := L.ofNat_eq_zero_iff (L.low mode &&& BitVec.ofNat 32 b).isLt
  rw [testBits, L.band_ofNat mode hb]
  simp only [ne_eq, hiff]

/-- **`pushmode` prints the low word.** -/
theorem LowWord.pushmode_eq (mode : ν) : pushmode B mode = pushmode wordBitwise (L.low mode) := by
  have hbit : ∀ {b : Nat}, b < 2 ^ 31 →
      testBits B mode b = testBits wordBitwise (L.low mode) b := by
    intro b hb
    rw [L.testBits_eq mode hb, wordBitwise.words.testBits_eq (L.low mode) hb]
    rfl
  simp (disch := decide) only [pushmode, MODE_MAP, List.map_cons, List.map_nil, hbit]

end Munch

/-! ## The bits under `RWXALL` -/

section Masked

variable {ν : Type} {B : Bitwise ν} (L : LowWord B)

include L

/-- `RWXALL` is a constant of each back-end. -/
theorem LowWord.RWXALL_eq : RWXALL B = B.ofNat 0o777 := by
  rw [RWXALL, L.bor_ofNat (by decide) (by decide) (by decide)]
  rfl

/-- The permission bits of a number. -/
def LowWord.rwx (mode : ν) : Nat := (L.low mode &&& 0o777#32).toNat

/-- A mode masked with `RWXALL` is its permission bits. -/
theorem LowWord.band_RWXALL (mode : ν) : B.band mode [RWXALL B] = B.ofNat (L.rwx mode) := by
  rw [L.RWXALL_eq, L.band_ofNat mode (by decide)]
  rfl

omit L in
/-- The permissions of a mode are nine bits. -/
theorem LowWord.rwx_lt (L : LowWord B) (mode : ν) : L.rwx mode < 512 := by
  rw [LowWord.rwx, BitVec.toNat_and]
  exact Nat.and_lt_two_pow (n := 9) _ (by decide)

end Masked

end LuaPosix

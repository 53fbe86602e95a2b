import LuaPosix.Compat.LowWord

/-! # `posix.umask`

The file mode creation mask can only be read by setting it. `umask` sets it to zero and back,
edits the complement of what it read by the mode string, and stores the complement of the
result; the string language speaks of the modes a new file may have, the mask of those it may
not have. The results hold for every back-end, by the low word of its numbers. -/

namespace LuaPosix

open LuaPattern

/-- The complement of a mask within `0777`. -/
def rwxCompl (u : Nat) : Nat := 0o777 ^^^ u

/-- The complement of nine bits is nine bits. -/
theorem rwxCompl_lt {u : Nat} (hu : u < 512) : rwxCompl u < 512 :=
  Nat.xor_lt_two_pow (n := 9) (by decide) hu

/-- Complemented twice, they are what they were. -/
@[simp] theorem rwxCompl_rwxCompl (u : Nat) : rwxCompl (rwxCompl u) = u := by
  rw [rwxCompl, rwxCompl, ← Nat.xor_assoc, Nat.xor_self, Nat.zero_xor]

/-! ## Masks as numbers -/

section Masks

variable {ν : Type} {B : Bitwise ν} (L : LowWord B)

include L

/-- A mask is its own permission bits. -/
theorem LowWord.rwx_ofNat {u : Nat} (hu : u < 512) : L.rwx (B.ofNat u) = u := by
  rw [LowWord.rwx, L.low_ofNat (by omega), BitVec.toNat_and, BitVec.toNat_ofNat,
    Nat.mod_eq_of_lt (by omega)]
  exact Nat.and_two_pow_sub_one_of_lt_two_pow (n := 9) hu

/-- Complementing a number complements its permission bits. -/
theorem LowWord.rwx_bnot (mode : ν) : L.rwx (B.bnot mode) = rwxCompl (L.rwx mode) := by
  have hxor : ∀ w : BitVec 32, ~~~w &&& 0o777#32 = 0o777#32 ^^^ (w &&& 0o777#32) := by
    intro w
    apply BitVec.eq_of_getLsbD_eq
    intro i hi
    rw [BitVec.getLsbD_and, BitVec.getLsbD_not, BitVec.getLsbD_xor, BitVec.getLsbD_and,
      decide_eq_true hi]
    cases w.getLsbD i <;> cases (0o777#32).getLsbD i <;> rfl
  rw [LowWord.rwx, L.low_bnot, hxor, BitVec.toNat_xor]
  rfl

/-- The mask of a process is what the kernel keeps of it. -/
theorem LowWord.band_ofNat_RWXALL {u : Nat} (hu : u < 512) :
    B.band (B.ofNat u) [RWXALL B] = B.ofNat u := by
  rw [L.band_RWXALL, L.rwx_ofNat hu]

/-- The starting mode of `umask`. -/
theorem LowWord.band_bnot_RWXALL {u : Nat} (hu : u < 512) :
    B.band (B.bnot (B.ofNat u)) [RWXALL B] = B.ofNat (rwxCompl u) := by
  rw [L.band_RWXALL, L.rwx_bnot, L.rwx_ofNat hu]

end Masks

/-! ## Reading a printed mask -/

/-- A printed mode is not an octal string. -/
theorem octalInRange_pushmode (m : LuaInteger) : OctalInRange (pushmode posixBitwise m) := by
  intro hoct
  have hfirst := hoct (plainChar 'r' (hasBit m S_IRUSR)) (by rw [pushmode_eq]; simp)
  cases hbit : hasBit m S_IRUSR <;> rw [hbit] at hfirst <;> cases hfirst

/-- A mask has no set-id bits. -/
theorem setidCovered_of_lt {p : Nat} (hp : p < 512) : SetidCovered (BitVec.ofNat 64 p) := by
  have hclear : ∀ {b k : Nat}, BitVec.ofNat 64 b = BitVec.twoPow 64 k → 9 ≤ k →
      hasBit (BitVec.ofNat 64 p) b = false := by
    intro b k hb hk
    have hlt : p < 2 ^ k :=
      Nat.lt_of_lt_of_le (show p < 2 ^ 9 from hp) (Nat.pow_le_pow_right (by decide) hk)
    have hbit : (BitVec.ofNat 64 p).getLsbD k = false := by
      rw [BitVec.getLsbD_ofNat, Nat.testBit_lt_two_pow hlt, Bool.and_false]
    simp only [hasBit, testBits, posixBitwise_band, posixBitwise_ofNat, List.foldl_cons,
      List.foldl_nil, hb, BitVec.and_twoPow, hbit]
    rfl
  constructor
  · rw [hclear (b := S_ISUID) (k := 11) (by decide) (by decide)]
    exact fun h => absurd h Bool.false_ne_true
  · rw [hclear (b := S_ISGID) (k := 10) (by decide) (by decide)]
    exact fun h => absurd h Bool.false_ne_true

section Printed

variable {ν : Type} [DecidableEq ν] {B : Bitwise ν} (L : LowWord B)

include L

/-- Permission bits print alike on every back-end. -/
theorem LowWord.pushmode_ofNat {p : Nat} (hp : p < 512) :
    pushmode B (B.ofNat p) = pushmode posixBitwise (BitVec.ofNat 64 p) := by
  rw [L.pushmode_eq, posixBitwise.words.pushmode_eq, L.low_ofNat (by omega)]
  show _ = pushmode wordBitwise (posixBitwise.words.low (posixBitwise.ofNat p))
  rw [posixBitwise.words.low_ofNat (by omega)]

/-- **Permission bits read back from their printed form**, on every back-end. -/
theorem LowWord.modeMunch_pushmode {p : Nat} (hp : p < 512) (mode : ν) :
    ∃ bits, modeMunch B mode (some (pushmode B (B.ofNat p))) = .ok (.mode bits) ∧
      L.rwx bits = p := by
  have htext := L.pushmode_ofNat hp
  have hrange := octalInRange_pushmode (BitVec.ofNat 64 p)
  have hread := (modeMunch_pushmode_iff (BitVec.ofNat 64 p)).mpr (setidCovered_of_lt hp)
  -- Both back-ends read the text as words do.
  have hword := posixBitwise.words.low_modeMunch (BitVec.setWidth 64 (L.low mode)) hrange
  have hlow := L.low_modeMunch mode hrange
  have hsame : posixBitwise.words.low (BitVec.setWidth 64 (L.low mode)) = L.low mode := by
    rw [posixBitwise_low, BitVec.setWidth_setWidth_of_le _ (by decide), BitVec.setWidth_eq]
  rw [hread, hsame, ← hlow] at hword
  rw [htext]
  obtain ⟨hacc, bits, hbits⟩ | ⟨-, err, herr⟩ :=
    modeMunch_decided B mode (pushmode posixBitwise (BitVec.ofNat 64 p))
  · refine ⟨bits, hbits, ?_⟩
    rw [hbits] at hword
    have hbits' : BitVec.setWidth 32 (BitVec.ofNat 64 p &&& longhandMask) = L.low bits :=
      Munched.mode.inj (Except.ok.inj hword)
    rw [LowWord.rwx, ← hbits', BitVec.setWidth_and, BitVec.and_assoc,
      show BitVec.setWidth 32 longhandMask &&& 0o777#32 = 0o777#32 by decide,
      BitVec.setWidth_ofNat_of_le (by decide)]
    exact wordBitwise.words.rwx_ofNat hp
  · rw [herr] at hword
    cases hword

end Printed

/-! ## Running `umask` -/

section Runs

variable {ν : Type} [DecidableEq ν] {B : Bitwise ν} (L : LowWord B)

include L

/-- Without a mode string the mask is read and put back. -/
theorem LowWord.exec_umask_query {u : Nat} (hu : u < 512) (calls : List (Syscall ν))
    {modestr : Option LStr} (h : modestr.getD [] = []) :
    exec (umask B modestr) ⟨B.ofNat u, calls⟩
      = (.ok (pushmode B (B.ofNat (rwxCompl u))),
          ⟨B.ofNat u, calls ++ [.umask (B.ofNat 0), .umask (B.ofNat u)]⟩) := by
  simp only [umask, exec_bind, exec_sysUmask, h, ne_eq, not_true_eq_false, if_false, exec_pure,
    L.band_bnot_RWXALL hu, L.band_ofNat_RWXALL hu, List.append_assoc, List.singleton_append]

/-- With an accepted mode string the complement of its permission bits is stored. -/
theorem LowWord.exec_umask_accepted {u : Nat} (hu : u < 512) (calls : List (Syscall ν)) {s : LStr}
    {bits : ν} (hne : s ≠ []) (h : modeMunch B (B.ofNat (rwxCompl u)) (some s) = .ok (.mode bits)) :
    exec (umask B (some s)) ⟨B.ofNat u, calls⟩
      = (.ok (pushmode B (B.ofNat (L.rwx bits))),
          ⟨B.ofNat (rwxCompl (L.rwx bits)), calls ++ [.umask (B.ofNat 0), .umask (B.ofNat u),
            .umask (B.bnot (B.ofNat (L.rwx bits)))]⟩) := by
  have hmunch : munchOrRaise B "umask" 1 (B.ofNat (rwxCompl u)) (some s) = pure bits := by
    rw [munchOrRaise, h]
  simp only [umask, exec_bind, exec_sysUmask, Option.getD_some, if_pos hne, exec_pure, hmunch,
    L.band_bnot_RWXALL hu, L.band_ofNat_RWXALL hu, L.band_RWXALL bits,
    L.band_bnot_RWXALL (L.rwx_lt bits), List.append_assoc, List.singleton_append]
  rfl

/-- With a rejected mode string the mask is put back before the error. -/
theorem LowWord.exec_umask_rejected {u : Nat} (hu : u < 512) (calls : List (Syscall ν)) {s : LStr}
    {err : Option String} (hne : s ≠ [])
    (h : modeMunch B (B.ofNat (rwxCompl u)) (some s) = .ok (.bad err)) :
    exec (umask B (some s)) ⟨B.ofNat u, calls⟩
      = (.error (argerror "umask" 1 err),
          ⟨B.ofNat u, calls ++ [.umask (B.ofNat 0), .umask (B.ofNat u)]⟩) := by
  simp only [umask, exec_bind, exec_sysUmask, Option.getD_some, if_pos hne, exec_throw,
    munchOrRaise_bad B h, L.band_bnot_RWXALL hu, L.band_ofNat_RWXALL hu, List.append_assoc,
    List.singleton_append]

/-- A printed mask is a mode string, not the empty one. -/
theorem LowWord.pushmode_ne_nil {p : Nat} (hp : p < 512) : pushmode B (B.ofNat p) ≠ [] := by
  rw [L.pushmode_ofNat hp, LuaPosix.pushmode_eq]
  exact List.cons_ne_nil _ _

end Runs

/-! ## The contract -/

/-- What `umask` does in a process with the mask `u`, by its argument. -/
structure UmaskContract (b : Backend) (u : Nat) (calls : List (Syscall b.ν)) : Prop where
  /-- No argument or the empty string: the mask stays, its complement is printed. -/
  query : ∀ modestr, modestr = none ∨ modestr = some [] →
    (exec (umask b.B modestr) ⟨b.B.ofNat u, calls⟩).1
        = .ok (pushmode b.B (b.B.ofNat (rwxCompl u))) ∧
      (exec (umask b.B modestr) ⟨b.B.ofNat u, calls⟩).2.mask = b.B.ofNat u
  /-- A string `mode_munch` rejects: an error, and the mask stays. -/
  rejected : ∀ s, s ≠ [] →
    (∀ bits, modeMunch b.B (b.B.ofNat (rwxCompl u)) (some s) ≠ .ok (.mode bits)) →
    (∃ e, (exec (umask b.B (some s)) ⟨b.B.ofNat u, calls⟩).1 = .error e) ∧
      (exec (umask b.B (some s)) ⟨b.B.ofNat u, calls⟩).2.mask = b.B.ofNat u
  /-- An accepted string: the complement of its permission bits is the new mask, and they are
  printed. -/
  accepted : ∀ s bits, s ≠ [] →
    modeMunch b.B (b.B.ofNat (rwxCompl u)) (some s) = .ok (.mode bits) →
    (exec (umask b.B (some s)) ⟨b.B.ofNat u, calls⟩).1
        = .ok (pushmode b.B (b.B.ofNat (b.words.rwx bits))) ∧
      (exec (umask b.B (some s)) ⟨b.B.ofNat u, calls⟩).2.mask
        = b.B.ofNat (rwxCompl (b.words.rwx bits))
  /-- `umask(umask())` leaves the mask. -/
  roundTrip : ∃ printed, (exec (umask b.B none) ⟨b.B.ofNat u, calls⟩).1 = .ok printed ∧
    (exec (umask b.B (some printed)) (exec (umask b.B none) ⟨b.B.ofNat u, calls⟩).2).2.mask
      = b.B.ofNat u

/-- **`umask` reads and updates the mask**, on every back-end and from every mask. -/
theorem umask_contract (b : Backend) {u : Nat} (hu : u < 0o1000) (calls : List (Syscall b.ν)) :
    UmaskContract b u calls where
  query := by
    intro modestr h
    have hnil : modestr.getD [] = [] := by
      rcases h with rfl | rfl <;> rfl
    rw [b.words.exec_umask_query hu calls hnil]
    exact ⟨rfl, rfl⟩
  rejected := by
    intro s hne hrej
    obtain ⟨-, bits, hbits⟩ | ⟨-, err, herr⟩ :=
      modeMunch_decided b.B (b.B.ofNat (rwxCompl u)) s
    · exact absurd hbits (hrej bits)
    · rw [b.words.exec_umask_rejected hu calls hne herr]
      exact ⟨⟨_, rfl⟩, rfl⟩
  accepted := by
    intro s bits hne h
    rw [b.words.exec_umask_accepted hu calls hne h]
    exact ⟨rfl, rfl⟩
  roundTrip := by
    obtain ⟨bits, hbits, hrwx⟩ := b.words.modeMunch_pushmode (rwxCompl_lt hu)
      (b.B.ofNat (rwxCompl u))
    have hne := b.words.pushmode_ne_nil (rwxCompl_lt hu)
    refine ⟨pushmode b.B (b.B.ofNat (rwxCompl u)), ?_, ?_⟩
    · rw [b.words.exec_umask_query hu calls rfl]
    · rw [b.words.exec_umask_query hu calls rfl, b.words.exec_umask_accepted hu _ hne hbits, hrwx,
        rwxCompl_rwxCompl]

/-- The usual mask `022`, on 64-bit integers. -/
theorem umask_contract_022 : UmaskContract Backend.bitwise 0o022 [] :=
  umask_contract Backend.bitwise (by decide) []

example : exec (umask posixBitwise (some "o-x".toList)) ⟨0o022, []⟩
    = (.ok "rwxr-xr--".toList, ⟨0o023, [.umask 0, .umask 0o022, .umask (~~~0o754)]⟩) := by
  decide

end LuaPosix

import LuaPosix.Compat.Umask

/-! # The back-ends agree

Only one back-end runs under any one interpreter. What the mode functions show of it (the
permission bits of a munched mode, the mask and the text of `umask`, a printed mode) is the same
under all three, since it is read from the low word. -/

namespace LuaPosix

open LuaPattern

namespace Backend

variable (b : Backend)

/-! ## What can be seen of a back-end -/

/-- `band(mode_munch(m, s), RWXALL)`. -/
def munchMasked (m : Nat) (s : LStr) : LuaM (Munched Int) :=
  (modeMunch b.B (b.B.ofNat m) (some s)).map
    (Munched.map fun bits => b.value (b.B.band bits [RWXALL b.B]))

/-- `umask(s)` in a process with the mask `u`: what it returns and the mask afterwards. -/
def umaskAt (u : Nat) (s : LStr) : Except LuaError LStr × Int :=
  ((exec (umask b.B (some s)) ⟨b.B.ofNat u, []⟩).1,
    b.value (exec (umask b.B (some s)) ⟨b.B.ofNat u, []⟩).2.mask)

/-- `pushmode(m)`. -/
def printed (m : Nat) : LStr := pushmode b.B (b.B.ofNat m)

/-- Two back-ends treat a mode string alike, from every mode and every mask. -/
structure Agree (b b' : Backend) (s : LStr) : Prop where
  munchMasked : ∀ m, m < 2 ^ 31 → b.munchMasked m s = b'.munchMasked m s
  umaskAt : ∀ u, u < 0o1000 → b.umaskAt u s = b'.umaskAt u s
  printed : ∀ m, m < 2 ^ 31 → b.printed m = b'.printed m

/-! ## Read from the low word -/

/-- The integer a masked mode is. -/
theorem value_band_RWXALL (mode : b.ν) :
    b.value (b.B.band mode [RWXALL b.B]) = b.words.rwx mode := by
  have hlt := b.words.rwx_lt mode
  rw [b.words.band_RWXALL, b.value_ofNat (by omega)]

/-- The permission bits of a munched mode are those of the munched word. -/
theorem munchMasked_eq {m : Nat} (hm : m < 2 ^ 31) {s : LStr} (hs : OctalInRange s) :
    b.munchMasked m s = (modeMunch wordBitwise (BitVec.ofNat 32 m) (some s)).map
      (Munched.map fun w => ((w &&& 0o777#32).toNat : Int)) := by
  have hword := b.words.low_modeMunch (b.B.ofNat m) hs
  rw [b.words.low_ofNat (by omega)] at hword
  rw [munchMasked, ← hword]
  obtain ⟨-, bits, hbits⟩ | ⟨-, err, herr⟩ := modeMunch_decided b.B (b.B.ofNat m) s
  · rw [hbits]
    show Except.ok (Munched.mode (b.value (b.B.band bits [RWXALL b.B]))) = _
    rw [value_band_RWXALL]
    rfl
  · rw [herr]
    rfl

/-- What a back-end prints of a mode is what is printed of its word. -/
theorem printed_eq {m : Nat} (hm : m < 2 ^ 31) :
    b.printed m = pushmode wordBitwise (BitVec.ofNat 32 m) := by
  rw [printed, b.words.pushmode_eq, b.words.low_ofNat (by omega)]

/-- The empty string only prints. -/
theorem umaskAt_nil {u : Nat} (hu : u < 512) :
    b.umaskAt u [] = (Except.ok (b.printed (rwxCompl u)), (u : Int)) := by
  rw [umaskAt, b.words.exec_umask_query hu [] rfl, printed, b.value_ofNat (by omega)]

/-- An accepted string, by the bits it is munched to. -/
theorem umaskAt_accepted {u : Nat} (hu : u < 512) {s : LStr} (hne : s ≠ []) {bits : b.ν}
    (h : modeMunch b.B (b.B.ofNat (rwxCompl u)) (some s) = .ok (.mode bits)) :
    b.umaskAt u s
      = (Except.ok (b.printed (b.words.rwx bits)), (rwxCompl (b.words.rwx bits) : Int)) := by
  have hlt := rwxCompl_lt (b.words.rwx_lt bits)
  rw [umaskAt, b.words.exec_umask_accepted hu [] hne h, printed, b.value_ofNat (by omega)]

/-- A rejected string, by its error text. -/
theorem umaskAt_rejected {u : Nat} (hu : u < 512) {s : LStr} (hne : s ≠ []) {err : Option String}
    (h : modeMunch b.B (b.B.ofNat (rwxCompl u)) (some s) = .ok (.bad err)) :
    b.umaskAt u s = (Except.error (argerror "umask" 1 err), (u : Int)) := by
  rw [umaskAt, b.words.exec_umask_rejected hu [] hne h, b.value_ofNat (by omega)]

variable {b} {b' : Backend}

/-- **Any two back-ends agree** on every mode string whose octal value they can take. -/
theorem agree {s : LStr} (hs : OctalInRange s) : Agree b b' s where
  munchMasked := by
    intro m hm
    rw [munchMasked_eq b hm hs, munchMasked_eq b' hm hs]
  printed := by
    intro m hm
    rw [printed_eq b hm, printed_eq b' hm]
  umaskAt := by
    intro u hu
    have hcompl := rwxCompl_lt hu
    have hprinted : ∀ {p : Nat}, p < 512 → b.printed p = b'.printed p := by
      intro p hp
      rw [printed_eq b (by omega), printed_eq b' (by omega)]
    by_cases hne : s = []
    · rw [hne, umaskAt_nil b hu, umaskAt_nil b' hu, hprinted hcompl]
    -- Both munch the same word, so both accept or both reject.
    have hsame := b.words.low_modeMunch (b.B.ofNat (rwxCompl u)) hs
    rw [b.words.low_ofNat (by omega), ← b'.words.low_ofNat (n := rwxCompl u) (by omega),
      ← b'.words.low_modeMunch (b'.B.ofNat (rwxCompl u)) hs] at hsame
    obtain ⟨-, bits, hbits⟩ | ⟨-, err, herr⟩ :=
      modeMunch_decided b.B (b.B.ofNat (rwxCompl u)) s
    · obtain ⟨-, bits', hbits'⟩ | ⟨-, err', herr'⟩ :=
        modeMunch_decided b'.B (b'.B.ofNat (rwxCompl u)) s
      · rw [hbits, hbits'] at hsame
        have hlow : b.words.low bits = b'.words.low bits' :=
          Munched.mode.inj (Except.ok.inj hsame)
        have hrwx : b.words.rwx bits = b'.words.rwx bits' := by
          rw [LowWord.rwx, LowWord.rwx, hlow]
        rw [umaskAt_accepted b hu hne hbits, umaskAt_accepted b' hu hne hbits', ← hrwx,
          hprinted (b.words.rwx_lt bits)]
      · rw [hbits, herr'] at hsame
        cases hsame
    · obtain ⟨-, bits', hbits'⟩ | ⟨-, err', herr'⟩ :=
        modeMunch_decided b'.B (b'.B.ofNat (rwxCompl u)) s
      · rw [herr, hbits'] at hsame
        cases hsame
      · rw [herr, herr'] at hsame
        have herrs : err = err' := Munched.bad.inj (Except.ok.inj hsame)
        rw [umaskAt_rejected b hu hne herr, umaskAt_rejected b' hu hne herr', herrs]

end Backend

/-! ## The three of them -/

/-- **The three back-ends give the same file modes**: `bit32` and `bit` agree with the 64-bit
operators on every mode string whose octal value is below `2 ^ 51`. -/
theorem backends_agree (D : Doubles) {s : LStr} (hs : OctalInRange s) :
    Backend.Agree Backend.bitwise (Backend.bit32 D) s ∧
      Backend.Agree Backend.bitwise (Backend.bit D) s :=
  ⟨Backend.agree hs, Backend.agree hs⟩

/-- Doubles that never round, whose word is always their low 32 bits. -/
def Doubles.ideal : Doubles where
  round n := n
  round_exact _ _ := rfl
  word := BitVec.ofInt 32
  word_exact _ _ _ := rfl

/-- An octal string with set-id bits. -/
theorem backends_agree_4750 :
    Backend.Agree Backend.bitwise (Backend.bit32 Doubles.ideal) "4750".toList ∧
      Backend.Agree Backend.bitwise (Backend.bit Doubles.ideal) "4750".toList :=
  backends_agree Doubles.ideal (s := "4750".toList) fun _ => by decide

example : (LuaPosix.bit32 Doubles.ideal).bnot 0o22 = 4294967277 ∧
    (LuaPosix.bit Doubles.ideal).bnot 0o22 = -19 := by decide

end LuaPosix

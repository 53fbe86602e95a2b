import LuaPosix.Compat.ModeAccepted

/-! # Printing a mode and reading it back

`pushmode` lays the set-id bits over the execute letters: `s` where execute is set as well and
`S` where it is not. `mode_munch` knows `s` but not `S`, so the mode string of `stat` or `umask`
reads back exactly where no set-id bit stands without its execute bit. -/

namespace LuaPosix

open LuaPattern

/-- `band(m, b) ~= 0` on 64-bit integers. -/
abbrev hasBit (m : LuaInteger) (b : Nat) : Bool := testBits posixBitwise m b

/-! ## The printed letters -/

/-- The letter at an execute position: `S` marks a set-id bit without execute. -/
def execChar (m : LuaInteger) (setid exec : Nat) : Char :=
  if hasBit m setid then if hasBit m exec then 's' else 'S' else plainChar 'x' (hasBit m exec)

/-- `pushmode`, letter by letter. -/
theorem pushmode_eq (m : LuaInteger) :
    pushmode posixBitwise m =
      [plainChar 'r' (hasBit m S_IRUSR), plainChar 'w' (hasBit m S_IWUSR),
       execChar m S_ISUID S_IXUSR,
       plainChar 'r' (hasBit m S_IRGRP), plainChar 'w' (hasBit m S_IWGRP),
       execChar m S_ISGID S_IXGRP,
       plainChar 'r' (hasBit m S_IROTH), plainChar 'w' (hasBit m S_IWOTH),
       plainChar 'x' (hasBit m S_IXOTH)] := by
  unfold pushmode execChar
  split_ifs <;> rfl

/-- No set-id bit stands without its execute bit. -/
def SetidCovered (m : LuaInteger) : Prop :=
  (hasBit m S_ISUID → hasBit m S_IXUSR) ∧ (hasBit m S_ISGID → hasBit m S_IXGRP)

/-- The execute position of a longhand. -/
def printedExec (m : LuaInteger) (setid exec : Nat) : Exec :=
  if hasBit m setid then .s else if hasBit m exec then .x else .none

/-- The longhand of a mode. -/
def printed (m : LuaInteger) : Longhand where
  ur := hasBit m S_IRUSR
  uw := hasBit m S_IWUSR
  ux := printedExec m S_ISUID S_IXUSR
  gr := hasBit m S_IRGRP
  gw := hasBit m S_IWGRP
  gx := printedExec m S_ISGID S_IXGRP
  or := hasBit m S_IROTH
  ow := hasBit m S_IWOTH
  ox := hasBit m S_IXOTH

/-- The character for a place of execution, where a set-id bit comes with the permission. -/
theorem execChar_eq {m : LuaInteger} {setid exec : Nat} (h : hasBit m setid → hasBit m exec) :
    execChar m setid exec = (printedExec m setid exec).char := by
  unfold execChar printedExec
  split_ifs with hs hx hx
  · rfl
  · exact absurd (h hs) hx
  · rw [hx]
    rfl
  · rw [Bool.eq_false_iff.mpr hx]
    rfl

/-- Where the set-id bits are covered, the printed mode is a longhand. -/
theorem pushmode_eq_text {m : LuaInteger} (h : SetidCovered m) :
    pushmode posixBitwise m = (printed m).text := by
  rw [pushmode_eq, execChar_eq h.1, execChar_eq h.2]
  rfl

/-! ## The bits of the printed longhand -/

/-- The bits a longhand can name: set-id and permissions. -/
def longhandMask : LuaInteger := BitVec.ofNat 64 (S_ISUID ||| S_ISGID ||| 0o777)

/-- A one-bit constant takes its bit out of a mode. -/
theorem and_ofNat_eq {b k : Nat} (hb : BitVec.ofNat 64 b = BitVec.twoPow 64 k)
    (hne : BitVec.ofNat 64 b ≠ 0) (m : LuaInteger) :
    m &&& BitVec.ofNat 64 b = if hasBit m b then BitVec.ofNat 64 b else 0 := by
  have hand : m &&& BitVec.ofNat 64 b = if m.getLsbD k then BitVec.ofNat 64 b else 0 := by
    rw [hb, BitVec.and_twoPow]
    rfl
  have hbit : hasBit m b = m.getLsbD k := by
    simp only [hasBit, testBits, posixBitwise_band, posixBitwise_ofNat, List.foldl_cons,
      List.foldl_nil, hand]
    cases m.getLsbD k with
    | true => simpa using hne
    | false => simp
  rw [hand, hbit]

/-- A plain position stands for its bit of the mode. -/
theorem plainBits_hasBit {b k : Nat} (hb : BitVec.ofNat 64 b = BitVec.twoPow 64 k)
    (hne : BitVec.ofNat 64 b ≠ 0) (m : LuaInteger) :
    plainBits b (hasBit m b) = m &&& BitVec.ofNat 64 b := by
  rw [and_ofNat_eq hb hne, plainBits]

/-- An execute position stands for its two bits of the mode. -/
theorem printedExec_bits {s x k l : Nat} (hs : BitVec.ofNat 64 s = BitVec.twoPow 64 k)
    (hs0 : BitVec.ofNat 64 s ≠ 0) (hx : BitVec.ofNat 64 x = BitVec.twoPow 64 l)
    (hx0 : BitVec.ofNat 64 x ≠ 0) {m : LuaInteger} (h : hasBit m s → hasBit m x) :
    (printedExec m s x).bits s x = m &&& (BitVec.ofNat 64 s ||| BitVec.ofNat 64 x) := by
  rw [BitVec.and_or_distrib_left, and_ofNat_eq hs hs0, and_ofNat_eq hx hx0, printedExec]
  -- Four cases of the two bits, of which set-id without execute is ruled out.
  split_ifs with hsm hxm hxm
  · rfl
  · exact absurd (h hsm) hxm
  · simp [Exec.bits]
  · simp [Exec.bits]

/-- The printed longhand names the set-id and permission bits of the mode. -/
theorem printed_bits {m : LuaInteger} (h : SetidCovered m) :
    (printed m).bits = m &&& longhandMask := by
  simp only [Longhand.bits, printed]
  rw [plainBits_hasBit (b := S_IRUSR) (k := 8) (by decide) (by decide),
    plainBits_hasBit (b := S_IWUSR) (k := 7) (by decide) (by decide),
    printedExec_bits (k := 11) (l := 6) (by decide) (by decide) (by decide) (by decide) h.1,
    plainBits_hasBit (b := S_IRGRP) (k := 5) (by decide) (by decide),
    plainBits_hasBit (b := S_IWGRP) (k := 4) (by decide) (by decide),
    printedExec_bits (k := 10) (l := 3) (by decide) (by decide) (by decide) (by decide) h.2,
    plainBits_hasBit (b := S_IROTH) (k := 2) (by decide) (by decide),
    plainBits_hasBit (b := S_IWOTH) (k := 1) (by decide) (by decide),
    plainBits_hasBit (b := S_IXOTH) (k := 0) (by decide) (by decide)]
  simp only [← BitVec.and_or_distrib_left]
  rfl

/-! ## The letter nobody reads -/

/-- An uncovered set-id bit prints an `S`. -/
theorem mem_S_of_not_setidCovered {m : LuaInteger} (h : ¬ SetidCovered m) :
    'S' ∈ pushmode posixBitwise m := by
  have hS : ∀ {setid exec : Nat}, ¬ (hasBit m setid → hasBit m exec) →
      execChar m setid exec = 'S' := by
    intro setid exec hne
    obtain ⟨hs, hx⟩ := Classical.not_imp.mp hne
    rw [execChar, if_pos hs, if_neg hx]
  rw [pushmode_eq]
  rcases not_and_or.mp h with hu | hg
  · simp [hS hu]
  · simp [hS hg]

/-- An `S` is not read. -/
theorem not_accepted_of_mem_S {m : LuaInteger} (h : 'S' ∈ pushmode posixBitwise m) :
    ¬ Accepted (pushmode posixBitwise m) := by
  rintro (hlong | ⟨-, hoct⟩ | hguard)
  · exact absurd (hlong.letters _ h) (by decide)
  · exact absurd (hoct _ h) (by decide)
  · obtain ⟨w, t, hw⟩ := exists_cons_of_clauseGuard hguard
    have hfirst : plainChar 'r' (hasBit m S_IRUSR) = w.char := by
      rw [pushmode_eq] at hw
      exact (List.cons.inj hw).1
    have hw := isLonghandLetter_who w
    rw [← hfirst] at hw
    -- The printed mode starts with a longhand letter, a clause list with a class letter.
    cases hbit : hasBit m S_IRUSR <;> rw [hbit] at hw <;> cases hw

/-- **Printing a mode and reading it back**, for every mode and every starting mode: it yields
the set-id and permission bits where no set-id bit stands without its execute bit, and only
there. -/
theorem modeMunch_pushmode_iff (m : LuaInteger) :
    (∀ b, modeMunch posixBitwise b (some (pushmode posixBitwise m))
      = .ok (.mode (m &&& longhandMask))) ↔ SetidCovered m := by
  constructor
  · intro h
    by_contra hm
    obtain ⟨err, herr⟩ := modeMunch_rejects posixBitwise 0
      (not_accepted_of_mem_S (mem_S_of_not_setidCovered hm))
    rw [h 0] at herr
    cases herr
  · intro h b
    rw [pushmode_eq_text h, modeMunch_text_longhand, printed_bits h]

/-- A regular file with set-uid and no execute bit prints as `rwSr--r--`, a bad mode. -/
theorem modeMunch_pushmode_rwSr :
    pushmode posixBitwise 0o104644 = "rwSr--r--".toList ∧
    modeMunch posixBitwise 0 (some (pushmode posixBitwise 0o104644))
      = .ok (.bad (some "bad mode")) := by
  decide

end LuaPosix

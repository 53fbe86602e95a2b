import LuaPosix.Compat.Calls
import LuaPosix.Compat.ClauseBits
import LuaPosix.Compat.ModeMeaning
import Mathlib.Data.Nat.Digits.Lemmas

/-! # The bits `chmod` passes to the system

`chmod` reads the mode of the file, edits it by the mode string and masks the result with
`RWXALL`, the nine permission bits. What the mode string selects and what it leaves alone is
right bit by bit; the mask then drops set-id and sticky bits whether the string asked for them
or the file had them. -/

namespace LuaPosix

open LuaPattern MaskEdit

/-! ## The set-id bits of a clause -/

/-- Whether a clause selects the set-id bit of a class. -/
def Clause.selects (w : Who) (c : Clause) : Bool := w ∈ c.who ∨ .a ∈ c.who

/-- What a clause settles the set-id bit of a class to, if it is about that bit: `s` sets or
clears it, and `=` without `s` clears it. -/
def Clause.settles (w : Who) (c : Clause) : Option Bool :=
  if c.selects w then
    if .s ∈ c.what then some (c.op ≠ .remove)
    else if c.op = .assign then some false
    else none
  else none

/-- The set-id bit of a class after a list of clauses: the last clause that settles it decides,
and a bit that none settles is the file's. -/
def setidAfter (w : Who) (k : Nat) (m : LuaInteger) (cs : ClauseList) : Bool :=
  (cs.clauses.reverse.findSome? (Clause.settles w)).getD (m.getLsbD k)

/-- A class mask holds the set-id bit of its class. -/
theorem sel_setid {w : Who} {k : Nat}
    (h : ∀ v : Who, v.mask.getLsbD k = (v == w || v == .a)) (c : Clause) :
    c.sel.getLsbD k = c.selects w := by
  rw [Clause.sel, getLsbD_foldr_or, Clause.selects, Bool.eq_iff_iff]
  simp only [h, List.any_eq_true, Bool.or_eq_true, beq_iff_eq, decide_eq_true_eq]
  constructor
  · rintro ⟨v, hv, rfl | rfl⟩
    · exact .inl hv
    · exact .inr hv
  · rintro (hw | ha)
    · exact ⟨w, hw, .inl rfl⟩
    · exact ⟨.a, ha, .inr rfl⟩

/-- A set-id bit is in the value of a clause where `s` is among its permissions. -/
theorem val_setid {k : Nat} (h : ∀ p : Perm, p.mask.getLsbD k = (p == .s)) (c : Clause) :
    c.val.getLsbD k = decide (.s ∈ c.what) := by
  rw [Clause.val, getLsbD_foldr_or, Bool.eq_iff_iff]
  simp [h]

/-- The set-id bit of a class, bit `k`, after a list of clauses. -/
theorem foldl_apply_setid {w : Who} {k : Nat} (hk : k < 64)
    (hwho : ∀ v : Who, v.mask.getLsbD k = (v == w || v == .a))
    (hperm : ∀ p : Perm, p.mask.getLsbD k = (p == .s)) (m : LuaInteger) (cs : ClauseList) :
    (cs.clauses.foldl Clause.apply m).getLsbD k = setidAfter w k m cs := by
  -- On this bit the edit of a clause is what the clause settles.
  have hsettle : ∀ c : Clause, (c.bitEdit k).settle = c.settles w := by
    intro c
    rw [Clause.bitEdit, Edit.settle, sel_setid hwho, val_setid hperm, Clause.settles]
    simp
  rw [foldl_apply_getLsbD m cs.clauses hk, applyAll_bool, settled, ← List.map_reverse,
    List.findSome?_map, setidAfter]
  congr 2
  funext c
  exact hsettle c

/-- No clause selects the sticky bit. -/
theorem sel_sticky (c : Clause) : c.sel.getLsbD 9 = false := by
  have hwho : ∀ w : Who, w.mask.getLsbD 9 = false := by
    intro w
    cases w <;> decide
  rw [Clause.sel, getLsbD_foldr_or, List.any_eq_false]
  intro w _
  rw [hwho w]
  exact Bool.false_ne_true

/-! ## Longhand and octal bit by bit -/

/-- A bit that is not in the mask of a letter is not set by it. -/
theorem plainBits_getLsbD {b k : Nat} (h : (BitVec.ofNat 64 b).getLsbD k = false) (on : Bool) :
    (plainBits b on).getLsbD k = false := by
  cases on with
  | true => exact h
  | false => exact BitVec.getLsbD_zero

/-- A set-id bit comes from the letter `s` only. -/
theorem Exec.bits_getLsbD {s x k : Nat} (hx : (BitVec.ofNat 64 x).getLsbD k = false) (e : Exec) :
    (e.bits s x).getLsbD k = (decide (e = .s) && (BitVec.ofNat 64 s).getLsbD k) := by
  cases e with
  | none => exact BitVec.getLsbD_zero
  | x => rw [Exec.bits, hx, decide_eq_false (by decide), Bool.false_and]
  | s => rw [Exec.bits, BitVec.getLsbD_or, hx, Bool.or_false, decide_eq_true rfl, Bool.true_and]

/-- Above the permissions a longhand has only its set-id letters. -/
theorem Longhand.bits_getLsbD (h : Longhand) {k : Nat} (hk : k = 9 ∨ k = 10 ∨ k = 11) :
    h.bits.getLsbD k = ((decide (h.ux = .s) && (BitVec.ofNat 64 S_ISUID).getLsbD k) ||
      (decide (h.gx = .s) && (BitVec.ofNat 64 S_ISGID).getLsbD k)) := by
  have hperm : ∀ b ∈ MODE_MAP.map Prod.snd, (BitVec.ofNat 64 b).getLsbD k = false := by
    rcases hk with rfl | rfl | rfl <;> decide
  simp only [Longhand.bits, BitVec.getLsbD_or]
  rw [plainBits_getLsbD (hperm S_IRUSR (by decide)), plainBits_getLsbD (hperm S_IWUSR (by decide)),
    plainBits_getLsbD (hperm S_IRGRP (by decide)), plainBits_getLsbD (hperm S_IWGRP (by decide)),
    plainBits_getLsbD (hperm S_IROTH (by decide)), plainBits_getLsbD (hperm S_IWOTH (by decide)),
    plainBits_getLsbD (hperm S_IXOTH (by decide)), Exec.bits_getLsbD (hperm S_IXUSR (by decide)),
    Exec.bits_getLsbD (hperm S_IXGRP (by decide))]
  simp only [Bool.false_or, Bool.or_false]

/-- The value of an octal digit. -/
theorem octalDigit_lt {c : Char} (hc : isOctal c) : c.toNat - '0'.toNat < 8 := by
  have hle := toNat_of_isOctal hc
  rw [show '0'.toNat = 48 from rfl]
  omega

/-- A digit of a numeral in base 8. -/
theorem ofDigits_div_mod {digits : List Nat} (h : ∀ d ∈ digits, d < 8) (i : Nat) :
    Nat.ofDigits 8 digits / 8 ^ i % 8 = digits[i]?.getD 0 := by
  rw [Nat.ofDigits_div_pow_eq_ofDigits_drop i (by decide) digits h, Nat.ofDigits_mod_eq_head!,
    ← List.head?_drop]
  cases hd : digits.drop i with
  | nil => rfl
  | cons d ds =>
      have hlt : d < 8 := h d (List.mem_of_mem_drop (hd ▸ List.mem_cons_self))
      exact Nat.mod_eq_of_lt hlt

/-- The fourth digit from the right of an octal numeral is 0 or missing. -/
def SmallOctal (s : LStr) : Prop := ∀ c, s.reverse[3]? = some c → c = '0'

/-- The special bits of an octal numeral are its fourth digit. -/
theorem smallOctal_iff {s : LStr} (hs : ∀ c ∈ s, isOctal c) :
    SmallOctal s ↔ octalValue s / 8 ^ 3 % 8 = 0 := by
  have hdigits : ∀ d ∈ s.reverse.map fun c => c.toNat - '0'.toNat, d < 8 := by
    intro d hd
    obtain ⟨c, hc, rfl⟩ := List.mem_map.mp hd
    exact octalDigit_lt (hs c (List.mem_reverse.mp hc))
  rw [octalValue, ofDigits_div_mod hdigits, List.getElem?_map, SmallOctal]
  cases hget : s.reverse[3]? with
  | none => simp
  | some c =>
      have hc : isOctal c := hs c (List.mem_reverse.mp (List.mem_of_getElem? hget))
      have hle := toNat_of_isOctal hc
      constructor
      · intro h
        rw [h c rfl]
        rfl
      · intro (h : c.toNat - 48 = 0) d hd
        cases hd
        exact Char.toNat_inj.mp (show c.toNat = 48 by omega)

/-! ## The calls -/

/-- A well-formed mode string, every clause with class letters. -/
inductive ModeString where
  | longhand (h : Longhand)
  | octal (digits : LStr) (ne_nil : digits ≠ []) (isOctal_of_mem : ∀ c ∈ digits, isOctal c)
  | clauses (cs : ClauseList) (allWho : cs.AllWho)

namespace ModeString

/-- The text of a mode string. -/
def text : ModeString → LStr
  | longhand h => h.text
  | octal digits _ _ => digits
  | clauses cs _ => cs.text

/-- The mode a string stands for over a starting mode. -/
def meaning (m : LuaInteger) : ModeString → LuaInteger
  | longhand h => h.bits
  | octal digits _ _ => BitVec.ofNat 64 (octalValue digits)
  | clauses cs _ => cs.clauses.foldl Clause.apply m

/-- **Every mode string** is read as its meaning. -/
theorem modeMunch_text (m : LuaInteger) (s : ModeString) :
    modeMunch posixBitwise m (some s.text) = .ok (.mode (s.meaning m)) := by
  cases s with
  | longhand h => exact modeMunch_text_longhand m h
  | octal digits hne hs => exact modeMunch_text_octal m hne hs
  | clauses cs hwho => exact modeMunch_text_clauses m hwho

/-- No set-id or sticky bit is in force after the string: a longhand has no `s`, an octal
numeral no fourth digit but 0, and a list of clauses meets a file without the sticky bit and
leaves neither set-id bit standing. -/
def NoSpecialBit (m : LuaInteger) : ModeString → Prop
  | longhand h => h.ux ≠ .s ∧ h.gx ≠ .s
  | octal digits _ _ => SmallOctal digits
  | clauses cs _ => m.getLsbD 9 = false ∧ setidAfter .u 11 m cs = false ∧
      setidAfter .g 10 m cs = false

/-- `NoSpecialBit` is about the three bits above the permissions. -/
theorem noSpecialBit_iff (m : LuaInteger) (s : ModeString) :
    s.NoSpecialBit m ↔ (s.meaning m).getLsbD 9 = false ∧ (s.meaning m).getLsbD 10 = false ∧
      (s.meaning m).getLsbD 11 = false := by
  cases s with
  | longhand h =>
      rw [meaning, h.bits_getLsbD (.inl rfl), h.bits_getLsbD (.inr (.inl rfl)),
        h.bits_getLsbD (.inr (.inr rfl)), NoSpecialBit]
      -- Bit 9 is in no longhand, bits 10 and 11 are the two set-id letters.
      cases h.ux <;> cases h.gx <;> decide
  | octal digits hne hs =>
      rw [meaning, NoSpecialBit, smallOctal_iff hs]
      -- The three bits are the fourth base-8 digit of the value.
      simp only [BitVec.getLsbD_ofNat, Nat.testBit_eq_decide_div_mod_eq]
      simp
      omega
  | clauses cs hwho =>
      rw [meaning, NoSpecialBit, foldl_apply_unselected m (by decide) fun c _ => sel_sticky c,
        foldl_apply_setid (w := .g) (by decide) (by intro v; cases v <;> decide)
          (by intro p; cases p <;> decide),
        foldl_apply_setid (w := .u) (by decide) (by intro v; cases v <;> decide)
          (by intro p; cases p <;> decide)]
      -- No clause selects bit 9; the other two are decided by the last clause about them.
      tauto

end ModeString

/-- What the file's owner expects of the argument of `chmod(2)`, over the current mode `m`: the
twelve mode bits of the edited mode, so that no bit changes but as the string says. -/
structure ChangesOnlySelected (m arg : LuaInteger) (s : ModeString) : Prop where
  arg_eq : ∃ bits, modeMunch posixBitwise m (some s.text) = .ok (.mode bits) ∧
    arg = bits &&& 0o7777
  unselected : ∀ cs hwho, s = .clauses cs hwho → ∀ k < 12,
    (∀ c ∈ cs.clauses, c.sel.getLsbD k = false) → arg.getLsbD k = m.getLsbD k
  add : ∀ cs hwho, s = .clauses cs hwho → (∀ c ∈ cs.clauses, c.op = .add) → ∀ k < 12,
    m.getLsbD k → arg.getLsbD k
  remove : ∀ cs hwho, s = .clauses cs hwho → (∀ c ∈ cs.clauses, c.op = .remove) → ∀ k < 12,
    arg.getLsbD k → m.getLsbD k
  setid : ∀ k, k = 10 ∨ k = 11 → (s.meaning m).getLsbD k → arg.getLsbD k

/-- A mask of twelve bits keeps the low twelve. -/
theorem getLsbD_and_7777 (x : LuaInteger) (k : Nat) :
    (x &&& 0o7777).getLsbD k = (x.getLsbD k && decide (k < 12)) := by
  rw [BitVec.getLsbD_and, show (0o7777 : LuaInteger) = BitVec.ofNat 64 (2 ^ 12 - 1) from rfl,
    BitVec.getLsbD_ofNat, Nat.testBit_two_pow_sub_one]
  by_cases hk : k < 12
  · simp [hk, show k < 64 by omega]
  · simp [hk]

/-- `RWXALL` keeps the low nine. -/
theorem getLsbD_and_RWXALL (x : LuaInteger) (k : Nat) :
    (x &&& RWXALL posixBitwise).getLsbD k = (x.getLsbD k && decide (k < 9)) := by
  rw [BitVec.getLsbD_and, show RWXALL posixBitwise = BitVec.ofNat 64 (2 ^ 9 - 1) from rfl,
    BitVec.getLsbD_ofNat, Nat.testBit_two_pow_sub_one]
  by_cases hk : k < 9
  · simp [hk, show k < 64 by omega]
  · simp [hk]

/-- `RWXALL` loses nothing of the twelve mode bits but the three special ones. -/
theorem and_RWXALL_eq_iff (x : LuaInteger) :
    x &&& RWXALL posixBitwise = x &&& 0o7777 ↔
      x.getLsbD 9 = false ∧ x.getLsbD 10 = false ∧ x.getLsbD 11 = false := by
  constructor
  · intro h
    have hbit : ∀ k, 9 ≤ k → k < 12 → x.getLsbD k = false := by
      intro k hk hk'
      have hbits := congrArg (fun y => y.getLsbD k) h
      simp only [getLsbD_and_RWXALL, getLsbD_and_7777] at hbits
      rw [decide_eq_true hk', decide_eq_false (Nat.not_lt.mpr hk), Bool.and_false,
        Bool.and_true] at hbits
      exact hbits.symm
    exact ⟨hbit 9 (by decide) (by decide), hbit 10 (by decide) (by decide),
      hbit 11 (by decide) (by decide)⟩
  · rintro ⟨h9, h10, h11⟩
    refine BitVec.eq_of_getLsbD_eq fun k _ => ?_
    rw [getLsbD_and_RWXALL, getLsbD_and_7777]
    by_cases hk : k < 9
    · rw [decide_eq_true hk, decide_eq_true (by omega : k < 12)]
    · by_cases hk' : k < 12
      · obtain rfl | rfl | rfl : k = 9 ∨ k = 10 ∨ k = 11 := by omega
        · rw [h9, Bool.false_and, Bool.false_and]
        · rw [h10, Bool.false_and, Bool.false_and]
        · rw [h11, Bool.false_and, Bool.false_and]
      · rw [decide_eq_false hk, decide_eq_false hk']

/-- The twelve mode bits of the edited mode are what the owner expects. -/
theorem changesOnlySelected_meaning (m : LuaInteger) (s : ModeString) :
    ChangesOnlySelected m (s.meaning m &&& 0o7777) s where
  arg_eq := ⟨s.meaning m, s.modeMunch_text m, rfl⟩
  unselected := by
    rintro cs hwho rfl k hk hsel
    rw [getLsbD_and_7777, decide_eq_true hk, Bool.and_true]
    exact foldl_apply_unselected m (by omega) hsel
  add := by
    rintro cs hwho rfl hadd k hk hm
    rw [getLsbD_and_7777, decide_eq_true hk, Bool.and_true]
    exact foldl_apply_add m (by omega) hadd hm
  remove := by
    rintro cs hwho rfl hremove k hk harg
    rw [getLsbD_and_7777, decide_eq_true hk, Bool.and_true] at harg
    exact foldl_apply_remove m (by omega) hremove harg
  setid := by
    rintro k (rfl | rfl) hset
    · rw [getLsbD_and_7777, hset]
      rfl
    · rw [getLsbD_and_7777, hset]
      rfl

section Chmod

variable {ρ : Type} (K : Kernel LuaInteger ρ) {path : LStr} {m : LuaInteger}

/-- The system calls of `chmod`. -/
theorem exec_chmod (hstat : K.stMode path = some m) (s : ModeString) (p : Proc LuaInteger) :
    exec (chmod posixBitwise K path s.text) p =
      (.ok (K.answer (.chmod path (s.meaning m &&& RWXALL posixBitwise))),
        { p with calls :=
          p.calls ++ [.stat path, .chmod path (s.meaning m &&& RWXALL posixBitwise)] }) := by
  simp only [chmod, exec_bind, exec_sysStat, hstat, Option.getD_some, munchOrRaise,
    s.modeMunch_text m, exec_pure, exec_syscall, posixBitwise_band, List.foldl_cons,
    List.foldl_nil, List.append_assoc, List.singleton_append]

/-- **chmod changes only what its mode string selects**, for every current mode and every
well-formed mode string, exactly where no set-id or sticky bit is left in force. -/
theorem chmod_changesOnlySelected_iff (hstat : K.stMode path = some m) (s : ModeString)
    (p : Proc LuaInteger) :
    (∃ arg, exec (chmod posixBitwise K path s.text) p =
        (.ok (K.answer (.chmod path arg)),
          { p with calls := p.calls ++ [.stat path, .chmod path arg] }) ∧
      ChangesOnlySelected m arg s) ↔ s.NoSpecialBit m := by
  rw [s.noSpecialBit_iff m, ← and_RWXALL_eq_iff, exec_chmod K hstat s p]
  constructor
  · rintro ⟨arg, hexec, hsel⟩
    -- The argument is read off the calls made, and has to be the twelve bits of the edited mode.
    have hcalls := congrArg (fun r => r.2.calls) hexec
    have harg : s.meaning m &&& RWXALL posixBitwise = arg := by simpa using hcalls
    obtain ⟨bits, hbits, rfl⟩ := hsel.arg_eq
    rw [s.modeMunch_text m] at hbits
    cases hbits
    exact harg
  · intro h
    refine ⟨s.meaning m &&& 0o7777, ?_, changesOnlySelected_meaning m s⟩
    rw [h]

end Chmod

/-- A file of mode `0o104755`, whatever the path. -/
private def setuidFile : Kernel LuaInteger Unit :=
  { stMode := fun _ => some 0o104755, answer := fun _ => (), O_CREAT := 0o100, O_WRONLY := 1,
    O_TRUNC := 0o1000 }

/-- `u-s,o-x`. -/
private def dropSetuid : ModeString :=
  .clauses ⟨⟨[.u], .empty, .remove, .empty, [.s], by decide⟩,
    [(.empty, ⟨[.o], .empty, .remove, .empty, [.x], by decide⟩)]⟩ (by
      simp [ClauseList.AllWho, ClauseList.clauses])

/-- `u-s,o-x` on a set-uid file. -/
theorem chmod_changesOnlySelected_dropSetuid :
    ∃ arg, exec (chmod posixBitwise setuidFile ['f'] dropSetuid.text) ⟨0, []⟩ =
        (.ok (), ⟨0, [.stat ['f'], .chmod ['f'] arg]⟩) ∧
      ChangesOnlySelected 0o104755 arg dropSetuid :=
  (chmod_changesOnlySelected_iff setuidFile rfl dropSetuid ⟨0, []⟩).mpr
    ⟨by decide, by decide, by decide⟩

/-- `g+w` on a set-uid file takes the set-uid bit away, and `rwsr-xr-x` does not keep it. -/
theorem chmod_drops_setuid :
    (modeMunch posixBitwise 0o104755 (some "g+w".toList) = .ok (.mode 0o104775) ∧
      exec (chmod posixBitwise setuidFile ['f'] "g+w".toList) ⟨0, []⟩ =
        (.ok (), ⟨0, [.stat ['f'], .chmod ['f'] 0o775]⟩)) ∧
    (modeMunch posixBitwise 0o104755 (some "rwsr-xr-x".toList) = .ok (.mode 0o4755) ∧
      exec (chmod posixBitwise setuidFile ['f'] "rwsr-xr-x".toList) ⟨0, []⟩ =
        (.ok (), ⟨0, [.stat ['f'], .chmod ['f'] 0o755]⟩)) := by
  decide

end LuaPosix

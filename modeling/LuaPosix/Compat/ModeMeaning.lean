import LuaPosix.Compat.ModeMatch

/-! # The meaning of well-formed mode strings

On each of the three formats `mode_munch` computes what the grammar says: the union of the bits
a longhand names, the value of an octal number, and the fold of the clauses' edits over the
starting mode. -/

namespace LuaPosix

open LuaPattern MaskEdit

/-! ## Longhand -/

section Longhand

variable {s : LStr} {mode : LuaInteger} {b i : Nat}

/-- A plain position adds its bit when it is on. -/
theorem rwxrwxrwxStep_plain {c : Char} (on : Bool) (hsub : sub s i = [plainChar c on])
    (hc : c ≠ '-') :
    rwxrwxrwxStep posixBitwise s mode ((c, b), i) = some (mode ||| plainBits b on) := by
  cases on with
  | true => simp [rwxrwxrwxStep, hsub, plainChar, plainBits]
  | false => simp [rwxrwxrwxStep, hsub, plainChar, plainBits, hc.symm]

/-- The user's execute position adds execute, and set-uid for `s`. -/
theorem rwxrwxrwxStep_user {e : Exec} (hsub : sub s 3 = [e.char]) :
    rwxrwxrwxStep posixBitwise s mode (('x', S_IXUSR), 3)
      = some (mode ||| e.bits S_ISUID S_IXUSR) := by
  cases e <;> simp [rwxrwxrwxStep, hsub, Exec.char, Exec.bits, BitVec.or_assoc]

/-- The group's execute position adds execute, and set-gid for `s`. -/
theorem rwxrwxrwxStep_group {e : Exec} (hsub : sub s 6 = [e.char]) :
    rwxrwxrwxStep posixBitwise s mode (('x', S_IXGRP), 6)
      = some (mode ||| e.bits S_ISGID S_IXGRP) := by
  cases e <;> simp [rwxrwxrwxStep, hsub, Exec.char, Exec.bits, BitVec.or_assoc]

end Longhand

/-- `rwxrwxrwx` returns the bits a longhand names. -/
theorem rwxrwxrwx_text (h : Longhand) : rwxrwxrwx posixBitwise h.text = some h.bits := by
  have hmap : MODE_MAP.zipIdx 1 =
      [(('r', S_IRUSR), 1), (('w', S_IWUSR), 2), (('x', S_IXUSR), 3),
       (('r', S_IRGRP), 4), (('w', S_IWGRP), 5), (('x', S_IXGRP), 6),
       (('r', S_IROTH), 7), (('w', S_IWOTH), 8), (('x', S_IXOTH), 9)] := rfl
  rw [rwxrwxrwx, hmap]
  simp only [List.foldlM_cons, List.foldlM_nil, Option.bind_eq_bind]
  rw [rwxrwxrwxStep_plain h.ur rfl (by decide), Option.bind_some,
    rwxrwxrwxStep_plain h.uw rfl (by decide), Option.bind_some,
    rwxrwxrwxStep_user (e := h.ux) rfl, Option.bind_some,
    rwxrwxrwxStep_plain h.gr rfl (by decide), Option.bind_some,
    rwxrwxrwxStep_plain h.gw rfl (by decide), Option.bind_some,
    rwxrwxrwxStep_group (e := h.gx) rfl, Option.bind_some,
    rwxrwxrwxStep_plain h.or rfl (by decide), Option.bind_some,
    rwxrwxrwxStep_plain h.ow rfl (by decide), Option.bind_some,
    rwxrwxrwxStep_plain h.ox rfl (by decide), Option.bind_some,
    posixBitwise_ofNat, BitVec.zero_or]
  rfl

/-- Every letter of a longhand is one the longhand guard knows. -/
theorem isLonghandLetter_of_mem_text {h : Longhand} {c : Char} (hc : c ∈ h.text) :
    isLonghandLetter c := by
  have hplain : ∀ d on, isLonghandLetter d → isLonghandLetter (plainChar d on) := by
    intro d on hd
    cases on with
    | true => exact hd
    | false => rfl
  have hexec : ∀ e : Exec, isLonghandLetter e.char := by
    intro e
    cases e <;> rfl
  simp only [Longhand.text, List.mem_cons, List.not_mem_nil, or_false] at hc
  rcases hc with rfl | rfl | rfl | rfl | rfl | rfl | rfl | rfl | rfl
  exacts [hplain _ _ rfl, hplain _ _ rfl, hexec _, hplain _ _ rfl, hplain _ _ rfl, hexec _,
    hplain _ _ rfl, hplain _ _ rfl, hplain _ _ rfl]

/-- **Longhand**: the starting mode does not matter. -/
theorem modeMunch_text_longhand (m : LuaInteger) (h : Longhand) :
    modeMunch posixBitwise m (some h.text) = .ok (.mode h.bits) := by
  rw [modeMunch_longhand posixBitwise m rfl fun c => isLonghandLetter_of_mem_text,
    rwxrwxrwx_text]

/-! ## Octal -/

/-- One round of `octal_mode`, in 64-bit arithmetic. -/
theorem octalModeStep_isOctal {c : Char} (hc : isOctal c) (a : Nat) :
    octalModeStep posixBitwise (BitVec.ofNat 64 a) c
      = .ok (BitVec.ofNat 64 (c.toNat - 48 + 8 * a)) := by
  -- A digit fits in 64 bits; the sum and the product wrap around.
  have hlt : c.toNat - 48 < 2 ^ 64 := by
    have hval := c.val.toNat_lt
    have : c.toNat = c.val.toNat := rfl
    omega
  rw [octalModeStep, tonumber, l_str2int_digit (isDigit_of_isOctal hc),
    show c.toNat - 48 + 8 * a = a * 8 + (c.toNat - 48) by omega, BitVec.ofNat_add, BitVec.ofNat_mul]
  simp only [posixBitwise_add, posixBitwise_mul, posixBitwise_ofNat, BitVec.toNat_ofNat,
    Nat.mod_eq_of_lt hlt]

/-- The accumulator of `octal_mode`. -/
theorem foldlM_octalModeStep {s : LStr} (hs : ∀ c ∈ s, isOctal c) (a : Nat) :
    s.foldlM (octalModeStep posixBitwise) (BitVec.ofNat 64 a)
      = .ok (BitVec.ofNat 64 (s.foldl (fun a c => c.toNat - 48 + 8 * a) a)) := by
  induction s generalizing a with
  | nil => rfl
  | cons c s ih =>
      rw [List.foldlM_cons, octalModeStep_isOctal (hs c (by simp))]
      exact ih (fun d hd => hs d (by simp [hd])) _

/-- The left fold of the digits is their base-8 value. -/
theorem octalValue_eq_foldl (s : LStr) :
    octalValue s = s.foldl (fun a c => c.toNat - 48 + 8 * a) 0 := by
  rw [octalValue, Nat.ofDigits_eq_foldr, List.foldr_map, List.foldr_reverse]
  rfl

/-- **Octal**: the base-8 value, modulo `2 ^ 64`. -/
theorem modeMunch_text_octal (m : LuaInteger) {s : LStr} (hne : s ≠ [])
    (hs : ∀ c ∈ s, isOctal c) :
    modeMunch posixBitwise m (some s) = .ok (.mode (BitVec.ofNat 64 (octalValue s))) := by
  rw [modeMunch_octal posixBitwise m hne hs, octalMode, posixBitwise_ofNat,
    foldlM_octalModeStep hs 0, octalValue_eq_foldl]
  rfl

/-! ## Clauses -/

/-- `bits` from the three class tests of the callback. -/
private def classBits (user group other : Bool) : LuaInteger :=
  let bits : LuaInteger := 0
  let bits := if user then bits ||| BitVec.ofNat 64 S_ISUID ||| BitVec.ofNat 64 S_IRWXU else bits
  let bits := if group then bits ||| BitVec.ofNat 64 S_ISGID ||| BitVec.ofNat 64 S_IRWXG else bits
  if other then bits ||| BitVec.ofNat 64 S_IRWXO else bits

/-- `bobs` from the four permission tests of the callback. -/
private def permBits (r w x s : Bool) : LuaInteger :=
  let bobs : LuaInteger := 0
  let bobs := if r then bobs ||| BitVec.ofNat 64 S_IRUSR ||| BitVec.ofNat 64 S_IRGRP |||
    BitVec.ofNat 64 S_IROTH else bobs
  let bobs := if w then bobs ||| BitVec.ofNat 64 S_IWUSR ||| BitVec.ofNat 64 S_IWGRP |||
    BitVec.ofNat 64 S_IWOTH else bobs
  let bobs := if x then bobs ||| BitVec.ofNat 64 S_IXUSR ||| BitVec.ofNat 64 S_IXGRP |||
    BitVec.ofNat 64 S_IXOTH else bobs
  if s then bobs ||| BitVec.ofNat 64 S_ISUID ||| BitVec.ofNat 64 S_ISGID else bobs

/-- `bits` is the union of the class masks. -/
theorem whoBits_map (who : List Who) :
    whoBits posixBitwise (who.map Who.char) = who.foldr (fun w m => w.mask ||| m) 0 := by
  have hu := matched_single "[ua]" (.set false [.lit 'u', .lit 'a'])
    (by decide)
  have hg := matched_single "[ga]" (.set false [.lit 'g', .lit 'a'])
    (by decide)
  have ho := matched_single "[oa]" (.set false [.lit 'o', .lit 'a'])
    (by decide)
  -- One more class letter adds its mask to whatever the tests on the others say.
  have hcons : ∀ (w : Who) (user group other : Bool),
      classBits ((CharClass.set false [.lit 'u', .lit 'a']).mem w.char || user)
          ((CharClass.set false [.lit 'g', .lit 'a']).mem w.char || group)
          ((CharClass.set false [.lit 'o', .lit 'a']).mem w.char || other)
        = w.mask ||| classBits user group other := by
    intro w
    cases w <;> decide
  rw [whoBits, hu, hg, ho, List.any_map, List.any_map, List.any_map]
  change classBits _ _ _ = _
  induction who with
  | nil => rfl
  | cons w who ih =>
      rw [List.foldr_cons, ← ih]
      exact hcons w _ _ _

/-- `bobs` is the union of the permission masks. -/
theorem whatBits_map (what : List Perm) :
    whatBits posixBitwise (what.map Perm.char) = what.foldr (fun p m => p.mask ||| m) 0 := by
  have hr := matched_single "r" (.lit 'r') (by decide)
  have hw := matched_single "w" (.lit 'w') (by decide)
  have hx := matched_single "x" (.lit 'x') (by decide)
  have hs := matched_single "s" (.lit 's') (by decide)
  -- One more permission letter adds its mask.
  have hcons : ∀ (p : Perm) (r w x s : Bool),
      permBits ((CharClass.lit 'r').mem p.char || r) ((CharClass.lit 'w').mem p.char || w)
          ((CharClass.lit 'x').mem p.char || x) ((CharClass.lit 's').mem p.char || s)
        = p.mask ||| permBits r w x s := by
    intro p
    cases p <;> decide
  rw [whatBits, hr, hw, hx, hs, List.any_map, List.any_map, List.any_map, List.any_map]
  change permBits _ _ _ _ = _
  induction what with
  | nil => rfl
  | cons p what ih =>
      rw [List.foldr_cons, ← ih]
      exact hcons p _ _ _ _

/-- The callback edits the mode as the clause says. -/
theorem mungeClause_captures (m : LuaInteger) (c : Clause) :
    (mungeClause posixBitwise m c.captures).1 = c.apply m := by
  rw [Clause.captures, mungeClause, whoBits_map, whatBits_map]
  change _ = Clause.edit c.sel c.val c.op m
  cases c.op <;> rfl

/-- A clause with class letters passes the clause guard, whatever follows it. -/
theorem matched_clauseGuard_text {c : Clause} (hwho : c.who ≠ []) (t : LStr) :
    matched (c.text ++ t) clauseGuard := by
  rw [matched_clauseGuard, matchItems_isSome_iff]
  -- The reading of the guard's six items, the commas read as none.
  refine ⟨t, [], c.who.map Who.char, c.beforeOp.chars ++ (c.opText ++ t), ?_,
    mt List.map_eq_nil_iff.mp hwho, ?_, c.beforeOp.chars, c.opText ++ t, rfl,
    c.beforeOp.isspace_of_mem, opChar c.op, c.afterOp.chars ++ (c.what.map Perm.char ++ t), ?_, ?_,
    c.afterOp.chars, c.what.map Perm.char ++ t, rfl, c.afterOp.isspace_of_mem,
    c.what.map Perm.char, t, rfl, mt List.map_eq_nil_iff.mp c.what_ne_nil, ?_, [], t, rfl,
    by simp, rfl, rfl⟩
  · simp [Clause.text]
  · intro d hd
    obtain ⟨w, -, rfl⟩ := List.mem_map.mp hd
    cases w <;> rfl
  · simp [Clause.opText]
  · cases c.op <;> rfl
  · intro d hd
    obtain ⟨p, -, rfl⟩ := List.mem_map.mp hd
    cases p <;> rfl

/-- A text that starts with a clause with class letters is edited clause by clause by `gsub`. -/
theorem modeMunch_clause_append {ν : Type} (B : Bitwise ν) (m : ν) {c : Clause}
    (hwho : c.who ≠ []) (t : LStr) :
    modeMunch B m (some (c.text ++ t))
      = .ok (.mode (gsubState ⟨false, clauseItems⟩ (mungeClause B) (c.text ++ t) false m)) := by
  have hguard := matched_clauseGuard_text hwho t
  obtain ⟨w, who, hw⟩ := List.exists_cons_of_ne_nil hwho
  have htext : c.text ++ t
      = w.char :: (who.map Who.char ++ (c.beforeOp.chars ++ c.opText) ++ t) := by
    rw [Clause.text, hw, List.map_cons, List.cons_append, List.cons_append]
  rw [htext] at hguard ⊢
  exact modeMunch_clause_branch B m hguard

/-- **Clauses**: the edits of the clauses, from left to right. -/
theorem modeMunch_text_clauses (m : LuaInteger) {cs : ClauseList} (hwho : cs.AllWho) :
    modeMunch posixBitwise m (some cs.text) = .ok (.mode (cs.clauses.foldl Clause.apply m)) := by
  have hloop := gsubState_clauses posixBitwise Spaces.empty [] [] hwho (by simp)
    (stopsAt_nil _) (stopsAt_nil _) false m
  simp only [mungeClause_captures, List.append_nil] at hloop
  rw [gsubState_nil true _ (by decide)] at hloop
  rw [ClauseList.text, modeMunch_clause_append posixBitwise m (hwho cs.first (by
    simp [ClauseList.clauses]))]
  exact congrArg (fun m => Except.ok (Munched.mode m)) hloop

/-! ## All formats -/

/-- **Meaning of well-formed mode strings.** For every starting mode: a longhand is the union of
the bits it names, octal digits are their base-8 value, and a list of clauses with class
letters is the fold of their edits. -/
theorem modeMunch_wellFormed (m : LuaInteger) :
    (∀ h : Longhand, modeMunch posixBitwise m (some h.text) = .ok (.mode h.bits)) ∧
    (∀ s : LStr, s ≠ [] → (∀ c ∈ s, isOctal c) →
      modeMunch posixBitwise m (some s) = .ok (.mode (BitVec.ofNat 64 (octalValue s)))) ∧
    (∀ cs : ClauseList, cs.AllWho →
      modeMunch posixBitwise m (some cs.text) = .ok (.mode (cs.clauses.foldl Clause.apply m))) :=
  ⟨modeMunch_text_longhand m, fun _ hne hs => modeMunch_text_octal m hne hs,
    fun _ hwho => modeMunch_text_clauses m hwho⟩

/-- `rwsr-x---`, `0750` and `u+w, g=r` over `0o20`. -/
theorem modeMunch_wellFormed_examples :
    modeMunch posixBitwise 0o20 (some "rwsr-x---".toList) = .ok (.mode 0o4750) ∧
    modeMunch posixBitwise 0o20 (some "0750".toList) = .ok (.mode 0o750) ∧
    modeMunch posixBitwise 0o20 (some "u+w, g=r".toList) = .ok (.mode 0o240) := by
  obtain ⟨hlonghand, hoctal, hclauses⟩ := modeMunch_wellFormed 0o20
  have hlist := hclauses ⟨⟨[.u], .empty, .add, .empty, [.w], by decide⟩,
    [(⟨[' '], by simp [isspace]⟩, ⟨[.g], .empty, .assign, .empty, [.r], by decide⟩)]⟩ (by
      simp [ClauseList.AllWho, ClauseList.clauses])
  refine ⟨hlonghand ⟨true, true, .s, true, false, .x, false, false, false⟩,
    hoctal "0750".toList (by decide) (List.all_eq_true.mp rfl), ?_⟩
  simpa [ClauseList.text, Clause.text, Clause.opText, Spaces.empty, Who.char, Perm.char, opChar,
    ClauseList.clauses, Clause.apply, Clause.edit, Clause.sel, Clause.val, Who.mask, Perm.mask,
    S_ISUID, S_IRWXU, S_ISGID, S_IRWXG, S_IRUSR, S_IRGRP, S_IROTH, S_IWUSR, S_IWGRP, S_IWOTH]
    using hlist

end LuaPosix

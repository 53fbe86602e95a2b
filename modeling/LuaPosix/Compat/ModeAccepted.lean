import LuaPosix.Compat.Calls
import LuaPosix.Compat.ModeMeaning
import Mathlib.Data.List.TakeWhile

/-! # The accepted mode strings

`mode_munch` accepts more than the well-formed mode strings. Nine longhand letters are accepted
with a letter out of its place, which is ignored, and a text is accepted for its first clause
whatever follows it. Those two kinds are all: everything else that is accepted is well formed,
and everything else that is not well formed makes every call raise. -/

namespace LuaPosix

open LuaPattern MaskEdit

/-- A well-formed mode string; a clause of a list may lack class letters. -/
def WellFormed (s : LStr) : Prop :=
  (∃ h : Longhand, s = h.text) ∨ (s ≠ [] ∧ ∀ c ∈ s, isOctal c) ∨ ∃ cs : ClauseList, s = cs.text

/-! ## Longhand, letter by letter -/

/-- The positions of a longhand: letter, bit and index. -/
def positions : List ((Char × Nat) × Nat) := MODE_MAP.zipIdx 1

/-- A dash or the letter, as a place where the bit is off or on. -/
theorem exists_plainChar {c d : Char} (h : c = '-' ∨ c = d) : ∃ on, c = plainChar d on := by
  rcases h with rfl | rfl
  · exact ⟨false, rfl⟩
  · exact ⟨true, rfl⟩

/-- A dash, `x` or `s`, as one of the things a place for execution shows. -/
theorem exists_execChar {c : Char} (h : c = '-' ∨ c = 'x' ∨ c = 's') :
    ∃ e : Exec, c = e.char := by
  rcases h with rfl | rfl | rfl
  · exact ⟨.none, rfl⟩
  · exact ⟨.x, rfl⟩
  · exact ⟨.s, rfl⟩

/-- Nine letters, one by one. -/
theorem exists_nine {s : LStr} (h : s.length = 9) :
    ∃ a b c d e f g i j, s = [a, b, c, d, e, f, g, i, j] := by
  match s, h with
  | [a, b, c, d, e, f, g, i, j], _ => exact ⟨a, b, c, d, e, f, g, i, j, rfl⟩

/-- **Longhand by its letters**: nine characters, each a dash, the letter of its position, or
`s` at an execute position of user or group. -/
theorem exists_longhand_iff (s : LStr) :
    (∃ h : Longhand, s = h.text) ↔ s.length = 9 ∧ ∀ p ∈ positions,
      sub s p.2 = ['-'] ∨ sub s p.2 = [p.1.1] ∨ (sub s p.2 = ['s'] ∧ (p.2 = 3 ∨ p.2 = 6)) := by
  constructor
  · rintro ⟨h, rfl⟩
    have hplain : ∀ d on, [plainChar d on] = ['-'] ∨ [plainChar d on] = [d] := by
      intro d on
      cases on with
      | true => exact .inr rfl
      | false => exact .inl rfl
    have hexec : ∀ e : Exec, [e.char] = ['-'] ∨ [e.char] = ['x'] ∨ [e.char] = ['s'] := by
      intro e
      cases e <;> decide
    refine ⟨rfl, ?_⟩
    intro p hp
    simp only [positions, MODE_MAP, List.zipIdx_cons, List.zipIdx_nil, List.mem_cons,
      List.not_mem_nil, or_false] at hp
    -- Position by position: letter, dash, or set-id letter.
    rcases hp with rfl | rfl | rfl | rfl | rfl | rfl | rfl | rfl | rfl
    · exact (hplain 'r' h.ur).imp_right .inl
    · exact (hplain 'w' h.uw).imp_right .inl
    · exact (hexec h.ux).imp_right (.imp_right fun hs => ⟨hs, .inl rfl⟩)
    · exact (hplain 'r' h.gr).imp_right .inl
    · exact (hplain 'w' h.gw).imp_right .inl
    · exact (hexec h.gx).imp_right (.imp_right fun hs => ⟨hs, .inr rfl⟩)
    · exact (hplain 'r' h.or).imp_right .inl
    · exact (hplain 'w' h.ow).imp_right .inl
    · exact (hplain 'x' h.ox).imp_right .inl
  · rintro ⟨hlen, hp⟩
    obtain ⟨a, b, c, d, e, f, g, i, j, rfl⟩ := exists_nine hlen
    -- Each of the nine conditions gives one field of the longhand.
    obtain ⟨ur, rfl⟩ := exists_plainChar (c := a) (d := 'r') (by
      simpa [sub] using hp (('r', S_IRUSR), 1) (by decide))
    obtain ⟨uw, rfl⟩ := exists_plainChar (c := b) (d := 'w') (by
      simpa [sub] using hp (('w', S_IWUSR), 2) (by decide))
    obtain ⟨ux, rfl⟩ := exists_execChar (c := c) (by
      simpa [sub] using hp (('x', S_IXUSR), 3) (by decide))
    obtain ⟨gr, rfl⟩ := exists_plainChar (c := d) (d := 'r') (by
      simpa [sub] using hp (('r', S_IRGRP), 4) (by decide))
    obtain ⟨gw, rfl⟩ := exists_plainChar (c := e) (d := 'w') (by
      simpa [sub] using hp (('w', S_IWGRP), 5) (by decide))
    obtain ⟨gx, rfl⟩ := exists_execChar (c := f) (by
      simpa [sub] using hp (('x', S_IXGRP), 6) (by decide))
    obtain ⟨or, rfl⟩ := exists_plainChar (c := g) (d := 'r') (by
      simpa [sub] using hp (('r', S_IROTH), 7) (by decide))
    obtain ⟨ow, rfl⟩ := exists_plainChar (c := i) (d := 'w') (by
      simpa [sub] using hp (('w', S_IWOTH), 8) (by decide))
    obtain ⟨ox, rfl⟩ := exists_plainChar (c := j) (d := 'x') (by
      simpa [sub] using hp (('x', S_IXOTH), 9) (by decide))
    exact ⟨⟨ur, uw, ux, gr, gw, gx, or, ow, ox⟩, rfl⟩

/-- Nine longhand letters with every `s` at an execute position of user or group. -/
structure LonghandLetters (s : LStr) : Prop where
  length_eq : s.length = 9
  letters : ∀ c ∈ s, isLonghandLetter c
  setid : ∀ p ∈ positions, sub s p.2 = ['s'] → p.2 = 3 ∨ p.2 = 6

section Accepted

variable {ν : Type} (B : Bitwise ν)

/-- A round of `rwxrwxrwx` only refuses a misplaced `s`. -/
theorem rwxrwxrwxStep_isSome {s : LStr} {p : (Char × Nat) × Nat} (hp : p.1.1 ≠ 's') (mode : ν) :
    (rwxrwxrwxStep B s mode p).isSome ↔ (sub s p.2 = ['s'] → p.2 = 3 ∨ p.2 = 6) := by
  obtain ⟨⟨c, b⟩, i⟩ := p
  rw [rwxrwxrwxStep]
  split_ifs with hown hs h3 h6
  · have hne : sub s i ≠ ['s'] := by
      rw [hown]
      simpa using hp
    simp [hne]
  · simp [h3]
  · simp [h6]
  · simp [hs, h3, h6]
  · simp [hs]

/-- The steps of `rwxrwxrwx` fail only at an `s` outside the two places for it. -/
theorem foldlM_rwxrwxrwxStep_isSome {s : LStr} {ps : List ((Char × Nat) × Nat)}
    (hps : ∀ p ∈ ps, p.1.1 ≠ 's') (mode : ν) :
    (ps.foldlM (rwxrwxrwxStep B s) mode).isSome
      ↔ ∀ p ∈ ps, sub s p.2 = ['s'] → p.2 = 3 ∨ p.2 = 6 := by
  induction ps generalizing mode with
  | nil => simp
  | cons p ps ih =>
      have hstep := rwxrwxrwxStep_isSome B (s := s) (hps p (by simp)) mode
      rw [List.foldlM_cons, List.forall_mem_cons, ← hstep]
      cases rwxrwxrwxStep B s mode p with
      | none => simp
      | some mode' => simpa using ih (fun q hq => hps q (List.mem_cons_of_mem _ hq)) mode'

/-- `rwxrwxrwx` accepts every text without a misplaced `s`. -/
theorem rwxrwxrwx_isSome (s : LStr) :
    (rwxrwxrwx B s).isSome ↔ ∀ p ∈ positions, sub s p.2 = ['s'] → p.2 = 3 ∨ p.2 = 6 :=
  foldlM_rwxrwxrwxStep_isSome B (by decide) _

/-- Octal digits never raise. -/
theorem exists_octalMode {s : LStr} (hs : ∀ c ∈ s, isOctal c) : ∃ m, octalMode B s = .ok m := by
  rw [octalMode]
  -- For any accumulator, so that the induction goes through.
  generalize B.ofNat 0 = a
  induction s generalizing a with
  | nil => exact ⟨a, rfl⟩
  | cons c s ih =>
      rw [List.foldlM_cons, octalModeStep, tonumber,
        l_str2int_digit (isDigit_of_isOctal (hs c (by simp)))]
      exact ih (fun d hd => hs d (by simp [hd])) _

end Accepted

/-! ## Clauses, letter by letter -/

/-- The class letters. -/
def whoClass : CharClass := .set false [.lit 'u', .lit 'g', .lit 'o', .lit 'a']

/-- The operators. -/
def opClass : CharClass := .set false [.lit '-', .lit '+', .lit '=']

/-- The permission letters. -/
def permClass : CharClass := .set false [.lit 'r', .lit 's', .lit 'w', .lit 'x']

/-- A letter for a class of users is one of the class. -/
theorem mem_whoClass (w : Who) : whoClass.mem w.char := by cases w <;> rfl

/-- A letter for a permission is one of the class. -/
theorem mem_permClass (p : Perm) : permClass.mem p.char := by cases p <;> rfl

/-- Letters of the class for users are users. -/
theorem exists_who {w : LStr} (hw : ∀ c ∈ w, whoClass.mem c) :
    ∃ who : List Who, w = who.map Who.char := by
  induction w with
  | nil => exact ⟨[], rfl⟩
  | cons c w ih =>
      obtain ⟨who, rfl⟩ := ih fun d hd => hw d (by simp [hd])
      have hc : 'u' = c ∨ 'g' = c ∨ 'o' = c ∨ 'a' = c := by
        simpa [whoClass, SetItem.mem] using hw c (by simp)
      rcases hc with rfl | rfl | rfl | rfl
      exacts [⟨.u :: who, rfl⟩, ⟨.g :: who, rfl⟩, ⟨.o :: who, rfl⟩, ⟨.a :: who, rfl⟩]

/-- Letters of the class for permissions are permissions. -/
theorem exists_perm {w : LStr} (hw : ∀ c ∈ w, permClass.mem c) :
    ∃ what : List Perm, w = what.map Perm.char := by
  induction w with
  | nil => exact ⟨[], rfl⟩
  | cons c w ih =>
      obtain ⟨what, rfl⟩ := ih fun d hd => hw d (by simp [hd])
      have hc : 'r' = c ∨ 's' = c ∨ 'w' = c ∨ 'x' = c := by
        simpa [permClass, SetItem.mem] using hw c (by simp)
      rcases hc with rfl | rfl | rfl | rfl
      exacts [⟨.r :: what, rfl⟩, ⟨.s :: what, rfl⟩, ⟨.w :: what, rfl⟩, ⟨.x :: what, rfl⟩]

/-- A character of the class for operators is an operator. -/
theorem exists_op {c : Char} (hc : opClass.mem c) : ∃ op, c = opChar op := by
  have hc : '-' = c ∨ '+' = c ∨ '=' = c := by simpa [opClass, SetItem.mem] using hc
  rcases hc with rfl | rfl | rfl
  exacts [⟨.remove, rfl⟩, ⟨.add, rfl⟩, ⟨.assign, rfl⟩]

/-- **The clause guard**: the text starts with a clause that has class letters; read as far as
the permission letters go, the clause leaves a text that does not start with one. -/
theorem matched_clauseGuard_iff (s : LStr) :
    matched s clauseGuard ↔ ∃ (c : Clause) (t : LStr), c.who ≠ [] ∧ s = c.text ++ t ∧
      StopsAt permClass t := by
  constructor
  · intro h
    rw [matched_clauseGuard, matchItems_isSome_iff] at h
    obtain ⟨rest, caps, w, s₁, rfl, hwho, hw, sp₁, s₂, rfl, hsp₁, c, s₃, rfl, hc, sp₂, s₄, rfl,
      hsp₂, w', s₅, rfl, hwhat, hw', -⟩ := h
    obtain ⟨who, rfl⟩ := exists_who hw
    obtain ⟨op, rfl⟩ := exists_op hc
    -- The guard may stop early; the clause takes the permission letters as far as they go.
    have htake : ∀ d ∈ w' ++ s₅.takeWhile permClass.mem, permClass.mem d := by
      intro d hd
      rcases List.mem_append.mp hd with hd | hd
      · exact hw' d hd
      · exact List.mem_takeWhile_imp (p := fun c => permClass.mem c) hd
    obtain ⟨what, hwhat_eq⟩ := exists_perm htake
    refine ⟨⟨who, ⟨sp₁, hsp₁⟩, op, ⟨sp₂, hsp₂⟩, what, ?_⟩, s₅.dropWhile permClass.mem,
      by simpa using hwho, ?_, stopsAt_dropWhile permClass s₅⟩
    · rintro rfl
      simp [hwhat] at hwhat_eq
    · rw [Clause.text, Clause.opText, ← hwhat_eq]
      simp [List.takeWhile_append_dropWhile]
  · rintro ⟨c, t, hwho, rfl, -⟩
    exact matched_clauseGuard_text hwho t

/-- What follows the class letters does not go on with one. -/
theorem stopsAt_whoClass (c : Clause) (t : LStr) :
    StopsAt whoClass (c.beforeOp.chars ++ (c.opText ++ t)) := by
  refine StopsAt.append ?_ ?_
  · intro d hd
    by_contra hmem
    obtain ⟨who, hwho⟩ := exists_who (w := [d]) (by simpa using hmem)
    obtain ⟨w, -, rfl⟩ := List.mem_map.mp (show d ∈ who.map Who.char by simp [← hwho])
    have halpha := isAlpha_of_isspace (c.beforeOp.isspace_of_mem _ hd)
    rw [w.isAlpha_char] at halpha
    cases halpha
  · rw [Clause.opText, List.cons_append, stopsAt_cons]
    cases c.op <;> rfl

/-- What follows a clause is determined by the text, once the permission letters are read as
far as they go. -/
theorem Clause.text_append_inj {c c' : Clause} {t t' : LStr} (ht : StopsAt permClass t)
    (ht' : StopsAt permClass t') (h : c.text ++ t = c'.text ++ t') :
    c.who.map Who.char = c'.who.map Who.char ∧ t = t' := by
  have hwho : ∀ (c : Clause) (d : Char), d ∈ c.who.map Who.char → whoClass.mem d := by
    intro c d hd
    obtain ⟨w, -, rfl⟩ := List.mem_map.mp hd
    exact mem_whoClass w
  have hwhat : ∀ (c : Clause) (d : Char), d ∈ c.what.map Perm.char → permClass.mem d := by
    intro c d hd
    obtain ⟨p, -, rfl⟩ := List.mem_map.mp hd
    exact mem_permClass p
  have hop : ∀ (c : Clause) (t : LStr), StopsAt (.esc 's') (c.opText ++ t) := by
    intro c t
    rw [Clause.opText, List.cons_append, stopsAt_cons]
    exact isspace_opChar c.op
  have hletters : ∀ (c : Clause) (t : LStr),
      StopsAt (.esc 's') (c.what.map Perm.char ++ t) := by
    intro c t
    obtain ⟨p, what, hp⟩ := List.exists_cons_of_ne_nil c.what_ne_nil
    rw [hp, List.map_cons, List.cons_append, stopsAt_cons]
    cases p <;> rfl
  simp only [Clause.text, List.append_assoc] at h
  -- Part by part from the left: class letters, white space, operator, white space, letters.
  obtain ⟨hw, h⟩ := append_inj_of_stopsAt (hwho c) (hwho c') (stopsAt_whoClass c t)
    (stopsAt_whoClass c' t') h
  obtain ⟨-, h⟩ := append_inj_of_stopsAt c.beforeOp.isspace_of_mem c'.beforeOp.isspace_of_mem
    (hop c t) (hop c' t') h
  simp only [Clause.opText, List.cons_append, List.cons.injEq, List.append_assoc] at h
  obtain ⟨-, h⟩ := append_inj_of_stopsAt c.afterOp.isspace_of_mem c'.afterOp.isspace_of_mem
    (hletters c t) (hletters c' t') h.2
  exact ⟨hw, (append_inj_of_stopsAt (hwhat c) (hwhat c') ht ht' h).2⟩

/-- What follows a clause stops its permissions. -/
theorem stopsAt_tailText (rest : List (Spaces × Clause)) :
    StopsAt permClass (ClauseList.tailText rest) := by
  cases rest with
  | nil => exact stopsAt_nil _
  | cons next rest =>
      obtain ⟨sp, c⟩ := next
      rw [ClauseList.tailText_cons, stopsAt_cons]
      rfl

/-! ## What is accepted -/

/-- The texts `mode_munch` accepts. -/
def Accepted (s : LStr) : Prop :=
  LonghandLetters s ∨ (s ≠ [] ∧ ∀ c ∈ s, isOctal c) ∨ matched s clauseGuard

/-- A text the clause guard matches starts with a class letter. -/
theorem exists_cons_of_clauseGuard {s : LStr} (h : matched s clauseGuard) :
    ∃ (w : Who) (t : LStr), s = w.char :: t := by
  obtain ⟨c, t, hwho, rfl, -⟩ := (matched_clauseGuard_iff s).mp h
  obtain ⟨w, who, hw⟩ := List.exists_cons_of_ne_nil hwho
  exact ⟨w, _, by rw [Clause.text, hw, List.map_cons, List.cons_append, List.cons_append]⟩

/-- No letter for users is one of a longhand. -/
theorem isLonghandLetter_who (w : Who) : isLonghandLetter w.char = false := by
  cases w <;> rfl

/-- No letter for users is an octal digit. -/
theorem isOctal_who (w : Who) : isOctal w.char = false := by cases w <;> rfl

section Munch

variable {ν : Type} (B : Bitwise ν) (m : ν)

/-- **Acceptance**: `mode_munch` returns a mode on the accepted texts and nil on the others; it
never raises. -/
theorem modeMunch_decided (s : LStr) :
    (Accepted s ∧ ∃ bits, modeMunch B m (some s) = .ok (.mode bits)) ∨
    (¬ Accepted s ∧ ∃ err, modeMunch B m (some s) = .ok (.bad err)) := by
  by_cases hlong : s.length = 9 ∧ matched s "^[-rswx]+$"
  · obtain ⟨hlen, hletters⟩ := hlong
    obtain ⟨hne, hletters⟩ := (matched_longhand s).mp hletters
    rw [modeMunch_longhand B m hlen hletters]
    -- Nine longhand letters: `rwxrwxrwx` decides, and the other two formats are out.
    cases hr : rwxrwxrwx B s with
    | some bits =>
        have hsetid := (rwxrwxrwx_isSome B s).mp (by simp [hr])
        exact .inl ⟨.inl ⟨hlen, hletters, hsetid⟩, bits, rfl⟩
    | none =>
        refine .inr ⟨?_, none, rfl⟩
        -- The first letter tells the three formats apart.
        rintro (h | ⟨-, hoct⟩ | hguard)
        · have hsome := (rwxrwxrwx_isSome B s).mpr h.setid
          rw [hr] at hsome
          cases hsome
        · obtain ⟨c, t, rfl⟩ := List.exists_cons_of_ne_nil hne
          have hc := isLonghandLetter_of_isOctal (hoct c (by simp))
          rw [hletters c (by simp)] at hc
          cases hc
        · obtain ⟨w, t, rfl⟩ := exists_cons_of_clauseGuard hguard
          have hw := isLonghandLetter_who w
          rw [hletters w.char (by simp)] at hw
          cases hw
  · by_cases hoct : s ≠ [] ∧ ∀ c ∈ s, isOctal c
    · obtain ⟨bits, hbits⟩ := exists_octalMode B hoct.2
      refine .inl ⟨.inr (.inl hoct), bits, ?_⟩
      rw [modeMunch_octal B m hoct.1 hoct.2, hbits]
      rfl
    · by_cases hguard : matched s clauseGuard
      · obtain ⟨c, t, hwho, rfl, -⟩ := (matched_clauseGuard_iff s).mp hguard
        exact .inl ⟨.inr (.inr hguard), _, modeMunch_clause_append B m hwho t⟩
      · refine .inr ⟨?_, some "bad mode", ?_⟩
        · rintro (h | h | h)
          · have hne : s ≠ [] := List.ne_nil_of_length_eq_add_one h.length_eq
            exact hlong ⟨h.length_eq, (matched_longhand s).mpr ⟨hne, h.letters⟩⟩
          · exact hoct h
          · exact hguard h
        · have hoct' : ¬ matched s "^[0-7]+$" := fun h => hoct ((matched_octal s).mp h)
          simp only [modeMunch]
          rw [if_neg hlong, if_neg hoct', if_neg hguard]

/-- **What `mode_munch` accepts**, whatever the mode is. -/
theorem modeMunch_accepts_iff (s : LStr) :
    (∃ bits, modeMunch B m (some s) = .ok (.mode bits)) ↔ Accepted s := by
  rcases modeMunch_decided B m s with ⟨h, hbits⟩ | ⟨h, err, herr⟩
  · exact ⟨fun _ => h, fun _ => hbits⟩
  · constructor
    · rintro ⟨bits, hbits⟩
      rw [herr] at hbits
      cases hbits
    · exact fun h' => absurd h' h

/-- Any other string is refused. -/
theorem modeMunch_rejects {s : LStr} (h : ¬ Accepted s) :
    ∃ err, modeMunch B m (some s) = .ok (.bad err) :=
  (modeMunch_decided B m s).resolve_left (fun h' => h h'.1) |>.2

end Munch

/-! ## Accepted but not well formed -/

/-- Nine longhand letters that `rwxrwxrwx` accepts although one of `r`, `w` and `x` is out of
its place, and that are not a dash in front of eight letters, which reads as a clause. -/
def MisplacedLetter (s : LStr) : Prop :=
  LonghandLetters s ∧
  (∃ p ∈ positions, sub s p.2 ≠ ['-'] ∧ sub s p.2 ≠ [p.1.1] ∧ sub s p.2 ≠ ['s']) ∧
  ¬ ∃ letters, s = '-' :: letters ∧ ∀ c ∈ letters, c ≠ '-'

/-- A clause with class letters, read as far as its permission letters go, in front of a text
that does not continue a list. -/
def TrailingText (s : LStr) : Prop :=
  ∃ (c : Clause) (t : LStr), c.who ≠ [] ∧ s = c.text ++ t ∧ StopsAt permClass t ∧
    ∀ rest, t ≠ ClauseList.tailText rest

/-- A longhand letter other than the dash is a permission letter. -/
theorem mem_permClass_of_isLonghandLetter {c : Char} (h : isLonghandLetter c) (hc : c ≠ '-') :
    permClass.mem c := by
  simp only [isLonghandLetter, Bool.or_eq_true, beq_iff_eq] at h
  rcases h with (((rfl | rfl) | rfl) | rfl) | rfl
  · exact absurd rfl hc
  all_goals rfl

/-- A clause list of longhand letters is a single dash in front of permission letters. -/
theorem ClauseList.eq_cons_of_isLonghandLetter {cs : ClauseList}
    (h : ∀ c ∈ cs.text, isLonghandLetter c) :
    ∃ letters, cs.text = '-' :: letters ∧ ∀ c ∈ letters, c ≠ '-' := by
  obtain ⟨⟨who, before, op, after, what, hwhat⟩, rest⟩ := cs
  have hwho : who = [] := by
    cases who with
    | nil => rfl
    | cons w who =>
        have hw := isLonghandLetter_who w
        rw [h w.char (by simp [ClauseList.text, Clause.text])] at hw
        cases hw
  -- No white space, class letter, comma, `+` or `=` is a longhand letter.
  have hspace : ∀ c, isspace c → isLonghandLetter c = false := by
    intro c hc
    by_contra hlong
    rw [Bool.not_eq_false] at hlong
    simp only [isLonghandLetter, Bool.or_eq_true, beq_iff_eq] at hlong
    rcases hlong with (((rfl | rfl) | rfl) | rfl) | rfl <;> exact absurd hc (by decide)
  have hempty : ∀ sp : Spaces, (∀ c ∈ sp.chars, isLonghandLetter c) → sp.chars = [] := by
    intro sp hsp
    by_contra hne
    obtain ⟨c, t, hct⟩ := List.exists_cons_of_ne_nil hne
    have hc := hspace c (sp.isspace_of_mem c (by simp [hct]))
    rw [hsp c (by simp [hct])] at hc
    cases hc
  have hbefore := hempty before fun c hc => h c (by simp [ClauseList.text, Clause.text, hc])
  have hafter := hempty after fun c hc =>
    h c (by simp [ClauseList.text, Clause.text, Clause.opText, hc])
  have hop : op = .remove := by
    have hop := h (opChar op) (by simp [ClauseList.text, Clause.text, Clause.opText])
    revert hop
    cases op <;> decide
  have hrest : rest = [] := by
    cases rest with
    | nil => rfl
    | cons next rest =>
        obtain ⟨sp, c⟩ := next
        have hcomma := h ',' (by simp [ClauseList.text, ClauseList.tailText_cons])
        exact absurd hcomma (by decide)
  subst hwho hop hrest
  refine ⟨what.map Perm.char, ?_, ?_⟩
  · simp [ClauseList.text, Clause.text, Clause.opText, hbefore, hafter, opChar]
  · intro c hc
    obtain ⟨p, -, rfl⟩ := List.mem_map.mp hc
    cases p <;> decide

/-- An accepted text is well formed unless it is of one of the two kinds. -/
theorem wellFormed_of_accepted {s : LStr} (h : Accepted s) (hplaced : ¬ MisplacedLetter s)
    (hlist : ¬ TrailingText s) : WellFormed s := by
  rcases h with h | h | h
  · -- A dash in front of eight letters reads as a clause as well.
    by_cases hdash : ∃ letters, s = '-' :: letters ∧ ∀ c ∈ letters, c ≠ '-'
    · obtain ⟨letters, rfl, hletters⟩ := hdash
      obtain ⟨what, rfl⟩ := exists_perm fun c hc =>
        mem_permClass_of_isLonghandLetter (h.letters c (by simp [hc])) (hletters c hc)
      have hwhat : what ≠ [] := by
        rintro rfl
        exact absurd h.length_eq (by decide)
      exact .inr (.inr ⟨⟨⟨[], Spaces.empty, .remove, Spaces.empty, what, hwhat⟩, []⟩, by
        simp [ClauseList.text, Clause.text, Clause.opText, Spaces.empty, opChar]⟩)
    · refine .inl ((exists_longhand_iff s).mpr ⟨h.length_eq, fun p hp => ?_⟩)
      by_contra hbad
      push Not at hbad
      obtain ⟨hdash', hown, hs⟩ := hbad
      refine hplaced ⟨h, ⟨p, hp, hdash', hown, fun hsub => ?_⟩, hdash⟩
      rcases h.setid p hp hsub with h3 | h6
      · exact (hs hsub).1 h3
      · exact (hs hsub).2 h6
  · exact .inr (.inl h)
  · obtain ⟨c, t, hwho, rfl, ht⟩ := (matched_clauseGuard_iff s).mp h
    by_contra hbad
    refine hlist ⟨c, t, hwho, rfl, ht, fun rest hrest => hbad (.inr (.inr ⟨⟨c, rest⟩, ?_⟩))⟩
    rw [ClauseList.text, hrest]

/-- A misplaced letter is not well formed. -/
theorem MisplacedLetter.not_wellFormed {s : LStr} (h : MisplacedLetter s) : ¬ WellFormed s := by
  obtain ⟨hs, ⟨p, hp, hdash, hown, hset⟩, hclause⟩ := h
  rintro (hlong | ⟨hne, hoct⟩ | ⟨cs, rfl⟩)
  · -- not a longhand: the misplaced letter
    rcases ((exists_longhand_iff s).mp hlong).2 p hp with h | h | h
    · exact hdash h
    · exact hown h
    · exact hset h.1
  · obtain ⟨c, t, rfl⟩ := List.exists_cons_of_ne_nil hne
    have hc := isLonghandLetter_of_isOctal (hoct c (by simp))
    rw [hs.letters c (by simp)] at hc
    cases hc
  · -- not a clause list: that would be a dash in front of letters
    exact hclause (ClauseList.eq_cons_of_isLonghandLetter hs.letters)

/-- A clause in front of a text that does not continue it is not well formed. -/
theorem TrailingText.not_wellFormed {s : LStr} (h : TrailingText s) : ¬ WellFormed s := by
  obtain ⟨c, t, hwho, rfl, ht, hrest⟩ := h
  obtain ⟨w, who, hw⟩ := List.exists_cons_of_ne_nil hwho
  have hmem : w.char ∈ c.text ++ t := by simp [Clause.text, hw]
  rintro (⟨l, hl⟩ | ⟨-, hoct⟩ | ⟨cs, hcs⟩)
  · have hc := isLonghandLetter_who w
    rw [isLonghandLetter_of_mem_text (hl ▸ hmem)] at hc
    cases hc
  · have hc := isOctal_who w
    rw [hoct _ hmem] at hc
    cases hc
  · -- not a clause list: what follows the clause would continue it
    exact hrest cs.rest (Clause.text_append_inj ht (stopsAt_tailText cs.rest) hcs).2

/-- A longhand with a misplaced letter is accepted. -/
theorem MisplacedLetter.accepted {s : LStr} (h : MisplacedLetter s) : Accepted s := .inl h.1

/-- A clause with text behind it is accepted. -/
theorem TrailingText.accepted {s : LStr} (h : TrailingText s) : Accepted s := by
  obtain ⟨c, t, hwho, rfl, ht, -⟩ := h
  exact .inr (.inr ((matched_clauseGuard_iff _).mpr ⟨c, t, hwho, rfl, ht⟩))

section NotPartlyIgnored

variable {ν ρ : Type} [DecidableEq ν] (B : Bitwise ν) (K : Kernel ν ρ)

/-- No part of a mode string is ignored: a mode comes out of a well-formed string only, and any
other string makes `mode_munch` return nil and every call that interprets it raise and change
nothing. `open` interprets its mode string with `O_CREAT`, `umask` every one but the empty one,
which it reads as no argument; the mask of a process never exceeds `RWXALL`. -/
structure NotPartlyIgnored (s : LStr) : Prop where
  wellFormed : ∀ m bits, modeMunch B m (some s) = .ok (.mode bits) → WellFormed s
  rejects : ¬ WellFormed s → ∀ m, ∃ err, modeMunch B m (some s) = .ok (.bad err)
  chmod : ¬ WellFormed s → ∀ path p, RaisesUnchanged (chmod B K path s) p
  creat : ¬ WellFormed s → ∀ path p, RaisesUnchanged (creat B K path s) p
  posixOpen : ¬ WellFormed s → ∀ path oflags p, B.band oflags [K.O_CREAT] ≠ B.ofNat 0 →
    RaisesUnchanged (posixOpen B K path oflags (some s)) p
  msgget : ¬ WellFormed s → ∀ key msgflg p, RaisesUnchanged (msgget B K key msgflg (some s)) p
  umask : ¬ WellFormed s → s ≠ [] → ∀ p, B.band p.mask [RWXALL B] = p.mask →
    RaisesUnchanged (umask B (some s)) p

/-- **No accepted mode string is partly ignored**, except for the two kinds: a misplaced letter
in a longhand, and a text behind a clause that does not continue a clause list. -/
theorem notPartlyIgnored_iff (s : LStr) :
    NotPartlyIgnored B K s ↔ ¬ MisplacedLetter s ∧ ¬ TrailingText s := by
  have hbits : Accepted s → ∃ bits, modeMunch B (B.ofNat 0) (some s) = .ok (.mode bits) :=
    (modeMunch_accepts_iff B (B.ofNat 0) s).mpr
  constructor
  · intro h
    refine ⟨fun hbad => ?_, fun hbad => ?_⟩
    · obtain ⟨bits, hm⟩ := hbits hbad.accepted
      exact hbad.not_wellFormed (h.wellFormed _ _ hm)
    · obtain ⟨bits, hm⟩ := hbits hbad.accepted
      exact hbad.not_wellFormed (h.wellFormed _ _ hm)
  · rintro ⟨hplaced, hlist⟩
    have hrej : ¬ WellFormed s → ∀ m, ∃ err, modeMunch B m (some s) = .ok (.bad err) :=
      fun hs m => modeMunch_rejects B m fun h => hs (wellFormed_of_accepted h hplaced hlist)
    exact
      { wellFormed := fun m bits h => wellFormed_of_accepted
          ((modeMunch_accepts_iff B m s).mp ⟨bits, h⟩) hplaced hlist
        rejects := hrej
        chmod := fun hs => chmod_rejected B K (hrej hs)
        creat := fun hs => creat_rejected B K (hrej hs)
        posixOpen := fun hs path _ p hcreat => posixOpen_rejected B K (hrej hs) path hcreat p
        msgget := fun hs => msgget_rejected B K (hrej hs)
        umask := fun hs hne _ hmask => umask_rejected B (hrej hs) hne hmask }

end NotPartlyIgnored

/-- `rrrrrrrrr` sets the three read bits, and `u+rz` does what `u+r` does. -/
theorem accepts_rrrrrrrrr_and_trailing :
    (modeMunch posixBitwise 0 (some "rrrrrrrrr".toList) = .ok (.mode 0o444) ∧
      ¬ WellFormed "rrrrrrrrr".toList) ∧
    (modeMunch posixBitwise 0 (some "u+rz".toList) = .ok (.mode 0o400) ∧
      ¬ WellFormed "u+rz".toList) := by
  have hletters : LonghandLetters "rrrrrrrrr".toList := ⟨rfl, List.all_eq_true.mp rfl, by decide⟩
  refine ⟨⟨by decide, MisplacedLetter.not_wellFormed ⟨hletters, by decide, ?_⟩⟩,
    by decide, TrailingText.not_wellFormed
      ⟨⟨[.u], .empty, .add, .empty, [.r], by decide⟩, ['z'], by decide, rfl,
        (stopsAt_cons permClass 'z' []).mpr (by decide), ?_⟩⟩
  · rintro ⟨letters, h, -⟩
    exact absurd (congrArg List.head? h) (by simp)
  · rintro (_ | ⟨⟨sp, c⟩, rest⟩) h
    · cases h
    · rw [ClauseList.tailText_cons] at h
      exact absurd (List.cons.inj h).1 (by decide)

end LuaPosix

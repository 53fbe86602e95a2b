import LuaPosix.Base.Backends
import LuaPosix.Compat.ClauseBits

/-! # Applying a mode string again

What `gsub` finds in a mode string does not depend on the mode, and every clause it finds either
edits the low word of the mode or does nothing. A second application finds every bit as the last
edit that settles it wants it. -/

namespace LuaPosix

open LuaPattern MaskEdit

/-! ## Back-ends on words -/

/-- A back-end whose operations on two numbers are those of words of a fixed width. -/
structure OnWords {ν : Type} (B : Bitwise ν) (w : Nat) where
  /-- The word an operation takes from a number. -/
  word : ν → BitVec w
  /-- The number it gives back for a word. -/
  number : BitVec w → ν
  word_number : ∀ x, word (number x) = x
  band_eq : ∀ a v, B.band a [v] = number (word a &&& word v)
  bor_eq : ∀ a v, B.bor a [v] = number (word a ||| word v)
  bnot_eq : ∀ a, B.bnot a = number (~~~word a)

/-- `posix._bitwise` works on the 64-bit integers themselves. -/
def posixBitwise.onWords : OnWords posixBitwise 64 where
  word a := a
  number x := x
  word_number _ := rfl
  band_eq _ _ := rfl
  bor_eq _ _ := rfl
  bnot_eq _ := rfl

/-- The libraries over doubles work on 32-bit words. -/
def Doubles.onWords (D : Doubles) {number : BitVec 32 → Int}
    (hword : ∀ w, D.word (number w) = w) : OnWords (D.bitwise number) 32 where
  word := D.word
  number := number
  word_number := hword
  band_eq _ _ := rfl
  bor_eq _ _ := rfl
  bnot_eq _ := rfl

/-! ## The clauses as edits -/

section Edits

variable {ν : Type} {B : Bitwise ν} {w : Nat} (W : OnWords B w)

/-- The edit a match is, if its operator is one. -/
def editOf : List LStr → Option (Edit (BitVec w))
  | [who, op, what] =>
      let edit (op : Op) := some ⟨op, W.word (whoBits B who), W.word (whatBits B what)⟩
      if op = ['+'] then edit .add
      else if op = ['-'] then edit .remove
      else if op = ['='] then edit .assign
      else none
  | _ => none

/-- A mode after some edits: its word is edited, if there are any. -/
def edited (m : ν) : List (Edit (BitVec w)) → ν
  | [] => m
  | e :: es => W.number ((e :: es).foldl editWord (W.word m))

/-- A match edits the mode as its captures say. -/
theorem mungeClause_eq (m : ν) (caps : List LStr) :
    (mungeClause B m caps).1 = edited W m (editOf W caps).toList := by
  rcases caps with - | ⟨who, - | ⟨op, - | ⟨what, - | ⟨cap, caps⟩⟩⟩⟩
  · rfl
  · rfl
  · rfl
  · rw [mungeClause, editOf]
    split_ifs with hadd hremove hassign
    · simp only [W.bor_eq, W.band_eq, W.word_number]
      rfl
    · simp only [W.bnot_eq, W.band_eq, W.word_number]
      rfl
    · simp only [W.bor_eq, W.bnot_eq, W.band_eq, W.word_number]
      rfl
    · rfl
  · rfl

/-- Edits after an edit. -/
theorem edited_edited_cons (m : ν) (e : Edit (BitVec w)) (es : List (Edit (BitVec w))) :
    edited W (edited W m [e]) es = edited W m (e :: es) := by
  cases es with
  | nil => rfl
  | cons e' es =>
      show W.number (List.foldl editWord (W.word (W.number (editWord (W.word m) e))) (e' :: es)) = _
      rw [W.word_number]
      rfl

/-- All matches edit the mode one after the other. -/
theorem foldl_mungeClause (m : ν) (calls : List (List LStr)) :
    calls.foldl (fun m caps => (mungeClause B m caps).1) m
      = edited W m (calls.filterMap (editOf W)) := by
  induction calls generalizing m with
  | nil => rfl
  | cons caps calls ih =>
      rw [List.foldl_cons, ih, mungeClause_eq W]
      cases hedit : editOf W caps with
      | none => rw [List.filterMap_cons_none hedit, Option.toList_none, edited]
      | some e => rw [List.filterMap_cons_some hedit, Option.toList_some, edited_edited_cons]

/-- The same edits once more change nothing. -/
theorem edited_again (m : ν) (es : List (Edit (BitVec w))) :
    edited W (edited W m es) es = edited W m es := by
  cases es with
  | nil => rfl
  | cons e es => rw [edited, edited, W.word_number, foldl_editWord_again]

/-! ## Idempotence -/

/-- A mode string that is accepted does nothing more when it is applied again. -/
def Idempotent (B : Bitwise ν) : Prop := ∀ (m mode : ν) (s : LStr),
  modeMunch B m (some s) = .ok (.mode mode) → modeMunch B mode (some s) = .ok (.mode mode)

/-- **Edits of words are idempotent**, and so is `mode_munch` over them. -/
theorem idempotent_of_onWords {B : Bitwise ν} (W : OnWords B w) : Idempotent B := by
  intro m mode s h
  rw [modeMunch] at h ⊢
  split_ifs at h ⊢ with hlong hoct hguard
  -- Longhand and octal digits do not look at the mode.
  · exact h
  · exact h
  · obtain ⟨calls, hcalls⟩ :=
      exists_gsubLoop_eq_foldl (σ := ν) ⟨false, clauseItems⟩ (s.length + 1) s false
    rw [gsub, parse_clausePattern] at h ⊢
    have hmode : (gsubLoop ⟨false, clauseItems⟩ (mungeClause B) (s.length + 1) s false m).1
        = mode := Munched.mode.inj (Except.ok.inj h)
    have hagain : (gsubLoop ⟨false, clauseItems⟩ (mungeClause B) (s.length + 1) s false mode).1
        = mode := by
      rw [hcalls, foldl_mungeClause W] at hmode ⊢
      rw [← hmode, edited_again]
    exact congrArg (fun mode => Except.ok (Munched.mode mode)) hagain
  · exact h

end Edits

/-- **Applying a mode string is idempotent** on each of the back-ends, for every string that is
accepted, well formed or not. -/
theorem modeMunch_idempotent (D : Doubles) :
    Idempotent posixBitwise ∧ Idempotent (bit32 D) ∧ Idempotent (bit D) :=
  ⟨idempotent_of_onWords posixBitwise.onWords,
    idempotent_of_onWords (D.onWords D.word_toNat),
    idempotent_of_onWords (D.onWords D.word_toInt)⟩

end LuaPosix

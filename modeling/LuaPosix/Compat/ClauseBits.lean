import LuaPosix.Compat.ModeString

/-! # Clauses bit by bit

A clause edits every bit of the mode on its own. What a list of clauses does to one bit is a
matter of edits of a Boolean, so the frame and monotonicity of mask edits hold of modes. -/

namespace LuaPosix

open MaskEdit

/-! ## Edits of words -/

section Words

variable {w : Nat}

/-- Edit a word. -/
def editWord (x : BitVec w) (e : Edit (BitVec w)) : BitVec w :=
  match e.op with
  | .add => x ||| (e.sel &&& e.val)
  | .remove => x &&& ~~~(e.sel &&& e.val)
  | .assign => (x &&& ~~~e.sel) ||| (e.sel &&& e.val)

/-- An edit of a word, on one of its bits. -/
def onBit (k : Nat) (e : Edit (BitVec w)) : Edit Bool := ⟨e.op, e.sel.getLsbD k, e.val.getLsbD k⟩

/-- An edit of a word edits each of its bits. -/
theorem getLsbD_editWord (x : BitVec w) (e : Edit (BitVec w)) {k : Nat} (hk : k < w) :
    (editWord x e).getLsbD k = (onBit k e).apply (x.getLsbD k) := by
  obtain ⟨op, sel, val⟩ := e
  unfold editWord onBit Edit.apply
  cases op with
  | add =>
      simp only [BitVec.getLsbD_or, BitVec.getLsbD_and]
      rfl
  | remove =>
      simp only [BitVec.getLsbD_and, BitVec.getLsbD_not, BitVec.getLsbD_and, decide_eq_true hk]
      cases x.getLsbD k <;> cases sel.getLsbD k <;> cases val.getLsbD k <;> rfl
  | assign =>
      simp only [BitVec.getLsbD_or, BitVec.getLsbD_and, BitVec.getLsbD_not, BitVec.getLsbD_and,
        decide_eq_true hk]
      cases x.getLsbD k <;> cases sel.getLsbD k <;> cases val.getLsbD k <;> rfl

/-- A bit of a word under a list of edits. -/
theorem getLsbD_foldl_editWord (x : BitVec w) (es : List (Edit (BitVec w))) {k : Nat} (hk : k < w) :
    (es.foldl editWord x).getLsbD k = applyAll (x.getLsbD k) (es.map (onBit k)) := by
  induction es generalizing x with
  | nil => rfl
  | cons e es ih => rw [List.foldl_cons, ih, List.map_cons, applyAll_cons, getLsbD_editWord x e hk]

/-- **Edits made again change nothing**: the last edit that settles a bit settles it as before. -/
theorem foldl_editWord_again (x : BitVec w) (es : List (Edit (BitVec w))) :
    es.foldl editWord (es.foldl editWord x) = es.foldl editWord x := by
  refine BitVec.eq_of_getLsbD_eq fun k hk => ?_
  rw [getLsbD_foldl_editWord _ es hk, getLsbD_foldl_editWord x es hk]
  exact (applyAll_absorbs_iff _ _).mpr (fun v h => h) _

end Words

/-! ## Edits of modes -/

/-- A clause as an edit of one bit of the mode. -/
def Clause.bitEdit (k : Nat) (c : Clause) : Edit Bool :=
  ⟨c.op, c.sel.getLsbD k, c.val.getLsbD k⟩

/-- A clause edits each bit of a mode. -/
theorem Clause.apply_getLsbD (m : LuaInteger) (c : Clause) {k : Nat} (hk : k < 64) :
    (c.apply m).getLsbD k = (c.bitEdit k).apply (m.getLsbD k) := by
  have hedit : c.apply m = editWord m ⟨c.op, c.sel, c.val⟩ := by
    unfold Clause.apply Clause.edit editWord
    cases c.op <;> rfl
  rw [hedit, getLsbD_editWord m _ hk]
  rfl

/-- A bit of the mode under a list of clauses. -/
theorem foldl_apply_getLsbD (m : LuaInteger) (cs : List Clause) {k : Nat} (hk : k < 64) :
    (cs.foldl Clause.apply m).getLsbD k = applyAll (m.getLsbD k) (cs.map (Clause.bitEdit k)) := by
  induction cs generalizing m with
  | nil => rfl
  | cons c cs ih =>
      rw [List.foldl_cons, ih, List.map_cons, applyAll_cons, Clause.apply_getLsbD m c hk]

/-- A bit that no clause selects stays. -/
theorem foldl_apply_unselected (m : LuaInteger) {cs : List Clause} {k : Nat} (hk : k < 64)
    (h : ∀ c ∈ cs, c.sel.getLsbD k = false) :
    (cs.foldl Clause.apply m).getLsbD k = m.getLsbD k := by
  have hframe : applyAll (m.getLsbD k) (cs.map (Clause.bitEdit k)) ⊓ true
      = m.getLsbD k ⊓ true := by
    refine applyAll_inf_of_disjoint fun e he => ?_
    obtain ⟨c, hc, rfl⟩ := List.mem_map.mp he
    have hsel : (c.bitEdit k).sel = false := h c hc
    rw [hsel]
    exact disjoint_bot_left
  rw [foldl_apply_getLsbD m cs hk]
  simpa using hframe

/-- Clauses with `+` only clear no bit. -/
theorem foldl_apply_add (m : LuaInteger) {cs : List Clause} {k : Nat} (hk : k < 64)
    (h : ∀ c ∈ cs, c.op = .add) (hm : m.getLsbD k) : (cs.foldl Clause.apply m).getLsbD k := by
  have hle : m.getLsbD k ≤ applyAll (m.getLsbD k) (cs.map (Clause.bitEdit k)) := by
    refine le_applyAll fun e he => ?_
    obtain ⟨c, hc, rfl⟩ := List.mem_map.mp he
    exact h c hc
  rw [foldl_apply_getLsbD m cs hk]
  exact hle hm

/-- Clauses with `-` only set no bit. -/
theorem foldl_apply_remove (m : LuaInteger) {cs : List Clause} {k : Nat} (hk : k < 64)
    (h : ∀ c ∈ cs, c.op = .remove) (hm : (cs.foldl Clause.apply m).getLsbD k) : m.getLsbD k := by
  have hle : applyAll (m.getLsbD k) (cs.map (Clause.bitEdit k)) ≤ m.getLsbD k := by
    refine applyAll_le fun e he => ?_
    obtain ⟨c, hc, rfl⟩ := List.mem_map.mp he
    exact h c hc
  rw [foldl_apply_getLsbD m cs hk] at hm
  exact hle hm

/-- Clauses do nothing behind others, whatever the starting mode, exactly when every bit they
settle has been settled to the same by the others. -/
theorem foldl_apply_absorbs_iff (cs cs' : List Clause) :
    (∀ m, cs'.foldl Clause.apply (cs.foldl Clause.apply m) = cs.foldl Clause.apply m) ↔
      ∀ k < 64, ∀ v, settled (cs'.map (Clause.bitEdit k)) = some v →
        settled (cs.map (Clause.bitEdit k)) = some v := by
  constructor
  · intro h k hk
    refine (applyAll_absorbs_iff _ _).mp fun b => ?_
    -- Some starting mode has the bit as wanted.
    obtain ⟨m, rfl⟩ : ∃ m : LuaInteger, m.getLsbD k = b := by
      cases b with
      | false => exact ⟨0, BitVec.getLsbD_zero⟩
      | true => exact ⟨BitVec.allOnes 64, by rw [BitVec.getLsbD_allOnes, decide_eq_true hk]⟩
    rw [← foldl_apply_getLsbD m cs hk, ← foldl_apply_getLsbD _ cs' hk, h m]
  · intro h m
    refine BitVec.eq_of_getLsbD_eq fun k hk => ?_
    rw [foldl_apply_getLsbD _ cs' hk, foldl_apply_getLsbD m cs hk]
    exact (applyAll_absorbs_iff _ _).mpr (h k hk) _

/-- A bit of a union of masks. -/
theorem getLsbD_foldr_or {α : Type} (f : α → LuaInteger) (xs : List α) (k : Nat) :
    (xs.foldr (fun x m => f x ||| m) 0).getLsbD k = xs.any fun x => (f x).getLsbD k := by
  induction xs with
  | nil => simp
  | cons x xs ih => rw [List.foldr_cons, BitVec.getLsbD_or, ih, List.any_cons]

end LuaPosix

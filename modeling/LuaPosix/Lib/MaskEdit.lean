import Mathlib.Data.List.Induction
import Mathlib.Order.BooleanAlgebra.Basic

/-! # Editing a mask

Symbolic edits of a mask over a Boolean algebra: an edit selects part of the mask and adds a
value there, removes it, or assigns it. A list of edits leaves what it does not select, and
one that only adds or only removes moves the mask one way. Over `Bool` an edit either settles
the bit or leaves it, so the last edit that settles a bit decides it. -/

namespace MaskEdit

/-- What an edit does with its value. -/
inductive Op where
  | add
  | remove
  | assign
  deriving DecidableEq, Repr

/-- An edit: an operation, the selected part of the mask and a value. -/
structure Edit (α : Type*) where
  op : Op
  /-- The part of the mask the edit is about. -/
  sel : α
  /-- The value, of which only the selected part counts. -/
  val : α
  deriving DecidableEq, Repr

variable {α : Type*} [BooleanAlgebra α]

/-- Apply an edit to a mask. -/
def Edit.apply (m : α) (e : Edit α) : α :=
  match e.op with
  | .add => m ⊔ (e.sel ⊓ e.val)
  | .remove => m \ (e.sel ⊓ e.val)
  | .assign => (m \ e.sel) ⊔ (e.sel ⊓ e.val)

/-- Apply edits from left to right. -/
def applyAll (m : α) (es : List (Edit α)) : α := es.foldl Edit.apply m

/-- The edits are applied in order. -/
@[simp] theorem applyAll_cons (m : α) (e : Edit α) (es : List (Edit α)) :
    applyAll m (e :: es) = applyAll (e.apply m) es := rfl

/-! ## Frame and monotonicity -/

/-- An edit changes nothing outside what it selects. -/
theorem Edit.apply_inf_of_disjoint {m b : α} {e : Edit α} (h : Disjoint e.sel b) :
    e.apply m ⊓ b = m ⊓ b := by
  have hval : Disjoint (e.sel ⊓ e.val) b := h.mono_left inf_le_left
  obtain ⟨op, sel, val⟩ := e
  cases op with
  | add =>
      rw [Edit.apply, inf_sup_right, hval.eq_bot, sup_bot_eq]
  | remove =>
      rw [Edit.apply, sdiff_inf_right_comm, (hval.symm.mono_left inf_le_right).sdiff_eq_left]
  | assign =>
      rw [Edit.apply, inf_sup_right, hval.eq_bot, sup_bot_eq, sdiff_inf_right_comm,
        (h.symm.mono_left inf_le_right).sdiff_eq_left]

/-- **Frame**: what no edit selects is left as it was. -/
theorem applyAll_inf_of_disjoint {m b : α} {es : List (Edit α)}
    (h : ∀ e ∈ es, Disjoint e.sel b) : applyAll m es ⊓ b = m ⊓ b := by
  induction es generalizing m with
  | nil => rfl
  | cons e es ih =>
      rw [applyAll_cons, ih fun e' he' => h e' (by simp [he']),
        Edit.apply_inf_of_disjoint (h e (by simp))]

/-- Additions only never clear anything. -/
theorem le_applyAll {m : α} {es : List (Edit α)} (h : ∀ e ∈ es, e.op = .add) :
    m ≤ applyAll m es := by
  induction es generalizing m with
  | nil => exact le_rfl
  | cons e es ih =>
      refine le_trans ?_ (ih fun e' he' => h e' (by simp [he']))
      rw [Edit.apply, h e (by simp)]
      exact le_sup_left

/-- Removals only never set anything. -/
theorem applyAll_le {m : α} {es : List (Edit α)} (h : ∀ e ∈ es, e.op = .remove) :
    applyAll m es ≤ m := by
  induction es generalizing m with
  | nil => exact le_rfl
  | cons e es ih =>
      refine le_trans (ih fun e' he' => h e' (by simp [he'])) ?_
      rw [Edit.apply, h e (by simp)]
      exact sdiff_le

/-! ## A single bit -/

/-- What an edit settles a bit to, if it is about that bit. -/
def Edit.settle (e : Edit Bool) : Option Bool :=
  if e.sel then
    if e.val then some (e.op ≠ .remove)
    else if e.op = .assign then some false
    else none
  else none

/-- On a single bit an edit settles it or leaves it. -/
theorem Edit.apply_bool (m : Bool) (e : Edit Bool) : e.apply m = e.settle.getD m := by
  obtain ⟨op, sel, val⟩ := e
  cases op <;> cases sel <;> cases val <;> cases m <;> rfl

/-- What a list of edits settles a bit to: the last edit that settles it decides. -/
def settled (es : List (Edit Bool)) : Option Bool := es.reverse.findSome? Edit.settle

/-- A bit after a list of edits. -/
theorem applyAll_bool (m : Bool) (es : List (Edit Bool)) :
    applyAll m es = (settled es).getD m := by
  -- From the right: the last edit settles the bit, or those before it do.
  induction es using List.reverseRecOn with
  | nil => rfl
  | append_singleton es e ih =>
      have hlast : applyAll m (es ++ [e]) = e.apply (applyAll m es) := by
        simp [applyAll, List.foldl_append]
      rw [hlast, Edit.apply_bool, ih, settled, settled, List.reverse_append,
        List.reverse_singleton, List.singleton_append, List.findSome?_cons]
      cases e.settle <;> rfl

/-- Edits do nothing behind others on any bit exactly when they settle it to what the others
have settled it to, if they settle it at all. -/
theorem applyAll_absorbs_iff (es es' : List (Edit Bool)) :
    (∀ m, applyAll (applyAll m es) es' = applyAll m es) ↔
      ∀ v, settled es' = some v → settled es = some v := by
  simp only [applyAll_bool]
  constructor
  · intro h v hv
    rw [hv] at h
    cases hes : settled es with
    | some w =>
        rw [hes] at h
        exact congrArg some (h v).symm
    | none =>
        rw [hes] at h
        -- Nothing before settles the bit, so its start value can be chosen against `v`.
        exact absurd (h (!v)) (by simp)
  · intro h m
    cases hv : settled es' with
    | none => rfl
    | some v =>
        rw [h v hv]
        rfl

end MaskEdit

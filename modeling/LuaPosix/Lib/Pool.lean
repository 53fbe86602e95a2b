import Mathlib.Data.List.Nodup
import Mathlib.Logic.Function.Basic

/-! # Pools of resources

Resources that are made, used and released, each known by the number of those made before it. To
use or release one that is not open is a misuse, after which nothing is promised; it is only
written down. In a sound pool the open ones are those made and not released, and nothing has been
released twice. -/

universe u v

/-- A pool. -/
structure Pool (ρ : Type u) where
  /-- The resources that are open. -/
  live : Nat → Option ρ
  made : Nat
  released : List Nat
  /-- A resource that is not open has been used or released. -/
  misused : Bool

namespace Pool

variable {ρ : Type u} {α : Type v}

/-- Nothing has been made yet. -/
def empty : Pool ρ := ⟨fun _ => none, 0, [], false⟩

/-- Make a resource. -/
def make (P : Pool ρ) (r : ρ) : Nat × Pool ρ :=
  (P.made, { P with live := Function.update P.live P.made (some r), made := P.made + 1 })

/-- Use a resource; where it is not open the result is `junk`. -/
def use (P : Pool ρ) (i : Nat) (junk : α) (f : ρ → α × ρ) : α × Pool ρ :=
  match P.live i with
  | some r => ((f r).1, { P with live := Function.update P.live i (some (f r).2) })
  | none => (junk, { P with misused := true })

/-- Release a resource. -/
def release (P : Pool ρ) (i : Nat) : Pool ρ :=
  match P.live i with
  | some _ => { P with live := Function.update P.live i none, released := i :: P.released }
  | none => { P with misused := true }

/-- A sound pool. -/
structure Sound (P : Pool ρ) : Prop where
  live_iff : ∀ i, P.live i ≠ none ↔ i < P.made ∧ i ∉ P.released
  released : ∀ i ∈ P.released, i < P.made
  once : P.released.Nodup

variable {P : Pool ρ} {i j : Nat} {r : ρ}

/-- An empty pool is sound. -/
theorem sound_empty : (empty : Pool ρ).Sound where
  live_iff i := iff_of_false (fun h => h rfl) fun h => Nat.not_lt_zero i h.1
  released _ h := absurd h List.not_mem_nil
  once := List.nodup_nil

/-! ## Each operation -/

/-- A resource that is there is used and changed. -/
theorem use_of_live {junk : α} {f : ρ → α × ρ} (h : P.live i = some r) :
    P.use i junk f = ((f r).1, { P with live := Function.update P.live i (some (f r).2) }) := by
  rw [use, h]

/-- One that is not gives anything, and the misuse is recorded. -/
theorem use_of_not_live {junk : α} {f : ρ → α × ρ} (h : P.live i = none) :
    P.use i junk f = (junk, { P with misused := true }) := by
  rw [use, h]

/-- A resource that is there is given back. -/
theorem release_of_live (h : P.live i = some r) : P.release i =
    { P with live := Function.update P.live i none, released := i :: P.released } := by
  rw [release, h]

/-- Giving back one that is not is a misuse. -/
theorem release_of_not_live (h : P.live i = none) : P.release i = { P with misused := true } := by
  rw [release, h]

/-- A new resource is none of those there are. -/
theorem Sound.live_made (h : P.Sound) : P.live P.made = none := by
  by_contra hne
  exact absurd ((h.live_iff _).mp hne).1 (Nat.lt_irrefl _)

/-- A new resource leaves the pool sound. -/
theorem Sound.make (h : P.Sound) (r : ρ) : (P.make r).2.Sound where
  live_iff i := by
    show Function.update P.live P.made (some r) i ≠ none ↔ i < P.made + 1 ∧ i ∉ P.released
    by_cases hi : i = P.made
    · rw [hi, Function.update_self]
      have hnot : P.made ∉ P.released := fun hmem => absurd (h.released _ hmem) (Nat.lt_irrefl _)
      exact iff_of_true (Option.some_ne_none r) ⟨Nat.lt_succ_self _, hnot⟩
    · rw [Function.update_of_ne hi, h.live_iff]
      exact ⟨fun hl => ⟨Nat.lt_succ_of_lt hl.1, hl.2⟩, fun hl => ⟨by omega, hl.2⟩⟩
  released i hi := Nat.lt_succ_of_lt (h.released i hi)
  once := h.once

/-- So does using any. -/
theorem Sound.use (h : P.Sound) (i : Nat) (junk : α) (f : ρ → α × ρ) :
    (P.use i junk f).2.Sound := by
  cases hi : P.live i with
  | none =>
      rw [use_of_not_live hi]
      exact ⟨h.live_iff, h.released, h.once⟩
  | some r =>
      rw [use_of_live hi]
      refine ⟨fun j => ?_, h.released, h.once⟩
      show Function.update P.live i (some (f r).2) j ≠ none ↔ j < P.made ∧ j ∉ P.released
      rw [← h.live_iff]
      by_cases hj : j = i
      · rw [hj, Function.update_self, hi]
        exact iff_of_true (Option.some_ne_none _) (Option.some_ne_none _)
      · rw [Function.update_of_ne hj]

/-- So does giving back any. -/
theorem Sound.release (h : P.Sound) (i : Nat) : (P.release i).Sound := by
  cases hi : P.live i with
  | none =>
      rw [release_of_not_live hi]
      exact ⟨h.live_iff, h.released, h.once⟩
  | some r =>
      rw [release_of_live hi]
      have hlive := (h.live_iff i).mp (by rw [hi]; exact Option.some_ne_none r)
      refine ⟨fun j => ?_, fun j hj => ?_, h.once.cons hlive.2⟩
      · show Function.update P.live i none j ≠ none ↔ j < P.made ∧ j ∉ i :: P.released
        by_cases hj : j = i
        · rw [hj, Function.update_self]
          exact iff_of_false (fun h => h rfl) fun h => h.2 List.mem_cons_self
        · rw [Function.update_of_ne hj, h.live_iff, List.mem_cons, or_iff_right hj]
      · rcases List.mem_cons.mp hj with rfl | hj
        · exact hlive.1
        · exact h.released j hj

/-- To use a new resource is to make it as it is after the use. -/
theorem use_made (P : Pool ρ) (r : ρ) (junk : α) (f : ρ → α × ρ) :
    (P.make r).2.use P.made junk f = ((f r).1, (P.make (f r).2).2) := by
  rw [use_of_live (Function.update_self ..)]
  simp only [make, Function.update_idem]

/-- A new resource that is released leaves those there were. -/
theorem release_made (h : P.live P.made = none) (r : ρ) : (P.make r).2.release P.made =
    { P with made := P.made + 1, released := P.made :: P.released } := by
  have hlive : Function.update P.live P.made none = P.live := by
    rw [← h, Function.update_eq_self]
  rw [release_of_live (Function.update_self ..)]
  simp only [make, Function.update_idem, hlive]

/-- A misuse stays written down. -/
theorem misused_use (h : P.misused = true) (i : Nat) (junk : α) (f : ρ → α × ρ) :
    (P.use i junk f).2.misused = true := by
  rw [use]
  split
  · exact h
  · rfl

/-- A misuse is not forgotten. -/
theorem misused_release (h : P.misused = true) (i : Nat) : (P.release i).misused = true := by
  rw [release]
  split
  · exact h
  · rfl

end Pool

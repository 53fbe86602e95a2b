import Mathlib.Tactic.Common

/-! # Loops with a condition

`while cond do body end` for conditions and bodies that may fail, run for at most so many rounds.
Where a measure of the state goes down in every round, the loop ends, and how many rounds it was
given beyond that makes no difference. -/

namespace WhileLoop

universe u v

variable {σ : Type u} {ε : Type v}

/-- Test the condition at most `n` times. -/
def loop (timeout : ε) (cond : σ → Except ε Bool) (body : σ → Except ε σ) :
    Nat → σ → Except ε σ
  | 0, _ => .error timeout
  | n + 1, s =>
      match cond s with
      | .error e => .error e
      | .ok false => .ok s
      | .ok true => match body s with
          | .error e => .error e
          | .ok s' => loop timeout cond body n s'

variable {timeout : ε} {cond : σ → Except ε Bool} {body : σ → Except ε σ} {s s' : σ}

/-- A loop whose condition is false is over. -/
theorem loop_of_false (n : Nat) (h : cond s = .ok false) :
    loop timeout cond body (n + 1) s = .ok s := by
  rw [loop, h]

/-- Otherwise it goes on behind its body. -/
theorem loop_of_true (n : Nat) (h : cond s = .ok true) (hbody : body s = .ok s') :
    loop timeout cond body (n + 1) s = loop timeout cond body n s' := by
  rw [loop, h]
  dsimp only
  rw [hbody]

/-- **A loop ends** if its body keeps an invariant and lowers a measure, and then the invariant
holds and the condition does not. -/
theorem ends {Inv : σ → Prop} (measure : σ → Nat)
    (htest : ∀ s, Inv s → ∃ b, cond s = .ok b)
    (hround : ∀ s, Inv s → cond s = .ok true →
      ∃ s', body s = .ok s' ∧ Inv s' ∧ measure s' < measure s) (hs : Inv s) :
    ∃ s', Inv s' ∧ cond s' = .ok false ∧
      ∀ n, measure s < n → loop timeout cond body n s = .ok s' := by
  -- By induction on a bound of the measure.
  suffices h : ∀ k s, measure s < k → Inv s → ∃ s', Inv s' ∧ cond s' = .ok false ∧
      ∀ n, measure s < n → loop timeout cond body n s = .ok s' from
    h _ s (Nat.lt_succ_self _) hs
  intro k
  induction k with
  | zero => exact fun s h => absurd h (Nat.not_lt_zero _)
  | succ k ih =>
      intro s hk hs
      obtain ⟨b, hb⟩ := htest s hs
      cases b with
      | false =>
          refine ⟨s, hs, hb, fun n hn => ?_⟩
          obtain ⟨m, rfl⟩ := Nat.exists_eq_add_one.mpr (Nat.zero_lt_of_lt hn)
          exact loop_of_false m hb
      | true =>
          obtain ⟨s₁, hbody, hs₁, hlt⟩ := hround s hs hb
          obtain ⟨s', hs', hfalse, hloop⟩ := ih s₁ (by omega) hs₁
          refine ⟨s', hs', hfalse, fun n hn => ?_⟩
          obtain ⟨m, rfl⟩ := Nat.exists_eq_add_one.mpr (Nat.zero_lt_of_lt hn)
          rw [loop_of_true m hb hbody]
          exact hloop m (by omega)

end WhileLoop

import Mathlib.Data.List.TakeDrop
import Mathlib.Tactic.Common

/-! # Stacks with so much room

Computations that push values on a stack and go wrong where there is no room left. A loop whose
rounds leave a value each needs room for as many values as it has rounds; where there is less, it
goes wrong in the round after the last that fits, unless an earlier round ends it. -/

namespace BoundedStack

variable {α ρ ε β γ ι : Type}

/-- The values, the last one first, and whatever else a computation changes. -/
structure State (α ρ : Type) where
  values : List α
  rest : ρ

/-- Computations with a stack. -/
abbrev Comp (ε α ρ : Type) := EStateM ε (State α ρ)

/-- The state with one more value. -/
def State.push (s : State α ρ) (a : α) : State α ρ := { s with values := a :: s.values }

/-- The state with more values, the last of them on top. -/
def State.pushAll (s : State α ρ) (l : List α) : State α ρ :=
  { s with values := l.reverse ++ s.values }

/-- A value that is pushed takes one slot. -/
@[simp] theorem State.length_push (s : State α ρ) (a : α) :
    (s.push a).values.length = s.values.length + 1 := rfl

/-- Pushing leaves the rest of the state alone. -/
@[simp] theorem State.rest_pushAll (s : State α ρ) (l : List α) : (s.pushAll l).rest = s.rest := rfl

/-- So many values take so many slots. -/
@[simp] theorem State.length_pushAll (s : State α ρ) (l : List α) :
    (s.pushAll l).values.length = s.values.length + l.length := by
  rw [pushAll, List.length_append, List.length_reverse, Nat.add_comm]

/-- One value and then others. -/
theorem State.push_pushAll (s : State α ρ) (a : α) (l : List α) :
    (s.push a).pushAll l = s.pushAll (a :: l) := by
  rw [pushAll, pushAll, push, List.reverse_cons, List.append_assoc, List.singleton_append]

/-! ## Pushing and popping -/

/-- Push a value where there is room. -/
def push (room : Nat) (full : ε) (a : α) : Comp ε α ρ Unit := fun s =>
  if s.values.length < room then .ok () (s.push a) else .error full s

/-- Take the last `n` values off. -/
def pop (n : Nat) : Comp ε α ρ Unit := fun s => .ok () { s with values := s.values.drop n }

/-- Put another value in place of the last. -/
def replace (a : α) : Comp ε α ρ Unit := fun s => .ok () { s with values := a :: s.values.drop 1 }

variable {room : Nat} {full : ε} {a : α} {s s' : State α ρ}

/-- There is a slot. -/
theorem run_push_of_lt (h : s.values.length < room) :
    (push room full a).run s = .ok () (s.push a) := if_pos h

/-- There is no slot. -/
theorem run_push_of_le (h : room ≤ s.values.length) :
    (push room full a).run s = .error full s := if_neg (Nat.not_lt.mpr h)

/-! ## Steps -/

section Steps

variable {x : Comp ε α ρ β} {f : β → Comp ε α ρ γ} {b : β} {c : γ} {e : ε}

/-- What follows a part that returns. -/
theorem run_bind_of_ok (h : x.run s = .ok b s') : (x >>= f).run s = (f b).run s' := by
  rw [EStateM.run_bind, h]

/-- What follows a part that fails is not run. -/
theorem run_bind_of_error (h : x.run s = .error e s') : (x >>= f).run s = .error e s' := by
  rw [EStateM.run_bind, h]

/-- The result is forgotten. -/
theorem run_discard_of_ok (h : x.run s = .ok b s') : (discard x).run s = .ok () s' :=
  run_bind_of_ok h

/-- An error is not. -/
theorem run_discard_of_error (h : x.run s = .error e s') : (discard x).run s = .error e s' :=
  run_bind_of_error h

/-- The state a run ends in. -/
def after : EStateM.Result ε (State α ρ) β → State α ρ
  | .ok _ s => s
  | .error _ s => s

/-- A computation that changes nothing but the stack. -/
def Local (x : Comp ε α ρ β) : Prop := ∀ s, (after (x.run s)).rest = s.rest

/-- A value alone leaves the rest of the state alone. -/
theorem Local.pure (b : β) : Local (pure b : Comp ε α ρ β) := fun _ => rfl

/-- So does an error. -/
theorem Local.throw (e : ε) : Local (throw e : Comp ε α ρ β) := fun _ => rfl

/-- So does pushing a value, whether there is a slot or not. -/
theorem Local.push : Local (push room full a : Comp ε α ρ Unit) := by
  intro s
  by_cases h : s.values.length < room
  · rw [run_push_of_lt h]
    rfl
  · rw [run_push_of_le (Nat.not_lt.mp h)]
    rfl

/-- So does popping values. -/
theorem Local.pop (n : Nat) : Local (pop n : Comp ε α ρ Unit) := fun _ => rfl

/-- So does replacing the value on top. -/
theorem Local.replace : Local (replace a : Comp ε α ρ Unit) := fun _ => rfl

/-- So do two parts one after the other. -/
theorem Local.bind (hx : Local x) (hf : ∀ b, Local (f b)) : Local (x >>= f) := by
  intro s
  have hs := hx s
  cases h : x.run s with
  | ok b s' =>
      rw [h] at hs
      rw [run_bind_of_ok h, hf b s']
      exact hs
  | error e s' =>
      rw [h] at hs
      rw [run_bind_of_error h]
      exact hs

/-- So does a loop. -/
theorem Local.mapM {l : List ι} {body : ι → Comp ε α ρ β} (h : ∀ i, Local (body i)) :
    Local (l.mapM body) := by
  induction l with
  | nil => exact Local.pure []
  | cons i l ih =>
      rw [List.mapM_cons]
      exact (h i).bind fun b => ih.bind fun bs => Local.pure _

end Steps

/-! ## Loops -/

section Loops

/-- What a round does: with room for one more value it leaves one and goes on, or ends the loop;
without, it goes wrong. -/
structure Round (room : Nat) (full : ε) (x : Comp ε α ρ β) (r : Except ε (α × β)) : Prop where
  ok : ∀ s : State α ρ, s.values.length < room → ∀ a b, r = .ok (a, b) → x.run s = .ok b (s.push a)
  error : ∀ s : State α ρ, s.values.length < room → ∀ e, r = .error e → ∃ s', x.run s = .error e s'
  full : ∀ s : State α ρ, room ≤ s.values.length → ∃ s', x.run s = .error full s'

variable {l : List ι} {body : ι → Comp ε α ρ β} {r : ι → Except ε (α × β)} {leaves : ι → α}
  {yields : ι → β}

/-- **A loop with room** for all its rounds leaves a value for each. -/
theorem run_mapM_of_room (h : ∀ i ∈ l, Round room full (body i) (.ok (leaves i, yields i)))
    (hroom : s.values.length + l.length ≤ room) :
    (l.mapM body).run s = .ok (l.map yields) (s.pushAll (l.map leaves)) := by
  induction l generalizing s with
  | nil => rfl
  | cons i l ih =>
      obtain ⟨hi, hl⟩ := List.forall_mem_cons.mp h
      rw [List.length_cons] at hroom
      have hrest := ih (s := s.push (leaves i)) hl (by rw [State.length_push]; omega)
      rw [List.mapM_cons, run_bind_of_ok (hi.ok s (by omega) _ _ rfl), run_bind_of_ok hrest,
        State.push_pushAll]
      rfl

/-- **A loop that runs out of room** goes wrong, if the rounds that fit all go on. -/
theorem run_mapM_of_full (h : ∀ i ∈ l, Round room full (body i) (r i))
    (hle : s.values.length ≤ room) (hlt : room < s.values.length + l.length)
    (hok : ∀ i ∈ l.take (room - s.values.length), ∃ p, r i = .ok p) :
    ∃ s', (l.mapM body).run s = .error full s' := by
  induction l generalizing s with
  | nil => exact absurd hlt (Nat.not_lt.mpr hle)
  | cons i l ih =>
      obtain ⟨hi, hl⟩ := List.forall_mem_cons.mp h
      rw [List.mapM_cons]
      rcases Nat.lt_or_eq_of_le hle with hroom | heq
      · -- There is room for this round.
        obtain ⟨k, hk⟩ : ∃ k, room - s.values.length = k + 1 :=
          Nat.exists_eq_succ_of_ne_zero (by omega)
        rw [hk, List.take_succ_cons] at hok
        obtain ⟨⟨p, hp⟩, htake⟩ := List.forall_mem_cons.mp hok
        have hkeep : room - (s.push p.1).values.length = k := by
          rw [State.length_push]
          omega
        obtain ⟨s', hs'⟩ := ih (s := s.push p.1) hl (by rw [State.length_push]; omega)
          (by rw [State.length_push, List.length_cons] at *; omega) (by rw [hkeep]; exact htake)
        exact ⟨s', by rw [run_bind_of_ok (hi.ok s hroom _ _ hp), run_bind_of_error hs']⟩
      · obtain ⟨s', hs'⟩ := hi.full s (Nat.le_of_eq heq.symm)
        exact ⟨s', run_bind_of_error hs'⟩

/-- **A loop that a round ends** before the room runs out. -/
theorem run_mapM_of_error (h : ∀ i ∈ l, Round room full (body i) (r i))
    (he : ∃ i ∈ l.take (room - s.values.length), ∃ e, r i = .error e) :
    ∃ i ∈ l, ∃ e s', r i = .error e ∧ (l.mapM body).run s = .error e s' := by
  induction l generalizing s with
  | nil =>
      obtain ⟨i, hi, -⟩ := he
      rw [List.take_nil] at hi
      exact absurd hi List.not_mem_nil
  | cons i l ih =>
      obtain ⟨hi, hl⟩ := List.forall_mem_cons.mp h
      rw [List.mapM_cons]
      cases hk : room - s.values.length with
      | zero =>
          rw [hk, List.take_zero] at he
          obtain ⟨j, hj, -⟩ := he
          exact absurd hj List.not_mem_nil
      | succ k =>
          cases hr : r i with
          | error e =>
              obtain ⟨s', hs'⟩ := hi.error s (by omega) e hr
              exact ⟨i, List.mem_cons_self, e, s', hr, run_bind_of_error hs'⟩
          | ok p =>
              -- The round that ends the loop is a later one.
              have hkeep : room - (s.push p.1).values.length = k := by
                rw [State.length_push]
                omega
              rw [hk, List.take_succ_cons] at he
              obtain ⟨j, hj, e, hje⟩ := he
              have hlater : ∃ j ∈ l.take k, ∃ e, r j = .error e := by
                rcases List.mem_cons.mp hj with rfl | hj
                · rw [hr] at hje
                  cases hje
                · exact ⟨j, hj, e, hje⟩
              obtain ⟨j, hj, e, s', hje, hs'⟩ := ih (s := s.push p.1) hl (by rwa [hkeep])
              exact ⟨j, List.mem_cons_of_mem _ hj, e, s', hje, by
                rw [run_bind_of_ok (hi.ok s (by omega) _ _ hr), run_bind_of_error hs']⟩

end Loops

end BoundedStack

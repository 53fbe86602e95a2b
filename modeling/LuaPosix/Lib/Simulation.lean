import LuaPosix.Lib.Machine

/-! # Simulation

One machine simulates another where each of its steps, under a condition, is matched by a run of
the other: no event for a step the other does not see, one for a step it does. A simulation is
given by the state of the other machine that a state stands for, the events a step stands for and
an invariant; a run is then a run of the other machine, over the events of its steps. -/

namespace Machine

variable {σ Λ τ Ε : Type*}

/-- Labels that always meet the condition meet it in every run. -/
theorem Meets.of_forall {M : Machine σ Λ} {P : σ → Λ → Prop} {s : σ} {ls : List Λ}
    (h : ∀ l ∈ ls, ∀ s, P s l) : M.Meets P s ls := by
  induction ls generalizing s with
  | nil => exact trivial
  | cons l ls ih =>
      have hrest : ∀ l' ∈ ls, ∀ s, P s l' := fun l' hl' => h l' (List.mem_cons_of_mem l hl')
      exact ⟨h l List.mem_cons_self s, fun s' _ => ih hrest⟩

/-- `C` simulates `A` as long as its steps meet `P`. -/
structure Simulation (C : Machine σ Λ) (P : σ → Λ → Prop) (A : Machine τ Ε) where
  /-- The state of `A` that a state of `C` stands for. -/
  abs : σ → τ
  /-- The events of `A` that a step of `C` stands for. -/
  events : σ → Λ → List Ε
  /-- What the steps of `C` keep. -/
  Inv : σ → Prop
  init : ∀ s, C.init s → Inv s ∧ A.init (abs s)
  step : ∀ s l s', Inv s → P s l → C.next s l = some s' →
    Inv s' ∧ A.run (abs s) (events s l) = some (abs s')

namespace Simulation

variable {C : Machine σ Λ} {P : σ → Λ → Prop} {A : Machine τ Ε} (S : Simulation C P A)

/-- The events of a run. -/
def trace (s : σ) : List Λ → List Ε
  | [] => []
  | l :: ls => S.events s l ++ ((C.next s l).elim [] fun s' => trace s' ls)

variable {S} {s s' : σ} {ls : List Λ}

/-- The events of a run are those of its first step and of the others. -/
theorem trace_cons {l : Λ} (h : C.next s l = some s') :
    S.trace s (l :: ls) = S.events s l ++ S.trace s' ls := by
  rw [trace, h]
  rfl

/-- **A run stands for a run**, over its events. -/
theorem run (hs : S.Inv s) (hmeets : C.Meets P s ls) (hrun : C.run s ls = some s') :
    S.Inv s' ∧ A.run (S.abs s) (S.trace s ls) = some (S.abs s') := by
  induction ls generalizing s with
  | nil =>
      cases hrun
      exact ⟨hs, rfl⟩
  | cons l ls ih =>
      obtain ⟨s₁, hs₁, hrun⟩ := run_cons.mp hrun
      obtain ⟨hP, hmeets⟩ := hmeets
      obtain ⟨hInv, hstep⟩ := S.step s l s₁ hs hP hs₁
      obtain ⟨hInv', hrest⟩ := ih hInv (hmeets s₁ hs₁) hrun
      refine ⟨hInv', ?_⟩
      rw [trace_cons hs₁]
      exact run_append.mpr ⟨_, hstep, hrest⟩

/-- A run from an initial state. -/
theorem run_of_init (h₀ : C.init s) (hmeets : C.Meets P s ls) (hrun : C.run s ls = some s') :
    A.init (S.abs s) ∧ A.run (S.abs s) (S.trace s ls) = some (S.abs s') :=
  ⟨(S.init s h₀).2, (run (S.init s h₀).1 hmeets hrun).2⟩

/-- The events of a run, where they do not depend on the state. -/
theorem trace_eq_flatMap {f : Λ → List Ε} (hf : ∀ s l, S.events s l = f l)
    (hrun : C.run s ls = some s') : S.trace s ls = ls.flatMap f := by
  induction ls generalizing s with
  | nil => rfl
  | cons l ls ih =>
      obtain ⟨s₁, hs₁, hrun⟩ := run_cons.mp hrun
      rw [trace_cons hs₁, List.flatMap_cons, hf, ih hrun]

/-- What a measure of the steps adds up to is what it adds up to over the events, where each step
agrees with its events. -/
theorem trace_filterMap {κ : Type*} {f : Ε → Option κ} {g : σ → List κ}
    (hg : ∀ s l s', S.Inv s → P s l → C.next s l = some s' →
      g s' = g s ++ (S.events s l).filterMap f)
    (hs : S.Inv s) (hmeets : C.Meets P s ls) (hrun : C.run s ls = some s') :
    g s' = g s ++ (S.trace s ls).filterMap f := by
  induction ls generalizing s with
  | nil =>
      cases hrun
      rw [trace, List.filterMap_nil, List.append_nil]
  | cons l ls ih =>
      obtain ⟨s₁, hs₁, hrun⟩ := run_cons.mp hrun
      obtain ⟨hP, hmeets⟩ := hmeets
      rw [trace_cons hs₁, List.filterMap_append, ← List.append_assoc, ← hg s l s₁ hs hP hs₁]
      exact ih (S.step s l s₁ hs hP hs₁).1 (hmeets s₁ hs₁) hrun

end Simulation

end Machine

import Mathlib.Logic.Relation

/-! # Labelled machines

A machine is a set of initial states and a partial function from a state and a label to the next
state; the labels carry everything the machine does not decide itself. `Reachable` is about the
runs whose steps all meet a condition on the state and the label, so that a property of such
runs is one invariant proof. -/

/-- A machine over states and labels. -/
structure Machine (σ Λ : Type*) where
  init : σ → Prop
  /-- The next state, none where the label is not enabled. -/
  next : σ → Λ → Option σ

namespace Machine

variable {σ Λ : Type*} (M : Machine σ Λ) (P : σ → Λ → Prop)

/-- A step that meets the condition. -/
def Step (s s' : σ) : Prop := ∃ l, P s l ∧ M.next s l = some s'

/-- The states of the runs whose steps all meet the condition. -/
def Reachable (s : σ) : Prop := ∃ s₀, M.init s₀ ∧ Relation.ReflTransGen (M.Step P) s₀ s

/-- Run a list of labels. -/
def run (s : σ) (ls : List Λ) : Option σ := ls.foldlM M.next s

/-- Every step of a run meets the condition. -/
def Meets (s : σ) : List Λ → Prop
  | [] => True
  | l :: ls => P s l ∧ ∀ s', M.next s l = some s' → Meets s' ls

variable {M P} {s s' : σ} {ls : List Λ}

/-- A run of a label and others, step by step. -/
theorem run_cons {l : Λ} :
    M.run s (l :: ls) = some s' ↔ ∃ s₁, M.next s l = some s₁ ∧ M.run s₁ ls = some s' := by
  rw [run, List.foldlM_cons, Option.bind_eq_bind, Option.bind_eq_some_iff]
  rfl

/-- A run of some labels and others, one run after the other. -/
theorem run_append {ls₁ ls₂ : List Λ} :
    M.run s (ls₁ ++ ls₂) = some s' ↔ ∃ s₁, M.run s ls₁ = some s₁ ∧ M.run s₁ ls₂ = some s' := by
  rw [run, List.foldlM_append, Option.bind_eq_bind, Option.bind_eq_some_iff]
  rfl

/-- An initial state is reachable. -/
theorem Reachable.init (h : M.init s) : M.Reachable P s := ⟨s, h, .refl⟩

/-- So is the state behind a step from a reachable one. -/
theorem Reachable.step {l : Λ} (h : M.Reachable P s) (hP : P s l) (hs : M.next s l = some s') :
    M.Reachable P s' := by
  obtain ⟨s₀, h₀, hrun⟩ := h
  exact ⟨s₀, h₀, hrun.tail ⟨l, hP, hs⟩⟩

/-- What is kept by every step that meets the condition is kept by a run of them. -/
theorem invariant_of_steps {I : σ → Prop}
    (hstep : ∀ s l s', I s → P s l → M.next s l = some s' → I s') (hs : I s)
    (hrun : Relation.ReflTransGen (M.Step P) s s') : I s' := by
  induction hrun with
  | refl => exact hs
  | tail _ hlast ih =>
      obtain ⟨l, hP, hs⟩ := hlast
      exact hstep _ l _ ih hP hs

/-- **The invariant rule**: what holds initially and is kept by every step that meets the
condition holds in every state reached. -/
theorem Reachable.invariant {I : σ → Prop} (hinit : ∀ s, M.init s → I s)
    (hstep : ∀ s l s', I s → P s l → M.next s l = some s' → I s') (h : M.Reachable P s) : I s := by
  obtain ⟨s₀, h₀, hrun⟩ := h
  exact invariant_of_steps hstep (hinit s₀ h₀) hrun

/-- A run of labels that always meet the condition is a sequence of steps. -/
theorem steps_of_run (hP : ∀ l ∈ ls, ∀ s, P s l) (h : M.run s ls = some s') :
    Relation.ReflTransGen (M.Step P) s s' := by
  induction ls generalizing s with
  | nil =>
      cases h
      exact .refl
  | cons l ls ih =>
      obtain ⟨s₁, hs₁, h⟩ := run_cons.mp h
      exact .head ⟨l, hP l (by simp) s, hs₁⟩ (ih (fun l' hl' => hP l' (by simp [hl'])) h)

/-- The end of such a run is reachable. -/
theorem Reachable.of_run (h₀ : M.init s) (hP : ∀ l ∈ ls, ∀ s, P s l)
    (h : M.run s ls = some s') : M.Reachable P s' :=
  ⟨s, h₀, steps_of_run hP h⟩

/-- **The invariant rule for a run** whose steps all meet the condition. -/
theorem invariant_of_meets {I : σ → Prop}
    (hstep : ∀ s l s', I s → P s l → M.next s l = some s' → I s') (hs : I s)
    (hmeets : M.Meets P s ls) (hrun : M.run s ls = some s') : I s' := by
  induction ls generalizing s with
  | nil =>
      cases hrun
      exact hs
  | cons l ls ih =>
      obtain ⟨s₁, hs₁, hrun⟩ := run_cons.mp hrun
      obtain ⟨hP, hmeets⟩ := hmeets
      exact ih (hstep s l s₁ hs hP hs₁) (hmeets s₁ hs₁) hrun

/-- What every step keeps, a run keeps. -/
theorem invariant_of_run {I : σ → Prop} (hstep : ∀ s l s', I s → M.next s l = some s' → I s')
    (hs : I s) (hrun : M.run s ls = some s') : I s' := by
  induction ls generalizing s with
  | nil =>
      cases hrun
      exact hs
  | cons l ls ih =>
      obtain ⟨s₁, hs₁, hrun⟩ := run_cons.mp hrun
      exact ih (hstep s l s₁ hs hs₁) hrun

/-- **The trap rule**: where a step that does not meet the condition leads into a trap, a run that
ends outside the trap meets the condition throughout. -/
theorem meets_of_not_trap {I T : σ → Prop}
    (hstep : ∀ s l s', I s → M.next s l = some s' → I s')
    (htrap : ∀ s l s', I s → ¬P s l → M.next s l = some s' → T s')
    (hstay : ∀ s l s', I s → T s → M.next s l = some s' → T s') (hs : I s)
    (hrun : M.run s ls = some s') (hend : ¬T s') : M.Meets P s ls := by
  induction ls generalizing s with
  | nil => exact trivial
  | cons l ls ih =>
      obtain ⟨s₁, hs₁, hrun⟩ := run_cons.mp hrun
      have hI₁ := hstep s l s₁ hs hs₁
      refine ⟨?_, fun s₂ hs₂ => ?_⟩
      · -- otherwise the rest of the run stays in the trap
        refine Classical.byContradiction fun hP => ?_
        have hkeep : ∀ s l s', I s ∧ T s → M.next s l = some s' → I s' ∧ T s' :=
          fun s l s' h hs' => ⟨hstep s l s' h.1 hs', hstay s l s' h.1 h.2 hs'⟩
        exact hend (invariant_of_run hkeep ⟨hI₁, htrap s l s₁ hs hP hs₁⟩ hrun).2
      · obtain rfl := Option.some.inj (hs₁.symm.trans hs₂)
        exact ih hI₁ hrun

end Machine

import Mathlib.Data.List.Basic

/-! # Computations that fork

A computation of a process over states `σ`. It comes to a value, or the process leaves it early
for a reason in `τ`: by an error nobody catches, or for good. At a fork the rest of the
computation is run twice, by the process that called it and by a copy, so a run has one result
for the caller and one for each process forked on the way. -/

/-- A run: what became of the calling process, and of each process forked on the way. -/
structure Forking.Run (σ τ α : Type*) where
  self : σ × Except τ α
  forked : List (σ × Except τ α)

/-- A computation of a process. -/
def Forking (σ τ α : Type*) := σ → Forking.Run σ τ α

namespace Forking

universe u v w

variable {σ : Type u} {τ : Type v} {α β : Type w}

/-- Run a computation in a process. -/
def run (x : Forking σ τ α) (s : σ) : Run σ τ α := x s

/-- What a process does next: go on with its value, unless it has left. -/
def after (f : α → Forking σ τ β) : σ × Except τ α → Run σ τ β
  | (s, .ok a) => f a s
  | (s, .error t) => ⟨(s, .error t), []⟩

/-- Every process of the first run goes on with the second computation. -/
protected def bind (x : Forking σ τ α) (f : α → Forking σ τ β) : Forking σ τ β := fun s =>
  ⟨(after f (x s).self).self,
    (x s).forked.flatMap (fun l => (after f l).self :: (after f l).forked)
      ++ (after f (x s).self).forked⟩

/-- Processes that fork, as a monad: what a child does after its fork is left to the list. -/
instance : Monad (Forking σ τ) where
  pure a := fun s => ⟨(s, .ok a), []⟩
  bind := Forking.bind

/-- Leave the computation. -/
def leave (t : τ) : Forking σ τ α := fun s => ⟨(s, .error t), []⟩

/-- The state of the process. -/
def get : Forking σ τ σ := fun s => ⟨(s, .ok s), []⟩

/-- Change the state of the process. -/
def modify (f : σ → σ) : Forking σ τ Unit := fun s => ⟨(f s, .ok ()), []⟩

/-- Fork: the caller and the copy go on with their own state and value. -/
def fork (caller copy : σ → σ × α) : Forking σ τ α := fun s =>
  ⟨((caller s).1, .ok (caller s).2), [((copy s).1, .ok (copy s).2)]⟩

/-- The state is read without a fork. -/
@[simp] theorem run_get (s : σ) : (get : Forking σ τ σ).run s = ⟨(s, .ok s), []⟩ := rfl

/-! ## Processes that have left -/

/-- Processes that left, with their reasons. -/
def left (ls : List (σ × τ)) : List (σ × Except τ α) := ls.map fun l => (l.1, .error l.2)

/-- The children of two lists. -/
@[simp] theorem left_append (ls ls' : List (σ × τ)) :
    (left (ls ++ ls') : List (σ × Except τ α)) = left ls ++ left ls' := List.map_append

/-- A process that has left does not go on. -/
theorem flatMap_left (f : α → Forking σ τ β) (ls : List (σ × τ)) :
    (left ls).flatMap (fun l => (after f l).self :: (after f l).forked) = left ls := by
  induction ls with
  | nil => rfl
  | cons l ls ih =>
      rw [left, List.map_cons, List.flatMap_cons]
      exact congrArg (_ :: ·) ih

variable {x : Forking σ τ α} {f : α → Forking σ τ β} {s s' : σ}

/-- What follows only depends on the run so far. -/
theorem run_bind_congr {y : Forking σ τ α} (h : x.run s = y.run s) :
    (x >>= f).run s = (y >>= f).run s := by
  have hbind : ∀ z : Forking σ τ α, (z >>= f).run s = ⟨(after f (z.run s).self).self,
      (z.run s).forked.flatMap (fun l => (after f l).self :: (after f l).forked)
        ++ (after f (z.run s).self).forked⟩ := fun _ => rfl
  rw [hbind, hbind, h]

/-- **The rule of sequencing**: where the forked processes have left, only the caller goes on. -/
theorem run_bind_of_left {a : α} {ls : List (σ × τ)} (h : x.run s = ⟨(s', .ok a), left ls⟩) :
    (x >>= f).run s = ⟨((f a).run s').self, left ls ++ ((f a).run s').forked⟩ := by
  have hbind : (x >>= f).run s = ⟨(after f (x.run s).self).self,
      (x.run s).forked.flatMap (fun l => (after f l).self :: (after f l).forked)
        ++ (after f (x.run s).self).forked⟩ := rfl
  rw [hbind, h, flatMap_left]
  rfl

/-- The processes that left in either computation. -/
theorem run_bind_left {a : α} {r : σ × Except τ β} {ls ls' : List (σ × τ)}
    (h : x.run s = ⟨(s', .ok a), left ls⟩) (h' : (f a).run s' = ⟨r, left ls'⟩) :
    (x >>= f).run s = ⟨r, left (ls ++ ls')⟩ := by
  rw [run_bind_of_left h, h', left_append]

/-- A computation that neither forks nor leaves is followed by the next. -/
theorem run_bind_of_ok {a : α} (h : x.run s = ⟨(s', .ok a), []⟩) :
    (x >>= f).run s = (f a).run s' := by
  have hleft : x.run s = ⟨(s', .ok a), left []⟩ := h
  exact run_bind_of_left hleft

/-- Once the caller has left nothing follows. -/
theorem run_bind_of_error {t : τ} (h : x.run s = ⟨(s', .error t), []⟩) :
    (x >>= f).run s = ⟨(s', .error t), []⟩ := by
  have hbind : (x >>= f).run s = ⟨(after f (x.run s).self).self,
      (x.run s).forked.flatMap (fun l => (after f l).self :: (after f l).forked)
        ++ (after f (x.run s).self).forked⟩ := rfl
  rw [hbind, h]
  rfl

/-- Nothing is gained by returning a value at the end. -/
theorem bind_pure (x : Forking σ τ α) : x >>= pure = x := by
  have hself : ∀ l : σ × Except τ α, after (pure : α → Forking σ τ α) l = ⟨l, []⟩ := by
    rintro ⟨s, _ | _⟩
    · rfl
    · rfl
  funext s
  have hbind : (x >>= pure) s = ⟨(after (pure : α → Forking σ τ α) (x s).self).self,
      (x s).forked.flatMap (fun l => (after (pure : α → Forking σ τ α) l).self ::
        (after (pure : α → Forking σ τ α) l).forked)
        ++ (after (pure : α → Forking σ τ α) (x s).self).forked⟩ := rfl
  rw [hbind]
  simp only [hself, List.flatMap_singleton', List.append_nil]

/-- After a fork the caller goes on, and the copy does until it leaves. -/
theorem run_fork_bind {caller copy : σ → σ × α} {l : σ × τ}
    (h : (f (copy s).2).run (copy s).1 = ⟨(l.1, .error l.2), []⟩) :
    (fork caller copy >>= f).run s = ⟨((f (caller s).2).run (caller s).1).self,
      left [l] ++ ((f (caller s).2).run (caller s).1).forked⟩ := by
  have hbind : (fork caller copy >>= f).run s = ⟨((f (caller s).2).run (caller s).1).self,
      (((f (copy s).2).run (copy s).1).self :: ((f (copy s).2).run (copy s).1).forked ++ [])
        ++ ((f (caller s).2).run (caller s).1).forked⟩ := rfl
  rw [hbind, h]
  rfl

end Forking

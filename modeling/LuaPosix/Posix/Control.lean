import LuaPosix.Posix.Stages
import LuaPosix.Posix.Wiring

/-! # Where control returns from a `fork`

After a `fork` the child runs in the frames of the call it was forked in. It leaves them for good
where its task ends the process; an error of `move_fd`, of the conversion of the arguments of
`execp` or of `os.exit`, or of the task itself unwinds them, and the caller's continuation runs
in a second process. A list too long for the stack of `execp` leaves undefined what the child
does. -/

namespace LuaPosix.Popen

variable {ω : Type} {E : System} {mode : String}

/-- Every forked process ends; only the calling process returns or raises out of the call. -/
def ControlStays {α : Type} (x : ProcM ω α) (p : Process ω) : Prop :=
  ∀ l ∈ (x.run p).forked, ∃ how, l.2 = .error (.ends how)

/-- What holds of all processes that were left holds of those of a list. -/
theorem forall_mem_left {α : Type} (ls : List (Process ω × Stop)) :
    (∀ l ∈ (Forking.left ls : List (Process ω × Except Stop α)), ∃ how, l.2 = .error (.ends how)) ↔
      ∀ l ∈ ls, ∃ how, l.2 = .ends how := by
  constructor
  · intro h l hl
    obtain ⟨how, heq⟩ := h (l.1, .error l.2) (List.mem_map_of_mem hl)
    exact ⟨how, Except.error.inj heq⟩
  · intro h l hl
    obtain ⟨l', hl', rfl⟩ := List.mem_map.mp hl
    obtain ⟨how, heq⟩ := h l' hl'
    exact ⟨how, by rw [heq]⟩

/-- Control stays where all processes of the run end. -/
theorem controlStays_of_left {α : Type} {x : ProcM ω α} {p : Process ω}
    {caller : Process ω × Except Stop α} {ls : List (Process ω × Stop)}
    (h : x.run p = ⟨caller, Forking.left ls⟩) :
    ControlStays x p ↔ ∀ l ∈ ls, ∃ how, l.2 = .ends how := by
  rw [ControlStays, h]
  exact forall_mem_left ls

/-- The children of a run all end exactly if each stage that is reached ends. -/
theorem StagesRun.forall_ends_iff {tasks : List Task} {is : List Nat}
    {caller : Process ω × Except Stop Pfd} {ls : List (Process ω × Stop)}
    (h : StagesRun (stageChildren E mode tasks) E mode is 0 [] caller ls) :
    (∀ l ∈ ls, ∃ how, l.2 = .ends how) ↔ (ValidMode mode → ∀ k i, is[k]? = some i →
      (∀ m, m ≤ k → Opens E m) → StageEnds E mode k (taskAt tasks i)) := by
  constructor
  · intro hall hmode k i hi hopens
    have hk : k < is.length := (List.getElem?_eq_some_iff.mp hi).1
    -- The stage is reached: the run does not stop before it.
    have hreached : k < ls.length := by
      obtain ⟨-, -, -, hlen, -⟩ | ⟨-, -, -, -, hno, -⟩ := h.outcome
      · omega
      · by_contra hlt
        refine hno ⟨hmode, ?_⟩
        rw [Nat.zero_add]
        exact hopens _ (Nat.le_of_not_lt hlt)
    obtain ⟨i', hi', -, hchild⟩ := h.children k _ (List.getElem?_eq_getElem hreached)
    obtain rfl := Option.some.inj (hi.symm.trans hi')
    rw [Nat.zero_add] at hchild
    exact hchild.ends_iff.mp (hall _ (List.getElem_mem hreached))
  · intro hall l hl
    obtain ⟨k, hk, rfl⟩ := List.getElem_of_mem hl
    obtain ⟨i, hi, -, hchild⟩ := h.children k _ (List.getElem?_eq_getElem hk)
    rw [Nat.zero_add] at hchild
    refine hchild.ends_iff.mpr (hall (h.opens k hk).1 k i hi fun m hm => ?_)
    have hm := (h.opens m (by omega)).2
    rwa [Nat.zero_add] at hm

/-- `popen_pipeline` ends its children exactly if each stage that is reached ends. -/
theorem controlStays_popen_pipeline (self : Nat) (T : Nat → Option ω) (tasks : List Task) :
    ControlStays (popen_pipeline E tasks mode) (Process.initial self T) ↔
      (ValidMode mode → ∀ k i, (stageOrder tasks.length mode)[k]? = some i →
        (∀ m, m ≤ k → Opens E m) → StageEnds E mode k (taskAt tasks i)) := by
  obtain ⟨caller, ls, hrun, hstages⟩ :=
    (stageChildren_kept E mode tasks self T).exists_stagesRun rfl rfl
  rw [controlStays_of_left hrun, hstages.forall_ends_iff]

/-- `popen` ends its child exactly if its stage ends. -/
theorem controlStays_popen (self : Nat) (T : Nat → Option ω) (task : Task) :
    ControlStays (popen E task mode) (Process.initial self T) ↔
      (ValidMode mode → Opens E 0 → StageEnds E mode 0 task) := by
  have horder : stageOrder [task].length mode = [1] := by
    rw [stageOrder, List.length_singleton, stages]
    split_ifs <;> rfl
  rw [popen_eq_popen_pipeline, controlStays_popen_pipeline, horder]
  constructor
  · intro h hmode hopens
    refine h hmode 0 1 rfl fun m hm => ?_
    rw [Nat.le_zero.mp hm]
    exact hopens
  · rintro h hmode (_ | k) i hi hopens
    · obtain rfl := Option.some.inj hi
      exact h hmode (hopens 0 (Nat.le_refl 0))
    · cases hi

/-- `spawn` ends its child exactly if the task ends its process. -/
theorem controlStays_spawn (p : Process ω) (task : Task) (args : List LuaValue) :
    ControlStays (spawn E task args) p ↔
      ∀ pid, E.fork p.forks = some pid → task.EndsProcess E pid := by
  cases hfork : E.fork p.forks with
  | none =>
      have hrun : (spawn E task args).run p
          = ⟨(p.forking, .ok (E.forkError.2, E.forkError.1)), Forking.left []⟩ := by
        rw [spawn, Forking.run_bind_of_ok (run_fork_none hfork)]
        rfl
      rw [controlStays_of_left hrun]
      refine iff_of_true (fun l hl => absurd hl List.not_mem_nil) ?_
      intro pid h
      cases h
  | some pid =>
      have hpid : pid ≠ 0 := Nat.ne_of_gt (E.fork_pos hfork)
      have hrun : ((spawn E task args).run p).forked
          = Forking.left [((p.child pid).start task args, task.stop E pid)] := by
        rw [spawn, run_fork_bind (l := ((p.child pid).start task args, task.stop E pid)) hfork]
        · simp only [if_neg hpid]
          rfl
        · exact Forking.run_bind_of_error (run_execx _ task args)
      rw [ControlStays, hrun, forall_mem_left, List.forall_mem_singleton, Task.stop_ends_iff]
      constructor
      · intro h pid' hpid'
        cases hpid'
        exact h
      · exact fun h => h pid rfl

/-- **Control returns from a fork only in the caller** exactly if each stage that is reached
ends, for `popen`, `popen_pipeline` and `spawn`. -/
theorem controlStays_iff (self : Nat) (T : Nat → Option ω) (task : Task) (tasks : List Task)
    (args : List LuaValue) :
    (ControlStays (popen E task mode) (Process.initial self T) ↔
      (ValidMode mode → Opens E 0 → StageEnds E mode 0 task)) ∧
    (ControlStays (popen_pipeline E tasks mode) (Process.initial self T) ↔
      (ValidMode mode → ∀ k i, (stageOrder tasks.length mode)[k]? = some i →
        (∀ m, m ≤ k → Opens E m) → StageEnds E mode k (taskAt tasks i))) ∧
    (ControlStays (spawn E task args) (Process.initial self T) ↔
      ∀ pid, E.fork 0 = some pid → task.EndsProcess E pid) :=
  ⟨controlStays_popen self T task, controlStays_popen_pipeline self T tasks,
    controlStays_spawn (Process.initial self T) task args⟩

/-- In the child of `spawn {}` the error of `execp` unwinds into the caller's continuation. -/
theorem spawn_empty_table_returns_twice :
    (((spawn quietSystem (.table (Unistd.listHeap []) 0) []).run
        (Process.initial 0 stdTable)).forked.map Prod.snd
      = [.error (.raises (.argerror 1 "string expected, got nil"))]) ∧
    ¬ ControlStays (spawn quietSystem (.table (Unistd.listHeap []) 0) [])
      (Process.initial 0 stdTable) := by
  constructor
  · rfl
  · intro h
    obtain ⟨how, hhow⟩ := h _ (List.mem_singleton_self _)
    cases hhow

/-- A system on which no program can be run. -/
def programlessSystem : System :=
  { quietSystem with frame := fun _ => .returning LUA_MINSTACK (Nat.le_refl _) }

/-- With a path and 17 arguments, the third result of an `execp` that fails is pushed where no slot
is left. -/
theorem not_controlStays_spawn_of_list {H : Heap} {t : Nat} {v : LuaValue} {vs : List LuaValue}
    (h : H.Holds t (v :: vs)) (hnil : .nil ∉ v :: vs) (hlt : 16 < vs.length)
    (hlt' : vs.length < 2 ^ 31) :
    ¬ ControlStays (spawn programlessSystem (.table H t) []) (Process.initial 0 stdTable) := by
  rw [controlStays_spawn]
  intro hends
  obtain ⟨file, hfile⟩ := hends 1 rfl
  have hbound : Indexable (v :: vs) := by
    rw [Indexable, List.length_cons]
    omega
  have hlen := cint_objlen_of_holds (E := programlessSystem)
    (remove_of_holds (E := programlessSystem) h hbound hnil).2 hlt'
    fun hmem => hnil (List.mem_cons_of_mem v hmem)
  have hreturns : programlessSystem.execvp 1 file (programlessSystem.remove H t).2 t ≠ none :=
    Option.some_ne_none _
  have hslots : _ ≤ LUA_MINSTACK := hfile.slots
  rw [System.execSlots, hlen, Int.toNat_natCast, if_neg hreturns, LUA_MINSTACK] at hslots
  omega

end LuaPosix.Popen

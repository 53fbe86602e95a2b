import LuaPosix.Posix.Pipeline

/-! # How a pipeline is wired

The stages by their number, whichever end the construction started from: in mode `r` it runs
from the first stage to the last and the caller reads from the last, in mode `w` it runs
backwards and the caller writes to the first. Stages are counted from 0 here. -/

namespace LuaPosix.Popen

variable {ω : Type} {E : System} {mode : String} {T : Nat → Option ω}

/-! ## Standard descriptors of a stage -/

/-- A stage writes to its own pipe. -/
theorem stageFds_outFd (k : Nat) :
    stageFds mode T k (outFd mode) = some (.pipe k (childEnd mode)) := by
  cases k with
  | zero => rw [stageFds, Function.update_self]
  | succ k => rw [stageFds, Function.update_of_ne (inFd_ne_outFd mode).symm, Function.update_self]

/-- The first stage reads from where the caller did. -/
theorem stageFds_inFd_zero : stageFds mode T 0 (inFd mode) = inherit T (inFd mode) := by
  rw [stageFds, Function.update_of_ne (inFd_ne_outFd mode)]

/-- Every later one reads from the pipe before it. -/
theorem stageFds_inFd_succ (k : Nat) :
    stageFds mode T (k + 1) (inFd mode) = some (.pipe k (parentEnd mode)) := by
  rw [stageFds, Function.update_self]

/-- No pipe of the pipeline is inherited. -/
theorem inherit_ne_pipe (d k : Nat) (e : PipeEnd) : inherit T d ≠ some (.pipe k e) := by
  rw [inherit]
  cases T d with
  | none => exact fun h => nomatch h
  | some f => exact fun h => nomatch h

/-- A stage holds pipe ends on its standard descriptors only. -/
theorem eq_of_stageFds_pipe {k d j : Nat} {e : PipeEnd}
    (h : stageFds mode T k d = some (.pipe j e)) : d = inFd mode ∨ d = outFd mode := by
  by_contra hne
  obtain ⟨hin, hout⟩ := not_or.mp hne
  cases k with
  | zero =>
      rw [stageFds, Function.update_of_ne hout] at h
      exact inherit_ne_pipe d j e h
  | succ k =>
      rw [stageFds, Function.update_of_ne hin, Function.update_of_ne hout] at h
      exact inherit_ne_pipe d j e h

/-! ## Stages in the order they are made -/

/-- When stage `i` of `n` is made. -/
def madeAt (mode : String) (n i : Nat) : Nat := if mode = "w" then n - 1 - i else i

/-- The processes by the number of their stage. -/
def byStage (mode : String) (children : List (Process ω × Stop)) : List (Process ω) :=
  (if mode = "w" then children.reverse else children).map Prod.fst

/-- In the order of the stages the children are the same. -/
theorem byStage_perm (mode : String) (children : List (Process ω × Stop)) :
    (byStage mode children).Perm (children.map Prod.fst) := by
  rw [byStage]
  split_ifs
  · exact (List.reverse_perm children).map Prod.fst
  · exact List.Perm.refl _

/-- A stage's child is the one made for it. -/
theorem byStage_getElem? (mode : String) (children : List (Process ω × Stop)) {i : Nat}
    (hi : i < children.length) :
    (byStage mode children)[i]? = children[madeAt mode children.length i]?.map Prod.fst := by
  rw [byStage, madeAt, List.getElem?_map]
  split_ifs
  · rw [List.getElem?_reverse hi]
  · rfl

/-- The stage made at a place is the one with that place. -/
theorem stages_madeAt (mode : String) {n i : Nat} (hi : i < n) :
    (stageOrder n mode)[madeAt mode n i]? = some (i + 1) := by
  rw [stageOrder, stages, madeAt]
  split_ifs
  · have hrange : n :: (List.range' 1 (n - 1)).reverse = (List.range' 1 n).reverse := by
      obtain ⟨m, rfl⟩ : ∃ m, n = m + 1 := ⟨n - 1, by omega⟩
      rw [Nat.add_sub_cancel, List.range'_concat, List.reverse_append]
      simp [Nat.add_comm]
    rw [hrange, List.getElem?_reverse (by rw [List.length_range']; omega), List.length_range',
      List.getElem?_range' (by omega)]
    congr 1
    omega
  · have hrange : 1 :: List.range' 2 (n - 1) = List.range' 1 n := by
      obtain ⟨m, rfl⟩ : ∃ m, n = m + 1 := ⟨n - 1, by omega⟩
      rw [Nat.add_sub_cancel, List.range'_succ]
    rw [hrange, List.getElem?_range' hi]
    congr 1
    omega

/-- The later stages have the later tasks. -/
theorem taskAt_succ {tasks : List Task} {i : Nat} {task : Task} (h : tasks[i]? = some task) :
    taskAt tasks (i + 1) = task := by
  rw [taskAt, h, Option.getD_some]

/-! ## The wiring -/

/-- **A wired pipeline**: the tables `fds` of its stages when their tasks start, the table
`caller` and the result `pfd` of the call, and the processes of the stages. -/
structure Wired (tasks : List Task) (mode : String) (T : Nat → Option ω) (fds : Nat → Fds ω)
    (caller : Fds ω) (pfd : Pfd) (procs : List (Process ω)) : Prop where
  length : procs.length = tasks.length
  /-- Each process has started its own task, once. -/
  started : ∀ i task (p : Process ω), tasks[i]? = some task → procs[i]? = some p →
    ∃ args, p.started = [⟨task, args, fds i⟩]
  /-- Stage to stage, one pipe. -/
  linked : ∀ i, i + 1 < tasks.length →
    ∃ k, fds i 1 = some (.pipe k .write) ∧ fds (i + 1) 0 = some (.pipe k .read)
  read : mode = "r" → fds 0 0 = inherit T 0 ∧
    ∃ k, fds (tasks.length - 1) 1 = some (.pipe k .write) ∧ caller pfd.fd = some (.pipe k .read)
  write : mode = "w" → fds (tasks.length - 1) 1 = inherit T 1 ∧
    ∃ k, fds 0 0 = some (.pipe k .read) ∧ caller pfd.fd = some (.pipe k .write)
  /-- No other end of a pipe is open in a stage, nor in the caller. -/
  noOther : ∀ i, i < tasks.length → ∀ d k e, fds i d = some (.pipe k e) → d = 0 ∨ d = 1
  callerOnly : ∀ d k e, caller d = some (.pipe k e) → d = pfd.fd
  pids : pfd.pids.Perm (procs.map Process.pid)

/-- The stages' tables, in order, are wired to the caller's. -/
theorem wired_stageFds {n fd : Nat} {caller : Fds ω}
    (hcaller : caller = Function.update (inherit T) fd (some (.pipe (n - 1) (parentEnd mode))))
    (hmode : ValidMode mode) :
    (∀ i, i + 1 < n → ∃ k, stageFds mode T (madeAt mode n i) 1 = some (.pipe k .write) ∧
      stageFds mode T (madeAt mode n (i + 1)) 0 = some (.pipe k .read)) ∧
    (mode = "r" → stageFds mode T (madeAt mode n 0) 0 = inherit T 0 ∧
      ∃ k, stageFds mode T (madeAt mode n (n - 1)) 1 = some (.pipe k .write) ∧
        caller fd = some (.pipe k .read)) ∧
    (mode = "w" → stageFds mode T (madeAt mode n (n - 1)) 1 = inherit T 1 ∧
      ∃ k, stageFds mode T (madeAt mode n 0) 0 = some (.pipe k .read) ∧
        caller fd = some (.pipe k .write)) := by
  rcases hmode with rfl | rfl
  · -- Stage `i` is made at `i`, and writes to its own pipe.
    refine ⟨fun i _ => ⟨i, stageFds_outFd i, stageFds_inFd_succ i⟩, fun _ => ?_, fun h => ?_⟩
    · refine ⟨stageFds_inFd_zero, n - 1, stageFds_outFd (n - 1), ?_⟩
      rw [hcaller, Function.update_self]
      rfl
    · exact absurd h (by decide)
  · -- Stage `i` is made at `n - 1 - i`, and reads from its own pipe.
    have hmade : ∀ i, madeAt "w" n i = n - 1 - i := fun _ => rfl
    refine ⟨fun i hi => ?_, fun h => ?_, fun _ => ?_⟩
    · refine ⟨n - 1 - (i + 1), ?_, stageFds_outFd _⟩
      rw [hmade, show n - 1 - i = n - 1 - (i + 1) + 1 by omega]
      exact stageFds_inFd_succ _
    · exact absurd h (by decide)
    · rw [hmade, Nat.sub_self]
      refine ⟨stageFds_inFd_zero, n - 1, stageFds_outFd _, ?_⟩
      rw [hcaller, Function.update_self]
      rfl

/-- **Pipeline wiring**, for every list of tasks, both modes, every table with the standard
descriptors open and every pipe function that returns fresh descriptors. -/
theorem popen_pipeline_wired {tasks : List Task} (htasks : tasks ≠ []) (hmode : ValidMode mode)
    (hstd : StdOpen T) (hfresh : FreshPipes E mode T) (hsucc : Succeeds E tasks.length)
    (self : Nat) :
    ∃ p pfd children fds, ∃ procs : List (Process ω),
      (popen_pipeline E tasks mode).run (Process.initial self T)
        = ⟨(p, .ok pfd), Forking.left children⟩ ∧
      procs.Perm (children.map Prod.fst) ∧ Wired tasks mode T fds p.fds pfd procs := by
  obtain ⟨p, pfd, children, hrun, hp, hpids, hlen, hstages⟩ :=
    exists_run_popen_pipeline hmode hfresh hstd hsucc htasks self
  obtain ⟨hlinked, hread, hwrite⟩ := wired_stageFds (T := T) hp.fds hmode
  have hperm := byStage_perm mode children
  refine ⟨p, pfd, children, fun i => stageFds mode T (madeAt mode tasks.length i),
    byStage mode children, hrun, hperm, ?_⟩
  exact {
    length := by rw [hperm.length_eq, List.length_map, hlen]
    started := by
      intro i task proc htask hproc
      have hi : i < tasks.length := (List.getElem?_eq_some_iff.mp htask).1
      rw [byStage_getElem? mode children (by omega), hlen, Option.map_eq_some_iff] at hproc
      obtain ⟨child, hchild, rfl⟩ := hproc
      obtain ⟨args, hstarted⟩ := hstages _ _ child (stages_madeAt mode hi) hchild
      exact ⟨args, by rw [hstarted, taskAt_succ htask]⟩
    linked := hlinked
    read := hread
    write := hwrite
    noOther := by
      intro i _ d k e h
      have hd := eq_of_stageFds_pipe h
      rw [inFd, outFd] at hd
      split_ifs at hd
      · exact hd
      · exact hd.symm
    callerOnly := by
      intro d k e h
      by_contra hne
      rw [hp.fds, Function.update_of_ne hne] at h
      exact inherit_ne_pipe d k e h
    pids := by
      rw [hpids]
      have hmap := hperm.map Process.pid
      rw [List.map_map] at hmap
      exact hmap.symm }

/-! ## An instance -/

/-- The lowest closed descriptors, for a caller that keeps the read ends of a pipeline. -/
def lowestPipe (k : Nat) : Nat × Nat :=
  if k = 0 then (3, 4) else if k % 2 = 1 then (4, 5) else (3, 5)

/-- A system on which every call succeeds. -/
def quietSystem : System where
  pipe k := .ok (some (lowestPipe k))
  fork k := some (k + 1)
  fork_pos h := by
    cases h
    exact Nat.succ_pos _
  forkError := (.nil, .nil)
  dup2 _ _ _ := true
  frame _ := .replacing
  errno _ := 0
  wait _ := (.string "exited".toList, .integer 0)
  numerals := .zero
  length := .last
  layout := Heap.newestFirst

/-- A table with the standard descriptors. -/
def stdTable (d : Nat) : Option Nat := if d < 3 then some d else none

/-- The quiet system gives fresh pipes. -/
theorem freshPipes_quietSystem : FreshPipes quietSystem "r" stdTable where
  closed := by
    intro k r w h
    have hlow : lowestPipe k = (r, w) := Option.some.inj (Except.ok.inj h)
    rw [lowestPipe] at hlow
    split_ifs at hlow <;> cases hlow <;> decide
  kept := by
    intro k r w r' w' e h hends h'
    have hlow : lowestPipe k = (r, w) := Option.some.inj (Except.ok.inj h)
    have hlow' : lowestPipe (k + 1) = (r', w') := Option.some.inj (Except.ok.inj h')
    obtain rfl : e = ⟨r, w, 0, 1⟩ := (Option.some.inj hends).symm
    rw [lowestPipe] at hlow hlow'
    rw [if_neg (Nat.succ_ne_zero k)] at hlow'
    -- Consecutive stages keep 3 and 4 in turn.
    split_ifs at hlow hlow' <;> cases hlow <;> cases hlow' <;> first | omega | decide

/-- Every call of it succeeds. -/
theorem succeeds_quietSystem (n : Nat) : Succeeds quietSystem n where
  opens k _ := ⟨⟨(lowestPipe k).1, (lowestPipe k).2, rfl⟩, k + 1, rfl⟩
  dup2 _ _ _ := rfl

/-- `ls | wc`. -/
def lsWc : List Task :=
  [.table (Unistd.listHeap [.string "ls".toList]) 0,
    .table (Unistd.listHeap [.string "wc".toList]) 0]

/-- `ls | wc` is wired. -/
theorem popen_pipeline_wired_lsWc :
    ∃ p pfd children fds, ∃ procs : List (Process Nat),
      (popen_pipeline quietSystem lsWc "r").run (Process.initial 0 stdTable)
        = ⟨(p, .ok pfd), Forking.left children⟩ ∧
      procs.Perm (children.map Prod.fst) ∧ Wired lsWc "r" stdTable fds p.fds pfd procs :=
  popen_pipeline_wired (by decide) (.inl rfl) ⟨by decide, by decide, by decide⟩
    freshPipes_quietSystem (succeeds_quietSystem _) 0

end LuaPosix.Popen

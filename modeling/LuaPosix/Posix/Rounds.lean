import LuaPosix.Posix.PopenRuns

/-! # The rounds of a pipeline

A pipeline forks one process a stage until a stage does not open, which raises. Whatever is to be
known of the caller between two rounds, of the processes forked and of a caller that raised only
has to be followed through one round: the rounds of a whole call are put together once, here.

* `Followed` is what is followed, and `Followed.Kept` that one round keeps it.
* `StagesRun` is the outcome of a run of stages, `Followed.Kept.exists_stagesRun` that every call
  of `popen_pipeline` has it. -/

namespace LuaPosix.Popen

variable {ω : Type} {E : System} {mode : String} {tasks : List Task}

/-! ## One round -/

/-- Stage `k` opens, with these descriptors and this pid. -/
structure Opening (E : System) (mode : String) (k r w : Nat) (e : Ends) (pid : Nat) : Prop where
  pipe : E.pipe k = .ok (some (r, w))
  ends : popenEnds mode r w = some e
  fork : E.fork k = some pid

/-- Where the round's pipe and fork succeed, they name its ends and its pid. -/
theorem exists_opening {k : Nat} (hmode : ValidMode mode) (h : Opens E k) :
    ∃ r w e pid, Opening E mode k r w e pid := by
  obtain ⟨⟨r, w, hpipe⟩, pid, hfork⟩ := h
  obtain ⟨e, hends⟩ := exists_popenEnds hmode r w
  exact ⟨r, w, e, pid, hpipe, hends, hfork⟩

/-- A stage that does not open leaves nothing open, or both ends of its pipe. -/
def Failed (E : System) (p q : Process ω) : Prop :=
  (pipeFailure (E.pipe p.pipes) ≠ none ∧ q.fds = p.fds) ∨
    ∃ r w, E.pipe p.pipes = .ok (some (r, w)) ∧ q.fds = (p.pipe r w).fds

/-- The prologue keeps the pid. -/
theorem prologue_pid {e : Ends} {g : Process ω → Process ω × Stop} (p : Process ω)
    (hg : ∀ q : Process ω, (g q).1.pid = q.pid) : (prologue E e g p).1.pid = p.pid := by
  rw [prologue]
  split_ifs
  · exact (hg _).trans (Process.move_pid p _ _)
  · rfl

/-- The first child has the pid that the fork gave. -/
theorem firstChild_pid (task : Task) (e : Ends) (p : Process ω) (pid : Nat) :
    (firstChild E task e (p.child pid)).1.pid = pid := prologue_pid _ fun _ => rfl

/-- So has every later one. -/
theorem nextChild_pid (fd : Nat) (task : Task) (e : Ends) (p : Process ω) (pid : Nat) :
    (nextChild E fd task e (p.child pid)).1.pid = pid := by
  refine prologue_pid _ fun q => ?_
  rw [takeOver]
  split_ifs
  · exact Process.move_pid q _ _
  · rfl

/-! ## What is followed -/

/-- What is followed through the rounds. -/
structure Followed (ω : Type) where
  /-- The caller after stage `k`, whose descriptor `fd` it keeps. -/
  caller : (k fd : Nat) → Process ω → Prop
  /-- The process of stage `k`, where the `i`-th task runs, and how it left. -/
  child : (k i : Nat) → Process ω × Stop → Prop
  /-- The caller that raised as stage `k` did not open. -/
  raised : (k : Nat) → Process ω → Prop

/-- **One round keeps what is followed**, from the caller `p₀` before the call. -/
structure Followed.Kept (F : Followed ω) (E : System) (mode : String) (tasks : List Task)
    (p₀ : Process ω) : Prop where
  pipes : ∀ {k fd p}, F.caller k fd p → p.pipes = k + 1
  forks : ∀ {k fd p}, F.caller k fd p → p.forks = k + 1
  first : ∀ {r w e pid}, Opening E mode 0 r w e pid → F.caller 0 e.parent_fd (p₀.opened r w e)
  first_child : ∀ {r w e pid}, Opening E mode 0 r w e pid → ∀ i,
    F.child 0 i (firstChild E (taskAt tasks i) e ((p₀.pipe r w).child pid))
  first_raised : ∀ {q}, Failed E p₀ q → F.raised 0 q
  next : ∀ {k fd p r w e pid}, F.caller k fd p → Opening E mode (k + 1) r w e pid →
    F.caller (k + 1) e.parent_fd ((p.opened r w e).close fd)
  next_child : ∀ {k fd p r w e pid}, F.caller k fd p → Opening E mode (k + 1) r w e pid → ∀ i,
    F.child (k + 1) i (nextChild E fd (taskAt tasks i) e ((p.pipe r w).child pid))
  next_raised : ∀ {k fd p q}, F.caller k fd p → Failed E p q → F.raised (k + 1) q

/-! ## The run -/

/-- **A run of the stages** `is`, the first of which is made as the `k`-th: one child for each
until one does not open, which raises; without that the pids of the children are returned after
those in `pids`. -/
structure StagesRun (F : Followed ω) (E : System) (mode : String) (is : List Nat) (k : Nat)
    (pids : List Nat) (caller : Process ω × Except Stop Pfd) (ls : List (Process ω × Stop)) :
    Prop where
  opens : ∀ j, j < ls.length → ValidMode mode ∧ Opens E (k + j)
  children : ∀ j l, ls[j]? = some l → ∃ i, is[j]? = some i ∧ E.fork (k + j) = some l.1.pid ∧
    F.child (k + j) i l
  outcome : (∃ q pfd, caller = (q, .ok pfd) ∧ ls.length = is.length ∧
      pfd.pids = pids ++ ls.map (·.1.pid) ∧ ∃ j, k + ls.length = j + 1 ∧ F.caller j pfd.fd q) ∨
    ∃ q err, caller = (q, .error (.raises err)) ∧ ls.length < is.length ∧
      ¬ (ValidMode mode ∧ Opens E (k + ls.length)) ∧ F.raised (k + ls.length) q

/-- The stages of a pipeline of `n` tasks in the order they are made. -/
def stageOrder (n : Nat) (mode : String) : List Nat := (stages n mode).1 :: (stages n mode).2

/-- There are as many as there are tasks, and one if there are none. -/
theorem length_stageOrder (n : Nat) (mode : String) :
    (stageOrder n mode).length = max 1 n := by
  rw [stageOrder, List.length_cons, stages]
  split_ifs
  · rw [List.length_reverse, List.length_range']
    omega
  · rw [List.length_range']
    omega

section Run

variable {F : Followed ω} {is pids : List Nat} {k i : Nat}
  {caller : Process ω × Except Stop Pfd} {ls : List (Process ω × Stop)}

/-- A round that does not open stops the pipeline. -/
theorem StagesRun.stop {q : Process ω} {err : LuaError} (h : ¬ (ValidMode mode ∧ Opens E k))
    (hq : F.raised k q) :
    StagesRun F E mode (i :: is) k pids (q, .error (.raises err)) [] :=
  ⟨fun _ hj => absurd hj (Nat.not_lt_zero _), fun _ _ h => (nomatch h),
    .inr ⟨q, err, rfl, Nat.succ_pos _, h, hq⟩⟩

/-- One that does adds its child in front of the others'. -/
theorem StagesRun.cons {l : Process ω × Stop}
    (h : StagesRun F E mode is (k + 1) (pids ++ [l.1.pid]) caller ls)
    (hopens : ValidMode mode ∧ Opens E k) (hfork : E.fork k = some l.1.pid) (hl : F.child k i l) :
    StagesRun F E mode (i :: is) k pids caller (l :: ls) where
  opens := by
    rintro (_ | j) hj
    · exact hopens
    · rw [show k + (j + 1) = k + 1 + j by omega]
      exact h.opens j (Nat.lt_of_succ_lt_succ hj)
  children := by
    rintro (_ | j) l' hl'
    · obtain rfl := Option.some.inj hl'
      exact ⟨i, rfl, hfork, hl⟩
    · rw [show k + (j + 1) = k + 1 + j by omega]
      exact h.children j l' hl'
  outcome := by
    have hlength : k + (l :: ls).length = k + 1 + ls.length := by
      rw [List.length_cons]
      omega
    rw [hlength]
    obtain ⟨q, pfd, hcaller, hlen, hpids, hkept⟩ | ⟨q, err, hcaller, hlen, hno⟩ := h.outcome
    · refine .inl ⟨q, pfd, hcaller, congrArg (· + 1) hlen, ?_, hkept⟩
      rw [hpids, List.append_assoc, List.singleton_append, List.map_cons]
    · exact .inr ⟨q, err, hcaller, Nat.succ_lt_succ hlen, hno⟩

namespace Followed.Kept

variable {p₀ : Process ω}

/-- **The loop**, from a caller after stage `k`. -/
theorem exists_run (hF : F.Kept E mode tasks p₀) (hmode : ValidMode mode) (is : List Nat)
    {k : Nat} {p : Process ω} (pfd : Pfd) (hp : F.caller k pfd.fd p) :
    ∃ caller ls, (is.foldlM (nextStage E tasks mode) pfd).run p = ⟨caller, Forking.left ls⟩ ∧
      StagesRun F E mode is (k + 1) pfd.pids caller ls := by
  induction is generalizing k p pfd with
  | nil =>
      refine ⟨(p, .ok pfd), [], rfl, fun _ hj => absurd hj (Nat.not_lt_zero _),
        fun _ _ h => (nomatch h), .inl ⟨p, pfd, rfl, rfl, ?_, k, rfl, hp⟩⟩
      rw [List.map_nil, List.append_nil]
  | cons i is ih =>
      by_cases hopens : Opens E (k + 1)
      · obtain ⟨r, w, e, pid, ho⟩ := exists_opening hmode hopens
        have hrun := run_nextStage (p := p) tasks pfd i (hF.pipes hp ▸ ho.pipe) ho.ends
          (hF.forks hp ▸ ho.fork)
        obtain ⟨caller, ls, hruns, hstages⟩ := ih ⟨pfd.pids ++ [pid], e.parent_fd⟩ (hF.next hp ho)
        have hpid : pid = (nextChild E pfd.fd (taskAt tasks i) e ((p.pipe r w).child pid)).1.pid :=
          (nextChild_pid pfd.fd _ e _ pid).symm
        exact ⟨caller, _, Forking.run_bind_left hrun hruns, .cons (hpid ▸ hstages) ⟨hmode, hopens⟩
          (ho.fork.trans (congrArg some hpid)) (hF.next_child hp ho i)⟩
      · have hno : ¬ (ValidMode mode ∧ Opens E p.pipes) := by
          rw [hF.pipes hp]
          exact fun h => hopens h.2
        obtain ⟨q, err, hrun, hfailed⟩ :=
          run_popenWith_error hno ((hF.forks hp).trans (hF.pipes hp).symm)
        exact ⟨_, [], Forking.run_bind_of_error (run_nextStage_error hrun),
          .stop (fun h => hopens h.2) (hF.next_raised hp hfailed)⟩

/-- **Every run of `popen_pipeline`** is a run of its stages. -/
theorem exists_stagesRun (hF : F.Kept E mode tasks p₀) (hpipes : p₀.pipes = 0)
    (hforks : p₀.forks = 0) :
    ∃ caller ls, (popen_pipeline E tasks mode).run p₀ = ⟨caller, Forking.left ls⟩ ∧
      StagesRun F E mode (stageOrder tasks.length mode) 0 [] caller ls := by
  by_cases hopens : ValidMode mode ∧ Opens E 0
  · obtain ⟨r, w, e, pid, ho⟩ := exists_opening hopens.1 hopens.2
    have hrun := run_popen (p := p₀) (taskAt tasks (stages tasks.length mode).1)
      (hpipes ▸ ho.pipe) ho.ends (hforks ▸ ho.fork)
    obtain ⟨caller, ls, hruns, hstages⟩ := hF.exists_run hopens.1
      (stages tasks.length mode).2 ⟨[pid], e.parent_fd⟩ (hF.first ho)
    have hpid : pid = (firstChild E (taskAt tasks (stages tasks.length mode).1) e
        ((p₀.pipe r w).child pid)).1.pid := (firstChild_pid _ e _ pid).symm
    exact ⟨caller, _, Forking.run_bind_left hrun hruns, .cons (hpid ▸ hstages) hopens
      (ho.fork.trans (congrArg some hpid)) (hF.first_child ho _)⟩
  · obtain ⟨q, err, hrun, hfailed⟩ := run_popenWith_error (p := p₀) (hpipes ▸ hopens)
      (hforks.trans hpipes.symm)
    exact ⟨_, [], Forking.run_bind_of_error (hrun _), .stop hopens (hF.first_raised hfailed)⟩

end Followed.Kept

end Run

/-- `popen` is a pipeline of one task. -/
theorem popen_eq_popen_pipeline (task : Task) :
    popen (ω := ω) E task mode = popen_pipeline E [task] mode := by
  have hstages : stages 1 mode = (1, []) := by
    rw [stages]
    split_ifs <;> rfl
  rw [popen_pipeline, List.length_singleton, hstages]
  exact (Forking.bind_pure _).symm

end LuaPosix.Popen

import LuaPosix.Posix.ChildSetup
import LuaPosix.Posix.Pclose

/-! # Who holds the pipes of a pipeline

A reader of a pipe sees its end only once nobody holds the write end, and a writer is told that
nobody reads only once nobody holds the read end: a pipeline stops where a copy of an end is left
over. Once the tasks of a pipeline have started, each end of each of its pipes is open in exactly
one process, at one descriptor; and from the moment `pclose` has made its first call the caller
holds what it held before the pipeline was opened. -/

namespace LuaPosix.Popen

variable {ω : Type} {E : System} {mode : String} {T : Nat → Option ω}

/-- A process of a pipeline holds a file at a descriptor: the caller, or the process of the
`j`-th stage made when its task starts. -/
def Holds (p : Process ω) (children : List (Process ω × Stop)) :
    (who : Option Nat) → (fd : Nat) → File ω → Prop
  | none, fd, f => p.fds fd = some f
  | some j, fd, f => ∃ c, children[j]? = some c ∧ ∃ s ∈ c.1.started, s.fds fd = some f

/-- A pipe has two ends, the parent's and the child's. -/
theorem eq_parentEnd_or_childEnd (mode : String) (e : PipeEnd) :
    e = parentEnd mode ∨ e = childEnd mode := by
  rw [parentEnd, childEnd]
  split_ifs <;> cases e <;> simp

/-- The pipe ends in the table of a stage are the two it is given. -/
theorem stageFds_eq_pipe_iff {j k d : Nat} {e : PipeEnd} :
    stageFds mode T j d = some (.pipe k e) ↔
      (k = j ∧ e = childEnd mode ∧ d = outFd mode) ∨
        (j = k + 1 ∧ e = parentEnd mode ∧ d = inFd mode) := by
  constructor
  · intro h
    obtain rfl | rfl := eq_of_stageFds_pipe h
    · cases j with
      | zero =>
          rw [stageFds_inFd_zero] at h
          exact absurd h (inherit_ne_pipe _ _ _)
      | succ j =>
          rw [stageFds_inFd_succ] at h
          cases h
          exact .inr ⟨rfl, rfl, rfl⟩
    · rw [stageFds_outFd] at h
      cases h
      exact .inl ⟨rfl, rfl, rfl⟩
  · rintro (⟨rfl, rfl, rfl⟩ | ⟨rfl, rfl, rfl⟩)
    · exact stageFds_outFd k
    · exact stageFds_inFd_succ k

/-- The only pipe end in the caller's table is the one of the last stage made. -/
theorem Caller.fds_eq_pipe_iff {j fd k d : Nat} {e : PipeEnd} {p : Process ω}
    (hp : Caller E mode T j fd p) :
    p.fds d = some (.pipe k e) ↔ k = j ∧ e = parentEnd mode ∧ d = fd := by
  rw [hp.fds]
  by_cases hd : d = fd
  · rw [hd, Function.update_self]
    simp [eq_comm]
  · rw [Function.update_of_ne hd]
    exact iff_of_false (inherit_ne_pipe d k e) fun h => hd h.2.2

section Holders

variable {p : Process ω} {children : List (Process ω × Stop)} {tasks : List Task} {n fd : Nat}

/-- The stages made, in order: the process of each has started one task, with the table of its
stage. -/
def StagesStarted (mode : String) (T : Nat → Option ω) (n : Nat)
    (children : List (Process ω × Stop)) : Prop :=
  children.length = n ∧ ∀ j (c : Process ω × Stop), children[j]? = some c →
    ∃ task args, c.1.started = [⟨task, args, stageFds mode T j⟩]

/-- A child holds at a descriptor what its stage was given there. -/
theorem holds_some_iff (hstages : StagesStarted mode T n children) {j d : Nat} {f : File ω} :
    Holds p children (some j) d f ↔ j < n ∧ stageFds mode T j d = some f := by
  obtain ⟨hlength, hstarted⟩ := hstages
  constructor
  · rintro ⟨c, hc, s, hs, hf⟩
    obtain ⟨task, args, hc'⟩ := hstarted j c hc
    rw [hc', List.mem_singleton] at hs
    rw [hs] at hf
    exact ⟨hlength ▸ (List.getElem?_eq_some_iff.mp hc).1, hf⟩
  · rintro ⟨hj, hf⟩
    have hc := List.getElem?_eq_getElem (l := children) (hlength.symm ▸ hj)
    obtain ⟨task, args, hc'⟩ := hstarted j _ hc
    exact ⟨_, hc, _, by rw [hc']; exact List.mem_singleton_self _, hf⟩

/-- Where the `k`-th pipe of `n` is held: the child's end by the process of its stage, the other
by that of the stage made next, or by the caller. -/
def holder (mode : String) (n fd k : Nat) (e : PipeEnd) : Option Nat × Nat :=
  if e = childEnd mode then (some k, outFd mode)
  else if k + 1 < n then (some (k + 1), inFd mode) else (none, fd)

/-- **Each end of each pipe is held there, and nowhere else.** -/
theorem holds_iff (hp : Caller E mode T (n - 1) fd p) (hstages : StagesStarted mode T n children)
    {k : Nat} (hk : k < n) (e : PipeEnd) (x : Option Nat × Nat) :
    Holds p children x.1 x.2 (.pipe k e) ↔ x = holder mode n fd k e := by
  obtain ⟨who, d⟩ := x
  have hne := parentEnd_ne_childEnd mode
  cases who with
  | none =>
      show p.fds d = some (.pipe k e) ↔ _
      rw [hp.fds_eq_pipe_iff, holder]
      obtain rfl | rfl := eq_parentEnd_or_childEnd mode e
      · rw [if_neg hne]
        by_cases hlast : k + 1 < n
        · rw [if_pos hlast]
          exact iff_of_false (fun h => by omega) fun h => nomatch congrArg Prod.fst h
        · rw [if_neg hlast, Prod.mk.injEq]
          exact ⟨fun h => ⟨rfl, h.2.2⟩, fun h => ⟨by omega, rfl, h.2⟩⟩
      · rw [if_pos rfl]
        exact iff_of_false (fun h => hne h.2.1.symm) fun h => nomatch congrArg Prod.fst h
  | some j =>
      rw [holds_some_iff hstages, stageFds_eq_pipe_iff, holder]
      obtain rfl | rfl := eq_parentEnd_or_childEnd mode e
      · rw [if_neg hne]
        by_cases hlast : k + 1 < n
        · rw [if_pos hlast, Prod.mk.injEq, Option.some.injEq]
          constructor
          · rintro ⟨-, ⟨-, h, -⟩ | ⟨hj, -, hd⟩⟩
            · exact absurd h hne
            · exact ⟨hj, hd⟩
          · rintro ⟨rfl, rfl⟩
            exact ⟨hlast, .inr ⟨rfl, rfl, rfl⟩⟩
        · rw [if_neg hlast]
          refine iff_of_false ?_ fun h => nomatch congrArg Prod.fst h
          rintro ⟨hj, ⟨-, h, -⟩ | ⟨hjk, -, -⟩⟩
          · exact hne h
          · omega
      · rw [if_pos rfl, Prod.mk.injEq, Option.some.injEq]
        constructor
        · rintro ⟨-, ⟨hj, -, hd⟩ | ⟨-, h, -⟩⟩
          · exact ⟨hj.symm, hd⟩
          · exact absurd h hne.symm
        · rintro ⟨rfl, rfl⟩
          exact ⟨hk, .inl ⟨rfl, rfl, rfl⟩⟩

end Holders

/-! ## From the opening of a pipeline to its end -/

/-- Closing the descriptor it keeps gives the caller its table back. -/
theorem Caller.close_fds (hfresh : FreshPipes E mode T) {k fd : Nat} {p : Process ω}
    (hp : Caller E mode T k fd p) : (p.close fd).fds = inherit T := by
  show Function.update p.fds fd none = inherit T
  rw [hp.fds, Function.update_idem, ← hp.closed hfresh, Function.update_eq_self]

/-- What holds of every state of a `pclose` of the pipeline: the caller has its old table from the
first call on, and at the end it has waited for every process of the pipeline, once. -/
structure Restores (T : Nat → Option ω) (children : List (Process ω × Stop)) (s : Closing ω) :
    Prop where
  fds : s.pc ≠ .close → s.fds = inherit T
  own : ∀ pid ∈ s.waits, pid ∈ children.map (·.1.pid)
  once : s.waits.Nodup
  all : ∀ r, s.pc = .returned r → s.waits = children.map (·.1.pid)

/-- When `pclose` is done, what it was not given is open as before. -/
theorem Closing.Inv.restores {p : Process ω} {pfd : Pfd} {s : Closing ω}
    {children : List (Process ω × Stop)} (hs : s.Inv pfd p) (hnodup : pfd.pids.Nodup)
    (hpids : pfd.pids = children.map (·.1.pid)) (hfds : (p.close pfd.fd).fds = inherit T) :
    Restores T children s := by
  cases hpc : s.pc with
  | close =>
      obtain ⟨-, hwaits⟩ := hs.close hpc
      refine ⟨fun h => absurd hpc h, ?_, ?_, fun r h => nomatch hpc.symm.trans h⟩
      · rw [hwaits]
        exact fun _ h => absurd h List.not_mem_nil
      · rw [hwaits]
        exact List.nodup_nil
  | wait i =>
      obtain ⟨hclosed, -, hwaits⟩ := hs.wait i hpc
      refine ⟨fun _ => hclosed.trans hfds, ?_, ?_, fun r h => nomatch hpc.symm.trans h⟩
      · rw [hwaits, ← hpids]
        exact fun _ h => List.mem_of_mem_take h
      · rw [hwaits]
        exact (List.take_sublist i _).nodup hnodup
  | returned r =>
      obtain ⟨hclosed, hwaits, -⟩ := hs.returned r hpc
      refine ⟨fun _ => hclosed.trans hfds, ?_, ?_, fun _ _ => hwaits.trans hpids⟩
      · rw [hwaits, ← hpids]
        exact fun _ h => h
      · rw [hwaits]
        exact hnodup

/-- **The life of a pipeline**: while its tasks run each end of its pipes is held once, and
`pclose` gives the caller its descriptors back and waits for nobody else's children, however the
processes of the pipeline end. -/
theorem pipeline_life {tasks : List Task} (htasks : tasks ≠ []) (hmode : ValidMode mode)
    (hstd : StdOpen T) (hfresh : FreshPipes E mode T) (hsucc : Succeeds E tasks.length)
    (hdistinct : DistinctPids E) (self : Nat) :
    ∃ p pfd children, (popen_pipeline E tasks mode).run (Process.initial self T)
        = ⟨(p, .ok pfd), Forking.left children⟩ ∧
      (∀ k, k < tasks.length → ∀ e, ∃! x : Option Nat × Nat,
        Holds p children x.1 x.2 (.pipe k e)) ∧
      ∀ noChild s, (pclose noChild pfd p).Reachable always s → Restores T children s := by
  obtain ⟨p, pfd, children, hrun, hp, hpids, hlen, hstages⟩ :=
    exists_run_popen_pipeline hmode hfresh hstd hsucc htasks self
  have hstarted : StagesStarted mode T tasks.length children := by
    refine ⟨hlen, fun j c hc => ?_⟩
    have hj : j < (stageOrder tasks.length mode).length := by
      have := (List.getElem?_eq_some_iff.mp hc).1
      rw [length_stageOrder]
      omega
    obtain ⟨args, hc'⟩ := hstages j _ c (List.getElem?_eq_getElem hj) hc
    exact ⟨_, args, hc'⟩
  have hopened : Opened E mode self T p pfd (Forking.left children) tasks :=
    .popen_pipeline htasks hrun
  obtain ⟨-, ls, hls, hrounds⟩ := hopened.exists_stagesRun
  have hnodup : pfd.pids.Nodup := (hrounds.pids_eq htasks).1 ▸ hrounds.nodup hdistinct
  have hne : pfd.pids ≠ [] := by
    rw [hpids, Ne, List.map_eq_nil_iff, ← List.length_eq_zero_iff, hlen]
    exact fun h => htasks (List.length_eq_zero_iff.mp h)
  refine ⟨p, pfd, children, hrun, fun k hk e => ?_, fun noChild s hs => ?_⟩
  · exact ⟨holder mode tasks.length pfd.fd k e, (holds_iff hp hstarted hk e _).mpr rfl,
      fun x hx => (holds_iff hp hstarted hk e x).mp hx⟩
  · exact (Closing.inv_of_reachable hnodup hne hs).restores hnodup hpids (hp.close_fds hfresh)

/-- `ls | wc` in mode `r`. -/
theorem pipeline_life_lsWc :
    ∃ p pfd children, (popen_pipeline quietSystem lsWc "r").run (Process.initial 0 stdTable)
        = ⟨(p, .ok pfd), Forking.left children⟩ ∧
      (∀ k, k < 2 → ∀ e, ∃! x : Option Nat × Nat, Holds p children x.1 x.2 (.pipe k e)) ∧
      ∀ noChild s, (pclose noChild pfd p).Reachable always s → Restores stdTable children s :=
  pipeline_life (by decide) (.inl rfl) ⟨by decide, by decide, by decide⟩
    freshPipes_quietSystem (succeeds_quietSystem _) distinctPids_quietSystem 0

end LuaPosix.Popen

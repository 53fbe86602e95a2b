import LuaPosix.Posix.Rounds

/-! # The descriptors of a pipeline

Descriptors are copied at every `fork` and closed in three places: by the caller after a stage,
by the child before its task, and by the function around a later task. The tables are followed
through the stages in the order they are made; between two stages the caller holds one end of
one pipe and nothing else it did not hold before. -/

namespace LuaPosix.Popen

variable {ω : Type} {E : System} {mode : String} {T : Nat → Option ω}

/-! ## Tables -/

/-- The end of a stage's pipe the parent keeps. -/
def parentEnd (mode : String) : PipeEnd := if mode = "r" then .read else .write

/-- The end of a stage's pipe that becomes a standard descriptor of its child. -/
def childEnd (mode : String) : PipeEnd := if mode = "r" then .write else .read

/-- The standard descriptor a stage has from the stage before. -/
def inFd (mode : String) : Nat := if mode = "r" then STDIN_FILENO else STDOUT_FILENO

/-- The standard descriptor a stage has from its own pipe. -/
def outFd (mode : String) : Nat := if mode = "r" then STDOUT_FILENO else STDIN_FILENO

/-- A table of files the caller had open. -/
def inherit (T : Nat → Option ω) : Fds ω := fun d => (T d).map .inherited

/-- What the process had closed stays closed. -/
theorem inherit_eq_none {d : Nat} : inherit T d = none ↔ T d = none := Option.map_eq_none_iff

/-- The calling process before the call. -/
def Process.initial (pid : Nat) (T : Nat → Option ω) : Process ω := ⟨pid, inherit T, 0, 0, []⟩

/-- The pipe function returns descriptors that are closed in the caller when it is called: the
caller did not have them open before, and they are not the end kept of the stage before. -/
structure FreshPipes (E : System) (mode : String) (T : Nat → Option ω) : Prop where
  closed : ∀ {k r w}, E.pipe k = .ok (some (r, w)) → T r = none ∧ T w = none ∧ r ≠ w
  kept : ∀ {k r w r' w' e}, E.pipe k = .ok (some (r, w)) → popenEnds mode r w = some e →
    E.pipe (k + 1) = .ok (some (r', w')) → r' ≠ e.parent_fd ∧ w' ≠ e.parent_fd

/-- The two ends of a pipe by the mode. -/
theorem popenEnds_cases {r w : Nat} {e : Ends} (h : popenEnds mode r w = some e) :
    (mode = "r" ∧ e = ⟨r, w, 0, 1⟩) ∨ (mode = "w" ∧ e = ⟨w, r, 1, 0⟩) := by
  rw [popenEnds] at h
  split_ifs at h with hr hw
  · exact .inl ⟨hr, (Option.some.inj h).symm⟩
  · exact .inr ⟨hw, (Option.some.inj h).symm⟩

/-- What `Ends` says of a stage whose pipe is fresh. -/
structure FreshEnds (mode : String) (U : Fds ω) (e : Ends) : Prop where
  parent : U e.parent_fd = none
  child : U e.child_fd = none
  ne : e.child_fd ≠ e.parent_fd
  in_fd : e.in_fd = inFd mode
  out_fd : e.out_fd = outFd mode

/-- Two fresh descriptors are fresh ends in either mode. -/
theorem FreshEnds.of_popenEnds {U : Fds ω} {r w : Nat} {e : Ends}
    (h : popenEnds mode r w = some e) (hr : U r = none) (hw : U w = none) (hne : r ≠ w) :
    FreshEnds mode U e := by
  rcases popenEnds_cases h with ⟨rfl, rfl⟩ | ⟨rfl, rfl⟩
  · exact ⟨hr, hw, Ne.symm hne, rfl, rfl⟩
  · exact ⟨hw, hr, hne, rfl, rfl⟩

/-- A new pipe, by the ends parent and child keep. -/
theorem Process.pipe_fds {r w : Nat} {e : Ends} (h : popenEnds mode r w = some e) (hne : r ≠ w)
    (p : Process ω) :
    (p.pipe r w).fds = Function.update
      (Function.update p.fds e.child_fd (some (.pipe p.pipes (childEnd mode)))) e.parent_fd
      (some (.pipe p.pipes (parentEnd mode))) := by
  rcases popenEnds_cases h with ⟨rfl, rfl⟩ | ⟨rfl, rfl⟩
  · exact Function.update_comm hne _ _ _
  · rfl

/-! ## The caller -/

/-- The caller after stage `k`: it holds its end of that stage's pipe at `fd`, and otherwise
what it held before the call. -/
structure Caller (E : System) (mode : String) (T : Nat → Option ω) (k fd : Nat) (p : Process ω) :
    Prop where
  pipes : p.pipes = k + 1
  forks : p.forks = k + 1
  started : p.started = []
  fds : p.fds = Function.update (inherit T) fd (some (.pipe k (parentEnd mode)))
  kept : ∃ r w e, E.pipe k = .ok (some (r, w)) ∧ popenEnds mode r w = some e ∧ fd = e.parent_fd

/-- Closing the child's end leaves the parent's end of a new pipe. -/
theorem Process.opened_fds {r w : Nat} {e : Ends} (h : popenEnds mode r w = some e)
    (hne : r ≠ w) {p : Process ω} (he : FreshEnds mode p.fds e) :
    (p.opened r w e).fds
      = Function.update p.fds e.parent_fd (some (.pipe p.pipes (parentEnd mode))) := by
  show Function.update (p.pipe r w).fds e.child_fd none = _
  rw [Process.pipe_fds h hne, Function.update_comm he.ne.symm, Function.update_idem, ← he.child,
    Function.update_eq_self]

section Caller

variable (hfresh : FreshPipes E mode T) {k fd r w pid : Nat} {e : Ends} {p : Process ω}

include hfresh

/-- So the first pipe's are. -/
theorem FreshPipes.ends_initial (ho : Opening E mode k r w e pid) :
    FreshEnds mode (inherit T) e := by
  obtain ⟨hr, hw, hne⟩ := hfresh.closed ho.pipe
  exact .of_popenEnds ho.ends (inherit_eq_none.mpr hr) (inherit_eq_none.mpr hw) hne

/-- The next pipe is fresh for the caller. -/
theorem Caller.ends (hp : Caller E mode T k fd p) (ho : Opening E mode (k + 1) r w e pid) :
    FreshEnds mode p.fds e := by
  obtain ⟨hr, hw, hne⟩ := hfresh.closed ho.pipe
  obtain ⟨r₀, w₀, e₀, hpipe₀, hends₀, rfl⟩ := hp.kept
  obtain ⟨hr₀, hw₀⟩ := hfresh.kept hpipe₀ hends₀ ho.pipe
  refine .of_popenEnds ho.ends ?_ ?_ hne
  · rw [hp.fds, Function.update_of_ne hr₀, inherit_eq_none.mpr hr]
  · rw [hp.fds, Function.update_of_ne hw₀, inherit_eq_none.mpr hw]

/-- The caller did not hold the descriptor it keeps. -/
theorem Caller.closed (hp : Caller E mode T k fd p) : inherit T fd = none := by
  obtain ⟨r, w, e, hpipe, hends, rfl⟩ := hp.kept
  obtain ⟨hr, hw, hne⟩ := hfresh.closed hpipe
  exact (FreshEnds.of_popenEnds hends (inherit_eq_none.mpr hr) (inherit_eq_none.mpr hw) hne).parent

/-- The caller after the first stage. -/
theorem caller_first (self : Nat) (ho : Opening E mode 0 r w e pid) :
    Caller E mode T 0 e.parent_fd ((Process.initial self T).opened r w e) where
  pipes := rfl
  forks := rfl
  started := rfl
  fds := Process.opened_fds ho.ends (hfresh.closed ho.pipe).2.2 (hfresh.ends_initial ho)
  kept := ⟨r, w, e, ho.pipe, ho.ends, rfl⟩

/-- The caller after a later stage. -/
theorem Caller.next (hp : Caller E mode T k fd p) (ho : Opening E mode (k + 1) r w e pid) :
    Caller E mode T (k + 1) e.parent_fd ((p.opened r w e).close fd) where
  pipes := congrArg (· + 1) hp.pipes
  forks := congrArg (· + 1) hp.forks
  started := hp.started
  fds := by
    have he := hp.ends hfresh ho
    have hne : fd ≠ e.parent_fd := by
      intro h
      have hparent := he.parent
      rw [← h, hp.fds, Function.update_self] at hparent
      cases hparent
    show Function.update (p.opened r w e).fds fd none = _
    -- What is left of the stage before is closed, and nothing else changes.
    rw [Process.opened_fds ho.ends (hfresh.closed ho.pipe).2.2 he, hp.fds, hp.pipes,
      Function.update_comm hne.symm, Function.update_idem, ← hp.closed hfresh,
      Function.update_eq_self]
  kept := ⟨r, w, e, ho.pipe, ho.ends, rfl⟩

end Caller

/-! ## The children -/

section Tables

variable {β : Type} {U : Nat → Option β} {c d i o : Nat} {x y : Option β}

/-- The prologue of a child, on its table: `c` is moved to `o` and `d` is closed. -/
theorem update_prologue (hc : U c = none) (hd : U d = none) (hcd : c ≠ d) (hco : c ≠ o)
    (hdo : d ≠ o) :
    Function.update (Function.update (Function.update (Function.update (Function.update U c x) d y)
      o (Function.update (Function.update U c x) d y c)) c none) d none
      = Function.update U o x := by
  funext j
  by_cases hjd : j = d
  · rw [hjd, Function.update_self, Function.update_of_ne hdo, hd]
  by_cases hjc : j = c
  · rw [hjc, Function.update_of_ne hcd, Function.update_self, Function.update_of_ne hco, hc]
  rw [Function.update_of_ne hjd, Function.update_of_ne hjc]
  by_cases hjo : j = o
  · rw [hjo, Function.update_self, Function.update_self, Function.update_of_ne hcd,
      Function.update_self]
  · rw [Function.update_of_ne hjo, Function.update_of_ne hjo, Function.update_of_ne hjd,
      Function.update_of_ne hjc]

/-- Taking over a descriptor `d`, on the table: it is moved to `i`. -/
theorem update_takeOver (hd : U d = none) (hdi : d ≠ i) (hdo : d ≠ o) :
    Function.update (Function.update (Function.update (Function.update U d y) o x) i
      (Function.update (Function.update U d y) o x d)) d none
      = Function.update (Function.update U o x) i y := by
  funext j
  by_cases hjd : j = d
  · rw [hjd, Function.update_self, Function.update_of_ne hdi, Function.update_of_ne hdo, hd]
  rw [Function.update_of_ne hjd]
  by_cases hji : j = i
  · rw [hji, Function.update_self, Function.update_self, Function.update_of_ne hdo,
      Function.update_self]
  rw [Function.update_of_ne hji, Function.update_of_ne hji]
  by_cases hjo : j = o
  · rw [hjo, Function.update_self, Function.update_self]
  · rw [Function.update_of_ne hjo, Function.update_of_ne hjo, Function.update_of_ne hjd]

end Tables

/-- The standard descriptors are open in the caller. -/
structure StdOpen (T : Nat → Option ω) : Prop where
  stdin : T 0 ≠ none
  stdout : T 1 ≠ none
  stderr : T 2 ≠ none

/-- The descriptor a stage reads from is open. -/
theorem StdOpen.inFd (h : StdOpen T) (mode : String) : inherit T (inFd mode) ≠ none := by
  rw [Ne, inherit_eq_none, Popen.inFd]
  split_ifs
  · exact h.stdin
  · exact h.stdout

/-- So is the one it writes to. -/
theorem StdOpen.outFd (h : StdOpen T) (mode : String) : inherit T (outFd mode) ≠ none := by
  rw [Ne, inherit_eq_none, Popen.outFd]
  split_ifs
  · exact h.stdout
  · exact h.stdin

/-- A stage does not read from where it writes. -/
theorem inFd_ne_outFd (mode : String) : inFd mode ≠ outFd mode := by
  rw [inFd, outFd]
  split_ifs <;> decide

/-- The table of stage `k`'s process when its task starts: its own pipe on one standard
descriptor, the pipe of the stage before on the other. -/
def stageFds (mode : String) (T : Nat → Option ω) : (k : Nat) → Fds ω
  | 0 => Function.update (inherit T) (outFd mode) (some (.pipe 0 (childEnd mode)))
  | k + 1 => Function.update
      (Function.update (inherit T) (outFd mode) (some (.pipe (k + 1) (childEnd mode))))
      (inFd mode) (some (.pipe k (parentEnd mode)))

section Children

variable {p : Process ω} {r w pid : Nat} {e : Ends}

/-- The child of a stage once it has its standard descriptor. -/
theorem prologue_fds (pid : Nat) (hends : popenEnds mode r w = some e) (hne : r ≠ w)
    (he : FreshEnds mode p.fds e) (hopen : p.fds (outFd mode) ≠ none) :
    ((((p.pipe r w).child pid).move e.child_fd e.out_fd).close e.parent_fd).fds
      = Function.update p.fds (outFd mode) (some (.pipe p.pipes (childEnd mode))) := by
  have hco : e.child_fd ≠ outFd mode := fun h => hopen (h ▸ he.child)
  have hpo : e.parent_fd ≠ outFd mode := fun h => hopen (h ▸ he.parent)
  have hfds : ((p.pipe r w).child pid).fds = _ := Process.pipe_fds hends hne p
  rw [he.out_fd, Process.move, if_neg hco, Process.close, Process.close, Process.dup2]
  simp only [hfds]
  exact update_prologue he.child he.parent he.ne hco hpo

/-- The process of stage `k`, where the `i`-th task runs. -/
abbrev StageProcess (mode : String) (T : Nat → Option ω) (tasks : List Task) (k i : Nat)
    (p : Process ω) : Prop :=
  ∃ args, p.started = [⟨taskAt tasks i, args, stageFds mode T k⟩]

variable (hdup : ∀ pid oldfd newfd, E.dup2 pid oldfd newfd = true)

include hdup

/-- A move succeeds where `dup2` does. -/
theorem moveOk_of_dup2 (pid from_fd to_fd : Nat) : moveOk E pid from_fd to_fd = true := by
  rw [moveOk, hdup, Bool.or_true]

/-- The process of the first stage. -/
theorem stageProcess_first (hfresh : FreshPipes E mode T) (hstd : StdOpen T)
    (ho : Opening E mode 0 r w e pid) (tasks : List Task) (i self : Nat) :
    StageProcess mode T tasks 0 i
      (firstChild E (taskAt tasks i) e (((Process.initial self T).pipe r w).child pid)).1 := by
  rw [firstChild, prologue, if_pos (moveOk_of_dup2 hdup _ _ _)]
  refine ⟨fdArgs e, ?_⟩
  have hfds := prologue_fds pid (p := Process.initial self T) ho.ends
    (hfresh.closed ho.pipe).2.2 (hfresh.ends_initial ho) (hstd.outFd mode)
  show (Process.move _ _ _).started ++ [_] = _
  rw [Process.move_started, hfds]
  rfl

/-- The process of a later stage. -/
theorem Caller.stageProcess (hfresh : FreshPipes E mode T) (hstd : StdOpen T) {k fd : Nat}
    (hp : Caller E mode T k fd p) (ho : Opening E mode (k + 1) r w e pid) (tasks : List Task)
    (i : Nat) :
    StageProcess mode T tasks (k + 1) i
      (nextChild E fd (taskAt tasks i) e ((p.pipe r w).child pid)).1 := by
  have he := hp.ends hfresh ho
  have hin : fd ≠ inFd mode := fun h => hstd.inFd mode (h ▸ hp.closed hfresh)
  have hout : fd ≠ outFd mode := fun h => hstd.outFd mode (h ▸ hp.closed hfresh)
  have hopen : p.fds (outFd mode) ≠ none := by
    rw [hp.fds, Function.update_of_ne hout.symm]
    exact hstd.outFd mode
  rw [nextChild, prologue, if_pos (moveOk_of_dup2 hdup _ _ _), takeOver,
    if_pos (moveOk_of_dup2 hdup _ _ _)]
  refine ⟨[], ?_⟩
  have hfds := prologue_fds pid ho.ends (hfresh.closed ho.pipe).2.2 he hopen
  have hstarted : (Process.move (Process.close (Process.move ((p.pipe r w).child pid) e.child_fd
      e.out_fd) e.parent_fd) fd e.in_fd).started = [] := by
    rw [Process.move_started]
    show (Process.move _ _ _).started = []
    rw [Process.move_started]
    exact hp.started
  have htable : (Process.move (Process.close (Process.move ((p.pipe r w).child pid) e.child_fd
      e.out_fd) e.parent_fd) fd e.in_fd).fds = stageFds mode T (k + 1) := by
    rw [he.in_fd, Process.move, if_neg hin, Process.close, Process.dup2]
    simp only [hfds, hp.fds, hp.pipes]
    exact update_takeOver (hp.closed hfresh) hin hout
  show (Process.move _ _ _).started ++ [_] = _
  rw [hstarted, htable]
  rfl

end Children

/-! ## The run -/

/-- The calls a pipeline of `n` stages makes succeed. -/
structure Succeeds (E : System) (n : Nat) : Prop where
  opens : ∀ k, k < n → Opens E k
  dup2 : ∀ pid oldfd newfd, E.dup2 pid oldfd newfd = true

/-- The tables, followed through the rounds. -/
def stageTables (E : System) (mode : String) (T : Nat → Option ω) (tasks : List Task) :
    Followed ω where
  caller := Caller E mode T
  child k i l := StageProcess mode T tasks k i l.1
  raised _ _ := True

/-- Each stage's table is kept by the rounds of the pipeline. -/
theorem stageTables_kept (hfresh : FreshPipes E mode T) (hstd : StdOpen T)
    (hdup : ∀ pid oldfd newfd, E.dup2 pid oldfd newfd = true) (self : Nat) (tasks : List Task) :
    (stageTables E mode T tasks).Kept E mode tasks (Process.initial self T) where
  pipes hp := hp.pipes
  forks hp := hp.forks
  first ho := caller_first hfresh self ho
  first_child ho i := stageProcess_first hdup hfresh hstd ho tasks i self
  first_raised _ := trivial
  next hp ho := hp.next hfresh ho
  next_child hp ho i := hp.stageProcess hdup hfresh hstd ho tasks i
  next_raised _ _ := trivial

/-- **The pipeline runs**, and its processes are those of the stages in the order they are
made. -/
theorem exists_run_popen_pipeline (hmode : ValidMode mode) (hfresh : FreshPipes E mode T)
    (hstd : StdOpen T) {tasks : List Task} (hsucc : Succeeds E tasks.length)
    (htasks : tasks ≠ []) (self : Nat) :
    ∃ p pfd children, (popen_pipeline E tasks mode).run (Process.initial self T)
        = ⟨(p, .ok pfd), Forking.left children⟩ ∧
      Caller E mode T (tasks.length - 1) pfd.fd p ∧ pfd.pids = children.map (·.1.pid) ∧
      children.length = tasks.length ∧
      ∀ j i child, (stageOrder tasks.length mode)[j]? = some i → children[j]? = some child →
        StageProcess mode T tasks j i child.1 := by
  have hpos : 0 < tasks.length := List.length_pos_iff.mpr htasks
  have hlength : (stageOrder tasks.length mode).length = tasks.length := by
    rw [length_stageOrder]
    omega
  obtain ⟨caller, children, hrun, hstages⟩ :=
    (stageTables_kept hfresh hstd hsucc.dup2 self tasks).exists_stagesRun rfl rfl
  obtain ⟨p, pfd, rfl, hlen, hpids, j, hj, hp⟩ | ⟨q, err, -, hlen, hno, -⟩ := hstages.outcome
  · refine ⟨p, pfd, children, hrun, ?_, hpids, hlen.trans hlength, fun j i child hi hchild => ?_⟩
    · rw [show tasks.length - 1 = j by omega]
      exact hp
    · obtain ⟨i', hi', -, hstage⟩ := hstages.children j child hchild
      obtain rfl := Option.some.inj (hi.symm.trans hi')
      rwa [Nat.zero_add] at hstage
  · exact absurd ⟨hmode, hsucc.opens _ (by omega)⟩ hno

end LuaPosix.Popen

import LuaPosix.Posix.Wiring

/-! # The child of `popen`, whatever the numbers of its descriptors

`move_fd` allows for a child's end of the pipe that already is the standard descriptor. The
parent's end may be it as well, in a caller that has closed the descriptor: then the `close` after
`move_fd` closes what was just put in place. -/

namespace LuaPosix.Popen

variable {ω : Type} {E : System} {mode : String}

/-! ## Moved descriptors -/

section Moved

variable (p : Process ω) (from_fd to_fd : Nat)

/-- What was to be moved is there. -/
theorem Process.move_fds_to : (p.move from_fd to_fd).fds to_fd = p.fds from_fd := by
  rw [Process.move]
  split_ifs with h
  · rw [h]
  · have hdup : (p.dup2 from_fd to_fd).fds to_fd = p.fds from_fd := Function.update_self _ _ _
    rw [← hdup]
    exact Function.update_of_ne (Ne.symm h) _ _

/-- The other descriptors are as before, or closed. -/
theorem Process.move_fds_cases (fd : Nat) : (p.move from_fd to_fd).fds fd = none ∨
    (p.move from_fd to_fd).fds fd = p.fds fd ∨
      (p.move from_fd to_fd).fds fd = p.fds from_fd := by
  by_cases hto : fd = to_fd
  · rw [hto]
    exact .inr (.inr (p.move_fds_to from_fd to_fd))
  · rw [Process.move]
    split_ifs with h
    · exact .inr (.inl rfl)
    · by_cases hfrom : fd = from_fd
      · rw [hfrom]
        exact .inl (Function.update_self _ _ _)
      · have hdup : (p.dup2 from_fd to_fd).fds fd = p.fds fd := Function.update_of_ne hto _ _
        rw [← hdup]
        exact .inr (.inl (Function.update_of_ne hfrom _ _))

end Moved

/-! ## The table of the child -/

/-- What the child of a stage needs of its table: its end of pipe `k` at the standard descriptor,
and the parent's end nowhere. -/
structure SetUp (mode : String) (k : Nat) (fds : Fds ω) : Prop where
  standard : fds (outFd mode) = some (.pipe k (childEnd mode))
  parent : ∀ fd, fds fd ≠ some (.pipe k (parentEnd mode))

section Prologue

variable {T : Nat → Option ω} {r w pid self : Nat} {e : Ends}

/-- The table with which the task starts. -/
def prologueFds (self : Nat) (T : Nat → Option ω) (r w pid : Nat) (e : Ends) : Fds ω :=
  (((((Process.initial self T).pipe r w).child pid).move e.child_fd e.out_fd).close
    e.parent_fd).fds

/-- The two ends of a pipe are different. -/
theorem parentEnd_ne_childEnd (mode : String) : parentEnd mode ≠ childEnd mode := by
  rw [parentEnd, childEnd]
  split_ifs <;> decide

/-- The standard descriptors of a mode. -/
theorem out_fd_eq (h : popenEnds mode r w = some e) : e.out_fd = outFd mode := by
  rcases popenEnds_cases h with ⟨rfl, rfl⟩ | ⟨rfl, rfl⟩ <;> rfl

/-- So are their descriptors. -/
theorem child_fd_ne (h : popenEnds mode r w = some e) (hne : r ≠ w) :
    e.child_fd ≠ e.parent_fd := by
  rcases popenEnds_cases h with ⟨rfl, rfl⟩ | ⟨rfl, rfl⟩
  · exact hne.symm
  · exact hne

/-- The table of the child before the prologue: the ends of the pipe, and what it inherits. -/
theorem child_fds (h : popenEnds mode r w = some e) (hne : r ≠ w) :
    (((Process.initial self T).pipe r w).child pid).fds = Function.update
      (Function.update (inherit T) e.child_fd (some (.pipe 0 (childEnd mode)))) e.parent_fd
      (some (.pipe 0 (parentEnd mode))) := Process.pipe_fds h hne _

/-- The child has its end where the pipe function gave it. -/
theorem child_fds_child_fd (h : popenEnds mode r w = some e) (hne : r ≠ w) :
    (((Process.initial self T).pipe r w).child pid).fds e.child_fd
      = some (.pipe 0 (childEnd mode)) := by
  rw [child_fds h hne, Function.update_of_ne (child_fd_ne h hne), Function.update_self]

/-- The end that it is not to have is another file. -/
theorem childFile_ne_parentFile (mode : String) :
    some (File.pipe (ω := ω) 0 (childEnd mode)) ≠ some (.pipe 0 (parentEnd mode)) := fun heq =>
  parentEnd_ne_childEnd mode (File.pipe.inj (Option.some.inj heq)).2.symm

/-- The parent's end is nowhere else. -/
theorem child_fds_ne_parentFile (h : popenEnds mode r w = some e) (hne : r ≠ w) {fd : Nat}
    (hfd : fd ≠ e.parent_fd) : (((Process.initial self T).pipe r w).child pid).fds fd
      ≠ some (.pipe 0 (parentEnd mode)) := by
  rw [child_fds h hne, Function.update_of_ne hfd]
  by_cases hchild : fd = e.child_fd
  · rw [hchild, Function.update_self]
    exact childFile_ne_parentFile mode
  · rw [Function.update_of_ne hchild]
    exact inherit_ne_pipe _ _ _

/-- The prologue closes the parent's end, and puts it nowhere else. -/
theorem prologueFds_ne_parentFile (h : popenEnds mode r w = some e) (hne : r ≠ w) (fd : Nat) :
    prologueFds self T r w pid e fd ≠ some (.pipe 0 (parentEnd mode)) := by
  by_cases hparent : fd = e.parent_fd
  · have hclosed : prologueFds self T r w pid e fd = none := by
      rw [hparent]
      exact Function.update_self _ _ _
    rw [hclosed]
    exact (Option.some_ne_none _).symm
  · have hopen : prologueFds self T r w pid e fd
        = ((((Process.initial self T).pipe r w).child pid).move e.child_fd e.out_fd).fds fd :=
      Function.update_of_ne hparent _ _
    rw [hopen]
    -- What is there is nothing, what was there before, or the child's end.
    rcases Process.move_fds_cases (((Process.initial self T).pipe r w).child pid)
      e.child_fd e.out_fd fd with hnone | hsame | hmoved
    · rw [hnone]
      exact (Option.some_ne_none _).symm
    · rw [hsame]
      exact child_fds_ne_parentFile h hne hparent
    · rw [hmoved, child_fds_child_fd h hne]
      exact childFile_ne_parentFile mode

/-- **The child is set up if and only if the parent's end of the pipe is not the standard
descriptor.** -/
theorem setUp_prologueFds_iff (h : popenEnds mode r w = some e) (hne : r ≠ w) :
    SetUp mode 0 (prologueFds self T r w pid e) ↔ e.parent_fd ≠ e.out_fd := by
  constructor
  · intro hsetUp heq
    -- The standard descriptor is the one that is closed.
    have hclosed : prologueFds self T r w pid e e.out_fd = none := by
      rw [← heq]
      exact Function.update_self _ _ _
    rw [out_fd_eq h, hsetUp.standard] at hclosed
    cases hclosed
  · intro hout
    refine ⟨?_, prologueFds_ne_parentFile h hne⟩
    rw [← out_fd_eq h, ← child_fds_child_fd h hne, ← Process.move_fds_to _ e.child_fd e.out_fd]
    exact Function.update_of_ne hout.symm _ _

end Prologue

/-! ## The call -/

/-- The child of `popen` is set up when its task starts. -/
def ChildSetUp (E : System) (mode : String) (p : Process ω) (task : Task) : Prop :=
  ∀ l ∈ ((popen E task mode).run p).forked, ∀ s ∈ l.1.started, SetUp mode p.pipes s.fds

/-- A pipe that was made has two ends with different numbers. -/
def DistinctEnds (E : System) : Prop := ∀ r w, E.pipe 0 = .ok (some (r, w)) → r ≠ w

/-- The ends of the only pipe, for the only child. -/
theorem forall_ends_iff {r w pid : Nat} {e : Ends} {p : Nat → Ends → Prop}
    (hpipe : E.pipe 0 = .ok (some (r, w))) (hfork : E.fork 0 = some pid)
    (hends : popenEnds mode r w = some e) :
    (∀ r w pid e, E.pipe 0 = .ok (some (r, w)) → E.fork 0 = some pid →
      popenEnds mode r w = some e → p pid e) ↔ p pid e := by
  constructor
  · intro h
    exact h r w pid e hpipe hfork hends
  · intro h r' w' pid' e' hpipe' hfork' hends'
    obtain ⟨rfl, rfl⟩ := Prod.mk.inj (Option.some.inj (Except.ok.inj (hpipe.symm.trans hpipe')))
    obtain rfl := Option.some.inj (hfork.symm.trans hfork')
    obtain rfl := Option.some.inj (hends.symm.trans hends')
    exact h

/-- **The child of `popen` is set up if and only if the parent's end of the pipe is not numbered as
the standard descriptor the child replaces**, or the task does not start. -/
theorem childSetUp_iff (hdistinct : DistinctEnds E) (self : Nat) (T : Nat → Option ω)
    (task : Task) : ChildSetUp E mode (Process.initial self T) task ↔
      ∀ r w pid e, E.pipe 0 = .ok (some (r, w)) → E.fork 0 = some pid →
        popenEnds mode r w = some e → moveOk E pid e.child_fd e.out_fd →
          e.parent_fd ≠ e.out_fd := by
  by_cases hopens : ValidMode mode ∧ Opens E 0
  · obtain ⟨hmode, ⟨r, w, hpipe⟩, pid, hfork⟩ := hopens
    obtain ⟨e, hends⟩ := exists_popenEnds hmode r w
    have hne : r ≠ w := hdistinct r w hpipe
    have hrun := run_popen (p := Process.initial self T) task hpipe hends hfork
    rw [ChildSetUp, hrun, forall_ends_iff hpipe hfork hends]
    show (∀ l ∈ Forking.left [firstChild E task e (((Process.initial self T).pipe r w).child pid)],
      ∀ s ∈ l.1.started, SetUp mode 0 s.fds) ↔ _
    rw [Forking.left, List.map_singleton, List.forall_mem_singleton, firstChild, prologue]
    by_cases hmove : moveOk E (((Process.initial self T).pipe r w).child pid).pid e.child_fd
        e.out_fd
    · have hstarted : (((((Process.initial self T).pipe r w).child pid).move e.child_fd
          e.out_fd).close e.parent_fd).started = [] := Process.move_started _ _ _
      have hmove' : moveOk E pid e.child_fd e.out_fd := hmove
      rw [if_pos hmove, ← setUp_prologueFds_iff (T := T) hends hne]
      dsimp only
      rw [Process.start, hstarted, List.nil_append, List.forall_mem_singleton]
      exact ⟨fun h _ => h, fun h => h hmove'⟩
    · rw [if_neg hmove]
      exact iff_of_true (fun s hs => absurd hs List.not_mem_nil) fun h => absurd h hmove
  · obtain ⟨q, err, hrun, -⟩ := run_popenWith_error (p := Process.initial self T) hopens rfl
    refine iff_of_true (fun l hl => ?_) fun r w pid e hpipe hfork hends => ?_
    · rw [popen, hrun] at hl
      exact absurd hl List.not_mem_nil
    · -- The call does not get as far as a child.
      refine absurd ⟨?_, ⟨r, w, hpipe⟩, pid, hfork⟩ hopens
      by_contra hmode
      rw [popenEnds_of_not_validMode hmode] at hends
      cases hends

/-! ## A caller without standard output -/

/-- Descriptor 1 is closed. -/
def noStdout (d : Nat) : Option Nat := if d = 0 ∨ d = 2 then some d else none

/-- The lowest closed descriptors. -/
def noStdoutSystem : System := { quietSystem with pipe := fun _ => .ok (some (1, 3)) }

/-- The pipes of the small system have different ends. -/
theorem distinctEnds_quietSystem : DistinctEnds quietSystem := by
  intro r w h
  obtain ⟨rfl, rfl⟩ := Prod.mk.inj (Option.some.inj (Except.ok.inj h))
  decide

/-- With the usual descriptors open the pipe is 3 and 4. -/
theorem childSetUp_stdTable :
    ChildSetUp quietSystem "r" (Process.initial 0 stdTable) nilTask := by
  refine (childSetUp_iff distinctEnds_quietSystem 0 stdTable nilTask).mpr ?_
  intro r w pid e hpipe hfork hends hmove
  obtain ⟨rfl, rfl⟩ := Prod.mk.inj (Option.some.inj (Except.ok.inj hpipe))
  obtain rfl := Option.some.inj hends
  decide

/-- The pipe is 1 and 3; the child moves 3 to 1, and closes 1. -/
theorem child_without_stdout :
    ¬ChildSetUp noStdoutSystem "r" (Process.initial 0 noStdout) nilTask ∧
    ∃ l s, l ∈ ((popen noStdoutSystem nilTask "r").run (Process.initial 0 noStdout)).forked ∧
      l.1.started = [s] ∧ s.fds STDOUT_FILENO = none := by
  have hclosed : ∃ l s,
      l ∈ ((popen noStdoutSystem nilTask "r").run (Process.initial 0 noStdout)).forked ∧
        l.1.started = [s] ∧ s.fds STDOUT_FILENO = none :=
    ⟨_, _, List.mem_singleton_self _, rfl, rfl⟩
  refine ⟨fun h => ?_, hclosed⟩
  obtain ⟨l, s, hl, hstarted, hnone⟩ := hclosed
  have hstandard := (h l hl s (hstarted ▸ List.mem_singleton_self s)).standard
  rw [show outFd "r" = STDOUT_FILENO from rfl, hnone] at hstandard
  cases hstandard

end LuaPosix.Popen

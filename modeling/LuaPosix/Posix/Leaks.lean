import LuaPosix.Posix.Wiring

/-! # Descriptors left open by an error

`popen` checks the mode and forks with its pipe open already, and closes nothing before it
raises; `popen_pipeline` does not close the descriptor it kept of the stage before. An error
leaves the caller's table as it was only where the first pipe is not made. -/

namespace LuaPosix.Popen

variable {ω : Type} {E : System} {mode : String} {T : Nat → Option ω}

/-- An error leaves the descriptor table of the caller as it was before the call. -/
def NoLeak {α : Type} (x : ProcM ω α) (self : Nat) (T : Nat → Option ω) : Prop :=
  ∀ p err, (x.run (Process.initial self T)).self = (p, .error (.raises err)) → p.fds = inherit T

/-- The first call of the pipe function gives no pipe. -/
def FirstPipeFails (E : System) : Prop := pipeFailure (E.pipe 0) ≠ none

/-- A pipe that was made can be seen in the table. -/
theorem Process.pipe_fds_ne (p : Process ω) (r : Nat) {w : Nat} (hw : T w = none) :
    (p.pipe r w).fds ≠ inherit T := by
  intro h
  have hat := congrFun h w
  rw [inherit_eq_none.mpr hw] at hat
  have hsome : (p.pipe r w).fds w = some (.pipe p.pipes .write) := Function.update_self _ _ _
  rw [hsome] at hat
  cases hat

/-- And so can the end kept of a stage. -/
theorem Caller.fds_ne (hfresh : FreshPipes E mode T) {k fd : Nat} {p : Process ω}
    (hp : Caller E mode T k fd p) : p.fds ≠ inherit T := by
  intro h
  have hat := congrFun h fd
  rw [hp.closed hfresh, hp.fds, Function.update_self] at hat
  cases hat

/-- What a stage that does not open leaves of the caller's table: it is as before the call only if
the stage is the first and gets no pipe. -/
def RaisedAt (E : System) (T : Nat → Option ω) (k : Nat) (q : Process ω) : Prop :=
  q.fds = inherit T ↔ k = 0 ∧ FirstPipeFails E

/-- The first stage raises with what it has opened. -/
theorem raisedAt_first (hfresh : FreshPipes E mode T) {self : Nat} {q : Process ω}
    (h : Failed E (Process.initial self T) q) : RaisedAt E T 0 q := by
  obtain ⟨hfails, hsame⟩ | ⟨r, w, hpipe, hopen⟩ := h
  · exact iff_of_true hsame ⟨rfl, hfails⟩
  · refine iff_of_false ?_ fun h => h.2 (congrArg pipeFailure hpipe)
    rw [hopen]
    exact Process.pipe_fds_ne _ r (hfresh.closed hpipe).2.1

/-- So does a later one, with what is kept of the stage before. -/
theorem Caller.raisedAt (hfresh : FreshPipes E mode T) {k fd : Nat} {p q : Process ω}
    (hp : Caller E mode T k fd p) (h : Failed E p q) : RaisedAt E T (k + 1) q := by
  refine iff_of_false ?_ fun h => Nat.succ_ne_zero k h.1
  obtain ⟨-, hsame⟩ | ⟨r, w, hpipe, hopen⟩ := h
  · rw [hsame]
    exact hp.fds_ne hfresh
  · rw [hopen]
    exact p.pipe_fds_ne r (hfresh.closed hpipe).2.1

/-- The caller's table, followed through the rounds. -/
def callerTable (E : System) (mode : String) (T : Nat → Option ω) : Followed ω where
  caller := Caller E mode T
  child _ _ _ := True
  raised := RaisedAt E T

/-- What the caller has open is followed through the rounds. -/
theorem callerTable_kept (hfresh : FreshPipes E mode T) (self : Nat) (tasks : List Task) :
    (callerTable E mode T).Kept E mode tasks (Process.initial self T) where
  pipes hp := hp.pipes
  forks hp := hp.forks
  first ho := caller_first hfresh self ho
  first_child _ _ := trivial
  first_raised h := raisedAt_first hfresh h
  next hp ho := hp.next hfresh ho
  next_child _ _ _ := trivial
  next_raised hp h := hp.raisedAt hfresh h

/-- `popen_pipeline` leaks nothing if there is no first pipe, or nothing is raised. -/
theorem noLeak_popen_pipeline (hfresh : FreshPipes E mode T) (self : Nat) (tasks : List Task) :
    NoLeak (popen_pipeline E tasks mode) self T ↔
      FirstPipeFails E ∨ (ValidMode mode ∧ ∀ k, k < max 1 tasks.length → Opens E k) := by
  obtain ⟨caller, ls, hrun, hstages⟩ :=
    (callerTable_kept hfresh self tasks).exists_stagesRun rfl rfl
  have hopens : ∀ k, k < ls.length → ValidMode mode ∧ Opens E k := by
    intro k hk
    have hk' := hstages.opens k hk
    rwa [Nat.zero_add] at hk'
  obtain ⟨q, pfd, rfl, hlen, -⟩ | ⟨q, err, rfl, hlen, hno, hraised⟩ := hstages.outcome
  · -- Every stage opens, and nothing is raised.
    rw [length_stageOrder] at hlen
    refine iff_of_true (fun p err herr => ?_) (.inr ⟨(hopens 0 (by omega)).1, fun k hk => ?_⟩)
    · rw [hrun] at herr
      cases herr
    · exact (hopens k (by omega)).2
  · have hnoLeak : NoLeak (popen_pipeline E tasks mode) self T ↔ q.fds = inherit T := by
      rw [NoLeak, hrun]
      refine ⟨fun h => h q err rfl, fun h p err' herr => ?_⟩
      cases herr
      exact h
    have hraised' : q.fds = inherit T ↔ ls.length = 0 ∧ FirstPipeFails E := by
      rw [← Nat.zero_add ls.length]
      exact hraised
    rw [length_stageOrder] at hlen
    rw [Nat.zero_add] at hno
    rw [hnoLeak, hraised', or_iff_left fun h => hno ⟨h.1, h.2 _ hlen⟩, and_iff_right_iff_imp]
    -- A first stage that opened had a pipe.
    intro hfails
    by_contra hne
    obtain ⟨⟨r, w, hpipe⟩, -⟩ := (hopens 0 (Nat.pos_of_ne_zero hne)).2
    exact hfails (congrArg pipeFailure hpipe)

/-- **Errors leak descriptors**, in `popen` and in `popen_pipeline`, unless the first pipe is not
made; without an error every stage opens. -/
theorem noLeak_iff (hfresh : FreshPipes E mode T) (self : Nat) (task : Task)
    (tasks : List Task) :
    (NoLeak (popen E task mode) self T ↔
      FirstPipeFails E ∨ (ValidMode mode ∧ Opens E 0)) ∧
    (NoLeak (popen_pipeline E tasks mode) self T ↔
      FirstPipeFails E ∨ (ValidMode mode ∧ ∀ k, k < max 1 tasks.length → Opens E k)) := by
  refine ⟨?_, noLeak_popen_pipeline hfresh self tasks⟩
  have hone : (∀ k, k < max 1 [task].length → Opens E k) ↔ Opens E 0 := by
    rw [List.length_singleton, Nat.max_self]
    exact ⟨fun h => h 0 Nat.one_pos, fun h k hk => by rwa [Nat.lt_one_iff.mp hk]⟩
  rw [popen_eq_popen_pipeline, noLeak_popen_pipeline hfresh self [task], hone]

/-- Where every stage opens nothing is raised. -/
theorem noLeak_lsWc : NoLeak (popen_pipeline quietSystem lsWc "r") 0 stdTable :=
  (noLeak_iff freshPipes_quietSystem 0 nilTask lsWc).2.mpr
    (.inr ⟨.inl rfl, fun k _ => (succeeds_quietSystem (k + 1)).opens k (Nat.lt_succ_self k)⟩)

/-- An invalid mode leaves both ends of a pipe open. -/
theorem popen_invalid_mode_leaks :
    ((popen quietSystem nilTask "rw").run (Process.initial 0 stdTable)).self.2
      = .error (.raises (.error "invalid mode")) ∧
    ((popen quietSystem nilTask "rw").run (Process.initial 0 stdTable)).self.1.fds 4
      = some (.pipe 0 .write) ∧
    ¬ NoLeak (popen quietSystem nilTask "rw") 0 stdTable := by
  have hrun : (popen quietSystem nilTask "rw").run (Process.initial 0 stdTable)
      = ⟨((Process.initial 0 stdTable).pipe 3 4, .error (.raises (.error "invalid mode"))), []⟩ :=
    run_popenWith_invalid rfl rfl
  refine ⟨by rw [hrun], by rw [hrun]; rfl, fun h => ?_⟩
  exact Process.pipe_fds_ne _ 3 rfl (h _ _ (by rw [hrun]))

end LuaPosix.Popen

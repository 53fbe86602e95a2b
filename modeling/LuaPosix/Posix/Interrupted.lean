import LuaPosix.Posix.Pclose

/-! # Waits that a signal interrupts

`pclose` and `spawn` call `wait` once for each child they forked. A call that a signal interrupts
returns nil, a message and `EINTR`, and has waited for nothing. Neither function calls it again,
so the child stays unreaped, and where it is the last one the message and the number take the
place of its reason and status. -/

namespace LuaPosix.Popen

open LuaPattern (LStr)

variable {ω : Type} {E : System} {mode : String}

/-! ## `wait` and its callers -/

/-- How the calls of `wait` of a process turn out. -/
structure Waits where
  /-- How each child ends, sooner or later. -/
  ends : Nat → Termination
  /-- Whether a signal interrupts the `k`-th call. -/
  interrupts : Nat → Bool
  strerror : LuaInteger → LStr

/-- A process with children it waits for. -/
structure Waited (ω : Type) where
  fds : Fds ω
  /-- The calls of `wait` so far. -/
  calls : Nat
  /-- The children they reaped. -/
  reaped : List Nat

/-- Before the first call of `wait`. -/
def Waited.initial (fds : Fds ω) : Waited ω := ⟨fds, 0, []⟩

/-- `close(fd)`. -/
def Waited.close (s : Waited ω) (fd : Nat) : Waited ω :=
  { s with fds := Function.update s.fds fd none }

/-- Closing waits for nobody. -/
theorem Waited.initial_close_calls (fds : Fds ω) (fd i : Nat) :
    ((Waited.initial fds).close fd).calls + i = i := Nat.zero_add i

/-- A call of `wait` was made. -/
def Waited.called (s : Waited ω) : Waited ω := { s with calls := s.calls + 1 }

/-- The child is no longer a zombie. -/
def Waited.reap (s : Waited ω) (pid : Nat) : Waited ω := { s with reaped := s.reaped ++ [pid] }

namespace Waits

/-- A signal interrupted the call. -/
def EINTR : LuaInteger := 4

/-- There is no such child. -/
def ECHILD : LuaInteger := 10

variable (W : Waits)

/-- Sequencing, in a given state. -/
theorem bind_apply {α β : Type} (x : StateM (Waited ω) α) (f : α → StateM (Waited ω) β)
    (s : Waited ω) : (x >>= f) s = f (x s).1 (x s).2 := rfl

/-- `waitpid(pid, &status, 0)`: it blocks until the child ends or a signal arrives. -/
def waitpid (pid : Nat) : StateM (Waited ω) (Except LuaInteger Termination) := fun s =>
  if W.interrupts s.calls then (.error EINTR, s.called)
  else if pid ∈ s.reaped then (.error ECHILD, s.called)
  else (.ok (W.ends pid), s.called.reap pid)

/-- `Pwait(pid)`: the pid, a reason and a status, or nil, a message and an error number. -/
def Pwait (pid : Nat) : StateM (Waited ω) (LuaValue × LuaValue × LuaValue) := do
  match ← W.waitpid pid with
  | .error errnum => return (.nil, .string (W.strerror errnum), .integer errnum)
  | .ok t => return (fdValue pid, t.result)

/-- `close(fd)`. -/
def close (fd : Nat) : StateM (Waited ω) Unit :=
  modify fun s => s.close fd

/-- The loop of `Ppclose`, whose results are dropped. -/
def waitEach (pids : List Nat) : StateM (Waited ω) Unit :=
  pids.forM fun pid => do
    let _ ← W.Pwait pid

/-- `Ppclose(pfd)` of a pipeline with a child. -/
def Ppclose (pfd : Pfd) (hne : pfd.pids ≠ []) : StateM (Waited ω) (LuaValue × LuaValue) := do
  close pfd.fd
  W.waitEach pfd.pids.dropLast
  let (_, reason, status) ← W.Pwait (pfd.pids.getLast hne)
  return (reason, status)

/-- What `Pspawn` does after it has forked. -/
def Pspawn (pid : Nat) : StateM (Waited ω) (LuaValue × LuaValue) := do
  let (_, reason, status) ← W.Pwait pid
  return (status, reason)

/-! ## One call -/

variable {W} {pid q : Nat} {s s' : Waited ω}

/-- A call that is interrupted reaps nobody. -/
theorem waitpid_interrupted (h : W.interrupts s.calls = true) :
    W.waitpid pid s = (.error EINTR, s.called) := if_pos h

/-- A child that was waited for is gone. -/
theorem waitpid_twice (h : W.interrupts s.calls = false) (hmem : pid ∈ s.reaped) :
    W.waitpid pid s = (.error ECHILD, s.called) := by
  rw [waitpid, h, if_neg Bool.false_ne_true, if_pos hmem]

/-- Any other is reaped, and its status returned. -/
theorem waitpid_reaps (h : W.interrupts s.calls = false) (hmem : pid ∉ s.reaped) :
    W.waitpid pid s = (.ok (W.ends pid), s.called.reap pid) := by
  rw [waitpid, h, if_neg Bool.false_ne_true, if_neg hmem]

/-- An error is returned as nil, a message and its number. -/
theorem Pwait_of_error {errnum : LuaInteger} (h : W.waitpid pid s = (.error errnum, s')) :
    W.Pwait pid s = ((.nil, .string (W.strerror errnum), .integer errnum), s') := by
  rw [Pwait, bind_apply, h]
  rfl

/-- A child that has ended is returned with its reason and number. -/
theorem Pwait_of_ok {t : Termination} (h : W.waitpid pid s = (.ok t, s')) :
    W.Pwait pid s = ((fdValue pid, t.result), s') := by
  rw [Pwait, bind_apply, h]
  rfl

/-- An uninterrupted call for a child not reaped yet gives its reason and status. -/
theorem Pwait_reaps (h : W.interrupts s.calls = false) (hmem : pid ∉ s.reaped) :
    W.Pwait pid s = ((fdValue pid, (W.ends pid).result), s.called.reap pid) :=
  Pwait_of_ok (waitpid_reaps h hmem)

/-- What a call of `wait` does to the process: it reaps a child or it does not. -/
theorem Pwait_state (W : Waits) (pid : Nat) (s : Waited ω) :
    ((W.interrupts s.calls = true ∨ pid ∈ s.reaped) ∧ (W.Pwait pid s).2 = s.called) ∨
    (W.interrupts s.calls = false ∧ pid ∉ s.reaped ∧
      (W.Pwait pid s).2 = s.called.reap pid) := by
  cases hi : W.interrupts s.calls with
  | true => exact .inl ⟨.inl rfl, by rw [Pwait_of_error (waitpid_interrupted hi)]⟩
  | false =>
      by_cases hmem : pid ∈ s.reaped
      · exact .inl ⟨.inr hmem, by rw [Pwait_of_error (waitpid_twice hi hmem)]⟩
      · exact .inr ⟨rfl, hmem, by rw [Pwait_reaps hi hmem]⟩

/-- One call of `wait` is one of `waitpid(2)`. -/
@[simp] theorem Pwait_calls (W : Waits) (pid : Nat) (s : Waited ω) :
    (W.Pwait pid s).2.calls = s.calls + 1 := by
  obtain ⟨-, h⟩ | ⟨-, -, h⟩ := Pwait_state W pid s <;> rw [h] <;> rfl

/-- It leaves the descriptors alone. -/
@[simp] theorem Pwait_fds (W : Waits) (pid : Nat) (s : Waited ω) :
    (W.Pwait pid s).2.fds = s.fds := by
  obtain ⟨-, h⟩ | ⟨-, -, h⟩ := Pwait_state W pid s <;> rw [h] <;> rfl

/-- A call reaps its child unless it is interrupted. -/
theorem mem_reaped_Pwait (W : Waits) (pid q : Nat) (s : Waited ω) :
    q ∈ (W.Pwait pid s).2.reaped ↔
      q ∈ s.reaped ∨ q = pid ∧ W.interrupts s.calls = false := by
  obtain ⟨hor, h⟩ | ⟨hi, -, h⟩ := Pwait_state W pid s
  · rw [h]
    refine ⟨.inl, fun hq => ?_⟩
    obtain hq | ⟨rfl, hi⟩ := hq
    · exact hq
    · obtain hi' | hmem := hor
      · rw [hi] at hi'
        cases hi'
      · exact hmem
  · rw [h]
    show q ∈ s.reaped ++ [pid] ↔ _
    rw [List.mem_append, List.mem_singleton, hi]
    exact or_congr_right (and_iff_left rfl).symm

/-! ## All calls -/

/-- One child and then the others. -/
theorem waitEach_cons (W : Waits) (pid : Nat) (pids : List Nat) (s : Waited ω) :
    (W.waitEach (pid :: pids) s).2 = (W.waitEach pids (W.Pwait pid s).2).2 := rfl

/-- There is one call for each child. -/
theorem waitEach_calls (W : Waits) (pids : List Nat) (s : Waited ω) :
    (W.waitEach pids s).2.calls = s.calls + pids.length := by
  induction pids generalizing s with
  | nil => rfl
  | cons pid pids ih =>
      rw [waitEach_cons, ih, Pwait_calls, List.length_cons]
      omega

/-- The descriptors are left alone. -/
theorem waitEach_fds (W : Waits) (pids : List Nat) (s : Waited ω) :
    (W.waitEach pids s).2.fds = s.fds := by
  induction pids generalizing s with
  | nil => rfl
  | cons pid pids ih => rw [waitEach_cons, ih, Pwait_fds]

/-- **What a run of calls reaps**: the children whose call is not interrupted. -/
theorem mem_reaped_waitEach (W : Waits) (pids : List Nat) (s : Waited ω) :
    q ∈ (W.waitEach pids s).2.reaped ↔
      q ∈ s.reaped ∨ ∃ i, pids[i]? = some q ∧ W.interrupts (s.calls + i) = false := by
  induction pids generalizing s with
  | nil =>
      refine ⟨.inl, fun h => ?_⟩
      obtain h | ⟨i, hi, -⟩ := h
      · exact h
      · cases hi
  | cons pid pids ih =>
      rw [waitEach_cons, ih, mem_reaped_Pwait, Pwait_calls, or_assoc]
      refine or_congr_right ⟨fun h => ?_, fun h => ?_⟩
      · obtain ⟨rfl, hfirst⟩ | ⟨i, hi, hcall⟩ := h
        · exact ⟨0, rfl, hfirst⟩
        · refine ⟨i + 1, hi, ?_⟩
          rw [← Nat.add_assoc, Nat.add_right_comm]
          exact hcall
      · obtain ⟨i, hi, hcall⟩ := h
        cases i with
        | zero => exact .inl ⟨(Option.some.inj hi).symm, hcall⟩
        | succ i =>
            refine .inr ⟨i, hi, ?_⟩
            rw [Nat.add_right_comm, Nat.add_assoc]
            exact hcall

/-- Some children and then one more. -/
theorem waitEach_concat (W : Waits) (pids : List Nat) (pid : Nat) (s : Waited ω) :
    (W.waitEach (pids ++ [pid]) s).2 = (W.Pwait pid (W.waitEach pids s).2).2 := by
  induction pids generalizing s with
  | nil => rfl
  | cons first pids ih => rw [List.cons_append, waitEach_cons, ih, waitEach_cons]

/-! ## What is returned and what is left -/

/-- The message and number of an interrupted call. -/
def interruption (W : Waits) : LuaValue × LuaValue := (.string (W.strerror EINTR), .integer EINTR)

/-- The children are reaped, and the reason and status are those of the last one. -/
structure ReapsAll (W : Waits) (pids : List Nat) (last : Nat) (r : LuaValue × LuaValue)
    (s : Waited ω) : Prop where
  reaped : ∀ pid ∈ pids, pid ∈ s.reaped
  reports : r = (W.ends last).result

/-- Each child has one call of `wait`, which an interruption makes fail. -/
structure WaitsOnce (W : Waits) (pids : List Nat) (last : Nat) (r : LuaValue × LuaValue)
    (s : Waited ω) : Prop where
  calls : s.calls = pids.length
  reaped : ∀ (k : Nat) (pid : Nat), pids[k]? = some pid →
    (pid ∈ s.reaped ↔ W.interrupts k = false)
  reports : r = if W.interrupts (pids.length - 1) then W.interruption else (W.ends last).result

/-- One call for each child is enough exactly if none is interrupted. -/
theorem WaitsOnce.reapsAll_iff {pids : List Nat} {last : Nat} {r : LuaValue × LuaValue}
    (h : W.WaitsOnce pids last r s) (hne : pids ≠ []) :
    W.ReapsAll pids last r s ↔ ∀ k < pids.length, W.interrupts k = false := by
  constructor
  · intro hall k hk
    exact (h.reaped k pids[k] (List.getElem?_eq_getElem hk)).mp
      (hall.reaped _ (List.getElem_mem hk))
  · intro hquiet
    refine ⟨fun pid hpid => ?_, ?_⟩
    · obtain ⟨k, hk⟩ := List.mem_iff_getElem?.mp hpid
      exact (h.reaped k pid hk).mpr (hquiet k (List.getElem?_eq_some_iff.mp hk).1)
    · have hlast := hquiet _ (Nat.sub_lt (List.length_pos_iff.mpr hne) Nat.one_pos)
      rw [h.reports, hlast, if_neg Bool.false_ne_true]

/-! ## `pclose` -/

section Ppclose

variable {pfd : Pfd} {hne : pfd.pids ≠ []}

/-- `Ppclose` closes the descriptor, and all its calls of `wait` are one run. -/
theorem Ppclose_state (W : Waits) (s : Waited ω) :
    (W.Ppclose pfd hne s).2 = (W.waitEach pfd.pids (s.close pfd.fd)).2 := by
  conv_rhs => rw [← List.dropLast_concat_getLast hne]
  rw [waitEach_concat]
  rfl

/-- The last child's result is that of the call. -/
theorem Ppclose_result (W : Waits) (s : Waited ω) :
    (W.Ppclose pfd hne s).1 = (W.Pwait (pfd.pids.getLast hne)
      (W.waitEach pfd.pids.dropLast (s.close pfd.fd)).2).1.2 := rfl

/-- `Ppclose` reaps the children whose call is not interrupted. -/
theorem mem_reaped_Ppclose (W : Waits) (fds : Fds ω) :
    q ∈ (W.Ppclose pfd hne (.initial fds)).2.reaped ↔
      ∃ i, pfd.pids[i]? = some q ∧ W.interrupts i = false := by
  rw [Ppclose_state, mem_reaped_waitEach]
  refine ⟨fun h => ?_, fun h => .inr ?_⟩
  · obtain h | ⟨i, hi, hcall⟩ := h
    · cases h
    · rw [Waited.initial_close_calls] at hcall
      exact ⟨i, hi, hcall⟩
  · obtain ⟨i, hi, hcall⟩ := h
    refine ⟨i, hi, ?_⟩
    rw [Waited.initial_close_calls]
    exact hcall

/-- The child waited for last is none of those before. -/
theorem getLast_not_mem_dropLast (hnodup : pfd.pids.Nodup) :
    pfd.pids.getLast hne ∉ pfd.pids.dropLast := by
  rw [← List.dropLast_concat_getLast hne] at hnodup
  intro hmem
  exact (List.nodup_append.mp hnodup).2.2 _ hmem _ (List.mem_singleton_self _) rfl

/-- What `Ppclose` returns is decided by its last call. -/
theorem Ppclose_reports (W : Waits) (fds : Fds ω) (hnodup : pfd.pids.Nodup) :
    (W.Ppclose pfd hne (.initial fds)).1 = if W.interrupts (pfd.pids.length - 1)
      then W.interruption else (W.ends (pfd.pids.getLast hne)).result := by
  have hcalls : (W.waitEach pfd.pids.dropLast ((Waited.initial fds).close pfd.fd)).2.calls
      = pfd.pids.length - 1 := by
    rw [waitEach_calls, List.length_dropLast]
    exact Nat.zero_add _
  rw [Ppclose_result, ← hcalls]
  split_ifs with hi
  · rw [Pwait_of_error (waitpid_interrupted hi)]
    rfl
  · rw [Pwait_reaps (Bool.not_eq_true _ ▸ hi)]
    rw [mem_reaped_waitEach]
    rintro (h | ⟨i, hi, -⟩)
    · cases h
    · exact getLast_not_mem_dropLast hnodup (List.mem_of_getElem? hi)

/-- **`pclose` calls `wait` once for each child**, whichever calls are interrupted. -/
theorem Ppclose_waitsOnce (W : Waits) (fds : Fds ω) (hnodup : pfd.pids.Nodup) :
    W.WaitsOnce pfd.pids (pfd.pids.getLast hne) (W.Ppclose pfd hne (.initial fds)).1
      (W.Ppclose pfd hne (.initial fds)).2 := by
  refine ⟨?_, fun k pid hk => ?_, Ppclose_reports W fds hnodup⟩
  · rw [Ppclose_state, waitEach_calls]
    exact Nat.zero_add _
  · rw [mem_reaped_Ppclose]
    refine ⟨fun ⟨i, hi, hcall⟩ => ?_, fun h => ⟨k, hk, h⟩⟩
    -- The pids are distinct, so this is the child's only call.
    obtain rfl : i = k := (List.getElem?_inj (List.getElem?_eq_some_iff.mp hi).1 hnodup).mp
      (hi.trans hk.symm)
    exact hcall

/-- Without interruptions the calls do what the machine of `pclose` does, whenever the children
end. -/
theorem Ppclose_eq_returned (W : Waits) (hnodup : pfd.pids.Nodup)
    (hquiet : ∀ k < pfd.pids.length, W.interrupts k = false) {noChild : LuaValue × LuaValue}
    {p : Process ω} {c : Closing ω} {r : LuaValue × LuaValue}
    (hc : (pclose noChild pfd p).Reachable always c) (hret : c.pc = .returned r)
    (hended : ∀ pid ∈ pfd.pids, c.ended pid = some (W.ends pid)) :
    (W.Ppclose pfd hne (.initial p.fds)).1 = r ∧
      (W.Ppclose pfd hne (.initial p.fds)).2.fds = c.fds ∧
      ∀ pid, pid ∈ (W.Ppclose pfd hne (.initial p.fds)).2.reaped ↔ pid ∈ c.waits := by
  obtain ⟨hfds, hwaits, pid, t, hlast, ht, rfl⟩ :=
    (Closing.inv_of_reachable hnodup hne hc).returned r hret
  have hpos : 0 < pfd.pids.length := List.length_pos_iff.mpr hne
  rw [List.getLast?_eq_some_getLast hne] at hlast
  obtain rfl := Option.some.inj hlast
  refine ⟨?_, ?_, fun q => ?_⟩
  · rw [Ppclose_reports W p.fds hnodup, hquiet _ (by omega), if_neg Bool.false_ne_true]
    rw [hended _ (List.getLast_mem hne)] at ht
    rw [Option.some.inj ht]
  · rw [Ppclose_state, waitEach_fds, hfds]
    rfl
  · rw [mem_reaped_Ppclose, hwaits]
    refine ⟨fun ⟨i, hi, _⟩ => List.mem_of_getElem? hi, fun h => ?_⟩
    obtain ⟨i, hi⟩ := List.mem_iff_getElem?.mp h
    exact ⟨i, hi, hquiet i (List.getElem?_eq_some_iff.mp hi).1⟩

end Ppclose

/-! ## `spawn` -/

/-- The system whose first call of `wait` turns out like this. -/
def system (W : Waits) (E : System) : System :=
  { E with wait := fun pid => (W.Pwait pid (.initial fun _ => none : Waited Empty)).1.2 }

/-- What a first call returns does not depend on the descriptors. -/
theorem Pwait_initial (W : Waits) (pid : Nat) (fds : Fds ω) :
    (W.system E).wait pid = (W.Pwait pid (.initial fds)).1.2 := by
  rw [system]
  show (W.Pwait pid (.initial fun _ => none : Waited Empty)).1.2 = _
  cases hi : W.interrupts 0 with
  | true => rw [Pwait_of_error (waitpid_interrupted hi), Pwait_of_error (waitpid_interrupted hi)]
  | false =>
      rw [Pwait_reaps (s := .initial fds) hi List.not_mem_nil,
        Pwait_reaps (s := .initial fun _ => none) hi List.not_mem_nil]

/-- What the caller of `spawn` gets once it has forked its child. -/
theorem run_spawn (W : Waits) {p : Process ω} (task : Task) (args : List LuaValue)
    (hfork : E.fork p.forks = some pid) :
    (spawn (W.system E) task args).run p = ⟨(p.forking, .ok (W.Pspawn pid (.initial p.fds)).1),
      Forking.left [((p.child pid).start task args, task.stop (W.system E) pid)]⟩ := by
  have hpid : pid ≠ 0 := Nat.ne_of_gt (E.fork_pos hfork)
  have hreturns : (W.Pspawn pid (.initial p.fds)).1
      = (((W.system E).wait pid).2, ((W.system E).wait pid).1) := by
    rw [Pwait_initial W pid p.fds]
    rfl
  rw [spawn, run_fork_bind (E := W.system E)
    (l := ((p.child pid).start task args, task.stop (W.system E) pid)) hfork, hreturns]
  · simp only [if_neg hpid]
    rfl
  · exact Forking.run_bind_of_error (run_execx _ task args)

/-- `spawn` calls `wait` once for its child. -/
theorem Pspawn_waitsOnce (W : Waits) (fds : Fds ω) (pid : Nat) :
    W.WaitsOnce [pid] pid (W.Pspawn pid (.initial fds)).1.swap
      (W.Pspawn pid (.initial fds)).2 := by
  have hmem : pid ∈ (W.Pspawn pid (.initial fds)).2.reaped ↔
      pid ∈ (Waited.initial fds).reaped ∨ pid = pid ∧ W.interrupts 0 = false :=
    mem_reaped_Pwait W pid pid (.initial fds)
  refine ⟨Pwait_calls W pid (.initial fds), fun k q hk => ?_, ?_⟩
  · cases k with
    | zero =>
        obtain rfl := Option.some.inj hk
        rw [hmem]
        exact ⟨fun h => h.elim (fun h => (nomatch h)) And.right, fun h => .inr ⟨rfl, h⟩⟩
    | succ k => cases hk
  · show (W.Pwait pid (.initial fds)).1.2 = if W.interrupts 0 then _ else _
    split_ifs with hi
    · rw [Pwait_of_error (waitpid_interrupted hi)]
      rfl
    · rw [Pwait_reaps (Bool.not_eq_true _ ▸ hi) List.not_mem_nil]

/-! ## Every child is reaped -/

/-- **Interrupted waits**: whatever the number of children and whichever calls a signal
interrupts, `pclose` and `spawn` call `wait` once for each child they forked; an interrupted
call fails. All children are reaped, and the last one is reported, exactly if no call is
interrupted. -/
theorem waitsOnce (W : Waits) (hdistinct : DistinctPids E) (self : Nat) (T : Nat → Option ω) :
    (∀ p pfd forked tasks, Opened E mode self T p pfd forked tasks →
      ∃ hne : pfd.pids ≠ [],
        W.WaitsOnce (forked.map fun l => l.1.pid) (pfd.pids.getLast hne)
          (W.Ppclose pfd hne (.initial p.fds)).1 (W.Ppclose pfd hne (.initial p.fds)).2 ∧
        (W.ReapsAll (forked.map fun l => l.1.pid) (pfd.pids.getLast hne)
            (W.Ppclose pfd hne (.initial p.fds)).1 (W.Ppclose pfd hne (.initial p.fds)).2 ↔
          ∀ k < tasks.length, W.interrupts k = false)) ∧
    ∀ (p : Process ω) (task : Task) (args : List LuaValue) (pid : Nat),
      E.fork p.forks = some pid →
      ∃ forked, (spawn (W.system E) task args).run p
          = ⟨(p.forking, .ok (W.Pspawn pid (.initial p.fds)).1), forked⟩ ∧
        W.WaitsOnce (forked.map fun l => l.1.pid) pid (W.Pspawn pid (.initial p.fds)).1.swap
          (W.Pspawn pid (.initial p.fds)).2 ∧
        (W.ReapsAll (forked.map fun l => l.1.pid) pid (W.Pspawn pid (.initial p.fds)).1.swap
            (W.Pspawn pid (.initial p.fds)).2 ↔
          W.interrupts 0 = false) := by
  refine ⟨fun p pfd forked tasks h => ?_, fun p task args pid hfork => ?_⟩
  · obtain ⟨htasks, ls, rfl, hstages⟩ := h.exists_stagesRun
    obtain ⟨hpids, hlen⟩ := hstages.pids_eq htasks
    have hforked : (Forking.left ls).map (fun l : Process ω × Except Stop Pfd => l.1.pid)
        = pfd.pids := by
      rw [hpids, Forking.left, List.map_map]
      rfl
    have hcount : pfd.pids.length = tasks.length := by rw [hpids, List.length_map, hlen]
    have hne : pfd.pids ≠ [] := by
      rw [← List.length_pos_iff, hcount]
      exact List.length_pos_iff.mpr htasks
    have honce : W.WaitsOnce pfd.pids (pfd.pids.getLast hne) (W.Ppclose pfd hne (.initial p.fds)).1
        (W.Ppclose pfd hne (.initial p.fds)).2 :=
      Ppclose_waitsOnce W p.fds (hpids ▸ hstages.nodup hdistinct)
    refine ⟨hne, ?_, ?_⟩
    · rw [hforked]
      exact honce
    · rw [hforked, honce.reapsAll_iff hne, hcount]
  · have honce := Pspawn_waitsOnce W p.fds pid
    refine ⟨_, run_spawn W task args hfork, honce, ?_⟩
    refine (honce.reapsAll_iff (List.cons_ne_nil _ _)).trans ⟨fun h => h 0 Nat.one_pos, ?_⟩
    intro h k hk
    rw [Nat.lt_one_iff.mp hk]
    exact h

/-! ## Instances -/

/-- Every child exits with 0, and these calls are interrupted. -/
def exiting (interrupts : Nat → Bool) : Waits :=
  ⟨fun _ => .exited 0, interrupts, fun _ => "Interrupted system call".toList⟩

/-- `ls | wc` without a signal. -/
theorem waitsOnce_lsWc :
    ∃ p pfd forked, Opened quietSystem "r" 0 stdTable p pfd forked lsWc ∧
      ∃ hne : pfd.pids ≠ [],
        (exiting fun _ => false).ReapsAll (forked.map fun l => l.1.pid) (pfd.pids.getLast hne)
          ((exiting fun _ => false).Ppclose pfd hne (.initial p.fds)).1
          ((exiting fun _ => false).Ppclose pfd hne (.initial p.fds)).2 := by
  have hopened : Opened quietSystem "r" 0 stdTable _ _ _ lsWc := .popen_pipeline (by decide) rfl
  obtain ⟨hne, -, hiff⟩ := (waitsOnce (exiting fun _ => false) distinctPids_quietSystem 0
    stdTable).1 _ _ _ _ hopened
  exact ⟨_, _, _, hopened, hne, hiff.mpr fun _ _ => rfl⟩

/-- A signal during the last call of `wait`: `wc` stays unreaped, and `EINTR` is returned in the
place of its status. -/
theorem wc_unreaped :
    ∃ p pfd forked, Opened quietSystem "r" 0 stdTable p pfd forked lsWc ∧
      ∃ hne : pfd.pids ≠ [], pfd.pids.getLast hne = 2 ∧
        ((exiting (· == 1)).Ppclose pfd hne (.initial p.fds)).1
          = (.string "Interrupted system call".toList, .integer EINTR) ∧
        ((exiting (· == 1)).Ppclose pfd hne (.initial p.fds)).2.reaped = [1] ∧
        ¬ (exiting (· == 1)).ReapsAll (forked.map fun l => l.1.pid) (pfd.pids.getLast hne)
          ((exiting (· == 1)).Ppclose pfd hne (.initial p.fds)).1
          ((exiting (· == 1)).Ppclose pfd hne (.initial p.fds)).2 := by
  have hopened : Opened quietSystem "r" 0 stdTable _ _ _ lsWc := .popen_pipeline (by decide) rfl
  refine ⟨_, _, _, hopened, by decide, rfl, rfl, rfl, fun h => ?_⟩
  have hmem : 2 ∈ [1] := h.reaped 2 (List.mem_of_getElem? (i := 1) rfl)
  exact absurd hmem (by decide)

end Waits

end LuaPosix.Popen

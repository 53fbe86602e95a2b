import Mathlib.Data.List.Nodup
import LuaPosix.Lib.Machine
import LuaPosix.Posix.Stages
import LuaPosix.Posix.Wiring

/-! # `pclose`

`pclose` closes the descriptor of a pipeline and waits for its children in the order they were
made, whenever each of them ends. What it returns is what `wait` says of the child made last:
the last stage in mode `r`, the first in mode `w`. -/

namespace LuaPosix.Popen

variable {ω : Type} {E : System} {mode : String}

/-! ## The calls of `pclose` -/

/-- How a child ended, as `waitpid` reports it without options. -/
inductive Termination where
  | exited (status : BitVec 8)
  | killed (signal : BitVec 7)
  deriving DecidableEq, Repr

/-- The reason and status `wait` returns. -/
def Termination.result : Termination → LuaValue × LuaValue
  | .exited status => (.string "exited".toList, .integer (status.setWidth 64))
  | .killed signal => (.string "killed".toList, .integer (signal.setWidth 64))

/-- Where a call of `pclose` is. -/
inductive Pc where
  | close
  /-- Before `wait(pfd.pids[i + 1])`. -/
  | wait (i : Nat)
  | returned (r : LuaValue × LuaValue)
  deriving DecidableEq, Repr

/-- A caller of `pclose` and the children it may wait for. -/
structure Closing (ω : Type) where
  fds : Fds ω
  pc : Pc
  /-- How each child ended, if it has. -/
  ended : Nat → Option Termination
  /-- The calls of `wait` that returned. -/
  waits : List Nat

/-- What happens next: a child ends, or the caller makes its next call. -/
inductive Event where
  | ends (pid : Nat) (t : Termination)
  | call
  deriving DecidableEq, Repr

section Model

variable (noChild : LuaValue × LuaValue) (pfd : Pfd)

/-- `wait(pid)`, none while the child runs: it is an error once the child was waited for. -/
def Closing.wait (s : Closing ω) (pid : Nat) : Option (LuaValue × LuaValue) :=
  if pid ∈ s.waits then some noChild else (s.ended pid).map Termination.result

/-- The next call of `Ppclose(pfd)`. The loop runs up to `#pfd.pids - 1`; the results of the
last `wait` are returned. -/
def Ppclose (s : Closing ω) : Option (Closing ω) :=
  match s.pc with
  | .close => some { s with fds := Function.update s.fds pfd.fd none, pc := .wait 0 }
  | .wait i => do
      let pid ← pfd.pids[i]?
      let r ← s.wait noChild pid
      some { s with
        waits := s.waits ++ [pid]
        pc := if i + 1 < pfd.pids.length then .wait (i + 1) else .returned r }
  | .returned _ => none

/-- `pclose(pfd)` in a process, with children that end at any time. -/
def pclose (p : Process ω) : Machine (Closing ω) Event where
  init s := s = ⟨p.fds, .close, fun _ => none, []⟩
  next s
    | .ends pid t =>
        if s.ended pid = none then some { s with ended := Function.update s.ended pid (some t) }
        else none
    | .call => Ppclose noChild pfd s

/-- Every run. -/
def always (_ : Closing ω) (_ : Event) : Prop := True

end Model

section Steps

variable {noChild : LuaValue × LuaValue} {pfd : Pfd} {p : Process ω} {s s' : Closing ω}

/-- What a step of `pclose` can be. -/
theorem pclose_next_cases {l : Event} (h : (pclose noChild pfd p).next s l = some s') :
    (∃ pid t, s.ended pid = none ∧
      s' = { s with ended := Function.update s.ended pid (some t) }) ∨
    (s.pc = .close ∧
      s' = { s with fds := Function.update s.fds pfd.fd none, pc := .wait 0 }) ∨
    ∃ i pid r, s.pc = .wait i ∧ pfd.pids[i]? = some pid ∧ s.wait noChild pid = some r ∧
      s' = { s with
        waits := s.waits ++ [pid]
        pc := if i + 1 < pfd.pids.length then .wait (i + 1) else .returned r } := by
  cases l with
  | ends pid t =>
      have hnext : (if s.ended pid = none then
          some { s with ended := Function.update s.ended pid (some t) } else none) = some s' := h
      split_ifs at hnext with hended
      exact .inl ⟨pid, t, hended, (Option.some.inj hnext).symm⟩
  | call =>
      have hnext : Ppclose noChild pfd s = some s' := h
      rw [Ppclose] at hnext
      cases hpc : s.pc with
      | close =>
          rw [hpc] at hnext
          exact .inr (.inl ⟨rfl, (Option.some.inj hnext).symm⟩)
      | wait i =>
          rw [hpc] at hnext
          simp only [Option.bind_eq_bind, Option.bind_eq_some_iff] at hnext
          obtain ⟨pid, hpid, r, hr, hs'⟩ := hnext
          exact .inr (.inr ⟨i, pid, r, rfl, hpid, hr, (Option.some.inj hs').symm⟩)
      | returned r =>
          rw [hpc] at hnext
          cases hnext

/-- **The invariant**: the children waited for are the first of the list, and they have ended. -/
structure Closing.Inv (pfd : Pfd) (p : Process ω) (s : Closing ω) : Prop where
  ended : ∀ pid ∈ s.waits, s.ended pid ≠ none
  close : s.pc = .close → s.fds = p.fds ∧ s.waits = []
  wait : ∀ i, s.pc = .wait i → s.fds = (p.close pfd.fd).fds ∧ i < pfd.pids.length ∧
    s.waits = pfd.pids.take i
  returned : ∀ r, s.pc = .returned r → s.fds = (p.close pfd.fd).fds ∧ s.waits = pfd.pids ∧
    ∃ pid t, pfd.pids.getLast? = some pid ∧ s.ended pid = some t ∧ r = t.result

/-- A child not waited for yet can be waited for once it has ended. -/
theorem Closing.wait_of_not_mem {pid : Nat} (h : pid ∉ s.waits) :
    s.wait noChild pid = (s.ended pid).map Termination.result := if_neg h

/-- The next child is not one of those waited for. -/
theorem Closing.Inv.not_mem_waits (hs : s.Inv pfd p) (hnodup : pfd.pids.Nodup) {i pid : Nat}
    (hpc : s.pc = .wait i) (hpid : pfd.pids[i]? = some pid) : pid ∉ s.waits := by
  obtain ⟨-, -, hwaits⟩ := hs.wait i hpc
  rw [hwaits]
  intro hmem
  obtain ⟨j, hj⟩ := List.mem_iff_getElem?.mp hmem
  have hji : j < i := by
    have hlt := (List.getElem?_eq_some_iff.mp hj).1
    rw [List.length_take] at hlt
    omega
  rw [List.getElem?_take_of_lt hji] at hj
  have heq : j = i := (List.getElem?_inj (List.getElem?_eq_some_iff.mp hj).1 hnodup).mp
    (hj.trans hpid.symm)
  omega

/-- A child that ends has not been waited for. -/
theorem Closing.Inv.childEnds (hs : s.Inv pfd p) {pid : Nat} (t : Termination)
    (hnone : s.ended pid = none) :
    ({ s with ended := Function.update s.ended pid (some t) } : Closing ω).Inv pfd p := by
  have hkeep : ∀ {q : Nat} {u : Termination}, s.ended q = some u →
      Function.update s.ended pid (some t) q = some u := by
    intro q u hq
    rw [Function.update_of_ne, hq]
    rintro rfl
    rw [hnone] at hq
    cases hq
  refine ⟨fun q hq => ?_, hs.close, hs.wait, fun r hr => ?_⟩
  · obtain ⟨u, hu⟩ := Option.ne_none_iff_exists'.mp (hs.ended q hq)
    show Function.update s.ended pid (some t) q ≠ none
    rw [hkeep hu]
    exact Option.some_ne_none u
  · obtain ⟨hfds, hwaits, q, u, hlast, hu, hresult⟩ := hs.returned r hr
    exact ⟨hfds, hwaits, q, u, hlast, hkeep hu, hresult⟩

/-- The descriptor is closed, and no child has been waited for yet. -/
theorem Closing.Inv.closes (hs : s.Inv pfd p) (hne : pfd.pids ≠ []) (hpc : s.pc = .close) :
    ({ s with fds := Function.update s.fds pfd.fd none, pc := .wait 0 } : Closing ω).Inv pfd p := by
  obtain ⟨hfds, hwaits⟩ := hs.close hpc
  refine ⟨hs.ended, fun h => (nomatch h), fun i hi => ?_, fun r h => (nomatch h)⟩
  cases hi
  exact ⟨congrArg (Function.update · pfd.fd none) hfds, List.length_pos_iff.mpr hne, hwaits⟩

/-- The next child is waited for, and is reported if it is the last. -/
theorem Closing.Inv.waited (hs : s.Inv pfd p) {i pid : Nat} {t : Termination}
    (hpc : s.pc = .wait i) (hpid : pfd.pids[i]? = some pid) (ht : s.ended pid = some t) :
    ({ s with
        waits := s.waits ++ [pid]
        pc := if i + 1 < pfd.pids.length then .wait (i + 1) else .returned t.result } :
      Closing ω).Inv pfd p := by
  obtain ⟨hfds, hi, hwaits⟩ := hs.wait i hpc
  have hnext : s.waits ++ [pid] = pfd.pids.take (i + 1) := by
    rw [hwaits, List.take_add_one, hpid]
    rfl
  refine ⟨fun q hq => ?_, fun h => ?_, fun j hj => ?_, fun r hr => ?_⟩
  · rcases List.mem_append.mp hq with hq | hq
    · exact hs.ended q hq
    · rw [List.mem_singleton.mp hq]
      show s.ended pid ≠ none
      rw [ht]
      exact Option.some_ne_none t
  · simp only at h
    split_ifs at h
  · simp only at hj
    split_ifs at hj with hlt
    cases hj
    exact ⟨hfds, hlt, hnext⟩
  · simp only at hr
    split_ifs at hr with hlt
    cases hr
    have hall : pfd.pids.take (i + 1) = pfd.pids := List.take_of_length_le (by omega)
    refine ⟨hfds, hnext.trans hall, pid, t, ?_, ht, rfl⟩
    rw [List.getLast?_eq_getElem?, show pfd.pids.length - 1 = i by omega, hpid]

/-- **One step keeps the invariant.** -/
theorem Closing.Inv.step (hnodup : pfd.pids.Nodup) (hne : pfd.pids ≠ []) {l : Event}
    (hs : s.Inv pfd p) (h : (pclose noChild pfd p).next s l = some s') : s'.Inv pfd p := by
  obtain ⟨pid, t, hnone, rfl⟩ | ⟨hpc, rfl⟩ | ⟨i, pid, r, hpc, hpid, hr, rfl⟩ := pclose_next_cases h
  · exact hs.childEnds t hnone
  · exact hs.closes hne hpc
  · rw [Closing.wait_of_not_mem (hs.not_mem_waits hnodup hpc hpid), Option.map_eq_some_iff] at hr
    obtain ⟨t, ht, rfl⟩ := hr
    exact hs.waited hpc hpid ht

/-- The invariant holds in every state that `pclose` reaches. -/
theorem Closing.inv_of_reachable (hnodup : pfd.pids.Nodup) (hne : pfd.pids ≠ [])
    (h : (pclose noChild pfd p).Reachable always s) : s.Inv pfd p := by
  refine h.invariant (fun s hs => ?_) fun s l s' hs _ hnext => hs.step hnodup hne hnext
  rw [show s = _ from hs]
  exact ⟨fun _ h => absurd h List.not_mem_nil, fun _ => ⟨rfl, rfl⟩, fun _ h => (nomatch h),
    fun _ h => (nomatch h)⟩

/-- A child ends, unless it has. -/
theorem exists_ended (noChild : LuaValue × LuaValue) (pfd : Pfd) (p : Process ω) (s : Closing ω)
    (pid : Nat) :
    ∃ s', Relation.ReflTransGen ((pclose noChild pfd p).Step always) s s' ∧
      s'.pc = s.pc ∧ ∃ t, s'.ended pid = some t := by
  cases hended : s.ended pid with
  | some t => exact ⟨s, .refl, rfl, t, hended⟩
  | none =>
      refine ⟨{ s with ended := Function.update s.ended pid (some (.exited 0)) },
        .single ⟨.ends pid (.exited 0), trivial, if_pos hended⟩, rfl, .exited 0, ?_⟩
      exact Function.update_self _ _ _

/-- The next child can be waited for, whatever has happened so far. -/
theorem Closing.Inv.exists_waited (hs : s.Inv pfd p) (noChild : LuaValue × LuaValue)
    (hnodup : pfd.pids.Nodup) (hne : pfd.pids ≠ []) {i : Nat} (hpc : s.pc = .wait i) :
    ∃ s' r, Relation.ReflTransGen ((pclose noChild pfd p).Step always) s s' ∧ s'.Inv pfd p ∧
      s'.pc = if i + 1 < pfd.pids.length then .wait (i + 1) else .returned r := by
  obtain ⟨-, hi, -⟩ := hs.wait i hpc
  obtain ⟨pid, hpid⟩ : ∃ pid, pfd.pids[i]? = some pid := ⟨_, List.getElem?_eq_getElem hi⟩
  obtain ⟨s₁, hrun, hpc₁, t, ht⟩ := exists_ended noChild pfd p s pid
  have hs₁ : s₁.Inv pfd p := Machine.invariant_of_steps
    (fun s l s' hs _ hnext => hs.step hnodup hne hnext) hs hrun
  rw [hpc] at hpc₁
  have hr : s₁.wait noChild pid = some t.result := by
    rw [Closing.wait_of_not_mem (hs₁.not_mem_waits hnodup hpc₁ hpid), ht]
    rfl
  have hnext : (pclose noChild pfd p).next s₁ .call = some { s₁ with
      waits := s₁.waits ++ [pid]
      pc := if i + 1 < pfd.pids.length then .wait (i + 1) else .returned t.result } := by
    show Ppclose noChild pfd s₁ = _
    rw [Ppclose, hpc₁]
    simp only [hpid, hr, Option.bind_eq_bind, Option.bind_some]
  exact ⟨_, t.result, hrun.tail ⟨.call, trivial, hnext⟩, hs₁.step hnodup hne hnext, rfl⟩

/-- **Progress**: whatever has happened so far, the call can return. -/
theorem Closing.Inv.exists_returned (hnodup : pfd.pids.Nodup) (hne : pfd.pids ≠ [])
    (hs : s.Inv pfd p) :
    ∃ s' r, Relation.ReflTransGen ((pclose noChild pfd p).Step always) s s' ∧
      s'.pc = .returned r := by
  -- By the number of children not waited for yet.
  have hwait : ∀ n i, ∀ s : Closing ω, s.Inv pfd p → s.pc = .wait i → pfd.pids.length = i + n →
      ∃ s' r, Relation.ReflTransGen ((pclose noChild pfd p).Step always) s s' ∧
        s'.pc = .returned r := by
    intro n
    induction n with
    | zero =>
        intro i s hs hpc hlen
        obtain ⟨-, hi, -⟩ := hs.wait i hpc
        omega
    | succ n ih =>
        intro i s hs hpc hlen
        obtain ⟨s₁, r, hrun, hs₁, hpc₁⟩ := hs.exists_waited noChild hnodup hne hpc
        split_ifs at hpc₁ with hlt
        · obtain ⟨s₂, r₂, hrun₂, hret⟩ := ih (i + 1) s₁ hs₁ hpc₁ (by omega)
          exact ⟨s₂, r₂, hrun.trans hrun₂, hret⟩
        · exact ⟨s₁, r, hrun, hpc₁⟩
  cases hpc : s.pc with
  | close =>
      have hnext : (pclose noChild pfd p).next s .call
          = some { s with fds := Function.update s.fds pfd.fd none, pc := .wait 0 } := by
        show Ppclose noChild pfd s = _
        rw [Ppclose, hpc]
      obtain ⟨s', r, hrun, hret⟩ := hwait _ 0 _ (hs.step hnodup hne hnext) rfl (Nat.zero_add _).symm
      exact ⟨s', r, .head ⟨.call, trivial, hnext⟩ hrun, hret⟩
  | wait i =>
      obtain ⟨-, hi, -⟩ := hs.wait i hpc
      exact hwait (pfd.pids.length - i) i s hs hpc (by omega)
  | returned r => exact ⟨s, r, .refl, hpc⟩

end Steps

/-! ## The stage that is reported -/

/-- The three results tell how the child ended. -/
theorem Termination.result_injective : Function.Injective Termination.result := by
  have hreason : LuaValue.string "exited".toList ≠ .string "killed".toList := by decide
  intro t u h
  cases t with
  | exited status =>
      cases u with
      | exited status' =>
          have hstatus : status.setWidth 64 = status'.setWidth 64 := by
            injection congrArg Prod.snd h
          rw [show status = status' by bv_omega]
      | killed signal => exact absurd (congrArg Prod.fst h) hreason
  | killed signal =>
      cases u with
      | exited status => exact absurd (congrArg Prod.fst h).symm hreason
      | killed signal' =>
          have hsignal : signal.setWidth 64 = signal'.setWidth 64 := by
            injection congrArg Prod.snd h
          rw [show signal = signal' by bv_omega]

/-- `popen` or `popen_pipeline` returned `pfd` in the process `p`, with these processes forked. -/
inductive Opened (E : System) (mode : String) (self : Nat) (T : Nat → Option ω) (p : Process ω)
    (pfd : Pfd) (forked : List (Process ω × Except Stop Pfd)) : List Task → Prop where
  | popen {task : Task} (h : (popen E task mode).run (Process.initial self T)
      = ⟨(p, .ok pfd), forked⟩) : Opened E mode self T p pfd forked [task]
  | popen_pipeline {tasks : List Task} (hne : tasks ≠ [])
      (h : (popen_pipeline E tasks mode).run (Process.initial self T)
        = ⟨(p, .ok pfd), forked⟩) : Opened E mode self T p pfd forked tasks

/-- The children of a process that it has not waited for have pids of their own. -/
def DistinctPids (E : System) : Prop :=
  ∀ j k pid, E.fork j = some pid → E.fork k = some pid → j = k

/-- The processes of a pipeline by the number of their stage: each runs its own task, if any. -/
structure StageProcs (tasks : List Task) (procs : List (Process ω)) : Prop where
  length : procs.length = tasks.length
  started : ∀ (i : Nat) (task : Task) (p : Process ω), tasks[i]? = some task →
    procs[i]? = some p → ∀ s ∈ p.started, s.task = task

/-- A finished call has closed the descriptor of the pipeline and waited for each child once. -/
structure Closed (procs : List (Process ω)) (pfd : Pfd) (p : Process ω) (s : Closing ω) :
    Prop where
  fds : s.fds = (p.close pfd.fd).fds
  waits : s.waits.Perm (procs.map Process.pid)
  once : s.waits.Nodup

section Opened

variable {self : Nat} {T : Nat → Option ω} {p : Process ω} {pfd : Pfd} {tasks : List Task}
  {forked : List (Process ω × Except Stop Pfd)}

/-- An open pipeline comes from a run of its stages that reached them all. -/
theorem Opened.exists_stagesRun (h : Opened E mode self T p pfd forked tasks) :
    tasks ≠ [] ∧ ∃ ls, forked = Forking.left ls ∧
      StagesRun (stageChildren E mode tasks) E mode (stageOrder tasks.length mode) 0 []
        (p, .ok pfd) ls := by
  have hpipeline : tasks ≠ [] ∧ (Popen.popen_pipeline E tasks mode).run (Process.initial self T)
      = ⟨(p, .ok pfd), forked⟩ := by
    cases h with
    | popen h =>
        rw [popen_eq_popen_pipeline] at h
        exact ⟨List.cons_ne_nil _ _, h⟩
    | popen_pipeline hne h => exact ⟨hne, h⟩
  obtain ⟨hne, hrun⟩ := hpipeline
  obtain ⟨caller, ls, hrun', hstages⟩ :=
    (stageChildren_kept E mode tasks self T).exists_stagesRun rfl rfl
  rw [hrun'] at hrun
  cases hrun
  exact ⟨hne, ls, rfl, hstages⟩

variable {ls : List (Process ω × Stop)}

/-- The pids of a pipeline that opened are those of its children, in the order they are made. -/
theorem StagesRun.pids_eq {F : Followed ω} (h : StagesRun F E mode
    (stageOrder tasks.length mode) 0 [] (p, .ok pfd) ls) (htasks : tasks ≠ []) :
    pfd.pids = ls.map (·.1.pid) ∧ ls.length = tasks.length := by
  have hpos : 0 < tasks.length := List.length_pos_iff.mpr htasks
  obtain ⟨q, pfd', hcaller, hlen, hpids, -⟩ | ⟨q, err, hcaller, -⟩ := h.outcome
  · cases hcaller
    rw [length_stageOrder] at hlen
    exact ⟨hpids, by omega⟩
  · cases hcaller

/-- The children of one pipeline have different pids. -/
theorem StagesRun.nodup (hdistinct : DistinctPids E) {F : Followed ω}
    (h : StagesRun F E mode (stageOrder tasks.length mode) 0 [] (p, .ok pfd) ls) :
    (ls.map (·.1.pid)).Nodup := by
  rw [List.nodup_iff_getElem?_ne_getElem?]
  intro j k hjk hk heq
  rw [List.length_map] at hk
  obtain ⟨_, -, hj, -⟩ := h.children j _ (List.getElem?_eq_getElem (hjk.trans hk))
  obtain ⟨_, -, hk', -⟩ := h.children k _ (List.getElem?_eq_getElem hk)
  rw [List.getElem?_map, List.getElem?_map, List.getElem?_eq_getElem (hjk.trans hk),
    List.getElem?_eq_getElem hk] at heq
  have hpid : ls[j].1.pid = ls[k].1.pid := Option.some.inj heq
  have hjk' := hdistinct _ _ _ (hj.trans (congrArg some hpid)) hk'
  omega

/-- The processes of a pipeline that opened, by their stages. -/
theorem StagesRun.stageProcs (h : StagesRun (stageChildren E mode tasks) E mode
    (stageOrder tasks.length mode) 0 [] (p, .ok pfd) ls) (htasks : tasks ≠ []) :
    StageProcs tasks (byStage mode ls) := by
  obtain ⟨-, hlen⟩ := h.pids_eq htasks
  refine ⟨?_, fun i task q htask hq => ?_⟩
  · rw [(byStage_perm mode ls).length_eq, List.length_map, hlen]
  · have hi : i < tasks.length := (List.getElem?_eq_some_iff.mp htask).1
    rw [byStage_getElem? mode ls (by omega), hlen, Option.map_eq_some_iff] at hq
    obtain ⟨l, hl, rfl⟩ := hq
    obtain ⟨i', hi', -, hchild⟩ := h.children _ l hl
    obtain rfl := Option.some.inj ((stages_madeAt mode hi).symm.trans hi')
    intro s hs
    rw [hchild.started s hs, taskAt_succ htask]

/-- The child made last is that of the last stage in mode `r`, and of the first in mode `w`. -/
theorem getLast?_pids (hmode : ValidMode mode) (ls : List (Process ω × Stop)) :
    (ls.map (·.1.pid)).getLast?
      = if mode = "r" then (byStage mode ls).getLast?.map Process.pid
        else (byStage mode ls).head?.map Process.pid := by
  rcases hmode with rfl | rfl
  · rw [if_pos rfl, byStage, if_neg (by decide), ← List.getLast?_map, List.map_map]
    rfl
  · rw [if_neg (by decide), byStage, if_pos rfl, ← List.head?_map, List.map_map, List.map_reverse,
      List.head?_reverse]
    rfl

/-- The child made last ended as the last stage did exactly if it is that of the last stage, or
that of a first stage that ended as the last. -/
theorem ended_getLast_iff (hmode : ValidMode mode) {ended : Nat → Option Termination} {pid : Nat}
    {t t₁ tₙ : Termination} {first last : Process ω}
    (hpid : (ls.map (·.1.pid)).getLast? = some pid) (ht : ended pid = some t)
    (hfirst : (byStage mode ls).head? = some first) (ht₁ : ended first.pid = some t₁)
    (hlast : (byStage mode ls).getLast? = some last) (htₙ : ended last.pid = some tₙ) :
    t = tₙ ↔ mode = "r" ∨ (byStage mode ls).length = 1 ∨ t₁ = tₙ := by
  rw [getLast?_pids hmode, hfirst, hlast] at hpid
  split_ifs at hpid with hread
  · cases hpid
    exact iff_of_true (Option.some.inj (ht.symm.trans htₙ)) (.inl hread)
  · cases hpid
    obtain rfl := Option.some.inj (ht.symm.trans ht₁)
    refine ⟨fun h => .inr (.inr h), fun h => ?_⟩
    obtain h | hone | h := h
    · exact absurd h hread
    · -- The only stage is both the first and the last.
      obtain ⟨q, hq⟩ := List.length_eq_one_iff.mp hone
      rw [hq] at hfirst hlast
      obtain rfl : first = last := Option.some.inj (hfirst.symm.trans hlast)
      exact Option.some.inj (ht.symm.trans htₙ)
    · exact h

/-- **What `pclose` reports**: however the children end, every call can return, and a call that
returns has closed the descriptor and waited for each child once. It reports the last stage
exactly if the mode is `r`, there is one stage, or the first and last stage ended alike. -/
theorem pclose_reports_iff (hdistinct : DistinctPids E)
    (h : Opened E mode self T p pfd forked tasks) (noChild : LuaValue × LuaValue) :
    ∃ procs : List (Process ω), procs.Perm (forked.map Prod.fst) ∧ StageProcs tasks procs ∧
      ∀ s, (pclose noChild pfd p).Reachable always s →
        (∃ s' r, Relation.ReflTransGen ((pclose noChild pfd p).Step always) s s' ∧
          s'.pc = .returned r) ∧
        ∀ r, s.pc = .returned r → Closed procs pfd p s ∧
          ∃ first last t₁ tₙ, procs.head? = some first ∧ procs.getLast? = some last ∧
            s.ended first.pid = some t₁ ∧ s.ended last.pid = some tₙ ∧
            (r = tₙ.result ↔ mode = "r" ∨ tasks.length = 1 ∨ t₁ = tₙ) := by
  obtain ⟨htasks, ls, rfl, hstages⟩ := h.exists_stagesRun
  obtain ⟨hpids, hlen⟩ := hstages.pids_eq htasks
  have hpos : 0 < ls.length := hlen ▸ List.length_pos_iff.mpr htasks
  have hmode : ValidMode mode := (hstages.opens 0 hpos).1
  have hprocs := hstages.stageProcs htasks
  have hperm := byStage_perm mode ls
  have hnodup : pfd.pids.Nodup := hpids ▸ hstages.nodup hdistinct
  have hne : pfd.pids ≠ [] := by
    rw [hpids, Ne, List.map_eq_nil_iff]
    exact List.length_pos_iff.mp hpos
  refine ⟨byStage mode ls, ?_, hprocs, fun s hs => ?_⟩
  · rw [Forking.left, List.map_map]
    exact hperm
  have hinv := Closing.inv_of_reachable hnodup hne hs
  refine ⟨hinv.exists_returned hnodup hne, fun r hret => ?_⟩
  obtain ⟨hfds, hwaits, pid, t, hlast, ht, rfl⟩ := hinv.returned r hret
  have hwaitsPerm : s.waits.Perm ((byStage mode ls).map Process.pid) := by
    rw [hwaits, hpids]
    have hmap := hperm.map Process.pid
    rw [List.map_map] at hmap
    exact hmap.symm
  refine ⟨⟨hfds, hwaitsPerm, hwaits ▸ hnodup⟩, ?_⟩
  have hprocsNe : byStage mode ls ≠ [] := by
    rw [← List.length_pos_iff, hprocs.length]
    exact List.length_pos_iff.mpr htasks
  have hended : ∀ q ∈ byStage mode ls, ∃ t, s.ended q.pid = some t := fun q hq =>
    Option.ne_none_iff_exists'.mp
      (hinv.ended q.pid (hwaitsPerm.mem_iff.mpr (List.mem_map_of_mem hq)))
  obtain ⟨t₁, ht₁⟩ := hended _ (List.head_mem hprocsNe)
  obtain ⟨tₙ, htₙ⟩ := hended _ (List.getLast_mem hprocsNe)
  have hhead := List.head?_eq_some_head hprocsNe
  have hgetLast := List.getLast?_eq_some_getLast hprocsNe
  refine ⟨_, _, t₁, tₙ, hhead, hgetLast, ht₁, htₙ, ?_⟩
  rw [Termination.result_injective.eq_iff, ← hprocs.length]
  exact ended_getLast_iff hmode (hpids ▸ hlast) ht hhead ht₁ hgetLast htₙ

end Opened

/-! ## An instance -/

/-- The quiet system never repeats a pid. -/
theorem distinctPids_quietSystem : DistinctPids quietSystem := by
  intro j k pid hj hk
  have hpid := Option.some.inj (hj.trans hk.symm)
  omega

/-- `ls | wc` in mode `r`. -/
theorem pclose_reports_lsWc :
    ∃ p pfd forked, Opened quietSystem "r" 0 stdTable p pfd forked lsWc ∧
      ∃ procs : List (Process Nat), procs.Perm (forked.map Prod.fst) ∧ StageProcs lsWc procs ∧
        ∀ s, (pclose (.nil, .nil) pfd p).Reachable always s → ∀ r, s.pc = .returned r →
          ∃ last tₙ, procs.getLast? = some last ∧ s.ended last.pid = some tₙ ∧ r = tₙ.result := by
  have hopened : Opened quietSystem "r" 0 stdTable _ _ _ lsWc := .popen_pipeline (by decide) rfl
  obtain ⟨procs, hperm, hprocs, hall⟩ :=
    pclose_reports_iff distinctPids_quietSystem hopened (.nil, .nil)
  refine ⟨_, _, _, hopened, procs, hperm, hprocs, fun s hs r hr => ?_⟩
  obtain ⟨-, hret⟩ := hall s hs
  obtain ⟨-, _, last, _, tₙ, -, hlast, -, hended, hiff⟩ := hret r hr
  exact ⟨last, tₙ, hlast, hended, hiff.mpr (.inl rfl)⟩

/-- In mode `w` the first stage is reported: `ls` exits with 0 and `wc` with 1, in either order. -/
theorem pclose_w_reports_first :
    ∃ p pfd forked, Opened quietSystem "w" 0 stdTable p pfd forked lsWc ∧
      pfd.pids = [1, 2] ∧
      (forked.map fun l => (l.1.pid, l.1.started.map (·.task)))
        = [(1, [taskAt lsWc 2]), (2, [taskAt lsWc 1])] ∧
      ((pclose (.nil, .nil) pfd p).run ⟨p.fds, .close, fun _ => none, []⟩
          [.ends 1 (.exited 1), .call, .call, .ends 2 (.exited 0), .call]).map Closing.pc
        = some (.returned (Termination.exited 0).result) ∧
      (Termination.exited 0).result ≠ (Termination.exited 1).result := by
  have hopened : Opened quietSystem "w" 0 stdTable _ _ _ lsWc := .popen_pipeline (by decide) rfl
  exact ⟨_, _, _, hopened, rfl, rfl, rfl, by decide⟩

end LuaPosix.Popen

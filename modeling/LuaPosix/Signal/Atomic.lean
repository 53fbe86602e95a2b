import LuaPosix.Lib.Simulation
import LuaPosix.Signal.Queue

/-! # The drain as one step

What the deferral of signals is for, without statements or interleavings: a stack with room for
`SIGNAL_QUEUE_MAX` signals, on which an arrival puts its signal if there is room, and which a
drain empties at one blow, handling the latest arrival first. The machine of the module, in which
a drain is many steps and arrivals come between any two of them, is simulated by it: a drain takes
effect where the signals are blocked. -/

namespace LuaPosix

/-- The signals that wait, latest first, and those handled, earliest first. -/
@[ext] structure Atomic where
  waiting : List Int
  handled : List Int

namespace Atomic

/-- What can happen to it. -/
inductive Event where
  | arrive (signo : Int)
  | drain

/-- The signal of an arrival. -/
def Event.signo : Event → Option Int
  | .arrive signo => some signo
  | .drain => none

/-- Nothing has happened yet. -/
def idle : Atomic := ⟨[], []⟩

/-- Put a signal on the stack, if there is room. -/
def push (a : Atomic) (signo : Int) : Atomic :=
  if a.waiting.length = SIGNAL_QUEUE_MAX then a else { a with waiting := signo :: a.waiting }

/-- Handle every signal that waits. -/
def drain (a : Atomic) : Atomic := ⟨[], a.handled ++ a.waiting⟩

/-- The machine. -/
def machine : Machine Atomic Event where
  init a := a = idle
  next a
    | .arrive signo => some (a.push signo)
    | .drain => some a.drain

end Atomic

namespace State

/-- The signals handled, earliest first. -/
def handled (s : State) : List Int := (s.process.registry.drained.map (·.signo)).reverse

/-- What a state stands for. From the moment the signals are blocked, those in the queue count as
handled. -/
def atomic (s : State) : Atomic :=
  if s.pc.blocking then ⟨[], s.handled ++ s.queue.reverse⟩ else ⟨s.queue.reverse, s.handled⟩

end State

variable {H : Host} {s s' : State} {l : Label}

/-- While the signals are blocked nothing is kept, and those waiting count as handled. -/
theorem atomic_of_blocking (hpc : s.pc.blocking = true) :
    s.atomic = ⟨[], s.handled ++ s.queue.reverse⟩ := if_pos hpc

/-- Otherwise they wait. -/
theorem atomic_of_not_blocking (hpc : s.pc.blocking = false) :
    s.atomic = ⟨s.queue.reverse, s.handled⟩ := by
  rw [State.atomic, hpc]
  rfl

/-- A step that keeps the queue and the drained signals, and neither blocks nor unblocks. -/
theorem atomic_congr (hpc : s'.pc.blocking = s.pc.blocking) (hqueue : s'.queue = s.queue)
    (hdrained : s'.process.registry.drained = s.process.registry.drained) :
    s'.atomic = s.atomic := by
  rw [State.atomic, State.atomic, hpc, hqueue, State.handled, State.handled, hdrained]

/-- The queue is as long as the count says. -/
theorem length_queued (s : Statics) : s.queued.length = s.signal_count.toNat := by
  rw [Statics.queued, List.length_map, List.length_range]

/-! ## What each step stands for -/

/-- Arrivals are seen, and the statement that blocks the signals. -/
def atomicEvents (s : State) : Label → List Atomic.Event
  | .arrive signo => [.arrive signo]
  | .step => if s.pc = .entry then [.drain] else []
  | _ => []

/-- **An arrival** is put on the stack if there is room. -/
theorem atomic_arrive (h : Annotated s) {signo : Int} (hmask : s.process.mask signo = false) :
    (s.arrive H signo).atomic = s.atomic.push signo := by
  have hpc : s.pc.blocking = false := by
    by_contra hpc
    rw [h.assertion.blocked (by simpa using hpc) signo] at hmask
    cases hmask
  obtain ⟨hle, -, -⟩ := (assertion_iff_of_not_blocking hpc).mp h.assertion
  have hlength : (s.queue.reverse.length : Int) = s.count := by
    rw [queue_of_blocking hpc, List.length_reverse, length_queued, Int.toNat_of_nonneg hle]
  rw [atomic_of_not_blocking hpc, Atomic.push, hlength]
  by_cases hfull : s.count = SIGNAL_QUEUE_MAX
  · rw [if_pos hfull, arrive_full h.defer_signal hfull, atomic_of_not_blocking (by exact hpc),
      queue_of_blocking (by exact hpc), queue_of_blocking hpc, State.handled, State.handled,
      enter_drained]
  · rw [if_neg hfull, arrive_room h.defer_signal h.signal_pending hfull,
      atomic_of_not_blocking (by exact hpc), queue_of_blocking (by exact hpc), queued_push hle,
      List.reverse_append, queue_of_blocking hpc, State.handled, State.handled, enter_drained]
    rfl

/-- **The look-up of a handler** moves its signal from the queue to the drained ones, which is
nothing that can be told apart. -/
theorem atomic_lookedUp (h : Annotated s) (hpc : s.pc = .body) (f : LuaValue) :
    (s.lookedUp (.ok f)).atomic = s.atomic := by
  have hann := h.assertion
  rw [Assertion, hpc] at hann
  obtain ⟨n, hn⟩ := Int.eq_ofNat_of_zero_le hann.2.1
  have hqueue : s.queue = s.process.statics.queued ++ [s.signo] := by
    rw [State.queue, hpc]
    simp only
    rw [queued_succ (n := n) (by simp [hn]), State.signo, ← State.count, hn]
    simp only [← hn]
  have hhandled : (s.lookedUp (.ok f)).handled = s.handled ++ [s.signo] := by
    show ((s.signo :: s.process.registry.drained.map (·.signo)).reverse) = _
    rw [List.reverse_cons]
    rfl
  rw [atomic_of_blocking (by rfl), atomic_of_blocking (by rw [hpc]; rfl), hhandled, hqueue,
    List.reverse_append, List.append_assoc]
  rfl

/-- A statement other than the first stands for nothing. -/
theorem run_atomicEvents_step (hpc : s.pc ≠ .entry) (h : s'.atomic = s.atomic) :
    Atomic.machine.run s.atomic (atomicEvents s .step) = some s'.atomic := by
  rw [atomicEvents, if_neg hpc, h]
  rfl

/-- **The first statement of a drain** is where the drain takes effect. -/
theorem atomic_block (hpc : s.pc = .entry) :
    State.atomic { s with
      pc := .masked, oldmask := s.process.mask
      process := { s.process with mask := fun _ => true } } = s.atomic.drain := by
  have hqueue : s.queue = s.process.statics.queued := by rw [State.queue, hpc]
  rw [atomic_of_blocking rfl, atomic_of_not_blocking (s := s) (by rw [hpc]; rfl), hqueue]
  rfl

/-- **The last statement before the signals are unblocked**: nothing is queued, so nothing waits
on the other side of the border. -/
theorem atomic_unblock (h : Annotated s) (hpc : s.pc = .restore) :
    State.atomic { s with pc := .leave, process := { s.process with mask := s.oldmask } } =
      s.atomic := by
  have hann := h.assertion
  rw [Assertion, hpc] at hann
  have hnil : s.process.statics.queued = [] := queued_eq_nil hann.2.le
  have hqueue : s.queue = [] := by rw [State.queue, hpc, hnil]
  rw [atomic_of_not_blocking rfl, atomic_of_blocking (s := s) (by rw [hpc]; rfl), hqueue,
    queue_of_blocking rfl, hnil, List.reverse_nil, List.append_nil]
  rfl

/-- **Every step stands for its events.** -/
theorem atomic_next (h : Annotated s) (hs : StepCase H s l s') :
    Atomic.machine.run s.atomic (atomicEvents s l) = some s'.atomic := by
  have hann := h.assertion
  cases hs with
  | arrive _ hmask =>
      rw [atomic_arrive h hmask]
      rfl
  | signal hpc =>
      refine congrArg some (Eq.symm ?_)
      exact atomic_congr rfl rfl (signalCall_drained H s.process.registry _)
  | setmask => exact congrArg some (Eq.symm (atomic_congr rfl rfl rfl))
  | hook hpc _ =>
      refine congrArg some (Eq.symm ?_)
      refine atomic_congr (by rw [hpc]; rfl) ?_ rfl
      rw [queue_of_blocking (s := s) (by rw [hpc]; rfl), queue_of_blocking rfl]
  | block hpc =>
      rw [atomic_block hpc, atomicEvents, if_pos hpc]
      rfl
  | unhook hpc | push hpc =>
      refine run_atomicEvents_step (by simp [hpc]) ?_
      refine atomic_congr (by rw [hpc]; rfl) ?_ rfl
      rw [State.queue, State.queue, hpc]
  | done hpc h0 =>
      refine run_atomicEvents_step (by simp [hpc]) ?_
      refine atomic_congr (by rw [hpc]; rfl) ?_ rfl
      -- One less than zero is still an empty queue.
      have hle : s.count - 1 ≤ 0 := by omega
      rw [State.queue, State.queue, hpc]
      exact (queued_eq_nil hle).trans (queued_eq_nil h0.le).symm
  | take hpc h0 =>
      refine run_atomicEvents_step (by simp [hpc]) ?_
      refine atomic_congr (by rw [hpc]; rfl) ?_ rfl
      have hback : s.taken.count + 1 = s.count := sub_add_cancel s.count 1
      show Statics.queued { s.taken.process.statics with signal_count := s.taken.count + 1 } = _
      rw [hback, State.queue, hpc]
      rfl
  | gettable hpc =>
      exact run_atomicEvents_step (by simp [hpc]) (atomic_lookedUp h hpc _)
  | lookup hpc htop => exact absurd (h.top hpc) htop
  | call hpc =>
      refine congrArg some (Eq.symm ?_)
      refine atomic_congr (by rw [hpc]; rfl) ?_ (foldl_signalCall_drained H _ _)
      rw [State.queue, State.queue, hpc]
      rfl
  | reset hpc =>
      refine run_atomicEvents_step (by simp [hpc]) ?_
      refine atomic_congr (by rw [hpc]; rfl) ?_ rfl
      rw [Assertion, hpc] at hann
      rw [State.queue, State.queue, hpc]
      exact (queued_eq_nil le_rfl).trans (queued_eq_nil (hann.2.trans_le (by decide))).symm
  | unblock hpc => exact run_atomicEvents_step (by simp [hpc]) (atomic_unblock h hpc)
  | leave hpc =>
      refine run_atomicEvents_step (by simp [hpc]) ?_
      refine atomic_congr (by rw [hpc]; rfl) ?_ rfl
      rw [queue_of_blocking (s := s) (by rw [hpc]; rfl), queue_of_blocking rfl]

/-! ## Every run -/

/-- The loaded module is the idle abstract state. -/
theorem atomic_loaded (h : Loaded s) : s.atomic = .idle := by
  have hpc : s.pc.blocking = false := by rw [h.pc]; rfl
  rw [atomic_of_not_blocking hpc, queue_of_blocking hpc, queued_eq_nil h.signal_count.le,
    State.handled, h.drained]
  rfl

/-- **The simulation.** -/
def atomically (H : Host) : Machine.Simulation (machine H) Returns Atomic.machine where
  abs := State.atomic
  events := atomicEvents
  Inv := Annotated
  init _ h := ⟨annotated_loaded h, atomic_loaded h⟩
  step _ _ _ hs hl hnext :=
    have hcase := nextState_eq_some_iff.mp hnext
    ⟨annotated_next hs hl hcase, atomic_next hs hcase⟩

/-- The arrivals of the events are those of the run. -/
theorem arrivals_next (hs : StepCase H s l s') :
    (s'.arrivals.map (·.signo)).reverse =
      (s.arrivals.map (·.signo)).reverse ++ (atomicEvents s l).filterMap Atomic.Event.signo := by
  have hstep : (atomicEvents s .step).filterMap Atomic.Event.signo = [] := by
    rw [atomicEvents]
    split_ifs <;> rfl
  cases hs with
  | arrive => exact List.reverse_cons
  | signal | setmask | hook | call => exact (List.append_nil _).symm
  | @lookup r => cases r <;> exact (List.append_nil _).symm
  | block | unhook | push | done | take | gettable | reset | unblock | leave =>
      rw [hstep]
      exact (List.append_nil _).symm

/-- **Every run in which no handler raises is one in which drains are single steps.** Over the same
arrivals in the same order, and a drain wherever the signals are blocked, the stack with so much
room ends with the signals that are queued, and has handled those whose handlers have been called,
in that order. -/
theorem atomic_of_run {s₀ : State} {ls : List Label} (h₀ : Loaded s₀)
    (hmeets : (machine H).Meets Returns s₀ ls) (hrun : (machine H).run s₀ ls = some s) :
    Atomic.machine.run .idle ((atomically H).trace s₀ ls) = some s.atomic ∧
      ((atomically H).trace s₀ ls).filterMap Atomic.Event.signo =
        (s.arrivals.map (·.signo)).reverse ∧
      (s.pc.blocking = false → s.atomic = ⟨s.process.statics.queued.reverse,
        (s.process.registry.drained.map (·.signo)).reverse⟩) := by
  refine ⟨?_, ?_, fun hpc => ?_⟩
  · have hatomic := ((atomically H).run_of_init h₀ hmeets hrun).2
    rw [← atomic_loaded h₀]
    exact hatomic
  · have htrace := (atomically H).trace_filterMap
      (g := fun s => (s.arrivals.map (·.signo)).reverse)
      (fun _ _ _ _ _ hnext => arrivals_next (nextState_eq_some_iff.mp hnext))
      (annotated_loaded h₀) hmeets hrun
    rw [h₀.arrivals] at htrace
    exact htrace.symm
  · rw [atomic_of_not_blocking hpc, queue_of_blocking hpc]
    rfl

/-- `signal(10, f)`, an arrival of the signal, another between the hook and the drain, and the
drain up to its end. -/
private def usr1_twice : List Label :=
  [.signal [.integer 10, .function 7], .arrive 10, .hook, .arrive 10, .step, .step, .step, .step,
    .step, .call ⟨[], .ok ()⟩, .step, .step, .call ⟨[], .ok ()⟩, .step, .step, .step, .step]

/-- Every handler of the run returns. -/
private theorem returns_usr1_twice : ∀ l ∈ usr1_twice, ∀ s, Returns s l := by
  simp [usr1_twice, Returns]

/-- Both arrivals have been handled. -/
theorem atomic_usr1_twice : ∃ s, (machine linux).run loaded usr1_twice = some s ∧
    s.pc = .lua ∧ Atomic.machine.run .idle ((atomically linux).trace loaded usr1_twice) =
      some ⟨[], [10, 10]⟩ := by
  have hrun : (machine linux).run loaded usr1_twice = some _ := rfl
  exact ⟨_, hrun, rfl, (atomic_of_run loaded_loaded (.of_forall returns_usr1_twice) hrun).1⟩

end LuaPosix

import LuaPosix.Signal.Machine

/-! # The queue of postponed signals

The invariant of every run in which nothing the drain calls raises. It has an assertion for each
place the process can be at, about the count, the hook, the signal mask and the Lua stack, and a
part about the history: every arrival that was queued is either still in the queue or has had its
handler called. -/

namespace LuaPosix

/-- Whether a drain has every signal blocked. -/
def Pc.blocking : Pc → Bool
  | .lua | .entry | .leave => false
  | _ => true

namespace State

/-- Every signal is blocked. -/
def Blocked (s : State) : Prop := ∀ signo, s.process.mask signo = true

/-- The signals whose handlers are still to be called. At the body of the loop the count is
already one less. -/
def queue (s : State) : List Int :=
  match s.pc with
  | .body => Statics.queued { s.process.statics with signal_count := s.count + 1 }
  | _ => s.process.statics.queued

/-- The arrivals that were queued. -/
def queuedArrivals (s : State) : List Int := (s.arrivals.filter (·.queued)).map (·.signo)

/-- How many steps a drain still takes until the signals are unblocked. -/
def remaining (s : State) : Nat :=
  match s.pc with
  | .lua | .entry | .leave => 0
  | .restore => 1
  | .exit => 2
  | .test => 3 * s.count.toNat + 3
  | .call _ _ | .unhooked => 3 * s.count.toNat + 4
  | .body | .masked => 3 * s.count.toNat + 5

end State

/-- No signal interrupts `sig_postpone`: it is installed with every signal in its mask. -/
def Registry.Uninterrupted (R : Registry) : Prop :=
  ∀ signo, (R.sigaction signo).sa_handler = .sig_postpone →
    ∀ other, (R.sigaction signo).sa_mask other = true

/-- Nothing the drain calls raises. -/
def Returns (_ : State) : Label → Prop
  | .call o => o.result = .ok ()
  | _ => True

/-- **The queue invariant.** -/
structure QueueInvariant (s : State) : Prop where
  sa_mask : s.process.registry.Uninterrupted
  signal_count_le : s.count ≤ SIGNAL_QUEUE_MAX
  /-- The count is negative only behind the loop, where nothing can interrupt. -/
  signal_count_nonneg : 0 ≤ s.count ∨ s.pc = .exit ∧ s.count = -1 ∧ s.Blocked
  indices : ∀ i ∈ s.indices, 0 ≤ i ∧ i < SIGNAL_QUEUE_MAX
  /-- No queued signal is stranded. -/
  hook : s.pc.blocking = false → 0 < s.count → s.process.hook = true
  /-- An arrival is dropped only when the queue is full. -/
  dropped : ∀ a ∈ s.arrivals, a.queued = false → a.count = SIGNAL_QUEUE_MAX
  /-- A queued arrival has had its handler called, once, or is in the queue, once. -/
  once : s.queuedArrivals.Perm (s.process.registry.drained.map (·.signo) ++ s.queue)
  called : ∀ d ∈ s.process.registry.drained, d.called = some d.registered
  defer_signal : s.process.statics.defer_signal = 0
  signal_pending : s.process.statics.signal_pending = 0

/-! ## Putting a signal into the queue and taking it out -/

/-- The new signal is the last of the queue. -/
theorem queued_push {s : Statics} (hcount : 0 ≤ s.signal_count) (i : Int) :
    Statics.queued { s with
      signals := Function.update s.signals s.signal_count i
      signal_count := s.signal_count + 1 } = s.queued ++ [i] := by
  obtain ⟨n, hn⟩ := Int.eq_ofNat_of_zero_le hcount
  rw [queued_succ (n := n) (by simp [hn])]
  have hsame : ∀ k ∈ List.range n, Function.update s.signals n i (k : Int) = s.signals k := by
    intro k hk
    -- The array changes at the count only, behind every queued signal.
    have hne : (k : Int) ≠ n := by
      have := List.mem_range.mp hk
      omega
    rw [Function.update_of_ne hne]
  simp only [Statics.queued, hn, Int.toNat_natCast, Function.update_self]
  rw [List.map_congr_left hsame]

/-- A count that is not positive queues nothing. -/
theorem queued_eq_nil {s : Statics} (hcount : s.signal_count ≤ 0) : s.queued = [] := by
  rw [Statics.queued, Int.toNat_of_nonpos hcount]
  rfl

/-- An arrival that finds the queue full changes nothing. -/
theorem sig_postpone_full {p : Process} (hdefer : p.statics.defer_signal = 0)
    (hfull : p.statics.signal_count = SIGNAL_QUEUE_MAX) (i : Int) : sig_postpone i p = p := by
  simp [sig_postpone, hdefer, hfull]

/-- An arrival that finds room is queued, and sets the hook. -/
theorem sig_postpone_room {p : Process} (hdefer : p.statics.defer_signal = 0)
    (hpending : p.statics.signal_pending = 0)
    (hroom : p.statics.signal_count ≠ SIGNAL_QUEUE_MAX) (i : Int) :
    sig_postpone i p = { p with
      hook := true
      statics := { p.statics with
        signals := Function.update p.statics.signals p.statics.signal_count i
        signal_count := p.statics.signal_count + 1 } } := by
  simp [sig_postpone, hdefer, hpending, hroom]

/-- A `signal` call installs `sig_postpone` with every signal in its mask. -/
theorem uninterrupted_signalCall {H : Host} {R : Registry} (h : R.Uninterrupted)
    (args : List LuaValue) : (signalCall H R args).Uninterrupted := by
  rw [signalCall]
  cases hres : Psignal H args R with
  | error e => exact h
  | ok r =>
      obtain ⟨res, R'⟩ := r
      obtain ⟨c, -, hR'⟩ := Psignal_ok_iff.mp hres
      split_ifs at hR'
      · intro signo hpostpone other
        simp only [hR'.1, setLuaHandler_sigaction, sigaction] at hpostpone ⊢
        by_cases hsig : signo = c.sig
        · rw [hsig, Function.update_self]
        · rw [Function.update_of_ne hsig] at hpostpone ⊢
          exact h signo hpostpone other
      · rw [hR'.1]
        exact h

/-- Calls of `signal` leave the registry without interruption. -/
theorem uninterrupted_foldl {H : Host} {R : Registry} (h : R.Uninterrupted)
    (calls : List (List LuaValue)) : (calls.foldl (signalCall H) R).Uninterrupted := by
  induction calls generalizing R with
  | nil => exact h
  | cons args calls ih => exact ih (uninterrupted_signalCall h args)

/-- The kernel never brings `sig_postpone` back. -/
theorem uninterrupted_enter {H : Host} {R : Registry} (h : R.Uninterrupted) (i : Int) :
    (R.enter H i).Uninterrupted := by
  rw [Registry.enter]
  by_cases hreset : H.resethand (R.sigaction i).sa_flags
  · simp only [if_pos hreset]
    intro signo hpostpone other
    by_cases hsig : signo = i
    · simp only [hsig, Function.update_self] at hpostpone
      cases hpostpone
    · simp only [Function.update_of_ne hsig] at hpostpone ⊢
      exact h signo hpostpone other
  · simp only [if_neg hreset]
    exact h

/-! ## The assertions and the history -/

section Queue

variable {H : Host} {s s' : State} {signo : Int}

/-- What holds at each place the process can be at. -/
def Assertion (s : State) : Prop :=
  match s.pc with
  | .lua | .entry | .leave =>
      0 ≤ s.count ∧ s.count ≤ SIGNAL_QUEUE_MAX ∧ (0 < s.count → s.process.hook = true)
  | .masked | .unhooked => s.Blocked ∧ 0 ≤ s.count ∧ s.count ≤ SIGNAL_QUEUE_MAX
  | .test => s.Blocked ∧ 0 ≤ s.count ∧ s.count ≤ SIGNAL_QUEUE_MAX ∧ s.stack = [handlersTable]
  | .body | .call _ _ =>
      s.Blocked ∧ 0 ≤ s.count ∧ s.count < SIGNAL_QUEUE_MAX ∧ s.stack = [handlersTable]
  | .exit => s.Blocked ∧ s.count = -1
  | .restore => s.Blocked ∧ s.count = 0

/-- What holds of the arrivals so far. -/
structure History (s : State) : Prop where
  indices : ∀ i ∈ s.indices, 0 ≤ i ∧ i < SIGNAL_QUEUE_MAX
  dropped : ∀ a ∈ s.arrivals, a.queued = false → a.count = SIGNAL_QUEUE_MAX
  once : s.queuedArrivals.Perm (s.process.registry.drained.map (·.signo) ++ s.queue)
  called : ∀ d ∈ s.process.registry.drained, d.called = some d.registered

/-- The invariant, as it is kept. -/
structure Annotated (s : State) : Prop where
  assertion : Assertion s
  history : History s
  sa_mask : s.process.registry.Uninterrupted
  defer_signal : s.process.statics.defer_signal = 0
  signal_pending : s.process.statics.signal_pending = 0

/-- At a place that blocks the signals they are blocked. -/
theorem Assertion.blocked (h : Assertion s) (hpc : s.pc.blocking = true) : s.Blocked := by
  rw [Assertion] at h
  cases hs : s.pc <;> simp only [hs] at h hpc <;> first | exact h.1 | cases hpc

/-- Where an arrival can come, the assertion is the one about the hook. -/
theorem assertion_iff_of_not_blocking (hpc : s.pc.blocking = false) :
    Assertion s ↔
      0 ≤ s.count ∧ s.count ≤ SIGNAL_QUEUE_MAX ∧ (0 < s.count → s.process.hook = true) := by
  rw [Assertion]
  cases hs : s.pc <;> first | rfl | (rw [hs] at hpc; cases hpc)

/-- The bounds on the count the assertions imply. -/
theorem Assertion.bounds (h : Assertion s) : s.count ≤ SIGNAL_QUEUE_MAX ∧
    (0 ≤ s.count ∨ s.pc = .exit ∧ s.count = -1 ∧ s.Blocked) := by
  rw [Assertion] at h
  by_cases hexit : s.pc = .exit
  · simp only [hexit] at h
    refine ⟨?_, .inr ⟨hexit, h.2, h.1⟩⟩
    rw [h.2, SIGNAL_QUEUE_MAX]
    omega
  · have hcount : 0 ≤ s.count ∧ s.count ≤ SIGNAL_QUEUE_MAX := by
      rw [SIGNAL_QUEUE_MAX] at h ⊢
      cases hs : s.pc <;> simp only [hs] at h <;> first | exact absurd hs hexit | omega
    exact ⟨hcount.2, .inl hcount.1⟩

/-- Elsewhere the queue is the module's own. -/
theorem queue_of_blocking (hpc : s.pc.blocking = false) : s.queue = s.process.statics.queued := by
  rw [State.queue]
  cases hs : s.pc <;> first | rfl | (rw [hs] at hpc; cases hpc)

/-- A step that keeps the queue, the drained signals and the arrivals keeps the history. -/
theorem History.congr (h : History s) (hindices : s'.indices = s.indices)
    (harrivals : s'.arrivals = s.arrivals)
    (hdrained : s'.process.registry.drained = s.process.registry.drained)
    (hqueue : s'.queue = s.queue) : History s' where
  indices := by
    rw [hindices]
    exact h.indices
  dropped := by
    rw [harrivals]
    exact h.dropped
  once := by
    rw [State.queuedArrivals, harrivals, hdrained, hqueue]
    exact h.once
  called := by
    rw [hdrained]
    exact h.called

/-- A step that keeps the registry and the queue keeps the invariant if the next assertion holds. -/
theorem Annotated.moved (h : Annotated s) (hassertion : Assertion s')
    (hregistry : s'.process.registry = s.process.registry) (hqueue : s'.queue = s.queue)
    (hindices : s'.indices = s.indices) (harrivals : s'.arrivals = s.arrivals)
    (hdefer : s'.process.statics.defer_signal = s.process.statics.defer_signal)
    (hpending : s'.process.statics.signal_pending = s.process.statics.signal_pending) :
    Annotated s' where
  assertion := hassertion
  history := h.history.congr hindices harrivals (by rw [hregistry]) hqueue
  sa_mask := by
    rw [hregistry]
    exact h.sa_mask
  defer_signal := hdefer.trans h.defer_signal
  signal_pending := hpending.trans h.signal_pending

/-! ## An arrival -/

/-- An arrival that finds the queue full. -/
theorem arrive_full (hdefer : s.process.statics.defer_signal = 0)
    (hfull : s.count = SIGNAL_QUEUE_MAX) (signo : Int) :
    s.arrive H signo = { s with
      process := { s.process with registry := s.process.registry.enter H signo }
      arrivals := ⟨signo, s.count, false⟩ :: s.arrivals } := by
  rw [State.arrive, sig_postpone_full (by exact hdefer) (by exact hfull)]
  simp

/-- An arrival that finds room. -/
theorem arrive_room (hdefer : s.process.statics.defer_signal = 0)
    (hpending : s.process.statics.signal_pending = 0) (hroom : s.count ≠ SIGNAL_QUEUE_MAX)
    (signo : Int) :
    s.arrive H signo = { s with
      process := { s.process with
        registry := s.process.registry.enter H signo
        hook := true
        statics := { s.process.statics with
          signals := Function.update s.process.statics.signals s.count signo
          signal_count := s.count + 1 } }
      indices := s.count :: s.indices
      arrivals := ⟨signo, s.count, true⟩ :: s.arrivals } := by
  rw [State.arrive, sig_postpone_room (by exact hdefer) (by exact hpending) (by exact hroom)]
  simp

/-- A dropped arrival. -/
theorem annotated_dropped (h : Annotated s) (hpc : s.pc.blocking = false)
    (hfull : s.count = SIGNAL_QUEUE_MAX) (signo : Int) : Annotated (s.arrive H signo) := by
  have honce := h.history.once
  rw [queue_of_blocking hpc] at honce
  have hdropped : ∀ a ∈ (⟨signo, s.count, false⟩ : Arrival) :: s.arrivals,
      a.queued = false → a.count = SIGNAL_QUEUE_MAX := by
    intro a ha hqueued
    rcases List.mem_cons.mp ha with rfl | ha
    · exact hfull
    · exact h.history.dropped a ha hqueued
  rw [arrive_full h.defer_signal hfull]
  refine ⟨h.assertion, ⟨h.history.indices, hdropped, ?_, ?_⟩,
    uninterrupted_enter h.sa_mask signo, h.defer_signal, h.signal_pending⟩
  · rw [queue_of_blocking (by exact hpc)]
    simpa [State.queuedArrivals] using honce
  · simpa using h.history.called

/-- A queued arrival. -/
theorem annotated_queued (h : Annotated s) (hpc : s.pc.blocking = false)
    (hroom : s.count ≠ SIGNAL_QUEUE_MAX) (signo : Int) : Annotated (s.arrive H signo) := by
  obtain ⟨hle, hmax, hhook⟩ := (assertion_iff_of_not_blocking hpc).mp h.assertion
  have hlt : s.count < SIGNAL_QUEUE_MAX := lt_of_le_of_ne hmax hroom
  have hindices : ∀ i ∈ s.count :: s.indices, 0 ≤ i ∧ i < SIGNAL_QUEUE_MAX := by
    intro i hi
    rcases List.mem_cons.mp hi with rfl | hi
    · exact ⟨hle, hlt⟩
    · exact h.history.indices i hi
  have hdropped : ∀ a ∈ (⟨signo, s.count, true⟩ : Arrival) :: s.arrivals,
      a.queued = false → a.count = SIGNAL_QUEUE_MAX := by
    intro a ha hqueued
    rcases List.mem_cons.mp ha with rfl | ha
    · cases hqueued
    · exact h.history.dropped a ha hqueued
  -- The arrival and its place at the end of the queue come together.
  have honce : (signo :: s.queuedArrivals).Perm
      (s.process.registry.drained.map (·.signo) ++ (s.process.statics.queued ++ [signo])) := by
    have honce := h.history.once
    rw [queue_of_blocking hpc] at honce
    rw [← List.append_assoc]
    exact (honce.cons signo).trans (List.perm_append_singleton signo _).symm
  rw [arrive_room h.defer_signal h.signal_pending hroom]
  refine ⟨?_, ⟨hindices, hdropped, ?_, ?_⟩, uninterrupted_enter h.sa_mask signo, h.defer_signal,
    h.signal_pending⟩
  · -- The hook has just been set, so a positive count is no harm.
    have hnonneg : 0 ≤ s.count + 1 := by omega
    rw [assertion_iff_of_not_blocking (by exact hpc)]
    exact ⟨hnonneg, hlt, fun _ => rfl⟩
  · rw [queue_of_blocking (by exact hpc), queued_push hle]
    simpa [State.queuedArrivals] using honce
  · simpa using h.history.called

/-- **An arrival keeps the invariant.** -/
theorem annotated_arrive (h : Annotated s) (hmask : s.process.mask signo = false) :
    Annotated (s.arrive H signo) := by
  have hpc : s.pc.blocking = false := by
    -- Where a drain has begun every signal is blocked.
    by_contra hpc
    rw [h.assertion.blocked (by simpa using hpc) signo] at hmask
    cases hmask
  by_cases hfull : s.count = SIGNAL_QUEUE_MAX
  · exact annotated_dropped h hpc hfull signo
  · exact annotated_queued h hpc hfull signo

/-! ## The drain -/

/-- In the body of the loop the handlers table is on top of the stack. -/
theorem Annotated.top (h : Annotated s) (hpc : s.pc = .body) :
    s.stack.headD .nil = handlersTable := by
  have hann := h.assertion
  rw [Assertion, hpc] at hann
  rw [hann.2.2.2]
  rfl

/-- The loop finds the queue empty. -/
theorem annotated_exit (h : Annotated s) (hpc : s.pc = .test) (h0 : s.count = 0) :
    Annotated { s.taken with pc := .exit } := by
  have hann := h.assertion
  rw [Assertion, hpc] at hann
  have hcount : s.taken.count = -1 := by
    show s.count - 1 = -1
    rw [h0]
    rfl
  have hqueue : s.queue = [] := by
    rw [State.queue, hpc]
    exact queued_eq_nil h0.le
  refine h.moved ⟨hann.1, hcount⟩ rfl ?_ rfl rfl rfl rfl
  show s.taken.process.statics.queued = s.queue
  rw [hqueue]
  exact queued_eq_nil (by rw [← State.count, hcount]; omega)

/-- The loop takes the latest signal. -/
theorem annotated_taken (h : Annotated s) (hpc : s.pc = .test) (h0 : s.count ≠ 0) :
    Annotated s.taken := by
  have hann := h.assertion
  rw [Assertion, hpc] at hann
  obtain ⟨hblocked, hle, hmax, hstack⟩ := hann
  -- The taken signal stays in the queue until its handler is looked up.
  have hback : s.taken.count + 1 = s.count := sub_add_cancel s.count 1
  have hassertion : Assertion s.taken := ⟨hblocked, by omega, by omega, hstack⟩
  refine h.moved hassertion rfl ?_ rfl rfl rfl rfl
  show Statics.queued { s.taken.process.statics with signal_count := s.taken.count + 1 } = s.queue
  rw [hback, State.queue, hpc]
  rfl

/-- The handler of the signal taken is looked up, in the handlers table, and its call begins. -/
theorem annotated_lookedUp (h : Annotated s) (hpc : s.pc = .body) :
    Annotated (s.lookedUp (.ok (rawget s.process.registry.handlers (signoValue s.signo)))) := by
  have hann := h.assertion
  rw [Assertion, hpc] at hann
  obtain ⟨hblocked, hle, hmax, hstack⟩ := hann
  obtain ⟨n, hn⟩ := Int.eq_ofNat_of_zero_le hle
  have hqueue : s.queue = s.process.statics.queued ++ [s.signo] := by
    rw [State.queue, hpc]
    simp only
    rw [queued_succ (n := n) (by simp [hn]), State.signo, ← State.count, hn]
    simp only [← hn]
  have hindices : ∀ i ∈ s.count :: s.indices, 0 ≤ i ∧ i < SIGNAL_QUEUE_MAX := by
    intro i hi
    rcases List.mem_cons.mp hi with rfl | hi
    · exact ⟨hle, hmax⟩
    · exact h.history.indices i hi
  -- The signal leaves the end of the queue for the drained ones.
  have honce : s.queuedArrivals.Perm
      (s.signo :: s.process.registry.drained.map (·.signo) ++ s.process.statics.queued) := by
    have honce := h.history.once
    rw [hqueue, ← List.append_assoc] at honce
    exact honce.trans (List.perm_append_singleton s.signo _)
  refine ⟨⟨hblocked, hle, hmax, hstack⟩, ⟨hindices, h.history.dropped, honce, ?_⟩, h.sa_mask,
    h.defer_signal, h.signal_pending⟩
  intro d hd
  rcases List.mem_cons.mp hd with rfl | hd
  · rfl
  · exact h.history.called d hd

/-- **The handler returns**, and the handlers table is on top of the stack again. -/
theorem annotated_called (h : Annotated s) {f : LuaValue} (hpc : s.pc = .call signo f)
    {o : Outcome} (ho : o.result = .ok ()) : Annotated (s.called H o) := by
  have hann := h.assertion
  rw [Assertion, hpc] at hann
  obtain ⟨hblocked, hle, hmax, hstack⟩ := hann
  -- Only a handler that raises leaves something on the stack.
  have hleave : o.leave H s.stack = [handlersTable] := by
    rw [Outcome.leave, ho]
    exact hstack
  refine ⟨⟨hblocked, hle, hmax.le, hleave⟩, h.history.congr rfl rfl ?_ ?_,
    uninterrupted_foldl h.sa_mask o.calls, h.defer_signal, h.signal_pending⟩
  · exact foldl_signalCall_drained H o.calls s.process.registry
  · rw [State.queue, State.queue, hpc]
    rfl

/-! ## Every run -/

/-- A process that has just loaded the module. -/
theorem annotated_loaded (h : Loaded s) : Annotated s where
  assertion := by
    rw [Assertion, h.pc]
    simp only [State.count, h.signal_count]
    exact ⟨le_rfl, by decide, fun h => absurd h (lt_irrefl 0)⟩
  history := by
    have hqueue : s.queue = [] := by
      rw [queue_of_blocking (by rw [h.pc]; rfl)]
      exact queued_eq_nil h.signal_count.le
    refine ⟨?_, ?_, ?_, ?_⟩
    · simp [h.indices]
    · simp [h.arrivals]
    · simp [State.queuedArrivals, h.arrivals, h.drained, hqueue]
    · simp [h.drained]
  sa_mask := fun signo hsigno => absurd hsigno (h.fresh.sa_handler signo)
  defer_signal := h.defer_signal
  signal_pending := h.signal_pending

/-- **Every step keeps the invariant.** -/
theorem annotated_next {l : Label} (h : Annotated s) (hl : Returns s l)
    (hs : StepCase H s l s') : Annotated s' := by
  have hann := h.assertion
  cases hs with
  | arrive _ hmask => exact annotated_arrive h hmask
  | signal =>
      refine ⟨hann, h.history.congr rfl rfl ?_ rfl, uninterrupted_signalCall h.sa_mask _,
        h.defer_signal, h.signal_pending⟩
      exact signalCall_drained H s.process.registry _
  | setmask hpc =>
      have hpc : s.pc.blocking = false := by rw [hpc]; rfl
      rw [assertion_iff_of_not_blocking hpc] at hann
      refine h.moved ?_ rfl rfl rfl rfl rfl rfl
      exact (assertion_iff_of_not_blocking (by exact hpc)).mpr hann
  | hook hpc | leave hpc =>
      have hpc : s.pc.blocking = false := by rw [hpc]; rfl
      rw [assertion_iff_of_not_blocking hpc] at hann
      refine h.moved hann rfl ?_ rfl rfl rfl rfl
      rw [queue_of_blocking hpc, queue_of_blocking rfl]
  | block hpc =>
      rw [Assertion, hpc] at hann
      refine h.moved ⟨fun _ => rfl, hann.1, hann.2.1⟩ rfl ?_ rfl rfl rfl rfl
      rw [State.queue, State.queue, hpc]
  | unhook hpc =>
      rw [Assertion, hpc] at hann
      refine h.moved hann rfl ?_ rfl rfl rfl rfl
      rw [State.queue, State.queue, hpc]
  | push hpc =>
      rw [Assertion, hpc] at hann
      refine h.moved ⟨hann.1, hann.2.1, hann.2.2, rfl⟩ rfl ?_ rfl rfl rfl rfl
      rw [State.queue, State.queue, hpc]
  | done hpc h0 => exact annotated_exit h hpc h0
  | take hpc h0 => exact annotated_taken h hpc h0
  | gettable hpc => exact annotated_lookedUp h hpc
  -- No handler has raised, so the look-up is in the handlers table.
  | lookup hpc htop => exact absurd (h.top hpc) htop
  | call hpc => exact annotated_called h hpc hl
  | reset hpc =>
      -- The queue is empty on both sides, whether the count is -1 or 0.
      rw [Assertion, hpc] at hann
      refine h.moved ⟨hann.1, rfl⟩ rfl ?_ rfl rfl rfl rfl
      rw [State.queue, State.queue, hpc]
      exact (queued_eq_nil le_rfl).trans (queued_eq_nil (hann.2.trans_le (by decide))).symm
  | unblock hpc =>
      -- Nothing is queued here, so the hook need not be set.
      rw [Assertion, hpc] at hann
      refine h.moved ?_ rfl ?_ rfl rfl rfl rfl
      · rw [assertion_iff_of_not_blocking rfl]
        show 0 ≤ s.count ∧ s.count ≤ SIGNAL_QUEUE_MAX ∧ (0 < s.count → s.process.hook = true)
        rw [hann.2]
        exact ⟨le_rfl, by decide, fun h => absurd h (lt_irrefl 0)⟩
      · rw [State.queue, State.queue, hpc]

/-- The public part of the invariant. -/
theorem Annotated.queueInvariant (h : Annotated s) : QueueInvariant s where
  sa_mask := h.sa_mask
  signal_count_le := h.assertion.bounds.1
  signal_count_nonneg := h.assertion.bounds.2
  indices := h.history.indices
  hook := fun hpc => ((assertion_iff_of_not_blocking hpc).mp h.assertion).2.2
  dropped := h.history.dropped
  once := h.history.once
  called := h.history.called
  defer_signal := h.defer_signal
  signal_pending := h.signal_pending

/-! ## The end of a drain -/

/-- A drain is never stuck, and each of its steps brings it closer to its end. -/
def Progress (H : Host) (s : State) : Prop :=
  s.pc.blocking = true → (∃ l s', nextState H s l = some s') ∧
    ∀ l s', nextState H s l = some s' → s'.remaining < s.remaining

/-- Every step taken while all signals are blocked is one of the drain, and leaves fewer of them. -/
theorem remaining_lt {l : Label} (h : Annotated s) (hpc : s.pc.blocking = true)
    (hs : StepCase H s l s') : s'.remaining < s.remaining := by
  have hann := h.assertion
  cases hs with
  | arrive _ hmask =>
      rw [h.assertion.blocked hpc] at hmask
      cases hmask
  | signal hlua | setmask hlua | hook hlua _ | block hlua | leave hlua =>
      rw [hlua] at hpc
      cases hpc
  | unhook hpc | push hpc | gettable hpc _ | call hpc _ | reset hpc | unblock hpc =>
      rw [State.remaining, State.remaining, hpc]
      exact Nat.lt_succ_self _
  | lookup hpc htop => exact absurd (h.top hpc) htop
  | done hpc h0 =>
      rw [State.remaining, State.remaining, hpc]
      simp only [h0]
      omega
  | take hpc h0 =>
      rw [Assertion, hpc] at hann
      have hle := hann.2.1
      rw [State.remaining, State.remaining, hpc]
      show 3 * (s.count - 1).toNat + 5 < 3 * s.count.toNat + 3
      omega

/-- The next step of a drain. -/
theorem exists_step_of_blocking (h : Annotated s) (hpc : s.pc.blocking = true) :
    ∃ l s', StepCase H s l s' := by
  cases hs : s.pc with
  | lua | entry | leave =>
      rw [hs] at hpc
      cases hpc
  | masked => exact ⟨_, _, .unhook hs⟩
  | unhooked => exact ⟨_, _, .push hs⟩
  | test =>
      by_cases h0 : s.count = 0
      · exact ⟨_, _, .done hs h0⟩
      · exact ⟨_, _, .take hs h0⟩
  | body => exact ⟨_, _, .gettable hs (h.top hs)⟩
  | call signo f => exact ⟨.call callNil, _, .call hs fun hnil => hnil.2 rfl⟩
  | exit => exact ⟨_, _, .reset hs⟩
  | restore => exact ⟨_, _, .unblock hs⟩

/-- **Every drain comes to its end.** -/
theorem Annotated.progress (h : Annotated s) : Progress H s := by
  intro hpc
  simp only [nextState_eq_some_iff]
  exact ⟨exists_step_of_blocking h hpc, fun l s' hs => remaining_lt h hpc hs⟩

/-- **The queue invariant holds in every run** in which nothing the drain calls raises. -/
theorem queueInvariant_of_reachable (h : (machine H).Reachable Returns s) :
    QueueInvariant s ∧ CallNoted s ∧ Progress H s := by
  have hann : Annotated s := h.invariant (fun s => annotated_loaded)
    fun s l s' hs hl hnext => annotated_next hs hl (nextState_eq_some_iff.mp hnext)
  exact ⟨hann.queueInvariant, callNoted_of_reachable h, hann.progress⟩

end Queue

/-- A process that has just loaded the module, with no signal blocked. -/
def loaded : State where
  process := ⟨luaopen, ⟨0, 0, 0, fun _ => 0⟩, false, fun _ => false, []⟩
  pc := .lua
  oldmask _ := false
  stack := []
  indices := []
  arrivals := []

/-- The loaded module is loaded. -/
theorem loaded_loaded : Loaded loaded :=
  ⟨rfl, fresh_luaopen, rfl, rfl, rfl, rfl, rfl, rfl, rfl, rfl⟩

/-- `signal(10, f)`, an arrival, and a drain up to the end of its loop. -/
private def usr1 : List Label :=
  [.signal [.integer 10, .function 7], .arrive 10, .hook, .step, .step, .step, .step, .step,
    .call ⟨[], .ok ()⟩, .step]

/-- The handler of the run returns. -/
private theorem returns_usr1 : ∀ l ∈ usr1, ∀ s, Returns s l := by
  simp [usr1, Returns]

/-- The queue in that run, before the drain. -/
theorem queueInvariant_usr1 : ∃ s, (machine linux).run loaded (usr1.take 2) = some s ∧
    s.count = 1 ∧ QueueInvariant s ∧ CallNoted s ∧ Progress linux s := by
  have hreturns : ∀ l ∈ usr1.take 2, ∀ s, Returns s l :=
    fun l hl => returns_usr1 l (List.mem_of_mem_take hl)
  exact ⟨_, rfl, rfl, queueInvariant_of_reachable (.of_run loaded_loaded hreturns rfl)⟩

/-- Behind the loop the count is -1. -/
theorem signal_count_negative : ∃ s, (machine linux).Reachable Returns s ∧ s.count = -1 :=
  ⟨_, .of_run loaded_loaded returns_usr1 rfl, rfl⟩

end LuaPosix

import LuaPosix.Lib.Machine
import LuaPosix.Signal.Handle

/-! # Signals inside `sig_postpone`

`sig_postpone` statement by statement, where a signal may be delivered between any two of them: the
handler then runs for that signal on top of itself. (`signal` installs the handler with every signal
blocked; `defer_signal` is for the case that they are not.) `defer_signal` is set around the change
of the queue. A signal that comes then is only remembered in `signal_pending`, and raised again
afterwards; but nothing ever takes it out of `signal_pending`, so that the run it is raised for
raises it again, until the queue is full. -/

namespace LuaPosix.Deferral

/-! ## The machine -/

/-- Where a run of the handler is: in front of a statement. -/
inductive Pc where
  /-- `if (defer_signal)`. -/
  | test
  /-- `signal_pending = i;`. -/
  | pend
  /-- `if (signal_count == SIGNAL_QUEUE_MAX)`. -/
  | room
  /-- `defer_signal++;`. -/
  | defer
  /-- `signals[signal_count] = i;`. -/
  | store
  /-- `signal_count ++;`. -/
  | count
  /-- `lua_sethook (signalL, sig_handle, ...);`. -/
  | sethook
  /-- `defer_signal--;`. -/
  | undefer
  /-- `if (defer_signal == 0 && signal_pending != 0)`. -/
  | pending
  /-- `raise (signal_pending);`. -/
  | raise
  /-- The return. -/
  | leave
  deriving DecidableEq

/-- A run of the handler: its argument, and the delivery it is about. -/
structure Frame where
  pc : Pc
  i : Int
  delivery : Nat
  deriving DecidableEq

/-- The static variables and the runs of the handler, the innermost first. The rest is history:
deliveries are numbered, and lists of them have the latest first. -/
structure State where
  statics : Statics
  hook : Bool
  frames : List Frame
  /-- A place outside of `signals[]` was written. -/
  undefined : Bool
  delivered : Nat
  /-- The delivery that `signal_pending` was set for. -/
  pendingDelivery : Nat
  appended : List Nat
  deferred : List Nat
  raises : List Nat
  /-- How many statements were executed. -/
  steps : Nat

/-- What happens next: a signal is delivered, or the innermost run executes a statement. -/
inductive Label where
  | deliver (i : Int)
  | step
  deriving DecidableEq

/-- The index is one of `signals[]`. -/
def InQueue (n : Int) : Prop := 0 ≤ n ∧ n < SIGNAL_QUEUE_MAX

/-- Whether a place is in the queue can be decided. -/
instance : DecidablePred InQueue := fun _ => inferInstanceAs (Decidable (_ ∧ _))

/-- One statement of the innermost run. -/
def exec (s : State) (f : Frame) (rest : List Frame) : State :=
  let t := s.statics
  let goto (pc : Pc) : List Frame := { f with pc := pc } :: rest
  match f.pc with
  | .test => { s with frames := goto (if t.defer_signal ≠ 0 then .pend else .room) }
  | .pend => { s with
      statics := { t with signal_pending := f.i }, frames := goto .leave
      pendingDelivery := f.delivery, deferred := f.delivery :: s.deferred }
  | .room => { s with
      frames := goto (if t.signal_count = SIGNAL_QUEUE_MAX then .leave else .defer) }
  | .defer => { s with
      statics := { t with defer_signal := t.defer_signal + 1 }, frames := goto .store }
  | .store => { s with
      statics := { t with signals := Function.update t.signals t.signal_count f.i }
      frames := goto .count, appended := f.delivery :: s.appended
      undefined := s.undefined || !decide (InQueue t.signal_count) }
  | .count => { s with
      statics := { t with signal_count := t.signal_count + 1 }, frames := goto .sethook }
  | .sethook => { s with hook := true, frames := goto .undefer }
  | .undefer => { s with
      statics := { t with defer_signal := t.defer_signal - 1 }, frames := goto .pending }
  | .pending => { s with
      frames := goto (if t.defer_signal = 0 ∧ t.signal_pending ≠ 0 then .raise else .leave) }
  -- The handler runs before `raise` returns.
  | .raise => { s with
      frames := ⟨.test, t.signal_pending, s.pendingDelivery⟩ :: goto .leave
      raises := s.pendingDelivery :: s.raises }
  | .leave => { s with frames := rest }

/-- The next state. -/
def next (s : State) : Label → Option State
  | .deliver i =>
      if 0 < i then some { s with
        frames := ⟨.test, i, s.delivered⟩ :: s.frames, delivered := s.delivered + 1 }
      else none
  | .step =>
      match s.frames with
      | [] => none
      | f :: rest => some { exec s f rest with steps := s.steps + 1 }

/-- Between runs of the handler, with whatever is queued, before the history begins. -/
structure Idle (s : State) : Prop where
  frames : s.frames = []
  defer_signal : s.statics.defer_signal = 0
  signal_pending : s.statics.signal_pending = 0
  signal_count : 0 ≤ s.statics.signal_count ∧ s.statics.signal_count ≤ SIGNAL_QUEUE_MAX
  undefined : s.undefined = false
  delivered : s.delivered = 0
  appended : s.appended = []
  deferred : s.deferred = []
  raises : s.raises = []
  steps : s.steps = 0

/-- The machine. -/
def machine : Machine State Label := ⟨Idle, next⟩

/-! ## What is expected of it -/

/-- **No duplicates, no loops**: a delivery is appended to the queue at most once; a deferred one
has been raised again exactly once when the handler has returned, and is not pending any more; and
there are at most so many statements for a delivery. -/
structure Sound (s : State) : Prop where
  defined : s.undefined = false
  once : s.appended.Nodup
  reraised : s.frames = [] → ∀ d ∈ s.deferred, s.raises.count d = 1
  settled : s.frames = [] → s.statics.signal_pending = 0
  bounded : s.steps ≤ 10 * s.delivered

/-- The steps that keep the promise: no signal is delivered while `defer_signal` is set, and what is
stored is stored in the queue. -/
def Undisturbed (s : State) : Label → Prop
  | .deliver _ => s.statics.defer_signal = 0
  | .step => ∀ f ∈ s.frames.head?, f.pc = .store → InQueue s.statics.signal_count

/-- The statements between `defer_signal++` and `defer_signal--`. -/
def Pc.inside : Pc → Bool
  | .store | .count | .sethook | .undefer => true
  | _ => false

/-- The statements before the signal is stored. -/
def Pc.unstored : Pc → Bool
  | .test | .room | .defer | .store => true
  | _ => false

/-- How many statements are left, at most, before the return or a nested run. -/
def Pc.remaining : Pc → Nat
  | .test => 10
  | .room => 9
  | .defer => 8
  | .store => 7
  | .count => 6
  | .sethook => 5
  | .undefer => 4
  | .pending => 3
  | .pend | .raise => 2
  | .leave => 1

/-! ## What a step can be -/

variable {s s' : State} {l : Label} {f : Frame} {rest : List Frame}

/-- A delivery, or a statement. -/
theorem next_cases (h : next s l = some s') :
    (∃ i, l = .deliver i ∧ 0 < i ∧ s' = { s with
      frames := ⟨.test, i, s.delivered⟩ :: s.frames, delivered := s.delivered + 1 }) ∨
    (∃ f rest, l = .step ∧ s.frames = f :: rest ∧
      s' = { exec s f rest with steps := s.steps + 1 }) := by
  cases l with
  | deliver i =>
      rw [next] at h
      split_ifs at h with hi
      exact .inl ⟨i, rfl, hi, (Option.some.inj h).symm⟩
  | step =>
      rw [next] at h
      cases hframes : s.frames with
      | nil =>
          rw [hframes] at h
          cases h
      | cons f rest =>
          rw [hframes] at h
          exact .inr ⟨f, rest, rfl, rfl, (Option.some.inj h).symm⟩

/-- `defer_signal` as far as one run is concerned. -/
def Pc.held (pc : Pc) : Int := if pc.inside then 1 else 0

/-- **A run goes on** to its next statement: all that changes, and where it can go. -/
structure Move (s s' : State) (pc pc' : Pc) (i : Int) (d : Nat) (rest : List Frame) : Prop where
  frames : s.frames = ⟨pc, i, d⟩ :: rest
  frames' : s'.frames = ⟨pc', i, d⟩ :: rest
  defer_signal : s'.statics.defer_signal = s.statics.defer_signal - pc.held + pc'.held
  signal_pending : s'.statics.signal_pending = if pc = .pend then i else s.statics.signal_pending
  appended : s'.appended = if pc = .store then d :: s.appended else s.appended
  deferred : s'.deferred = if pc = .pend then d :: s.deferred else s.deferred
  raises : s'.raises = s.raises
  undefined : s'.undefined
    = if pc = .store then s.undefined || !decide (InQueue s.statics.signal_count) else s.undefined
  delivered : s'.delivered = s.delivered
  steps : s'.steps = s.steps
  remaining : pc'.remaining < pc.remaining
  unstored : pc'.unstored = true → pc.unstored = true ∧ pc ≠ .store
  pend_iff : pc' = .pend ↔ pc = .test ∧ s.statics.defer_signal ≠ 0
  raise : pc' = .raise → s.statics.signal_pending ≠ 0

variable {pc pc' : Pc} {i : Int} {d : Nat}

/-- A statement moves the run on, raises, or returns. -/
theorem exec_cases (hframes : s.frames = ⟨pc, i, d⟩ :: rest) :
    (∃ pc', Move s (exec s ⟨pc, i, d⟩ rest) pc pc' i d rest) ∨
    (pc = .raise ∧ exec s ⟨pc, i, d⟩ rest = { s with
      frames := ⟨.test, s.statics.signal_pending, s.pendingDelivery⟩ :: ⟨.leave, i, d⟩ :: rest
      raises := s.pendingDelivery :: s.raises }) ∨
    (pc = .leave ∧ exec s ⟨pc, i, d⟩ rest = { s with frames := rest }) := by
  cases pc with
  | test =>
      refine .inl ⟨if s.statics.defer_signal ≠ 0 then .pend else .room, ?_⟩
      split_ifs with h <;> constructor <;>
        simp [exec, hframes, h, Pc.held, Pc.inside, Pc.remaining, Pc.unstored]
  | pend =>
      refine .inl ⟨.leave, ?_⟩
      constructor <;> simp [exec, hframes, Pc.held, Pc.inside, Pc.remaining, Pc.unstored]
  | room =>
      refine .inl ⟨if s.statics.signal_count = SIGNAL_QUEUE_MAX then .leave else .defer, ?_⟩
      split_ifs with h <;> constructor <;>
        simp [exec, hframes, h, Pc.held, Pc.inside, Pc.remaining, Pc.unstored]
  | defer =>
      refine .inl ⟨.store, ?_⟩
      constructor <;> simp [exec, hframes, Pc.held, Pc.inside, Pc.remaining, Pc.unstored]
  | store =>
      refine .inl ⟨.count, ?_⟩
      constructor <;> simp [exec, hframes, Pc.held, Pc.inside, Pc.remaining, Pc.unstored]
  | count =>
      refine .inl ⟨.sethook, ?_⟩
      constructor <;> simp [exec, hframes, Pc.held, Pc.inside, Pc.remaining, Pc.unstored]
  | sethook =>
      refine .inl ⟨.undefer, ?_⟩
      constructor <;> simp [exec, hframes, Pc.held, Pc.inside, Pc.remaining, Pc.unstored]
  | undefer =>
      refine .inl ⟨.pending, ?_⟩
      constructor <;> simp [exec, hframes, Pc.held, Pc.inside, Pc.remaining, Pc.unstored]
  | pending =>
      refine .inl ⟨if s.statics.defer_signal = 0 ∧ s.statics.signal_pending ≠ 0 then .raise
        else .leave, ?_⟩
      split_ifs with h <;> constructor <;>
        simp [exec, hframes, h, Pc.held, Pc.inside, Pc.remaining, Pc.unstored]
  | raise => exact .inr (.inl ⟨rfl, rfl⟩)
  | leave => exact .inr (.inr ⟨rfl, rfl⟩)

/-! ## The flag and the runs -/

/-- `defer_signal` counts the runs that have set it. Every run has a signal, and one that is about
to raise has one to raise. -/
structure Balanced (s : State) : Prop where
  balance : s.statics.defer_signal = (s.frames.countP fun f => f.pc.inside : Nat)
  nonzero : ∀ f ∈ s.frames, f.i ≠ 0
  raising : ∀ f ∈ s.frames, f.pc = .raise → s.statics.signal_pending ≠ 0

/-- An idle state has no frame. -/
theorem Idle.not_mem_frames (h : Idle s) (f : Frame) : f ∉ s.frames := by
  rw [h.frames]
  exact List.not_mem_nil

/-- So it is balanced. -/
theorem balanced_of_idle (h : Idle s) : Balanced s where
  balance := by
    rw [h.defer_signal, h.frames]
    rfl
  nonzero f hf := absurd hf (h.not_mem_frames f)
  raising f hf := absurd hf (h.not_mem_frames f)

/-- A signal that is pending stays so, or gives way to another. -/
theorem Move.pending_ne_zero (hmove : Move s s' pc pc' i d rest) (hi : i ≠ 0)
    (h : s.statics.signal_pending ≠ 0) : s'.statics.signal_pending ≠ 0 := by
  rw [hmove.signal_pending]
  split_ifs
  · exact hi
  · exact h

/-- A move of the top frame keeps the balance. -/
theorem Balanced.move (h : Balanced s) (hmove : Move s s' pc pc' i d rest) : Balanced s' := by
  obtain ⟨hbalance, hnonzero, hraising⟩ := h
  rw [hmove.frames, List.countP_cons] at hbalance
  rw [hmove.frames, List.forall_mem_cons] at hnonzero hraising
  refine ⟨?_, ?_, ?_⟩
  · rw [hmove.defer_signal, hbalance, hmove.frames', List.countP_cons, Pc.held, Pc.held]
    push_cast
    ring
  · rw [hmove.frames', List.forall_mem_cons]
    exact hnonzero
  · rw [hmove.frames', List.forall_mem_cons]
    refine ⟨fun hpc => ?_, fun f hf hpc => ?_⟩
    · exact hmove.pending_ne_zero hnonzero.1 (hmove.raise hpc)
    · exact hmove.pending_ne_zero hnonzero.1 (hraising.2 f hf hpc)

/-- **Every step keeps the balance.** -/
theorem Balanced.next (h : Balanced s) (hs : next s l = some s') : Balanced s' := by
  rcases next_cases hs with ⟨i, rfl, hi, rfl⟩ | ⟨⟨pc, i, d⟩, rest, rfl, hframes, rfl⟩
  · refine ⟨?_, List.forall_mem_cons.mpr ⟨hi.ne', h.nonzero⟩,
      List.forall_mem_cons.mpr ⟨nofun, h.raising⟩⟩
    rw [h.balance]
    simp [Pc.inside]
  · have hexec : Balanced (exec s ⟨pc, i, d⟩ rest) := by
      rcases exec_cases hframes with ⟨pc', hmove⟩ | ⟨rfl, hexec⟩ | ⟨rfl, hexec⟩
      · exact h.move hmove
      · obtain ⟨hbalance, hnonzero, hraising⟩ := h
        rw [hframes] at hbalance hnonzero hraising
        rw [List.forall_mem_cons] at hnonzero hraising
        rw [hexec]
        refine ⟨?_, ?_, ?_⟩
        · rw [hbalance]
          simp [Pc.inside]
        · simp only [List.forall_mem_cons]
          exact ⟨hraising.1 rfl, hnonzero⟩
        · simp only [List.forall_mem_cons]
          exact ⟨nofun, nofun, hraising.2⟩
      · obtain ⟨hbalance, hnonzero, hraising⟩ := h
        rw [hframes] at hbalance hnonzero hraising
        rw [List.forall_mem_cons] at hnonzero hraising
        rw [hexec]
        refine ⟨?_, hnonzero.2, hraising.2⟩
        rw [hbalance]
        simp [Pc.inside]
    exact ⟨hexec.balance, hexec.nonzero, hexec.raising⟩

/-! ## Deferral cannot be undone -/

/-- Something is pending, or was written outside of the queue, or a run is going to set
`signal_pending`: it is about to, or it will find `defer_signal` set by a run below it. -/
def Trapped (s : State) : Prop :=
  s.statics.signal_pending ≠ 0 ∨ s.undefined = true ∨
    ∃ above f below, s.frames = above ++ f :: below ∧
      (f.pc = .pend ∨ f.pc = .test ∧ ∃ g ∈ below, g.pc.inside = true)

/-- While signals are deferred some frame is inside. -/
theorem exists_inside (h : Balanced s) (hdefer : s.statics.defer_signal ≠ 0) :
    ∃ g ∈ s.frames, g.pc.inside = true := by
  rw [h.balance] at hdefer
  have hpos : 0 < s.frames.countP fun f => f.pc.inside := by omega
  exact List.countP_pos_iff.mp hpos

/-- **A step that does not keep the promise** leads into the trap. -/
theorem trapped_of_not (h : Balanced s) (hnot : ¬Undisturbed s l) (hs : next s l = some s') :
    Trapped s' := by
  rcases next_cases hs with ⟨i, rfl, hi, rfl⟩ | ⟨⟨pc, i, d⟩, rest, rfl, hframes, rfl⟩
  · exact .inr (.inr ⟨[], _, s.frames, rfl, .inr ⟨rfl, exists_inside h hnot⟩⟩)
  · have hstore : pc = .store ∧ ¬InQueue s.statics.signal_count := by
      simpa [Undisturbed, hframes] using hnot
    obtain ⟨rfl, hindex⟩ := hstore
    refine .inr (.inl ?_)
    simp [exec, hindex]

/-- The innermost run moves on. -/
theorem Trapped.move (h : Balanced s) (htrapped : Trapped s)
    (hmove : Move s s' pc pc' i d rest) : Trapped s' := by
  have hi : i ≠ 0 := h.nonzero ⟨pc, i, d⟩ (hmove.frames ▸ List.mem_cons_self)
  rcases htrapped with hpending | hundefined | ⟨above, f, below, hframes, hf⟩
  · exact .inl (hmove.pending_ne_zero hi hpending)
  · refine .inr (.inl ?_)
    rw [hmove.undefined, hundefined]
    split_ifs <;> rfl
  · rw [hmove.frames] at hframes
    cases above with
    | nil =>
        obtain ⟨rfl, rfl⟩ := List.cons.inj hframes
        rcases hf with hpend | ⟨htest, g, hg, hinside⟩
        · refine .inl ?_
          rw [hmove.signal_pending, if_pos hpend]
          exact hi
        · -- the flag is set by a run below
          have hdefer : s.statics.defer_signal ≠ 0 := by
            have hpos : 0 < s.frames.countP fun f => f.pc.inside := by
              rw [List.countP_pos_iff, hmove.frames]
              exact ⟨g, List.mem_cons_of_mem _ hg, hinside⟩
            rw [h.balance]
            omega
          have hpend : pc' = .pend := hmove.pend_iff.mpr ⟨htest, hdefer⟩
          exact .inr (.inr ⟨[], _, rest, hmove.frames', .inl hpend⟩)
    | cons a above =>
        obtain ⟨rfl, rfl⟩ := List.cons.inj hframes
        exact .inr (.inr ⟨_ :: above, f, below, hmove.frames', hf⟩)

/-- **No step leads out of the trap.** -/
theorem Trapped.next (h : Balanced s) (htrapped : Trapped s) (hs : next s l = some s') :
    Trapped s' := by
  rcases next_cases hs with ⟨i, rfl, -, rfl⟩ | ⟨⟨pc, i, d⟩, rest, rfl, hframes, rfl⟩
  · rcases htrapped with hpending | hundefined | ⟨above, f, below, hstack, hf⟩
    · exact .inl hpending
    · exact .inr (.inl hundefined)
    · exact .inr (.inr ⟨_ :: above, f, below, congrArg (_ :: ·) hstack, hf⟩)
  · have hexec : Trapped (exec s ⟨pc, i, d⟩ rest) := by
      rcases exec_cases hframes with ⟨pc', hmove⟩ | ⟨rfl, hexec⟩ | ⟨rfl, hexec⟩
      · exact htrapped.move h hmove
      · rw [hexec]
        exact .inl (h.raising ⟨.raise, i, d⟩ (hframes ▸ List.mem_cons_self) rfl)
      · rw [hexec]
        rcases htrapped with hpending | hundefined | ⟨above, f, below, hstack, hf⟩
        · exact .inl hpending
        · exact .inr (.inl hundefined)
        · rw [hframes] at hstack
          cases above with
          | nil =>
              obtain ⟨rfl, rfl⟩ := List.cons.inj hstack
              rcases hf with hpend | ⟨htest, -⟩
              · cases hpend
              · cases htest
          | cons a above =>
              obtain ⟨rfl, rfl⟩ := List.cons.inj hstack
              exact .inr (.inr ⟨above, f, below, rfl, hf⟩)
    exact hexec

/-- A handler that has returned in the trap has left a signal pending, or has written outside of
the queue. -/
theorem not_sound_of_trapped (h : Trapped s) (hframes : s.frames = []) : ¬Sound s := by
  intro hsound
  rcases h with hpending | hundefined | ⟨above, f, below, hstack, -⟩
  · exact hpending (hsound.settled hframes)
  · rw [hsound.defined] at hundefined
    cases hundefined
  · rw [hframes] at hstack
    exact absurd hstack (by simp)

/-! ## Without deferral -/

/-- Nothing has been deferred: only the innermost run may have set the flag. -/
structure Calm (s : State) : Prop where
  settled : s.statics.signal_pending = 0
  raises : s.raises = []
  deferred : s.deferred = []
  defined : s.undefined = false
  forward : ∀ f ∈ s.frames, f.pc ≠ .pend ∧ f.pc ≠ .raise
  below : ∀ f ∈ s.frames.tail, f.pc.inside = false

/-- The deliveries have numbers of their own, and are appended once, where the signal is stored. -/
structure Recorded (s : State) : Prop where
  fresh : ∀ f ∈ s.frames, f.delivery < s.delivered
  distinct : (s.frames.map Frame.delivery).Nodup
  old : ∀ d ∈ s.appended, d < s.delivered
  unstored : ∀ f ∈ s.frames, f.pc.unstored = true → f.delivery ∉ s.appended
  once : s.appended.Nodup

/-- There are so many statements, those to come included. -/
def Bounded (s : State) : Prop :=
  s.steps + (s.frames.map fun f => f.pc.remaining).sum ≤ 10 * s.delivered

/-- No frame inside, none counted. -/
theorem countP_inside_eq_zero {fs : List Frame} (h : ∀ f ∈ fs, f.pc.inside = false) :
    (fs.countP fun f => f.pc.inside) = 0 := by
  rw [List.countP_eq_zero]
  intro f hf
  rw [h f hf]
  exact Bool.false_ne_true

/-- The flag belongs to the innermost run. -/
theorem Calm.defer_eq (h : Calm s) (hbalanced : Balanced s)
    (hframes : s.frames = ⟨pc, i, d⟩ :: rest) : s.statics.defer_signal = pc.held := by
  have hbelow := h.below
  rw [hframes, List.tail_cons] at hbelow
  rw [hbalanced.balance, hframes, List.countP_cons, countP_inside_eq_zero hbelow, Pc.held]
  cases pc.inside <;> rfl

/-- A move of the top frame keeps the calm where nothing disturbs it. -/
theorem Calm.move (h : Calm s) (hbalanced : Balanced s) (hundisturbed : Undisturbed s .step)
    (hmove : Move s s' pc pc' i d rest) : Calm s' := by
  obtain ⟨hsettled, hraises, hdeferred, hdefined, hforward, hbelow⟩ := id h
  rw [hmove.frames] at hforward hbelow
  rw [List.forall_mem_cons] at hforward
  have hpend : pc ≠ .pend := hforward.1.1
  refine ⟨?_, ?_, ?_, ?_, ?_, ?_⟩
  · rw [hmove.signal_pending, if_neg hpend, hsettled]
  · rw [hmove.raises, hraises]
  · rw [hmove.deferred, if_neg hpend, hdeferred]
  · rw [hmove.undefined, hdefined]
    split_ifs with hstore
    · have hindex : InQueue s.statics.signal_count :=
        hundisturbed ⟨pc, i, d⟩ (by rw [hmove.frames]; rfl) hstore
      rw [decide_eq_true hindex]
      rfl
    · rfl
  · rw [hmove.frames', List.forall_mem_cons]
    refine ⟨⟨fun hpend' => ?_, fun hraise => ?_⟩, hforward.2⟩
    · -- the test finds the flag cleared
      obtain ⟨rfl, hdefer⟩ := hmove.pend_iff.mp hpend'
      exact hdefer (h.defer_eq hbalanced hmove.frames)
    · exact hmove.raise hraise hsettled
  · rw [hmove.frames']
    exact hbelow

/-- So does every step. -/
theorem Calm.next (h : Calm s) (hbalanced : Balanced s) (hundisturbed : Undisturbed s l)
    (hs : next s l = some s') : Calm s' := by
  rcases next_cases hs with ⟨i, rfl, -, rfl⟩ | ⟨⟨pc, i, d⟩, rest, rfl, hframes, rfl⟩
  · refine ⟨h.settled, h.raises, h.deferred, h.defined,
      List.forall_mem_cons.mpr ⟨⟨nofun, nofun⟩, h.forward⟩, ?_⟩
    intro f hf
    refine Bool.eq_false_iff.mpr fun hinside => ?_
    have hpos : 0 < s.frames.countP fun f => f.pc.inside :=
      List.countP_pos_iff.mpr ⟨f, hf, hinside⟩
    have hdefer : s.statics.defer_signal = 0 := hundisturbed
    rw [hbalanced.balance] at hdefer
    omega
  · have hexec : Calm (exec s ⟨pc, i, d⟩ rest) := by
      rcases exec_cases hframes with ⟨pc', hmove⟩ | ⟨rfl, -⟩ | ⟨rfl, hexec⟩
      · exact h.move hbalanced hundisturbed hmove
      · exact absurd rfl (h.forward ⟨.raise, i, d⟩ (hframes ▸ List.mem_cons_self)).2
      · have hforward := h.forward
        have hbelow := h.below
        rw [hframes] at hforward hbelow
        rw [hexec]
        exact ⟨h.settled, h.raises, h.deferred, h.defined,
          fun f hf => hforward f (List.mem_cons_of_mem _ hf),
          fun f hf => hbelow f (List.mem_of_mem_tail hf)⟩
    exact ⟨hexec.settled, hexec.raises, hexec.deferred, hexec.defined, hexec.forward, hexec.below⟩

/-- A move of the top frame records what it should. -/
theorem Recorded.move (h : Recorded s) (hmove : Move s s' pc pc' i d rest) : Recorded s' := by
  obtain ⟨hfresh, hdistinct, hold, hunstored, honce⟩ := h
  rw [hmove.frames] at hfresh hdistinct hunstored
  rw [List.forall_mem_cons] at hfresh hunstored
  rw [List.map_cons, List.nodup_cons] at hdistinct
  have hnew : ∀ f ∈ rest, f.delivery ≠ d := fun f hf heq =>
    hdistinct.1 (List.mem_map.mpr ⟨f, hf, heq⟩)
  refine ⟨?_, ?_, ?_, ?_, ?_⟩
  · rw [hmove.frames', hmove.delivered, List.forall_mem_cons]
    exact hfresh
  · rw [hmove.frames', List.map_cons, List.nodup_cons]
    exact hdistinct
  · rw [hmove.appended, hmove.delivered]
    split_ifs
    · exact List.forall_mem_cons.mpr ⟨hfresh.1, hold⟩
    · exact hold
  · rw [hmove.frames', hmove.appended, List.forall_mem_cons]
    split_ifs with hstore
    · refine ⟨fun hpc => absurd hstore (hmove.unstored hpc).2, fun f hf hpc hmem => ?_⟩
      rcases List.mem_cons.mp hmem with heq | hmem
      · exact hnew f hf heq
      · exact hunstored.2 f hf hpc hmem
    · exact ⟨fun hpc => hunstored.1 (hmove.unstored hpc).1, hunstored.2⟩
  · rw [hmove.appended]
    split_ifs with hstore
    · have hpc : pc.unstored = true := by
        rw [hstore]
        rfl
      exact List.nodup_cons.mpr ⟨hunstored.1 hpc, honce⟩
    · exact honce

/-- So does every step. -/
theorem Recorded.next (h : Recorded s) (hcalm : Calm s) (hs : next s l = some s') :
    Recorded s' := by
  rcases next_cases hs with ⟨i, rfl, -, rfl⟩ | ⟨⟨pc, i, d⟩, rest, rfl, hframes, rfl⟩
  · refine ⟨?_, ?_, ?_, ?_, h.once⟩
    · exact List.forall_mem_cons.mpr
        ⟨Nat.lt_succ_self _, fun f hf => (h.fresh f hf).trans (Nat.lt_succ_self _)⟩
    · refine List.nodup_cons.mpr ⟨fun hmem => ?_, h.distinct⟩
      obtain ⟨f, hf, heq⟩ := List.mem_map.mp hmem
      exact (h.fresh f hf).ne heq
    · exact fun d hd => (h.old d hd).trans (Nat.lt_succ_self _)
    · exact List.forall_mem_cons.mpr ⟨fun _ hmem => (h.old _ hmem).false, h.unstored⟩
  · have hexec : Recorded (exec s ⟨pc, i, d⟩ rest) := by
      rcases exec_cases hframes with ⟨pc', hmove⟩ | ⟨rfl, -⟩ | ⟨rfl, hexec⟩
      · exact h.move hmove
      · exact absurd rfl (hcalm.forward ⟨.raise, i, d⟩ (hframes ▸ List.mem_cons_self)).2
      · obtain ⟨hfresh, hdistinct, hold, hunstored, honce⟩ := h
        rw [hframes] at hfresh hdistinct hunstored
        rw [hexec]
        exact ⟨fun f hf => hfresh f (List.mem_cons_of_mem _ hf), (List.nodup_cons.mp hdistinct).2,
          hold, fun f hf => hunstored f (List.mem_cons_of_mem _ hf), honce⟩
    exact ⟨hexec.fresh, hexec.distinct, hexec.old, hexec.unstored, hexec.once⟩

/-- A step keeps the bound where the state is calm. -/
theorem bounded_next (h : Bounded s) (hcalm : Calm s) (hs : next s l = some s') :
    Bounded s' := by
  rw [Bounded] at h ⊢
  rcases next_cases hs with ⟨i, rfl, -, rfl⟩ | ⟨⟨pc, i, d⟩, rest, rfl, hframes, rfl⟩
  · have hnew : (⟨.test, i, s.delivered⟩ : Frame).pc.remaining = 10 := rfl
    rw [List.map_cons, List.sum_cons, hnew]
    show s.steps + (10 + (s.frames.map fun f => f.pc.remaining).sum) ≤ 10 * (s.delivered + 1)
    omega
  · rw [hframes, List.map_cons, List.sum_cons] at h
    rcases exec_cases hframes with ⟨pc', hmove⟩ | ⟨rfl, -⟩ | ⟨rfl, hexec⟩
    · have hlt : (⟨pc', i, d⟩ : Frame).pc.remaining < (⟨pc, i, d⟩ : Frame).pc.remaining :=
        hmove.remaining
      simp only [hmove.frames', hmove.delivered]
      rw [List.map_cons, List.sum_cons]
      omega
    · exact absurd rfl (hcalm.forward ⟨.raise, i, d⟩ (hframes ▸ List.mem_cons_self)).2
    · have hleave : (⟨.leave, i, d⟩ : Frame).pc.remaining = 1 := rfl
      simp only [hexec]
      omega

/-- **The promise is kept** where every step keeps it. -/
theorem sound_of_calm (hcalm : Calm s) (hrecorded : Recorded s) (hbounded : Bounded s) :
    Sound s where
  defined := hcalm.defined
  once := hrecorded.once
  reraised _ d hd := by
    rw [hcalm.deferred] at hd
    exact absurd hd List.not_mem_nil
  settled _ := hcalm.settled
  bounded := (Nat.le_add_right _ _).trans hbounded

/-- What holds throughout a run that is not disturbed. -/
theorem calm_of_meets {s₀ : State} {ls : List Label} (h₀ : Idle s₀)
    (hmeets : machine.Meets Undisturbed s₀ ls) (hrun : machine.run s₀ ls = some s) :
    Balanced s ∧ Calm s ∧ Recorded s ∧ Bounded s := by
  refine Machine.invariant_of_meets (M := machine) (P := Undisturbed)
    (I := fun s => Balanced s ∧ Calm s ∧ Recorded s ∧ Bounded s) ?_ ?_ hmeets hrun
  · rintro s l s' ⟨hbalanced, hcalm, hrecorded, hbounded⟩ hundisturbed hs
    exact ⟨hbalanced.next hs, hcalm.next hbalanced hundisturbed hs, hrecorded.next hcalm hs,
      bounded_next hbounded hcalm hs⟩
  · have hnone := h₀.not_mem_frames
    refine ⟨balanced_of_idle h₀, ⟨h₀.signal_pending, h₀.raises, h₀.deferred, h₀.undefined,
      fun f hf => absurd hf (hnone f), fun f hf => absurd (List.mem_of_mem_tail hf) (hnone f)⟩,
      ⟨fun f hf => absurd hf (hnone f), ?_, ?_, fun f hf => absurd hf (hnone f), ?_⟩, ?_⟩
    · rw [h₀.frames]
      exact List.nodup_nil
    · rw [h₀.appended]
      exact fun d hd => absurd hd List.not_mem_nil
    · rw [h₀.appended]
      exact List.nodup_nil
    · rw [Bounded, h₀.steps, h₀.frames, h₀.delivered]
      rfl

/-- **Deferral is what breaks the promise**: every state is sound in a run in which nothing is
delivered while `defer_signal` is set, nor stored outside of the queue; and a run of any other kind
does not end in a sound state. -/
theorem sound_iff_undisturbed {s₀ s : State} {ls : List Label} (h₀ : Idle s₀)
    (hrun : machine.run s₀ ls = some s) :
    (machine.Meets Undisturbed s₀ ls → Sound s) ∧
      (s.frames = [] → (Sound s ↔ machine.Meets Undisturbed s₀ ls)) := by
  have hsound : machine.Meets Undisturbed s₀ ls → Sound s := by
    intro hmeets
    obtain ⟨-, hcalm, hrecorded, hbounded⟩ := calm_of_meets h₀ hmeets hrun
    exact sound_of_calm hcalm hrecorded hbounded
  refine ⟨hsound, fun hframes => ⟨fun h => ?_, hsound⟩⟩
  refine Machine.meets_of_not_trap (I := Balanced) (T := Trapped) ?_ ?_ ?_ (balanced_of_idle h₀)
    hrun fun htrapped => not_sound_of_trapped htrapped hframes h
  · exact fun s l s' h hs => h.next hs
  · exact fun s l s' h hnot hs => trapped_of_not h hnot hs
  · exact fun s l s' h htrapped hs => htrapped.next h hs

/-- Nothing has happened yet. -/
def quiet : State where
  statics := ⟨0, 0, 0, fun _ => 0⟩
  hook := false
  frames := []
  undefined := false
  delivered := 0
  pendingDelivery := 0
  appended := []
  deferred := []
  raises := []
  steps := 0

/-- The quiet module is idle. -/
theorem idle_quiet : Idle quiet := by
  constructor <;> simp [quiet, SIGNAL_QUEUE_MAX]

/-- A single `SIGALRM` does not disturb anything. -/
theorem undisturbed_quiet :
    machine.Meets Undisturbed quiet (.deliver 14 :: List.replicate 9 .step) := by
  simp [Machine.Meets, Undisturbed, machine, next, exec, quiet, SIGNAL_QUEUE_MAX, InQueue,
    List.replicate]

/-- An alarm that comes alone is handled soundly. -/
theorem alarm_sound : ∃ s, machine.run quiet (.deliver 14 :: List.replicate 9 .step) = some s ∧
    s.frames = [] ∧ Sound s := by
  refine ⟨_, rfl, rfl, ?_⟩
  exact (sound_iff_undisturbed idle_quiet rfl).1 undisturbed_quiet

/-! ## Runs without deliveries -/

/-- Statements, without a delivery in between. -/
abbrev Steps : State → State → Prop := Relation.ReflTransGen fun s s' => next s .step = some s'

/-- A step moves the top frame. -/
theorem next_step (h : s.frames = f :: rest) :
    next s .step = some { exec s f rest with steps := s.steps + 1 } := by
  rw [next, h]

/-- A run executes a statement. -/
theorem Steps.head (h : s.frames = f :: rest)
    (hrest : Steps { exec s f rest with steps := s.steps + 1 } s') : Steps s s' :=
  Relation.ReflTransGen.head (next_step h) hrest

/-- Steps make a run. -/
theorem exists_run_of_steps (h : Steps s s') :
    ∃ n, machine.run s (List.replicate n .step) = some s' := by
  induction h using Relation.ReflTransGen.head_induction_on with
  | refl => exact ⟨0, rfl⟩
  | head hstep _ ih =>
      obtain ⟨n, hn⟩ := ih
      exact ⟨n + 1, Machine.run_cons.mpr ⟨_, hstep, hn⟩⟩

/-- The state when a run has queued its signal. -/
def stored (s : State) (i : Int) (d : Nat) (rest : List Frame) : State :=
  { s with
    statics := { s.statics with
      signals := Function.update s.statics.signals s.statics.signal_count i
      signal_count := s.statics.signal_count + 1
      defer_signal := s.statics.defer_signal + 1 - 1 }
    hook := true
    frames := ⟨.pending, i, d⟩ :: rest
    undefined := s.undefined || !decide (InQueue s.statics.signal_count)
    appended := d :: s.appended
    steps := s.steps + 7 }

/-- A run that finds room in the queue. -/
theorem steps_stored (hframes : s.frames = ⟨.test, i, d⟩ :: rest)
    (hdefer : s.statics.defer_signal = 0) (hroom : s.statics.signal_count ≠ SIGNAL_QUEUE_MAX) :
    Steps s (stored s i d rest) := by
  refine .head hframes ?_
  simp only [exec, hdefer, ne_eq, not_true_eq_false, if_false]
  refine .head rfl ?_
  simp only [exec, hroom, if_false]
  -- the statements from `defer_signal++` to `defer_signal--`
  exact .head rfl (.head rfl (.head rfl (.head rfl (.head rfl .refl))))

/-- A run that does not: it returns. -/
theorem steps_full (hframes : s.frames = ⟨.test, i, d⟩ :: rest)
    (hdefer : s.statics.defer_signal = 0) (hfull : s.statics.signal_count = SIGNAL_QUEUE_MAX) :
    Steps s { s with frames := rest, steps := s.steps + 3 } := by
  refine .head hframes ?_
  simp only [exec, hdefer, ne_eq, not_true_eq_false, if_false]
  refine .head rfl ?_
  simp only [exec, hfull, if_true]
  exact .head rfl .refl

/-- A run that finds the flag set: it returns with its signal pending. -/
theorem steps_deferred (hframes : s.frames = ⟨.test, i, d⟩ :: rest)
    (hdefer : s.statics.defer_signal ≠ 0) :
    Steps s { s with
      statics := { s.statics with signal_pending := i }
      frames := rest
      pendingDelivery := d
      deferred := d :: s.deferred
      steps := s.steps + 3 } := by
  refine .head hframes ?_
  simp only [exec, hdefer, ne_eq, not_false_eq_true, if_true]
  exact .head rfl (.head rfl .refl)

/-- The state when a run has raised the pending signal. -/
def raised (s : State) (i : Int) (d : Nat) (rest : List Frame) : State :=
  { s with
    frames := ⟨.test, s.statics.signal_pending, s.pendingDelivery⟩ :: ⟨.leave, i, d⟩ :: rest
    raises := s.pendingDelivery :: s.raises
    steps := s.steps + 2 }

/-- A run that has stored its signal raises the one that is pending. -/
theorem steps_raised (hframes : s.frames = ⟨.pending, i, d⟩ :: rest)
    (hdefer : s.statics.defer_signal = 0) (hpending : s.statics.signal_pending ≠ 0) :
    Steps s (raised s i d rest) := by
  refine .head hframes ?_
  simp only [exec, hdefer, hpending, ne_eq, not_false_eq_true, and_self, if_true]
  exact .head rfl .refl

/-- With nothing pending, or the flag set, it returns. -/
theorem steps_returned (hframes : s.frames = ⟨.pending, i, d⟩ :: rest)
    (hnone : ¬(s.statics.defer_signal = 0 ∧ s.statics.signal_pending ≠ 0)) :
    Steps s { s with frames := rest, steps := s.steps + 2 } := by
  refine .head hframes ?_
  simp only [exec, if_neg hnone]
  exact .head rfl .refl

/-- **Without a delivery in between, a run is `sig_postpone`**: it does the same up to its return,
or up to the return of the run it raises a signal for. -/
theorem steps_sig_postpone {p : Process} (hframes : s.frames = ⟨.test, i, d⟩ :: rest)
    (hstatics : p.statics = s.statics) (hhook : p.hook = s.hook) :
    ∃ s', Steps s s' ∧ s'.statics = (sig_postpone i p).statics ∧
      s'.hook = (sig_postpone i p).hook ∧
      (s'.frames = rest ∧ (sig_postpone i p).raised = p.raised ∨
        (∃ f, s'.frames = f :: ⟨.leave, i, d⟩ :: rest ∧ f.pc = .test ∧
          (sig_postpone i p).raised = p.raised ++ [f.i])) := by
  rw [sig_postpone]
  simp only [hstatics]
  split_ifs with hdefer hfull hpending
  · exact ⟨_, steps_deferred hframes hdefer, rfl, hhook.symm, .inl ⟨rfl, rfl⟩⟩
  · rw [not_not] at hdefer
    exact ⟨_, steps_full hframes hdefer hfull, hstatics.symm, hhook.symm, .inl ⟨rfl, rfl⟩⟩
  · rw [not_not] at hdefer
    exact ⟨_, (steps_stored hframes hdefer hfull).trans
      (steps_raised rfl hpending.1 hpending.2), rfl, rfl, .inr ⟨_, rfl, rfl, rfl⟩⟩
  · rw [not_not] at hdefer
    exact ⟨_, (steps_stored hframes hdefer hfull).trans (steps_returned rfl hpending), rfl, rfl,
      .inl ⟨rfl, rfl⟩⟩

/-! ## The queue fills up -/

/-- Every run that is raised for the pending signal queues it and raises it again, as often as
there is room for it. -/
theorem exists_steps_filled (n : Nat) (hframes : s.frames = ⟨.pending, i, d⟩ :: rest)
    (hdefer : s.statics.defer_signal = 0) (hpending : s.statics.signal_pending ≠ 0)
    (hcount : s.statics.signal_count + n = SIGNAL_QUEUE_MAX) :
    ∃ s', Steps s s' ∧ s'.frames = rest ∧
      s'.statics.signal_pending = s.statics.signal_pending ∧
      s'.appended = List.replicate n s.pendingDelivery ++ s.appended ∧
      s'.raises = List.replicate (n + 1) s.pendingDelivery ++ s.raises ∧
      s'.deferred = s.deferred := by
  have hraised : Steps s (raised s i d rest) := steps_raised hframes hdefer hpending
  induction n generalizing s i d rest with
  | zero =>
      have hfull : (raised s i d rest).statics.signal_count = SIGNAL_QUEUE_MAX := by
        rw [← hcount]
        exact (add_zero _).symm
      have hreturned : Steps (raised s i d rest) _ := steps_full rfl hdefer hfull
      exact ⟨_, hraised.trans (hreturned.trans (.head rfl .refl)), rfl, rfl, rfl, rfl, rfl⟩
  | succ n ih =>
      have hroom : (raised s i d rest).statics.signal_count ≠ SIGNAL_QUEUE_MAX := by
        rw [← hcount]
        simp only [raised]
        omega
      have hstored : Steps (raised s i d rest) (stored (raised s i d rest) _ _ _) :=
        steps_stored rfl hdefer hroom
      have hdefer' : (stored (raised s i d rest) s.statics.signal_pending s.pendingDelivery
          (⟨.leave, i, d⟩ :: rest)).statics.defer_signal = 0 := by
        simp only [stored, raised, hdefer]
        rfl
      have hcount' : (stored (raised s i d rest) s.statics.signal_pending s.pendingDelivery
          (⟨.leave, i, d⟩ :: rest)).statics.signal_count + n = SIGNAL_QUEUE_MAX := by
        rw [← hcount]
        simp only [stored, raised]
        omega
      obtain ⟨s', hsteps, hframes', hpending', happended, hraises, hdeferred⟩ :=
        ih rfl hdefer' hpending hcount' (steps_raised rfl hdefer' hpending)
      -- the run that raised it has only to return
      refine ⟨_, hraised.trans (hstored.trans (hsteps.trans (Steps.head hframes' .refl))), rfl,
        hpending', ?_, ?_, hdeferred⟩
      · simp only [exec, happended, stored, raised]
        rw [List.replicate_succ', List.append_assoc]
        rfl
      · simp only [exec, hraises, stored, raised]
        rw [List.replicate_succ' (n := n + 1), List.append_assoc]
        rfl

/-- The first signal is about to be stored when the second one is delivered. -/
def interrupted (s : State) (i j : Int) : State :=
  { s with
    statics := { s.statics with defer_signal := 1 }
    frames := [⟨.test, j, 1⟩, ⟨.store, i, 0⟩]
    delivered := 2
    steps := 3 }

/-- The second signal arrives while the first is put into the queue. -/
theorem run_interrupted {s₀ : State} {i j : Int} (h₀ : Idle s₀) (hi : 0 < i) (hj : 0 < j)
    (hroom : s₀.statics.signal_count ≠ SIGNAL_QUEUE_MAX) :
    machine.run s₀ [.deliver i, .step, .step, .step, .deliver j] = some (interrupted s₀ i j) := by
  simp [Machine.run, machine, next, exec, interrupted, hi, hj, hroom, h₀.frames, h₀.defer_signal,
    h₀.delivered, h₀.steps]

/-- The second signal is deferred, and the first one is stored. -/
theorem exists_steps_pending {s₀ : State} (h₀ : Idle s₀) (i j : Int) :
    ∃ s, Steps (interrupted s₀ i j) s ∧ s.frames = [⟨.pending, i, 0⟩] ∧
      s.statics.defer_signal = 0 ∧ s.statics.signal_pending = j ∧
      s.statics.signal_count = s₀.statics.signal_count + 1 ∧ s.pendingDelivery = 1 ∧
      s.appended = [0] ∧ s.raises = [] ∧ s.deferred = [1] := by
  have hdeferred : Steps (interrupted s₀ i j) _ := steps_deferred rfl one_ne_zero
  refine ⟨_, hdeferred.trans (.head rfl (.head rfl (.head rfl (.head rfl .refl)))), rfl, rfl, rfl,
    rfl, rfl, ?_, h₀.raises, ?_⟩
  · simp only [exec, interrupted, h₀.appended]
  · simp only [exec, interrupted, h₀.deferred]

/-- **A signal delivered while another is stored** is queued as often as there is room for it, is
raised once more, and stays pending. -/
theorem exists_run_filled {s₀ : State} {i j : Int} (h₀ : Idle s₀) (hi : 0 < i) (hj : 0 < j)
    (n : Nat) (hcount : s₀.statics.signal_count + 1 + n = SIGNAL_QUEUE_MAX) :
    ∃ k s, machine.run s₀ ([.deliver i, .step, .step, .step, .deliver j] ++
        List.replicate k .step) = some s ∧
      s.frames = [] ∧ s.statics.signal_pending = j ∧ s.deferred = [1] ∧
      s.appended = List.replicate n 1 ++ [0] ∧ s.raises = List.replicate (n + 1) 1 := by
  have hroom : s₀.statics.signal_count ≠ SIGNAL_QUEUE_MAX := by omega
  obtain ⟨s₁, hsteps, hframes₁, hdefer₁, hpending₁, hcount₁, hdelivery₁, happended₁, hraises₁,
    hdeferred₁⟩ := exists_steps_pending h₀ i j
  obtain ⟨s, hfilled, hframes, hpending, happended, hraises, hdeferred⟩ :=
    exists_steps_filled n hframes₁ hdefer₁ (hpending₁ ▸ hj.ne') (hcount₁ ▸ hcount)
  obtain ⟨k, hk⟩ := exists_run_of_steps (hsteps.trans hfilled)
  refine ⟨k, s, Machine.run_append.mpr ⟨_, run_interrupted h₀ hi hj hroom, hk⟩, hframes,
    hpending.trans hpending₁, hdeferred.trans hdeferred₁, ?_, ?_⟩
  · rw [happended, hdelivery₁, happended₁]
  · rw [hraises, hdelivery₁, hraises₁, List.append_nil]

/-- `SIGTERM` during the handler of `SIGALRM`, with an empty queue: the handler returns, and
`SIGTERM` has been queued twenty-four times and raised twenty-five times, and is pending still. -/
theorem alarm_terminated : ∃ k s,
    machine.run quiet ([.deliver 14, .step, .step, .step, .deliver 15] ++
      List.replicate k .step) = some s ∧
    s.frames = [] ∧ s.appended.count 1 = 24 ∧ s.deferred = [1] ∧ s.raises.count 1 = 25 ∧
    s.statics.signal_pending = 15 ∧ ¬Sound s := by
  obtain ⟨k, s, hrun, hframes, hpending, hdeferred, happended, hraises⟩ :=
    exists_run_filled idle_quiet (show (0 : Int) < 14 by decide) (show (0 : Int) < 15 by decide) 24
      rfl
  refine ⟨k, s, hrun, hframes, ?_, hdeferred, ?_, hpending, fun hsound => ?_⟩
  · rw [happended]
    rfl
  · rw [hraises]
    rfl
  · have hsettled := hsound.settled hframes
    rw [hpending] at hsettled
    exact absurd hsettled (by decide)

end LuaPosix.Deferral

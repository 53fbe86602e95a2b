import LuaPosix.Signal.Handle

/-! # Fault isolation of the drain

What draining the queue is for: every queued signal has its registered handler called once,
latest first, whatever the handlers before it did. `sig_handle` does that as long as no handler
raises. The value a handler raises takes the place of the handlers table for the entries after
it, so from there on all depends on what that value yields when it is indexed. -/

namespace LuaPosix

/-- The queued signals, oldest first. -/
def Statics.queued (s : Statics) : List Int :=
  (List.range s.signal_count.toNat).map fun i : Nat => s.signals i

/-! ## One entry -/

/-- What a call leaves on the stack. -/
def Outcome.leave (H : Host) (o : Outcome) (stack : List LuaValue) : List LuaValue :=
  match o.result with
  | .ok () => stack
  | .error e => tostringTop H e :: stack

/-- What is on top of the stack after a call, where the next signal's handler is looked up: the
error value of a handler that raised, a number turned into its text. -/
def Outcome.source (H : Host) (o : Outcome) (t : LuaValue) : LuaValue :=
  match o.result with
  | .ok () => t
  | .error e => tostringTop H e

/-- What a call leaves on top of the stack is its result, or what was there. -/
theorem headD_leave (H : Host) (o : Outcome) (stack : List LuaValue) :
    (o.leave H stack).headD .nil = o.source H (stack.headD .nil) := by
  rw [Outcome.leave, Outcome.source]
  cases o.result <;> rfl

/-- What the call of a value does that is called for a signal. -/
def callFor (P : Program) (R : Registry) (f : LuaValue) (signo : Int) : Outcome :=
  callValue P (noteDrained R signo (some f)) f signo

/-- The registry after such a call. -/
def registryAfter (H : Host) (P : Program) (R : Registry) (f : LuaValue) (signo : Int) :
    Registry :=
  (callFor P R f signo).calls.foldl (signalCall H) (noteDrained R signo (some f))

section Isolation

variable (H : Host) (P : Program)

/-! ## The intended run -/

/-- A drained signal's turn: what is registered when it comes, and what its handler does. -/
structure Turn where
  signo : Int
  before : Registry
  outcome : Outcome

/-- The handler registered for the signal. -/
def Turn.registered (t : Turn) : LuaValue := rawget t.before.handlers (signoValue t.signo)

/-- The turns of a queue, in the order they come, when every registered handler is called. -/
def intended : List Int → Registry → List Turn
  | [], _ => []
  | signo :: rest, R =>
      let f := rawget R.handlers (signoValue signo)
      ⟨signo, R, callFor P R f signo⟩ :: intended rest (registryAfter H P R f signo)

/-- No raised value does harm: up to the next one that is raised, indexing it with the later
signals' numbers yields their registered handlers. -/
def Unharmed : LuaValue → List Turn → Prop
  | _, [] => True
  | t, turn :: turns =>
      gettable P turn.before t turn.signo = .ok turn.registered ∧
        Unharmed (turn.outcome.source H t) turns

/-! ## The drain -/

/-- The drained signals a run adds: one for each of `signos`, and the registered handler called
for each. -/
def CalledOnce (signos : List Int) (R R' : Registry) : Prop :=
  ∃ new, R'.drained = new ++ R.drained ∧ new.map Drained.signo = signos ∧
    ∀ d ∈ new, d.called = some d.registered

/-- **Fault isolation**: no error escapes, each queued signal's registered handler is called once
with its number, the queue is empty and the signal mask is back. -/
def FaultIsolated (p : Process) : Prop :=
  ∃ p', sig_handle H P p = some (.ok (), p') ∧
    CalledOnce p.statics.queued p.registry p'.registry ∧
    p'.statics.signal_count = 0 ∧ p'.mask = p.mask

/-- The loop is fault isolated from a stack and a process on. -/
def LoopIsolated (n : Nat) (stack : List LuaValue) (p : Process) : Prop :=
  ∃ p', handleLoop H P (n + 1) stack p = some (.ok (), p') ∧
    CalledOnce p.statics.queued p.registry p'.registry

variable {H P} {signo : Int} {stack : List LuaValue} {R : Registry}

/-- A call of `signal` drains nothing. -/
theorem signalCall_drained (H : Host) (R : Registry) (args : List LuaValue) :
    (signalCall H R args).drained = R.drained := by
  rw [signalCall]
  cases hres : Psignal H args R with
  | error e => rfl
  | ok r =>
      obtain ⟨res, R'⟩ := r
      obtain ⟨c, -, h⟩ := Psignal_ok_iff.mp hres
      split_ifs at h
      · rw [h.1, setLuaHandler_drained, sigaction_drained]
      · rw [h.1]

/-- Calls of `signal` handle no signal. -/
theorem foldl_signalCall_drained (H : Host) (calls : List (List LuaValue)) (R : Registry) :
    (calls.foldl (signalCall H) R).drained = R.drained := by
  induction calls generalizing R with
  | nil => rfl
  | cons args calls ih => rw [List.foldl_cons, ih, signalCall_drained]

/-- A handler's registry adds the one signal to those handled. -/
theorem registryAfter_drained (H : Host) (P : Program) (R : Registry) (f : LuaValue)
    (signo : Int) : (registryAfter H P R f signo).drained =
      ⟨signo, rawget R.handlers (signoValue signo), R.installed signo, some f⟩ :: R.drained :=
  foldl_signalCall_drained H _ _

/-- The look-up raises, and the body of the loop does not return. -/
theorem handleEntry_error {e : LuaValue}
    (h : gettable P R (stack.headD .nil) signo = .error e) :
    handleEntry H P signo stack R = (.error e, noteDrained R signo none) := by
  rw [handleEntry, h]

/-- The look-up yields a value, which is called; the stack keeps what the call raised. -/
theorem handleEntry_ok {f : LuaValue} (h : gettable P R (stack.headD .nil) signo = .ok f) :
    handleEntry H P signo stack R
      = (.ok ((callFor P R f signo).leave H stack), registryAfter H P R f signo) := by
  rw [handleEntry, h, Outcome.leave, registryAfter, callFor]
  cases hres : (callValue P (noteDrained R signo (some f)) f signo).result with
  | ok u => simp only [hres]
  | error e => simp only [hres]

/-- The loop finds the queue empty. -/
theorem handleLoop_empty {n : Nat} {p : Process} (hn : p.statics.signal_count = 0) :
    handleLoop H P (n + 1) stack p
      = some (.ok (), { p with statics := { p.statics with signal_count := -1 } }) := by
  simp [handleLoop, hn]

/-- The process once the latest of `n + 1` queued signals is taken and its entry done. -/
def Process.entryDone (p : Process) (n : Nat) (R : Registry) : Process :=
  { p with statics := { p.statics with signal_count := n }, registry := R }

/-- The loop takes the latest queued signal. -/
theorem handleLoop_entry {fuel n : Nat} {p : Process} (hn : p.statics.signal_count = n + 1) :
    handleLoop H P (fuel + 1) stack p =
      match handleEntry H P (p.statics.signals n) stack p.registry with
      | (.error e, R) => some (.error e, p.entryDone n R)
      | (.ok stack, R) => handleLoop H P fuel stack (p.entryDone n R) := by
  rw [handleLoop]
  simp only [hn, show (n : Int) + 1 - 1 = n by omega, if_neg (show ¬ (n : Int) + 1 = 0 by omega)]
  rfl

/-- The loop only adds to the drained signals. -/
theorem handleLoop_drained_suffix {fuel : Nat} {p p' : Process} {r : Except LuaValue Unit}
    (h : handleLoop H P fuel stack p = some (r, p')) :
    p.registry.drained <:+ p'.registry.drained := by
  induction fuel generalizing stack p with
  | zero => cases h
  | succ fuel ih =>
      rw [handleLoop] at h
      split_ifs at h with h0
      · cases h
        exact List.suffix_refl _
      · cases hget : gettable P p.registry (stack.headD .nil)
            (p.statics.signals (p.statics.signal_count - 1)) with
        | error e =>
            simp only [handleEntry_error hget] at h
            cases h
            exact List.suffix_cons _ _
        | ok f =>
            simp only [handleEntry_ok hget] at h
            refine List.IsSuffix.trans ?_ (ih h)
            rw [registryAfter_drained]
            exact List.suffix_cons _ _

/-- A non-empty queue, its latest signal last. -/
theorem queued_succ {s : Statics} {n : Nat} (hn : s.signal_count = n + 1) :
    s.queued = Statics.queued { s with signal_count := n } ++ [s.signals n] := by
  have htoNat : ((n : Int) + 1).toNat = n + 1 := by omega
  simp [Statics.queued, hn, htoNat, List.range_succ]

/-- One drained signal in front of the rest. -/
theorem calledOnce_snoc {signos : List Int} {R R₁ R₂ : Registry} {d : Drained}
    (hR : R₁.drained = d :: R.drained) (hsuffix : R₁.drained <:+ R₂.drained) :
    CalledOnce (signos ++ [d.signo]) R R₂ ↔
      CalledOnce signos R₁ R₂ ∧ d.called = some d.registered := by
  constructor
  · rintro ⟨new, hnew, hsignos, hcalled⟩
    obtain ⟨front, hfront⟩ := hsuffix
    -- What the whole run adds is what the rest adds, on top of this entry.
    have hsplit : new = front ++ [d] := by
      rw [← hfront, hR] at hnew
      have happ : (front ++ [d]) ++ R.drained = new ++ R.drained := by simpa using hnew
      exact (List.append_cancel_right happ).symm
    subst hsplit
    rw [List.map_append] at hsignos
    have hfront_signos := (List.append_inj' hsignos rfl).1
    exact ⟨⟨front, hfront.symm, hfront_signos, fun e he => hcalled e (by simp [he])⟩,
      hcalled d (by simp)⟩
  · rintro ⟨⟨new, hnew, hsignos, hcalled⟩, hd⟩
    refine ⟨new ++ [d], by rw [hnew, hR]; simp, by simp [hsignos], fun e he => ?_⟩
    rcases List.mem_append.mp he with he | he
    · exact hcalled e he
    · rw [List.mem_singleton.mp he]
      exact hd

/-- One turn of the loop: it is isolated when the registered handler is called and the rest of
the loop is isolated. -/
theorem loopIsolated_succ {n : Nat} {p : Process} (hn : p.statics.signal_count = n + 1) :
    LoopIsolated H P (n + 1) stack p ↔ ∃ f,
      gettable P p.registry (stack.headD .nil) (p.statics.signals n) = .ok f ∧
      f = rawget p.registry.handlers (signoValue (p.statics.signals n)) ∧
      LoopIsolated H P n ((callFor P p.registry f (p.statics.signals n)).leave H stack)
        (p.entryDone n (registryAfter H P p.registry f (p.statics.signals n))) := by
  rw [LoopIsolated, handleLoop_entry hn, queued_succ hn]
  cases hget : gettable P p.registry (stack.headD .nil) (p.statics.signals n) with
  | error e =>
      rw [handleEntry_error hget]
      constructor
      · rintro ⟨p', hrun, -⟩
        cases hrun
      · rintro ⟨f, hf, -⟩
        cases hf
  | ok f =>
      have hdrained := registryAfter_drained H P p.registry f (p.statics.signals n)
      rw [handleEntry_ok hget]
      constructor
      · rintro ⟨p', hrun, hcalled⟩
        have hsuffix := handleLoop_drained_suffix hrun
        obtain ⟨hrest, hf⟩ := (calledOnce_snoc hdrained hsuffix).mp hcalled
        exact ⟨f, rfl, Option.some.inj hf, p', hrun, hrest⟩
      · rintro ⟨f', hf', hreg, p', hrun, hcalled⟩
        cases hf'
        have hsuffix := handleLoop_drained_suffix hrun
        exact ⟨p', hrun, (calledOnce_snoc hdrained hsuffix).mpr ⟨hcalled, congrArg some hreg⟩⟩

/-- **The loop is fault isolated exactly where no raised value does harm.** -/
theorem loopIsolated_iff {n : Nat} {p : Process} (hn : p.statics.signal_count = n) :
    LoopIsolated H P n stack p ↔
      Unharmed H P (stack.headD .nil) (intended H P p.statics.queued.reverse p.registry) := by
  induction n generalizing stack p with
  | zero =>
      have hqueued : p.statics.queued = [] := by simp [Statics.queued, hn]
      -- The queue is empty: the loop ends at its test.
      rw [LoopIsolated, handleLoop_empty hn, hqueued]
      constructor
      · exact fun _ => trivial
      · exact fun _ => ⟨_, rfl, [], rfl, rfl, by simp⟩
  | succ n ih =>
      have hn : p.statics.signal_count = n + 1 := by simpa using hn
      rw [loopIsolated_succ hn, queued_succ hn, List.reverse_append, List.reverse_singleton,
        List.singleton_append, intended, Unharmed]
      have hrest := @ih ((callFor P p.registry (rawget p.registry.handlers
          (signoValue (p.statics.signals n))) (p.statics.signals n)).leave H stack)
        (p.entryDone n (registryAfter H P p.registry (rawget p.registry.handlers
          (signoValue (p.statics.signals n))) (p.statics.signals n))) rfl
      rw [headD_leave] at hrest
      -- Both sides ask for the registered handler and then for the rest of the queue.
      constructor
      · rintro ⟨f, hget, rfl, hloop⟩
        exact ⟨hget, hrest.mp hloop⟩
      · rintro ⟨hget, hturns⟩
        exact ⟨_, hget, rfl, hrest.mpr hturns⟩

/-- What `sig_handle` does around the loop. -/
theorem sig_handle_ok_iff {p p' : Process} :
    sig_handle H P p = some (.ok (), p') ↔ ∃ p₂,
      handleLoop H P (p.statics.signal_count.toNat + 1) [handlersTable]
        { p with mask := fun _ => true, hook := false } = some (.ok (), p₂) ∧
      p' = { p₂ with statics := { p₂.statics with signal_count := 0 }, mask := p.mask } := by
  rw [sig_handle, Option.bind_eq_bind, Option.bind_eq_some_iff]
  constructor
  · rintro ⟨⟨r, p₂⟩, hloop, h⟩
    cases r with
    | error e => cases h
    | ok u =>
        cases h
        exact ⟨p₂, hloop, rfl⟩
  · rintro ⟨p₂, hloop, rfl⟩
    exact ⟨_, hloop, rfl⟩

/-- **Draining the queue is fault isolated exactly where no raised value does harm**, for every
queue, every registry and every behaviour of the handlers. -/
theorem sig_handle_faultIsolated_iff {p : Process} (hcount : 0 ≤ p.statics.signal_count) :
    FaultIsolated H P p ↔
      Unharmed H P handlersTable (intended H P p.statics.queued.reverse p.registry) := by
  have hloop : LoopIsolated H P p.statics.signal_count.toNat [handlersTable]
      { p with mask := fun _ => true, hook := false } ↔ _ :=
    loopIsolated_iff (Int.toNat_of_nonneg hcount).symm
  refine Iff.trans ?_ hloop
  constructor
  · rintro ⟨p', hrun, hcalled, -⟩
    obtain ⟨p₂, hloop, rfl⟩ := sig_handle_ok_iff.mp hrun
    exact ⟨p₂, hloop, hcalled⟩
  · rintro ⟨p₂, hrun, hcalled⟩
    exact ⟨_, sig_handle_ok_iff.mpr ⟨p₂, hrun, rfl⟩, hcalled, rfl, rfl⟩

end Isolation

/-- The process after `signal(10, f)` and `signal(12, g)`, with the given signals arrived. -/
private def arrived (signos : List Int) : Process :=
  signos.foldl (fun p i => sig_postpone i p)
    { registry := [[.integer 10, .function 7], [.integer 12, .function 8]].foldl
        (signalCall linux) luaopen
      statics := ⟨0, 0, 0, fun _ => 0⟩
      hook := false
      mask := fun _ => false
      raised := [] }

/-- A program where `g` raises `v` and strings and nil have their usual metatables. -/
private def raising (v : LuaValue) : Program where
  call _ f _ := if f = .function 8 then ⟨[], .error v⟩ else ⟨[], .ok ()⟩
  index _ t _ := match t with
    | .string _ => .ok .nil
    | _ => .error (.string "attempt to index a value".toList)

/-- Signal 12 arrives before signal 10, so that `g` is the last to be called. -/
theorem faultIsolated_last_raises :
    FaultIsolated linux (raising (.string "oops".toList)) (arrived [12, 10]) :=
  (sig_handle_faultIsolated_iff (by decide)).mpr ⟨rfl, rfl, trivial⟩

/-- Signal 10 arrives before signal 12. When `g` raises a string, nil is called in place of `f`;
when it raises nil, an error escapes and every signal stays blocked. -/
theorem sig_handle_raising :
    (∃ p, sig_handle linux (raising (.string "oops".toList)) (arrived [10, 12]) = some (.ok (), p) ∧
      p.registry.drained = [⟨10, .function 7, some (.function 7), some .nil⟩,
        ⟨12, .function 8, some (.function 8), some (.function 8)⟩]) ∧
    ∃ p, sig_handle linux (raising .nil) (arrived [10, 12])
        = some (.error (.string "attempt to index a value".toList), p) ∧
      p.mask = fun _ => true :=
  ⟨⟨_, rfl, rfl⟩, ⟨_, rfl, rfl⟩⟩

end LuaPosix

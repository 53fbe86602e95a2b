import LuaPosix.Lib.Machine
import LuaPosix.Signal.Isolation
import LuaPosix.Signal.Previous

/-! # Signals and the interpreter, interleaved

The process as a machine. `sig_handle` runs statement by statement, and between any two of them
a signal may arrive unless it is blocked: an arrival runs `sig_postpone` to completion, since
`Psignal` installs it with every signal in `sa_mask`. Outside the hook Lua code may call
`signal` and other code may change the signal mask. -/

namespace LuaPosix

/-- Where the process is: in Lua code, or in front of a statement of `sig_handle`. -/
inductive Pc where
  | lua
  /-- Before the signals are blocked. -/
  | entry
  /-- Before the hook is removed. -/
  | masked
  /-- Before the handlers table is pushed. -/
  | unhooked
  /-- Before the test of the loop. -/
  | test
  /-- Before the body of the loop. -/
  | body
  /-- Before `lua_pcall` of a value for a signal. -/
  | call (signo : Int) (f : LuaValue)
  /-- Before `signal_count` is reset. -/
  | exit
  /-- Before the signal mask is restored. -/
  | restore
  /-- Before the return. -/
  | leave
  deriving DecidableEq

/-- An arrival: the signal, `signal_count` when it came, and whether it was queued. -/
structure Arrival where
  signo : Int
  count : Int
  queued : Bool
  deriving DecidableEq

/-- A state of the machine. The last two fields are history: every index into `signals[]` and
every arrival, latest first. -/
structure State where
  process : Process
  pc : Pc
  oldmask : Int → Bool
  stack : List LuaValue
  indices : List Int
  arrivals : List Arrival

/-- What the code does not decide itself. -/
inductive Label where
  /-- A signal arrives. -/
  | arrive (signo : Int)
  /-- Lua code calls `signal`. -/
  | signal (args : List LuaValue)
  /-- Other code changes the signal mask. -/
  | setmask (mask : Int → Bool)
  /-- The interpreter runs its debug hook. -/
  | hook
  /-- The next statement of `sig_handle`. -/
  | step
  /-- The look-up of a handler in a value other than the handlers table. -/
  | lookup (r : Except LuaValue LuaValue)
  /-- The call of a handler, and what it does. -/
  | call (o : Outcome)

/-- The kernel enters the handler of a signal: with `SA_RESETHAND` that restores the default. -/
def Registry.enter (H : Host) (R : Registry) (signo : Int) : Registry :=
  let sa := R.sigaction signo
  if H.resethand sa.sa_flags then
    { R with sigaction := Function.update R.sigaction signo { sa with sa_handler := .SIG_DFL } }
  else R

namespace State

/-- `signal_count`. -/
abbrev count (s : State) : Int := s.process.statics.signal_count

/-- A signal arrives: `sig_postpone` runs. -/
def arrive (H : Host) (s : State) (signo : Int) : State :=
  let count := s.process.statics.signal_count
  let process := sig_postpone signo { s.process with registry := s.process.registry.enter H signo }
  let queued : Bool := process.statics.signal_count ≠ count
  { s with
    process := process
    indices := if queued then count :: s.indices else s.indices
    arrivals := ⟨signo, count, queued⟩ :: s.arrivals }

/-- The signal the body of the loop is about. -/
def signo (s : State) : Int := s.process.statics.signals s.process.statics.signal_count

/-- The loop has taken the latest queued signal. -/
def taken (s : State) : State :=
  { s with
    pc := .body
    process := { s.process with statics :=
      { s.process.statics with signal_count := s.process.statics.signal_count - 1 } } }

/-- A handler has been looked up for that signal, or the look-up has raised. -/
def lookedUp (s : State) (r : Except LuaValue LuaValue) : State :=
  let s := { s with indices := s.process.statics.signal_count :: s.indices }
  match r with
  | .ok f => { s with
      pc := .call s.signo f
      process := { s.process with registry := noteDrained s.process.registry s.signo (some f) } }
  | .error _ => { s with
      pc := .lua
      process := { s.process with registry := noteDrained s.process.registry s.signo none } }

/-- The handler has been called. -/
def called (H : Host) (s : State) (o : Outcome) : State :=
  { s with
    pc := .test
    stack := o.leave H s.stack
    process := { s.process with
      registry := o.calls.foldl (signalCall H) s.process.registry } }

end State

section Machine

variable (H : Host)

/-- One statement of `sig_handle`. -/
def stepHandle (s : State) : Option State :=
  let p := s.process
  match s.pc with
  | .entry => some { s with
      pc := .masked, oldmask := p.mask, process := { p with mask := fun _ => true } }
  | .masked => some { s with pc := .unhooked, process := { p with hook := false } }
  | .unhooked => some { s with pc := .test, stack := [handlersTable] }
  -- `while (signal_count--)`
  | .test =>
      let old := p.statics.signal_count
      let p := { p with statics := { p.statics with signal_count := old - 1 } }
      some { s with pc := if old = 0 then .exit else .body, process := p }
  | .body =>
      if s.stack.headD .nil = handlersTable then
        some (s.lookedUp (.ok (rawget p.registry.handlers (signoValue s.signo))))
      else none
  | .exit => some { s with
      pc := .restore, process := { p with statics := { p.statics with signal_count := 0 } } }
  | .restore => some { s with pc := .leave, process := { p with mask := s.oldmask } }
  | .leave => some { s with pc := .lua }
  | _ => none

/-- The next state. -/
def nextState (s : State) : Label → Option State
  | .arrive signo =>
      -- Other dispositions of a signal do not touch this state.
      if (s.process.registry.sigaction signo).sa_handler = .sig_postpone ∧
          s.process.mask signo = false then some (s.arrive H signo)
      else none
  | .signal args =>
      if s.pc = .lua then some { s with
        process := { s.process with registry := signalCall H s.process.registry args } }
      else none
  | .setmask mask =>
      if s.pc = .lua then some { s with process := { s.process with mask := mask } } else none
  | .hook =>
      if s.pc = .lua ∧ s.process.hook then some { s with pc := .entry } else none
  | .step => stepHandle s
  | .lookup r =>
      if s.pc = .body ∧ s.stack.headD .nil ≠ handlersTable then some (s.lookedUp r) else none
  | .call o =>
      match s.pc with
      | .call _ f =>
          -- What a call of nil does is known.
          if f = .nil ∧ o ≠ callNil then none
          else some (s.called H o)
      | _ => none

/-- A process that has just loaded the module. -/
structure Loaded (s : State) : Prop where
  pc : s.pc = .lua
  fresh : Fresh s.process.registry
  installed : s.process.registry.installed = fun _ => none
  drained : s.process.registry.drained = []
  signal_pending : s.process.statics.signal_pending = 0
  defer_signal : s.process.statics.defer_signal = 0
  signal_count : s.process.statics.signal_count = 0
  hook : s.process.hook = false
  indices : s.indices = []
  arrivals : s.arrivals = []

/-- The machine. -/
def machine : Machine State Label := ⟨Loaded, nextState H⟩

/-! ## What a step can be -/

/-- What a step from `s` can be, its guards included. -/
inductive StepCase (s : State) : Label → State → Prop where
  | arrive {signo : Int}
      (hpostpone : (s.process.registry.sigaction signo).sa_handler = .sig_postpone)
      (hmask : s.process.mask signo = false) : StepCase s (.arrive signo) (s.arrive H signo)
  | signal {args : List LuaValue} (hpc : s.pc = .lua) :
      StepCase s (.signal args) { s with
        process := { s.process with registry := signalCall H s.process.registry args } }
  | setmask {mask : Int → Bool} (hpc : s.pc = .lua) :
      StepCase s (.setmask mask) { s with process := { s.process with mask := mask } }
  | hook (hpc : s.pc = .lua) (hhook : s.process.hook = true) :
      StepCase s .hook { s with pc := .entry }
  | block (hpc : s.pc = .entry) :
      StepCase s .step { s with
        pc := .masked, oldmask := s.process.mask
        process := { s.process with mask := fun _ => true } }
  | unhook (hpc : s.pc = .masked) :
      StepCase s .step { s with pc := .unhooked, process := { s.process with hook := false } }
  | push (hpc : s.pc = .unhooked) :
      StepCase s .step { s with pc := .test, stack := [handlersTable] }
  | done (hpc : s.pc = .test) (h0 : s.count = 0) : StepCase s .step { s.taken with pc := .exit }
  | take (hpc : s.pc = .test) (h0 : s.count ≠ 0) : StepCase s .step s.taken
  | gettable (hpc : s.pc = .body) (htop : s.stack.headD .nil = handlersTable) :
      StepCase s .step
        (s.lookedUp (.ok (rawget s.process.registry.handlers (signoValue s.signo))))
  | lookup {r : Except LuaValue LuaValue} (hpc : s.pc = .body)
      (htop : s.stack.headD .nil ≠ handlersTable) : StepCase s (.lookup r) (s.lookedUp r)
  | call {signo : Int} {f : LuaValue} {o : Outcome} (hpc : s.pc = .call signo f)
      (hnil : ¬ (f = .nil ∧ o ≠ callNil)) : StepCase s (.call o) (s.called H o)
  | reset (hpc : s.pc = .exit) :
      StepCase s .step { s with
        pc := .restore
        process := { s.process with statics := { s.process.statics with signal_count := 0 } } }
  | unblock (hpc : s.pc = .restore) :
      StepCase s .step { s with pc := .leave, process := { s.process with mask := s.oldmask } }
  | leave (hpc : s.pc = .leave) : StepCase s .step { s with pc := .lua }

variable {H} {s s' : State} {l : Label}

/-- A step of the handler is one of the cases. -/
theorem stepCase_of_stepHandle (hs : stepHandle s = some s') : StepCase H s .step s' := by
  rw [stepHandle] at hs
  cases hpc : s.pc with
  | lua | call signo f =>
      simp only [hpc] at hs
      cases hs
  | entry =>
      simp only [hpc] at hs
      cases hs
      exact .block hpc
  | masked =>
      simp only [hpc] at hs
      cases hs
      exact .unhook hpc
  | unhooked =>
      simp only [hpc] at hs
      cases hs
      exact .push hpc
  | test =>
      simp only [hpc] at hs
      cases hs
      by_cases h0 : s.process.statics.signal_count = 0
      · rw [if_pos h0]
        exact .done hpc h0
      · rw [if_neg h0]
        exact .take hpc h0
  | body =>
      simp only [hpc, Option.ite_none_right_eq_some] at hs
      obtain ⟨htop, hs⟩ := hs
      cases hs
      exact .gettable hpc htop
  | exit =>
      simp only [hpc] at hs
      cases hs
      exact .reset hpc
  | restore =>
      simp only [hpc] at hs
      cases hs
      exact .unblock hpc
  | leave =>
      simp only [hpc] at hs
      cases hs
      exact .leave hpc

/-- **Every step is one of these**, and each of these is a step. -/
theorem nextState_eq_some_iff : nextState H s l = some s' ↔ StepCase H s l s' := by
  constructor
  · intro hs
    cases l with
    | arrive signo =>
        obtain ⟨⟨hpostpone, hmask⟩, hs⟩ := Option.ite_none_right_eq_some.mp hs
        cases hs
        exact .arrive hpostpone hmask
    | signal args =>
        obtain ⟨hpc, hs⟩ := Option.ite_none_right_eq_some.mp hs
        cases hs
        exact .signal hpc
    | setmask mask =>
        obtain ⟨hpc, hs⟩ := Option.ite_none_right_eq_some.mp hs
        cases hs
        exact .setmask hpc
    | hook =>
        obtain ⟨⟨hpc, hhook⟩, hs⟩ := Option.ite_none_right_eq_some.mp hs
        cases hs
        exact .hook hpc hhook
    | step => exact stepCase_of_stepHandle hs
    | lookup r =>
        obtain ⟨⟨hpc, htop⟩, hs⟩ := Option.ite_none_right_eq_some.mp hs
        cases hs
        exact .lookup hpc htop
    | call o =>
        rw [nextState] at hs
        cases hpc : s.pc with
        | call signo f =>
            simp only [hpc, Option.ite_none_left_eq_some] at hs
            obtain ⟨hnil, hs⟩ := hs
            cases hs
            exact .call hpc hnil
        | _ =>
            simp only [hpc] at hs
            cases hs
  · intro hs
    cases hs with
    | arrive hpostpone hmask => exact if_pos ⟨hpostpone, hmask⟩
    | signal hpc | setmask hpc => exact if_pos hpc
    | hook hpc hhook => exact if_pos ⟨hpc, hhook⟩
    | block hpc | unhook hpc | push hpc | reset hpc | unblock hpc | leave hpc =>
        rw [nextState, stepHandle, hpc]
    | done hpc h0 =>
        rw [nextState, stepHandle, hpc]
        simp only [if_pos (show s.process.statics.signal_count = 0 from h0)]
        rfl
    | take hpc h0 =>
        rw [nextState, stepHandle, hpc]
        simp only [if_neg (show s.process.statics.signal_count ≠ 0 from h0)]
        rfl
    | gettable hpc htop =>
        rw [nextState, stepHandle, hpc]
        exact if_pos htop
    | lookup hpc htop => exact if_pos ⟨hpc, htop⟩
    | call hpc hnil =>
        rw [nextState, hpc]
        exact if_neg hnil

/-! ## The registry and the history -/

/-- Postponing a signal leaves the registry alone. -/
theorem sig_postpone_registry (i : Int) (p : Process) :
    (sig_postpone i p).registry = p.registry := by
  rw [sig_postpone]
  split_ifs <;> first | rfl | (simp only; split_ifs <;> rfl)

/-- Entering a handler does not note the signal. -/
@[simp] theorem enter_drained (H : Host) (R : Registry) (signo : Int) :
    (R.enter H signo).drained = R.drained := by
  rw [Registry.enter]
  split_ifs <;> rfl

/-- Looking the handler up does. -/
theorem lookedUp_registry (s : State) (r : Except LuaValue LuaValue) :
    (s.lookedUp r).process.registry
      = noteDrained s.process.registry s.signo r.toOption := by
  cases r <;> rfl

/-- What is about to be called is what the history says. -/
def CallNoted (s : State) : Prop :=
  ∀ signo f, s.pc = .call signo f →
    ∃ d rest, s.process.registry.drained = d :: rest ∧ d.signo = signo ∧ d.called = some f

/-- A handler that was looked up was noted. -/
theorem callNoted_lookedUp (s : State) (r : Except LuaValue LuaValue) :
    CallNoted (s.lookedUp r) := by
  intro signo f hpc
  cases r with
  | error e => cases hpc
  | ok f' =>
      cases hpc
      exact ⟨_, _, rfl, rfl, rfl⟩

/-- A step keeps this. -/
theorem callNoted_next (h : CallNoted s) (hs : StepCase H s l s') : CallNoted s' := by
  cases hs with
  | arrive =>
      intro signo f hpc
      obtain ⟨d, rest, hdrained, hd⟩ := h signo f hpc
      refine ⟨d, rest, ?_, hd⟩
      rw [State.arrive, sig_postpone_registry, enter_drained, hdrained]
  | signal hpc | setmask hpc =>
      intro signo f hpc'
      rw [show s.pc = .call signo f from hpc'] at hpc
      cases hpc
  | gettable | lookup => exact callNoted_lookedUp s _
  | _ =>
      intro signo f hpc'
      cases hpc'

/-- **Every call is noted**, in every run. -/
theorem callNoted_of_reachable {P : State → Label → Prop} (h : (machine H).Reachable P s) :
    CallNoted s :=
  h.invariant (fun s hs signo f hpc => by rw [hs.pc] at hpc; cases hpc)
    fun s l s' hs _ hnext => callNoted_next hs (nextState_eq_some_iff.mp hnext)

/-! ## The statements of a run of `sig_handle` -/

/-- A step of `sig_handle` itself, or of what it calls. -/
def Label.own : Label → Bool
  | .step | .lookup _ | .call _ => true
  | _ => false

variable (H) in
/-- Steps of `sig_handle` with no arrival in between. -/
abbrev OwnSteps : State → State → Prop :=
  Relation.ReflTransGen ((machine H).Step fun _ l => l.own)

variable {P : Program}

/-- Every case of a process's own is one of its steps. -/
theorem ownSteps_of_case (hl : l.own) (h : StepCase H s l s') : OwnSteps H s s' :=
  .single ⟨l, hl, nextState_eq_some_iff.mpr h⟩

/-- The look-up of a handler, in the handlers table or elsewhere. -/
theorem ownSteps_lookedUp (P : Program) (hpc : s.pc = .body) :
    OwnSteps H s (s.lookedUp (gettable P s.process.registry (s.stack.headD .nil) s.signo)) := by
  by_cases htop : s.stack.headD .nil = handlersTable
  · rw [gettable, if_pos htop]
    exact ownSteps_of_case rfl (.gettable hpc htop)
  · exact ownSteps_of_case rfl (.lookup hpc htop)

/-- The call of what was looked up. -/
theorem ownSteps_call (P : Program) (R : Registry) {f : LuaValue} {signo : Int}
    (hpc : s.pc = .call signo f) : OwnSteps H s (s.called H (callFor P R f signo)) := by
  have hnil : ¬ (f = .nil ∧ callFor P R f signo ≠ callNil) := by
    rintro ⟨rfl, hne⟩
    exact hne (by rw [callFor, callValue, if_pos rfl])
  exact ownSteps_of_case rfl (.call hpc hnil)

/-- Where a part of `sig_handle` ends: behind it, or in Lua code with an error. -/
def endPc (behind : Pc) : Except LuaValue Unit → Pc
  | .ok () => behind
  | .error _ => .lua

/-- **The machine runs the loop** of `sig_handle`. -/
theorem ownSteps_handleLoop {fuel : Nat} {r : Except LuaValue Unit} {p' : Process}
    (hpc : s.pc = .test) (h : handleLoop H P fuel s.stack s.process = some (r, p')) :
    ∃ s', OwnSteps H s s' ∧ s'.process = p' ∧ s'.oldmask = s.oldmask ∧
      s'.pc = endPc .exit r := by
  -- By induction on the fuel, from the state in front of the test.
  induction fuel generalizing s with
  | zero => cases h
  | succ fuel ih =>
      rw [handleLoop] at h
      by_cases h0 : s.process.statics.signal_count = 0
      · rw [if_pos h0] at h
        cases h
        exact ⟨_, ownSteps_of_case rfl (.done hpc h0), rfl, rfl, rfl⟩
      · rw [if_neg h0] at h
        have htest : OwnSteps H s s.taken := ownSteps_of_case rfl (.take hpc h0)
        have hbody := ownSteps_lookedUp (H := H) (s := s.taken) P rfl
        cases hget : gettable P s.process.registry (s.stack.headD .nil) s.taken.signo with
        | error e =>
            rw [show gettable P s.taken.process.registry (s.taken.stack.headD .nil) s.taken.signo
              = .error e from hget] at hbody
            rw [show s.process.statics.signals (s.process.statics.signal_count - 1) = s.taken.signo
              from rfl] at h
            simp only [handleEntry_error hget] at h
            cases h
            exact ⟨_, htest.trans hbody, rfl, rfl, rfl⟩
        | ok f =>
            rw [show gettable P s.taken.process.registry (s.taken.stack.headD .nil) s.taken.signo
              = .ok f from hget] at hbody
            rw [show s.process.statics.signals (s.process.statics.signal_count - 1) = s.taken.signo
              from rfl] at h
            simp only [handleEntry_ok hget] at h
            have hcall := ownSteps_call (H := H) (s := s.taken.lookedUp (.ok f)) P
              s.process.registry rfl
            obtain ⟨s', hrest, hprocess, hmask, hpc'⟩ := @ih ((s.taken.lookedUp (.ok f)).called H
              (callFor P s.process.registry f s.taken.signo)) rfl h
            exact ⟨s', htest.trans (hbody.trans (hcall.trans hrest)), hprocess, hmask, hpc'⟩

/-- **The machine runs `sig_handle`**: what the function computes is what its statements do when
no signal arrives. -/
theorem ownSteps_sig_handle {r : Except LuaValue Unit} {p' : Process} (hpc : s.pc = .entry)
    (h : sig_handle H P s.process = some (r, p')) :
    ∃ s', OwnSteps H s s' ∧ s'.process = p' ∧ s'.pc = endPc .leave r := by
  obtain ⟨process, pc, oldmask, stack, indices, arrivals⟩ := s
  subst hpc
  let s₁ : State := ⟨{ process with mask := fun _ => true, hook := false }, .test, process.mask,
    [handlersTable], indices, arrivals⟩
  have hstart : OwnSteps H ⟨process, .entry, oldmask, stack, indices, arrivals⟩ s₁ := by
    refine Relation.ReflTransGen.trans (ownSteps_of_case rfl (.block rfl)) ?_
    refine Relation.ReflTransGen.trans (ownSteps_of_case rfl (.unhook rfl)) ?_
    exact ownSteps_of_case rfl (.push rfl)
  rw [sig_handle, Option.bind_eq_bind, Option.bind_eq_some_iff] at h
  obtain ⟨⟨r', p₂⟩, hloop, h⟩ := h
  obtain ⟨s₂, hrest, hprocess, hmask, hpc₂⟩ := ownSteps_handleLoop (s := s₁) rfl hloop
  cases r' with
  | error e =>
      cases h
      exact ⟨s₂, hstart.trans hrest, hprocess, hpc₂⟩
  | ok u =>
      cases h
      subst hprocess
      have hleave : OwnSteps H s₂ { s₂ with pc := .leave, process := { s₂.process with
          statics := { s₂.process.statics with signal_count := 0 }, mask := s₂.oldmask } } :=
        Relation.ReflTransGen.trans (ownSteps_of_case rfl (.reset hpc₂))
          (ownSteps_of_case rfl (.unblock rfl))
      refine ⟨_, (hstart.trans hrest).trans hleave, ?_, rfl⟩
      rw [hmask]

end Machine

end LuaPosix

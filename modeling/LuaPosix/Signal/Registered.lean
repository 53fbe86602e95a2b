import LuaPosix.Signal.Queue

/-! # The two halves of the handler registry

`Psignal` stores a Lua function under the value it was given for the signal number, `sig_handle`
looks it up under the signal number itself. The two agree in a run where every function is
registered under a number that is a C `int`. The string "10" and the integer 2^32 + 10 also stand
for signal 10, and are other keys of the table: what is called is then whatever the table has for
10, and without an earlier handler that is nil. -/

namespace LuaPosix

/-- A successful call that registers a handler gives the signal as a number that is the C `int`:
not as a numeral, and not as an integer that the cast to `int` changes. -/
def GivesInt (H : Host) (args : List LuaValue) : Prop :=
  ∀ c, checkSignal H args = .ok c → H.accepts c.sig → c.handler = .sig_postpone →
    (∀ s, c.n ≠ .string s) ∧ c.n.tointegerx H.strtod = some (BitVec.ofInt 64 c.sig)

/-- The condition on a step: every call of `signal` that registers a handler gives the C `int`,
and a look-up in a value a handler has raised yields the registered handler. -/
def Canonical (H : Host) (s : State) : Label → Prop
  | .signal args => GivesInt H args
  | .call o => ∀ args ∈ o.calls, GivesInt H args
  | .lookup r => r = .ok (rawget s.process.registry.handlers (signoValue s.signo))
  | _ => True

/-- Every drained signal has called for it the function that the last successful call of `signal`
installed. -/
def HandlersAgree (R : Registry) : Prop :=
  ∀ d ∈ R.drained, ∀ id, d.installed = some (.function id) → d.called = some (.function id)

/-- The handlers table has the installed functions under their signal numbers. -/
structure RegistryAgrees (R : Registry) : Prop where
  /-- Signals are C `int`s. -/
  isInt : ∀ k v, R.installed k = some v → ∃ d, k = toInt d
  agrees : ∀ k id, R.installed k = some (.function id) →
    rawget R.handlers (signoValue k) = .function id
  drained : HandlersAgree R

section Registered

variable {H : Host} {R : Registry} {args : List LuaValue} {c : SigCall}

/-- The function just registered is under its signal number. -/
theorem rawget_registered (hkey : c.n.key = signoValue c.sig) (t : LuaTable) :
    rawget (rawset t c.n c.h) (signoValue c.sig) = c.h := by
  have hkey : (signoValue c.sig).key = c.n.key := hkey.symm
  rw [rawget, hkey]
  exact rawget_rawset t c.n c.h

/-- The functions registered for other signals stay. -/
theorem rawget_other (hc : checkSignal H args = .ok c) (hkey : c.n.key = signoValue c.sig)
    {d : LuaInteger} (hne : toInt d ≠ c.sig) (t : LuaTable) :
    rawget (rawset t c.n c.h) (signoValue (toInt d)) = rawget t (signoValue (toInt d)) := by
  refine rawget_rawset_of_ne fun heq => hne ?_
  obtain ⟨d', hd'⟩ := checkSignal_sig hc
  rw [hkey, hd'] at heq
  rw [hd']
  exact signoValue_inj heq

/-- An accepted call keeps the two halves in agreement. -/
theorem registryAgrees_setLuaHandler (h : RegistryAgrees R) (hc : checkSignal H args = .ok c)
    (hkey : c.handler = .sig_postpone → c.n.key = signoValue c.sig) :
    RegistryAgrees (setLuaHandler c (sigaction c R)) := by
  refine ⟨?_, ?_, ?_⟩
  · intro k v hk
    rw [setLuaHandler_installed, sigaction_installed] at hk
    by_cases hsig : k = c.sig
    · rw [hsig]
      exact checkSignal_sig hc
    · exact h.isInt k v (by rwa [Function.update_of_ne hsig] at hk)
  · intro k id hk
    rw [setLuaHandler_installed, sigaction_installed] at hk
    rw [setLuaHandler_handlers, sigaction_handlers]
    by_cases hsig : k = c.sig
    · -- the signal of the call: its handler has just been stored
      rw [hsig, Function.update_self] at hk
      have hfunction : c.h = .function id := Option.some.inj hk
      have hasked : Disposition.ofArg c.h = some (.lua id) := by rw [hfunction]; rfl
      have hpostpone : c.handler = .sig_postpone := handler_of_checkSignal hc hasked
      rw [if_pos hpostpone, hsig, rawget_registered (hkey hpostpone), hfunction]
    · -- another signal: its key is another one
      rw [Function.update_of_ne hsig] at hk
      obtain ⟨d, rfl⟩ := h.isInt k _ hk
      by_cases hpostpone : c.handler = .sig_postpone
      · rw [if_pos hpostpone, rawget_other hc (hkey hpostpone) hsig]
        exact h.agrees _ id hk
      · rw [if_neg hpostpone]
        exact h.agrees _ id hk
  · rw [HandlersAgree, setLuaHandler_drained, sigaction_drained]
    exact h.drained

/-- **A call of `signal` keeps the two halves in agreement.** -/
theorem registryAgrees_signalCall (h : RegistryAgrees R) (hargs : GivesInt H args) :
    RegistryAgrees (signalCall H R args) := by
  rw [signalCall]
  cases hres : Psignal H args R with
  | error e => exact h
  | ok r =>
      obtain ⟨res, R'⟩ := r
      obtain ⟨c, hc, hR'⟩ := Psignal_ok_iff.mp hres
      by_cases haccepts : H.accepts c.sig
      · rw [if_pos haccepts] at hR'
        rw [hR'.1]
        refine registryAgrees_setLuaHandler h hc fun hpostpone => ?_
        exact LuaValue.key_eq_integer_iff.mpr (hargs c hc haccepts hpostpone)
      · rw [if_neg haccepts] at hR'
        rw [hR'.1]
        exact h

/-- Calls with an `int` keep the registry in agreement. -/
theorem registryAgrees_foldl {calls : List (List LuaValue)} (h : RegistryAgrees R)
    (hcalls : ∀ args ∈ calls, GivesInt H args) :
    RegistryAgrees (calls.foldl (signalCall H) R) := by
  induction calls generalizing R with
  | nil => exact h
  | cons args calls ih =>
      exact ih (registryAgrees_signalCall h (hcalls args (by simp)))
        fun args' hargs' => hcalls args' (by simp [hargs'])

/-- A drained signal whose handler was looked up in the handlers table. -/
theorem registryAgrees_noteDrained (h : RegistryAgrees R) (signo : Int) :
    RegistryAgrees
      (noteDrained R signo (some (rawget R.handlers (signoValue signo)))) where
  isInt := h.isInt
  agrees := h.agrees
  drained := by
    intro d hd id hinstalled
    rcases List.mem_cons.mp hd with rfl | hd
    · exact congrArg some (h.agrees signo id hinstalled)
    · exact h.drained d hd id hinstalled

/-- Entering a handler keeps it. -/
theorem registryAgrees_enter (h : RegistryAgrees R) (signo : Int) :
    RegistryAgrees (R.enter H signo) := by
  rw [Registry.enter]
  split_ifs
  · exact ⟨h.isInt, h.agrees, h.drained⟩
  · exact h

/-- **Every step keeps the two halves in agreement.** -/
theorem registryAgrees_next {s s' : State} {l : Label} (h : RegistryAgrees s.process.registry)
    (hl : Canonical H s l) (hs : StepCase H s l s') : RegistryAgrees s'.process.registry := by
  cases hs with
  | arrive =>
      rw [State.arrive, sig_postpone_registry]
      exact registryAgrees_enter h _
  | signal => exact registryAgrees_signalCall h hl
  | gettable =>
      rw [lookedUp_registry]
      exact registryAgrees_noteDrained h s.signo
  | @lookup r =>
      have hr : r = .ok (rawget s.process.registry.handlers (signoValue s.signo)) := hl
      rw [lookedUp_registry, hr]
      exact registryAgrees_noteDrained h s.signo
  | call => exact registryAgrees_foldl h hl
  | _ => exact h

/-- **The two halves of the handler registry agree** in every run whose steps meet the condition:
each drained signal calls the function installed for it, with its number. -/
theorem handlersAgree_of_reachable {s : State} (h : (machine H).Reachable (Canonical H) s) :
    HandlersAgree s.process.registry ∧ CallNoted s := by
  have hagrees : RegistryAgrees s.process.registry := by
    refine h.invariant (I := fun s => RegistryAgrees s.process.registry) ?_ ?_
    · intro s hs
      refine ⟨?_, ?_, ?_⟩
      · simp [hs.installed]
      · simp [hs.installed]
      · simp [HandlersAgree, hs.drained]
    · exact fun s l s' hs hl hnext =>
        registryAgrees_next hs hl (nextState_eq_some_iff.mp hnext)
  exact ⟨hagrees.drained, callNoted_of_reachable h⟩

end Registered

/-- `signal(10.0, f)`, an arrival, and a drain up to the call of the handler. -/
private def float10 : List Label :=
  [.signal [.float 10, .function 7], .arrive 10, .hook, .step, .step, .step, .step, .step]

/-- The number 10.0 stands for an `int`. -/
private theorem canonical_float10 : ∀ l ∈ float10, ∀ s, Canonical linux s l := by
  have hint : LuaValue.floatToInteger 10 = some 10 := rfl
  have hgives : GivesInt linux [.float 10, .function 7] := by
    intro c hc _ _
    cases hc
    exact ⟨fun s => nofun, hint⟩
  simp [float10, Canonical, hgives]

/-- The float 10.0 and the integer 10 are one key. -/
theorem handlersAgree_float10 : ∃ s, (machine linux).run loaded float10 = some s ∧
    s.process.registry.drained = [⟨10, .function 7, some (.function 7), some (.function 7)⟩] ∧
    HandlersAgree s.process.registry ∧ CallNoted s :=
  ⟨_, rfl, rfl, handlersAgree_of_reachable (.of_run loaded_loaded canonical_float10 rfl)⟩

/-- After `signal("10", f)` nil is called for signal 10. -/
theorem drained_numeral : ∃ s,
    (machine linux).run loaded [.signal [.string "10".toList, .function 7], .arrive 10, .hook,
      .step, .step, .step, .step, .step] = some s ∧
    s.process.registry.drained = [⟨10, .nil, some (.function 7), some .nil⟩] ∧
    ¬ HandlersAgree s.process.registry := by
  refine ⟨_, rfl, rfl, fun h => ?_⟩
  cases h _ (by exact List.mem_singleton.mpr rfl) 7 rfl

end LuaPosix

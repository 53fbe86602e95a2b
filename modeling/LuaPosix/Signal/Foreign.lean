import LuaPosix.Signal.Psignal

/-! # C handlers of other code

`signal` returns a closure for a C handler that other code had installed. Called, it runs that
handler with the signal's number. Given back to `signal` it restores nothing: the builder puts
the number first and the handler second, `Psignal` takes the first upvalue for the handler, and
a number has no user data, so what it installs is NULL. -/

namespace LuaPosix

section Foreign

variable {H : Host} {R R' : Registry} {args : List LuaValue} {c : SigCall} {old : LuaValue}
  {addr : Nat}

/-- What `signal` returns for a C handler of other code. -/
theorem old_eq_of_foreign (hc : checkSignal H args = .ok c)
    (hforeign : (R.sigaction c.sig).sa_handler = .foreign addr)
    (hold : Psignal H args R = .ok ([old], R')) :
    old = .sigHandlerWrap (signoValue c.sig) (.lightuserdata (.foreign addr)) ∧
      H.accepts c.sig := by
  obtain ⟨c', hc', haccepts, -, hv⟩ := Psignal_singleton_iff.mp hold
  rw [hc] at hc'
  cases hc'
  rw [hforeign] at hv
  exact ⟨hv, haccepts⟩

/-- **Calling the closure** runs the C handler with the signal's number. -/
theorem sig_handler_wrap_old (hc : checkSignal H args = .ok c) :
    sig_handler_wrap H (signoValue c.sig) (.lightuserdata (.foreign addr))
      = .ok (.foreign addr, c.sig) := by
  obtain ⟨d, hd⟩ := checkSignal_sig hc
  have hsig : toInt (BitVec.ofInt 64 c.sig) = c.sig := by
    rw [hd, toInt_signoValue]
  rw [sig_handler_wrap, checkupvalue, signoValue]
  exact congrArg (fun sig => Except.ok (CHandler.foreign addr, sig)) hsig

/-- The check takes the number in the closure for the handler. -/
theorem checkSignal_old (hc : checkSignal H args = .ok c)
    (hold : old = .sigHandlerWrap (signoValue c.sig) (.lightuserdata (.foreign addr))) :
    checkSignal H [c.n, old] = .ok ⟨c.n, old, c.sig, .SIG_DFL, 0⟩ := by
  subst hold
  obtain ⟨more, -, hsig, -⟩ := checkSignal_ok hc
  obtain ⟨d, hd, hsig⟩ := Option.map_eq_some_iff.mp hsig
  have hint : checkint H.strtod [c.n, .sigHandlerWrap (signoValue c.sig)
      (.lightuserdata (.foreign addr))] 1 = .ok c.sig := by
    simp [checkint, expectinteger, hd, Except.map, hsig]
  rw [checkSignal, hint]
  rfl

/-- **Giving the closure back** installs NULL, which is `SIG_DFL`, in any state. -/
theorem Psignal_old (hc : checkSignal H args = .ok c) (haccepts : H.accepts c.sig)
    (hold : old = .sigHandlerWrap (signoValue c.sig) (.lightuserdata (.foreign addr)))
    (R : Registry) : ∃ res R', Psignal H [c.n, old] R = .ok (res, R') ∧
      (R'.sigaction c.sig).sa_handler = .SIG_DFL := by
  refine ⟨_, _, Psignal_of_accepts (checkSignal_old hc hold) haccepts R, ?_⟩
  simp [sigaction]

/-- The closure `old` stands for the C handler at `addr` in state `R`: calling it runs that
handler with the signal's number, and giving it back to `signal` installs that handler. -/
def Lossless (H : Host) (c : SigCall) (addr : Nat) (old : LuaValue) (R : Registry) : Prop :=
  (∃ upvalue1 upvalue2, old = .sigHandlerWrap upvalue1 upvalue2 ∧
    sig_handler_wrap H upvalue1 upvalue2 = .ok (.foreign addr, c.sig)) ∧
  ∃ res R', Psignal H [c.n, old] R = .ok (res, R') ∧
    (R'.sigaction c.sig).sa_handler = .foreign addr

/-- **Saving and restoring a C handler of other code loses it**, whatever the handler, the
signal, the call that replaced it and the `signal` calls after that. -/
theorem not_lossless (hc : checkSignal H args = .ok c)
    (hforeign : (R.sigaction c.sig).sa_handler = .foreign addr)
    (hold : Psignal H args R = .ok ([old], R')) (later : List (List LuaValue)) :
    ¬ Lossless H c addr old (later.foldl (signalCall H) R') := by
  rintro ⟨-, res, R₂, hback, hrestored⟩
  obtain ⟨hwrap, haccepts⟩ := old_eq_of_foreign hc hforeign hold
  obtain ⟨res', R₃, hback', hdfl⟩ := Psignal_old hc haccepts hwrap
    (later.foldl (signalCall H) R')
  rw [hback] at hback'
  cases hback'
  rw [hdfl] at hrestored
  cases hrestored

end Foreign

/-- A process where other code handles signal 10. -/
private def foreignUsr1 : Registry :=
  { luaopen with sigaction := fun _ => ⟨.foreign 4096, 0, fun _ => false⟩ }

/-- `old = signal(10, f)`, where `f` is a Lua function. -/
private def replaceUsr1 : SigCall := ⟨.integer 10, .function 7, 10, .sig_postpone, 0⟩

/-- What `signal(10, f)` returns and leaves there. -/
private theorem Psignal_foreignUsr1 : ∃ R,
    Psignal linux [.integer 10, .function 7] foreignUsr1 =
      .ok ([.sigHandlerWrap (.integer 10) (.lightuserdata (.foreign 4096))], R) := ⟨_, rfl⟩

/-- Right after that call the closure does not stand for the handler any more. -/
theorem not_lossless_usr1 : ∃ R,
    Psignal linux [.integer 10, .function 7] foreignUsr1 =
      .ok ([.sigHandlerWrap (.integer 10) (.lightuserdata (.foreign 4096))], R) ∧
    ¬ Lossless linux replaceUsr1 4096
      (.sigHandlerWrap (.integer 10) (.lightuserdata (.foreign 4096))) R := by
  obtain ⟨R, hold⟩ := Psignal_foreignUsr1
  exact ⟨R, hold, not_lossless rfl rfl hold []⟩

/-- `old = signal(10, f)` and then `signal(10, old)` leaves `SIG_DFL`. -/
theorem restore_installs_SIG_DFL : ∃ R R' : Registry,
    Psignal linux [.integer 10, .function 7] foreignUsr1 =
      .ok ([.sigHandlerWrap (.integer 10) (.lightuserdata (.foreign 4096))], R) ∧
    Psignal linux [.integer 10, .sigHandlerWrap (.integer 10) (.lightuserdata (.foreign 4096))] R
      = .ok ([.function 7], R') ∧
    (R'.sigaction 10).sa_handler = .SIG_DFL :=
  ⟨_, _, rfl, rfl, rfl⟩

end LuaPosix

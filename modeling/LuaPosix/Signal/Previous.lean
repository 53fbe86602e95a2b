import LuaPosix.Signal.Psignal

/-! # What `signal` returns

A history of `signal` calls determines which disposition each signal has. A call should return
the one it replaces. It does for the two macros and for C handlers of other code; where a Lua
function was in force it returns what the handlers table holds under its own first argument,
after the new function has been stored there. -/

namespace LuaPosix

/-! ## Dispositions -/

/-- What a process does on a signal. -/
inductive Disposition where
  | default
  | ignore
  | lua (id : Nat)
  | foreign (addr : Nat)
  deriving DecidableEq, Repr

namespace Disposition

/-- The disposition a handler argument asks for: nil, one of the two strings, or a function. -/
def ofArg : LuaValue → Option Disposition
  | .nil => some default
  | .function id => some (lua id)
  | .string s =>
      if s = "SIG_DFL".toList then some default
      else if s = "SIG_IGN".toList then some ignore
      else none
  | _ => none

/-- The C handler that carries a disposition. -/
def handler : Disposition → CHandler
  | default => .SIG_DFL
  | ignore => .SIG_IGN
  | lua _ => .sig_postpone
  | foreign addr => .foreign addr

/-- The disposition of a C handler of other code. -/
def ofHandler : CHandler → Disposition
  | .SIG_IGN => ignore
  | .foreign addr => foreign addr
  | _ => default

/-- The value that denotes a disposition of a signal. -/
def value (sig : Int) : Disposition → LuaValue
  | default => .string "SIG_DFL".toList
  | ignore => .string "SIG_IGN".toList
  | lua id => .function id
  | foreign addr => .sigHandlerWrap (signoValue sig) (.lightuserdata (.foreign addr))

/-- A handler is found by its address, but for the module's own. -/
theorem handler_ofHandler {p : CHandler} (h : p ≠ .sig_postpone) : (ofHandler p).handler = p := by
  cases p with
  | sig_postpone => exact absurd rfl h
  | _ => rfl

/-- The check of the handler argument finds the C handler of its disposition. -/
theorem checkhandler_ofArg {h : LuaValue} {d : Disposition} (hd : ofArg h = some d) (n : LuaValue)
    (more : List LuaValue) : checkhandler (n :: h :: more) = .ok d.handler := by
  cases h with
  | nil =>
      cases hd
      rfl
  | function id =>
      cases hd
      rfl
  | string s =>
      rw [ofArg] at hd
      split_ifs at hd with hdfl hign
      · cases hd
        rw [hdfl]
        rfl
      · cases hd
        rw [hign]
        rfl
  | _ => cases hd

/-- A disposition asked for is carried by `sig_postpone` exactly when a function is. -/
theorem handler_eq_sig_postpone_iff {h : LuaValue} {d : Disposition} (hd : ofArg h = some d) :
    d.handler = .sig_postpone ↔ ∃ id, h = .function id := by
  cases h with
  | function id =>
      cases hd
      exact ⟨fun _ => ⟨id, rfl⟩, fun _ => rfl⟩
  | nil =>
      cases hd
      simp [handler]
  | string s =>
      rw [ofArg] at hd
      split_ifs at hd
      · cases hd
        simp [handler]
      · cases hd
        simp [handler]
  | _ => cases hd

end Disposition

/-! ## Histories -/

/-- A successful call of `signal` and the value it returned. -/
structure Returned where
  call : SigCall
  value : LuaValue

/-- A process that has just loaded the module: the table is empty, and no signal is handled by
`sig_postpone`. -/
structure Fresh (R : Registry) : Prop where
  handlers : R.handlers = fun _ => .nil
  sa_handler : ∀ sig, (R.sigaction sig).sa_handler ≠ .sig_postpone

/-- A run of successful calls with documented handler arguments, latest first. -/
inductive Calls (H : Host) (R₀ : Registry) : List Returned → Registry → Prop
  | nil : Calls H R₀ [] R₀
  | cons {past : List Returned} {R R' : Registry} {c : SigCall} {d : Disposition} {v : LuaValue}
      (args : List LuaValue) (earlier : Calls H R₀ past R)
      (checked : checkSignal H args = .ok c) (asked : Disposition.ofArg c.h = some d)
      (returned : Psignal H args R = .ok ([v], R')) : Calls H R₀ (⟨c, v⟩ :: past) R'

/-- The disposition a history leaves for a signal. -/
def inForce (R₀ : Registry) : List Returned → Int → Disposition
  | [], sig => .ofHandler (R₀.sigaction sig).sa_handler
  | r :: past, sig =>
      if r.call.sig = sig then (Disposition.ofArg r.call.h).getD .default else inForce R₀ past sig

/-- The function last registered under a key, nil when there is none. -/
def lastStored : List SigCall → LuaValue → LuaValue
  | [], _ => .nil
  | c :: past, k => match c.h with
      | .function id => if c.n.key = k then .function id else lastStored past k
      | _ => lastStored past k

/-! ## The two halves of a registration -/

/-- What a history has left in the kernel and in the table. -/
structure Matches (R₀ : Registry) (past : List Returned) (R : Registry) : Prop where
  sa_handler : ∀ sig, (R.sigaction sig).sa_handler = (inForce R₀ past sig).handler
  handlers : ∀ k, R.handlers k = lastStored (past.map Returned.call) k

section Calls

variable {H : Host} {R₀ R R' : Registry} {past : List Returned} {args : List LuaValue}
  {c : SigCall} {d : Disposition} {v : LuaValue}

/-- A documented call registers the disposition it asks for. -/
theorem handler_of_checkSignal (hc : checkSignal H args = .ok c)
    (hd : Disposition.ofArg c.h = some d) : c.handler = d.handler := by
  obtain ⟨more, hargs, -, hhandler⟩ := checkSignal_ok hc
  rw [hargs, Disposition.checkhandler_ofArg hd] at hhandler
  exact (Except.ok.inj hhandler).symm

/-- One call keeps the two halves in step with the history. -/
theorem Matches.step (hR : Matches R₀ past R) (hc : checkSignal H args = .ok c)
    (hd : Disposition.ofArg c.h = some d) :
    Matches R₀ (⟨c, v⟩ :: past) (setLuaHandler c (sigaction c R)) where
  sa_handler := by
    intro sig
    rw [setLuaHandler_sigaction, inForce]
    by_cases hsig : c.sig = sig
    · subst hsig
      simp [sigaction, hd, handler_of_checkSignal hc hd]
    · rw [if_neg hsig]
      simpa [sigaction, Ne.symm hsig] using hR.sa_handler sig
  handlers := by
    intro k
    rw [setLuaHandler_handlers, sigaction_handlers, handler_of_checkSignal hc hd]
    have hstored := hR.handlers k
    -- The table changes exactly when a function is registered.
    by_cases hlua : ∃ id, c.h = .function id
    · rw [if_pos ((Disposition.handler_eq_sig_postpone_iff hd).mpr hlua)]
      obtain ⟨id, hid⟩ := hlua
      rw [List.map_cons, lastStored, hid]
      by_cases hk : c.n.key = k
      · simp [rawset, hk]
      · simpa [rawset, hk, Ne.symm hk] using hstored
    · rw [if_neg (mt (Disposition.handler_eq_sig_postpone_iff hd).mp hlua), hstored,
        List.map_cons, lastStored]
      cases hh : c.h with
      | function id => exact absurd ⟨id, hh⟩ hlua
      | _ => rfl

/-- **Every run keeps the two halves in step with its history.** -/
theorem Calls.matches (h₀ : Fresh R₀) (h : Calls H R₀ past R) : Matches R₀ past R := by
  induction h with
  | nil =>
      refine ⟨fun sig => ?_, fun k => ?_⟩
      · exact (Disposition.handler_ofHandler (h₀.sa_handler sig)).symm
      · rw [h₀.handlers]
        rfl
  | cons args earlier checked asked returned ih =>
      obtain ⟨c, hc, -, rfl, -⟩ := Psignal_singleton_iff.mp returned
      rw [checked] at hc
      cases hc
      exact ih.step checked asked

/-- Whether a call returns what it replaces, by its history: no Lua function is in force, or the
function in force is also the one last registered under the call's own first argument, the call
included. -/
def ReturnsPrevious (R₀ : Registry) (past : List Returned) (c : SigCall) : Prop :=
  ∀ id, inForce R₀ past c.sig = .lua id →
    lastStored (c :: past.map Returned.call) c.n.key = .function id

/-- The value one call returns. -/
theorem Matches.value_iff (hR : Matches R₀ past R) (hc : checkSignal H args = .ok c)
    (hd : Disposition.ofArg c.h = some d) (hv : Psignal H args R = .ok ([v], R')) :
    v = (inForce R₀ past c.sig).value c.sig ↔ ReturnsPrevious R₀ past c := by
  obtain ⟨c', hc', -, rfl, rfl⟩ := Psignal_singleton_iff.mp hv
  rw [hc] at hc'
  cases hc'
  have hstored := (hR.step (v := .nil) hc hd).handlers c.n.key
  rw [hR.sa_handler, ReturnsPrevious]
  -- Only for a Lua function does the value come from the table.
  cases hold : inForce R₀ past c.sig with
  | lua id =>
      rw [Disposition.handler, oldHandler, rawget, hstored, Disposition.value, List.map_cons]
      exact ⟨fun h id' hid => by cases hid; exact h, fun h => h id rfl⟩
  | _ => simp [Disposition.handler, oldHandler, Disposition.value]

/-- **signal returns the previous handler**, in every run, exactly for the calls that meet the
condition: the call returns the disposition its history left in force. -/
theorem signal_returns_previous_iff (h₀ : Fresh R₀) (h : Calls H R₀ past R) (r : Returned)
    (before : List Returned) (hr : r :: before <:+ past) :
    r.value = (inForce R₀ before r.call.sig).value r.call.sig ↔
      ReturnsPrevious R₀ before r.call := by
  induction h with
  | nil => simp at hr
  | cons args earlier checked asked returned ih =>
      rcases List.suffix_cons_iff.mp hr with heq | hsuffix
      · cases heq
        exact (earlier.matches h₀).value_iff checked asked returned
      · exact ih hsuffix

end Calls

/-- The module as it is loaded is fresh. -/
theorem fresh_luaopen : Fresh luaopen where
  handlers := rfl
  sa_handler := by
    intro sig h
    cases h

/-- `signal(10, h)`, checked. -/
private def callUsr1 (h : LuaValue) (handler : CHandler) : SigCall :=
  ⟨.integer 10, h, 10, handler, 0⟩

/-- The first call of `signal(10, f)` returns `"SIG_DFL"`. -/
private def firstUsr1 (id : Nat) : Returned :=
  ⟨callUsr1 (.function id) .sig_postpone, .string "SIG_DFL".toList⟩

/-- `signal(10, f)` and then `signal(10, "SIG_IGN")`. -/
private theorem calls_usr1_ignore : ∃ R, Calls linux luaopen
    [⟨callUsr1 (.string "SIG_IGN".toList) .SIG_IGN, .function 7⟩, firstUsr1 7] R :=
  ⟨_, .cons [.integer 10, .string "SIG_IGN".toList]
    (.cons [.integer 10, .function 7] .nil rfl rfl rfl) rfl rfl rfl⟩

/-- The second call of that run returns `f`. -/
theorem signal_returns_previous_usr1 :
    LuaValue.function 7 = (inForce luaopen [firstUsr1 7] 10).value 10 := by
  obtain ⟨R, h⟩ := calls_usr1_ignore
  refine (signal_returns_previous_iff fresh_luaopen h _ [firstUsr1 7]
    (List.suffix_refl _)).mpr fun id hid => ?_
  cases hid
  rfl

/-- `signal(10, f)` and then `signal(10, g)` returns `g`. -/
theorem signal_returns_new_function :
    ∃ R, Calls linux luaopen [⟨callUsr1 (.function 8) .sig_postpone, .function 8⟩, firstUsr1 7] R ∧
      LuaValue.function 8 ≠ (inForce luaopen [firstUsr1 7] 10).value 10 :=
  ⟨_, .cons [.integer 10, .function 8] (.cons [.integer 10, .function 7] .nil rfl rfl rfl)
    rfl rfl rfl, by decide⟩

end LuaPosix

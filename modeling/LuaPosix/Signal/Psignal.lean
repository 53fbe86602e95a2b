import LuaPosix.Lua.Value

/-! # `posix.signal.signal`

A signal's disposition is kept by the kernel, and the Lua function behind it in a table of the
registry. `Psignal` checks its arguments, asks the kernel for the new disposition, stores a Lua
function under the signal number it was given, and only then looks up what to return. -/

namespace LuaPosix

open LuaPattern (LStr)

/-- `struct sigaction`. -/
structure Sigaction where
  sa_handler : CHandler
  sa_flags : Int
  /-- Whether a signal is blocked while the handler runs. -/
  sa_mask : Int → Bool

/-- What the module is compiled and run on: whether `sigaction(2)` accepts a signal number and
finds `SA_RESETHAND` in the flags, how `strtod` reads a numeral, and how a float prints. -/
structure Host where
  accepts : Int → Bool
  resethand : Int → Bool
  strtod : LStr → Option Rat
  floatText : LuaValue → LStr

/-- One run of a drained signal's handler: the signal, what the handlers table held for it, the
handler of the last successful `signal` call for it, and the value called in its place, none
when the look-up itself raised. -/
structure Drained where
  signo : Int
  registered : LuaValue
  installed : Option LuaValue
  called : Option LuaValue
  deriving DecidableEq, Repr

/-- Where handlers are registered. The last two fields are history: the code neither keeps nor
reads them. -/
structure Registry where
  /-- The kernel's disposition of a signal. -/
  sigaction : Int → Sigaction
  /-- The handlers table of the Lua registry. -/
  handlers : LuaTable
  /-- The handler argument of the last successful `signal` call for a signal. -/
  installed : Int → Option LuaValue
  /-- The drained signals, latest first. -/
  drained : List Drained

/-- The signal number as `lua_pushinteger` pushes it. -/
def signoValue (sig : Int) : LuaValue := .integer (BitVec.ofInt 64 sig)

/-- Linux, without numerals that only `strtod` reads and without the text of floats. There
`SA_RESETHAND` is the sign bit. -/
def linux : Host where
  accepts sig := 1 ≤ sig && sig ≤ 64 && sig != 9 && sig != 19
  resethand flags := flags < 0
  strtod _ := none
  floatText _ := []

/-- `luaopen_posix_signal` in a process where no signal is handled yet. -/
def luaopen : Registry where
  sigaction _ := ⟨.SIG_DFL, 0, fun _ => false⟩
  handlers _ := .nil
  installed _ := none
  drained := []

/-! ## Checking the arguments -/

/-- `Ssigmacros`. -/
def Ssigmacros : List String := ["SIG_DFL", "SIG_IGN"]

/-- `Fsigmacros`. -/
def Fsigmacros : List CHandler := [.SIG_DFL, .SIG_IGN]

/-- "Check handler is OK": the C handler for the handler argument. -/
def checkhandler (args : List LuaValue) : LuaM CHandler :=
  match (args[1]? : Option LuaValue) with
  | some .nil | some (.string _) =>
      -- `checkoption` finds a place in `Ssigmacros`, so the default is never used.
      (checkoption 2 args[1]? "SIG_DFL" Ssigmacros).map fun i => Fsigmacros.getD i .SIG_DFL
  | some (.function _) => .ok .sig_postpone
  -- `lua_getupvalue(L, 2, 1)`: the signal number, as the builder made the closure.
  | some (.sigHandlerWrap upvalue1 _) => .ok upvalue1.touserdata
  | _ => .error (argtypeerror args 2 "function, nil or string")

/-- A checked call of `signal`: its first two arguments, and the C values made of them. -/
structure SigCall where
  n : LuaValue
  h : LuaValue
  sig : Int
  handler : CHandler
  flags : Int
  deriving DecidableEq, Repr

/-- A C `int` survives the way into a Lua value and back. -/
theorem toInt_signoValue (d : LuaInteger) : toInt (BitVec.ofInt 64 (toInt d)) = toInt d := by
  have hd : toInt d = Int.bmod d.toNat (2 ^ 32) := BitVec.toInt_setWidth d
  have hlt : d.toNat < 2 ^ 64 := d.isLt
  rw [toInt, BitVec.toInt_setWidth, BitVec.toNat_ofInt, hd]
  simp only [Int.bmod]
  omega

/-- Signal numbers are told apart by the Lua values made of them. -/
theorem signoValue_inj {d d' : LuaInteger} (h : signoValue (toInt d) = signoValue (toInt d')) :
    toInt d = toInt d' := by
  rw [← toInt_signoValue d, ← toInt_signoValue d']
  exact congrArg toInt (LuaValue.integer.inj h)

section Psignal

variable (H : Host)

/-- The checks of `Psignal`, in their order. -/
def checkSignal (args : List LuaValue) : LuaM SigCall := do
  let sig ← checkint H.strtod args 1
  checknargs args 3
  let handler ← checkhandler args
  let flags ← optint H.strtod args 3 0
  return ⟨args.getD 0 .nil, args.getD 1 .nil, sig, handler, flags⟩

/-- `sigaction(sig, &sa, &oldsa)` with every signal in `sa_mask`. -/
def sigaction (c : SigCall) (R : Registry) : Registry :=
  { R with
    sigaction := Function.update R.sigaction c.sig ⟨c.handler, c.flags, fun _ => true⟩
    installed := Function.update R.installed c.sig (some c.h) }

/-- "Set Lua handler if necessary". -/
def setLuaHandler (c : SigCall) (R : Registry) : Registry :=
  if c.handler = .sig_postpone then { R with handlers := rawset R.handlers c.n c.h } else R

/-- "Push old handler as result". -/
def oldHandler (c : SigCall) (old : CHandler) (R : Registry) : LuaValue :=
  match old with
  -- The table already has what this call stores.
  | .sig_postpone => rawget R.handlers c.n
  | .SIG_DFL => .string "SIG_DFL".toList
  | .SIG_IGN => .string "SIG_IGN".toList
  | .foreign addr => .sigHandlerWrap (signoValue c.sig) (.lightuserdata (.foreign addr))

/-- `Psignal`: its results and what it leaves registered. It raises before it changes anything. -/
def Psignal (args : List LuaValue) (R : Registry) : LuaM (List LuaValue × Registry) := do
  let c ← checkSignal H args
  if H.accepts c.sig then
    let old := (R.sigaction c.sig).sa_handler
    let R := setLuaHandler c (sigaction c R)
    return ([oldHandler c old R], R)
  else return ([], R)

/-- A `signal` call as a statement: what it leaves registered, whether it raises or not. -/
def signalCall (R : Registry) (args : List LuaValue) : Registry :=
  match Psignal H args R with
  | .ok (_, R) => R
  | .error _ => R

/-- `luaL_checkinteger` on an upvalue. The error names a pseudo-index, which is left out. -/
def checkupvalue (upvalue : LuaValue) : LuaM LuaInteger :=
  match upvalue.tointegerx H.strtod with
  | some d => .ok d
  | none =>
      if upvalue.isnumber H.strtod then .error (.error "number has no integer representation")
      else .error (.error ("number expected, got " ++ LuaValue.typename (some upvalue)))

/-- `sig_handler_wrap`, called as the closure over its two upvalues: the C handler it calls and
the number it passes. -/
def sig_handler_wrap (upvalue1 upvalue2 : LuaValue) : LuaM (CHandler × Int) :=
  (checkupvalue H upvalue1).map fun sig => (upvalue2.touserdata, toInt sig)

/-! ## What a call does -/

variable {H} {args : List LuaValue} {c : SigCall} {R R' : Registry} {res : List LuaValue}

/-- A checked call has a signal number that converts, a handler, and at most one argument more. -/
theorem checkSignal_ok (h : checkSignal H args = .ok c) :
    ∃ more, args = c.n :: c.h :: more ∧
      (c.n.tointegerx H.strtod).map toInt = some c.sig ∧ checkhandler args = .ok c.handler := by
  obtain ⟨sig, hsig, h⟩ := LuaM.bind_eq_ok.mp h
  obtain ⟨-, -, h⟩ := LuaM.bind_eq_ok.mp h
  obtain ⟨handler, hhandler, h⟩ := LuaM.bind_eq_ok.mp h
  obtain ⟨flags, -, h⟩ := LuaM.bind_eq_ok.mp h
  cases h
  match args, hsig, hhandler with
  | [], hsig, _ => cases hsig
  | [n], _, hhandler => cases hhandler
  | n :: h :: more, hsig, hhandler =>
      refine ⟨more, rfl, ?_, hhandler⟩
      rw [checkint, expectinteger] at hsig
      cases hn : n.tointegerx H.strtod with
      | none =>
          simp [hn] at hsig
          cases hsig
      | some d => simpa [hn, Except.map] using hsig

/-- A checked signal number is a C `int`. -/
theorem checkSignal_sig (hc : checkSignal H args = .ok c) : ∃ d, c.sig = toInt d := by
  obtain ⟨more, -, hsig, -⟩ := checkSignal_ok hc
  obtain ⟨d, -, hd⟩ := Option.map_eq_some_iff.mp hsig
  exact ⟨d, hd.symm⟩

/-- **What a call does**: it leaves everything as it was when the kernel refuses, and else
registers the handler and returns one value. -/
theorem Psignal_ok_iff :
    Psignal H args R = .ok (res, R') ↔ ∃ c, checkSignal H args = .ok c ∧
      if H.accepts c.sig then
        R' = setLuaHandler c (sigaction c R) ∧
          res = [oldHandler c (R.sigaction c.sig).sa_handler R']
      else R' = R ∧ res = [] := by
  rw [Psignal, LuaM.bind_eq_ok]
  refine exists_congr fun c => and_congr_right fun _ => ?_
  by_cases hsig : H.accepts c.sig
  · rw [if_pos hsig, if_pos hsig]
    constructor
    · intro h
      cases h
      exact ⟨rfl, rfl⟩
    · rintro ⟨rfl, rfl⟩
      rfl
  · rw [if_neg hsig, if_neg hsig]
    constructor
    · intro h
      cases h
      exact ⟨rfl, rfl⟩
    · rintro ⟨rfl, rfl⟩
      rfl

/-- A call that returns a value was accepted. -/
theorem Psignal_singleton_iff {v : LuaValue} :
    Psignal H args R = .ok ([v], R') ↔ ∃ c, checkSignal H args = .ok c ∧ H.accepts c.sig ∧
      R' = setLuaHandler c (sigaction c R) ∧
      v = oldHandler c (R.sigaction c.sig).sa_handler R' := by
  rw [Psignal_ok_iff]
  refine exists_congr fun c => and_congr_right fun _ => ?_
  by_cases hsig : H.accepts c.sig
  · simp [hsig]
  · simp [hsig]

/-- An accepted call. -/
theorem Psignal_of_accepts (hc : checkSignal H args = .ok c) (haccepts : H.accepts c.sig)
    (R : Registry) :
    Psignal H args R = .ok ([oldHandler c (R.sigaction c.sig).sa_handler
      (setLuaHandler c (sigaction c R))], setLuaHandler c (sigaction c R)) :=
  Psignal_singleton_iff.mpr ⟨c, hc, haccepts, rfl, rfl⟩

/-- The disposition a call leaves. -/
@[simp] theorem setLuaHandler_sigaction (c : SigCall) (R : Registry) :
    (setLuaHandler c R).sigaction = R.sigaction := by
  rw [setLuaHandler]
  split_ifs <;> rfl

/-- Storing the Lua handler installs nothing. -/
@[simp] theorem setLuaHandler_installed (c : SigCall) (R : Registry) :
    (setLuaHandler c R).installed = R.installed := by
  rw [setLuaHandler]
  split_ifs <;> rfl

/-- It handles nothing. -/
@[simp] theorem setLuaHandler_drained (c : SigCall) (R : Registry) :
    (setLuaHandler c R).drained = R.drained := by
  rw [setLuaHandler]
  split_ifs <;> rfl

/-- `sigaction` leaves the Lua handlers alone. -/
@[simp] theorem sigaction_handlers (c : SigCall) (R : Registry) :
    (sigaction c R).handlers = R.handlers := rfl

/-- It installs the one handler. -/
@[simp] theorem sigaction_installed (c : SigCall) (R : Registry) :
    (sigaction c R).installed = Function.update R.installed c.sig (some c.h) := rfl

/-- It handles nothing. -/
@[simp] theorem sigaction_drained (c : SigCall) (R : Registry) :
    (sigaction c R).drained = R.drained := rfl

/-- The table a call leaves. -/
theorem setLuaHandler_handlers (c : SigCall) (R : Registry) :
    (setLuaHandler c R).handlers
      = if c.handler = .sig_postpone then rawset R.handlers c.n c.h else R.handlers := by
  rw [setLuaHandler]
  split_ifs <;> rfl

end Psignal

end LuaPosix

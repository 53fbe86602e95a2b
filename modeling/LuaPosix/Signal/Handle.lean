import LuaPosix.Signal.Psignal

/-! # Postponed signals

The C handler `sig_postpone` queues a signal and sets the debug hook; the hook, `sig_handle`,
blocks every signal, calls the Lua handler of each queued one, latest first, and restores the
signal mask. It works on the Lua stack: the handlers table is expected right below the pushed
signal number, and a handler that raises leaves its error value there. -/

namespace LuaPosix

open LuaPattern (LStr)

/-- `SIGNAL_QUEUE_MAX`. -/
def SIGNAL_QUEUE_MAX : Int := 25

/-- The static variables of the module. -/
structure Statics where
  signal_pending : Int
  defer_signal : Int
  signal_count : Int
  signals : Int → Int

/-- A process as far as signals are concerned. -/
structure Process where
  registry : Registry
  statics : Statics
  /-- Whether the debug hook is set, to `sig_handle`. -/
  hook : Bool
  /-- The signal mask: which signals are blocked. -/
  mask : Int → Bool
  /-- Signals the process has raised on itself. -/
  raised : List Int

/-- `sig_postpone(i)`. It runs to its end before anything else of the process does. -/
def sig_postpone (i : Int) (p : Process) : Process :=
  let s := p.statics
  if s.defer_signal ≠ 0 then { p with statics := { s with signal_pending := i } }
  -- A full queue drops the signal.
  else if s.signal_count = SIGNAL_QUEUE_MAX then p
  else
    let s := { s with defer_signal := s.defer_signal + 1 }
    let s := { s with signals := Function.update s.signals s.signal_count i }
    let s := { s with signal_count := s.signal_count + 1 }
    let s := { s with defer_signal := s.defer_signal - 1 }
    let p := { p with statics := s, hook := true }
    -- "re-raise any pending signals"
    if s.defer_signal = 0 ∧ s.signal_pending ≠ 0 then
      { p with raised := p.raised ++ [s.signal_pending] }
    else p

/-! ## The interpreter around the hook -/

/-- What a called value does: the calls of `signal` it makes, and how it ends. -/
structure Outcome where
  calls : List (List LuaValue)
  result : Except LuaValue Unit
  deriving DecidableEq

/-- A call of nil. -/
def callNil : Outcome := ⟨[], .error (.string "attempt to call a nil value".toList)⟩

/-- The Lua program a hook runs in, as a function of the signals drained so far: what a value
does when it is called with a signal number, and what indexing a value other than the handlers
table with one yields. -/
structure Program where
  call : List Drained → LuaValue → Int → Outcome
  index : List Drained → LuaValue → Int → Except LuaValue LuaValue

/-- The handlers table, as a value. -/
def handlersTable : LuaValue := .table 0

/-- The decimal digits of an integer. -/
def integerText (i : LuaInteger) : LStr := (toString i.toInt).toList

section Handle

variable (H : Host) (P : Program)

/-- `lua_tostring(L, -1)` turns a number on the stack into its text. -/
def tostringTop : LuaValue → LuaValue
  | .integer i => .string (integerText i)
  | .float q => .string (H.floatText (.float q))
  | .nonfinite => .string (H.floatText .nonfinite)
  | v => v

/-- `lua_gettable` of a signal number from the value `t`. -/
def gettable (R : Registry) (t : LuaValue) (signo : Int) : Except LuaValue LuaValue :=
  if t = handlersTable then .ok (rawget R.handlers (signoValue signo))
  else P.index R.drained t signo

/-- A call of the value `f` with a signal number. Nil cannot be called. -/
def callValue (R : Registry) (f : LuaValue) (signo : Int) : Outcome :=
  if f = .nil then callNil else P.call R.drained f signo

/-- Write down a drained signal and the value called for it. -/
def noteDrained (R : Registry) (signo : Int) (called : Option LuaValue) : Registry :=
  { R with drained :=
      ⟨signo, rawget R.handlers (signoValue signo), R.installed signo, called⟩ :: R.drained }

/-- The body of the loop: look the handler up in the value on top of the stack and call it. The
error value of a handler that raised stays on the stack; an error of the look-up leaves
`sig_handle` altogether. -/
def handleEntry (signo : Int) (stack : List LuaValue) (R : Registry) :
    Except LuaValue (List LuaValue) × Registry :=
  match gettable P R (stack.headD .nil) signo with
  | .error e => (.error e, noteDrained R signo none)
  | .ok f =>
      -- `lua_pcall` takes the function and the number off the stack, whatever happens.
      let R := noteDrained R signo (some f)
      let o := callValue P R f signo
      let R := o.calls.foldl (signalCall H) R
      match o.result with
      | .ok () => (.ok stack, R)
      | .error e => (.ok (tostringTop H e :: stack), R)

/-- The loop, `while (signal_count--)`. It runs once for each queued signal and once more to
find the queue empty; a negative count would keep it running. -/
def handleLoop : (fuel : Nat) → List LuaValue → Process → Option (Except LuaValue Unit × Process)
  | 0, _, _ => none
  | fuel + 1, stack, p =>
      let old := p.statics.signal_count
      let p := { p with statics := { p.statics with signal_count := old - 1 } }
      -- The test reads the old count, and has already stored one less.
      if old = 0 then some (.ok (), p)
      else
        let signo := p.statics.signals p.statics.signal_count
        match handleEntry H P signo stack p.registry with
        | (.error e, R) => some (.error e, { p with registry := R })
        | (.ok stack, R) => handleLoop fuel stack { p with registry := R }

/-- `sig_handle`, none where it does not return: its end or the error that escapes, and the
process it leaves. -/
def sig_handle (p : Process) : Option (Except LuaValue Unit × Process) := do
  let oldmask := p.mask
  let p := { p with mask := fun _ => true }
  let p := { p with hook := false }
  match ← handleLoop H P (p.statics.signal_count.toNat + 1) [handlersTable] p with
  | (.error e, p) => return (.error e, p)
  | (.ok (), p) =>
      let p := { p with statics := { p.statics with signal_count := 0 } }
      return (.ok (), { p with mask := oldmask })

end Handle

end LuaPosix

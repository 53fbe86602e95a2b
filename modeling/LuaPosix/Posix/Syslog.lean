import LuaPosix.Base.Bitwise
import LuaPosix.Lib.Pool
import LuaPosix.Lib.Simulation
import LuaPosix.Lua.Binding
import LuaPosix.Lua.Results

/-! # The system logger

`openlog` of the C library keeps a pointer to the text that all messages start with. `Popenlog`
hands it a copy of a Lua string and keeps another copy in the registry, so that the collector does
not take it: that is enough where the interpreter makes one string of the two. Then a program
logs what it would with a logger that remembers the text, and else some program does not. -/

namespace LuaPosix.Syslog

open LuaPattern (LStr)

/-! ## The C library -/

/-- The calls of the C library. -/
inductive LogCall where
  | openlog (option facility : BitVec 32)
  | syslog (priority : BitVec 32)
  | closelog
  | setlogmask (mask : BitVec 32)
  deriving DecidableEq

/-- A message, as it is written. -/
structure Entry where
  /-- What it starts with; without one it is the name of the program. -/
  ident : Option LStr
  option : BitVec 32
  priority : BitVec 32
  message : LStr
  deriving DecidableEq

/-- The bits of a priority for its level, and for its facility. -/
def LOG_PRIMASK : BitVec 32 := 0x7

/-- `LOG_FACMASK`. -/
def LOG_FACMASK : BitVec 32 := 0x3f8

/-- A priority is made of a level and a facility. -/
def Proper (priority : BitVec 32) : Prop := priority &&& ~~~(LOG_PRIMASK ||| LOG_FACMASK) = 0

/-- Whether a priority is proper can be decided. -/
instance (p : BitVec 32) : Decidable (Proper p) := inferInstanceAs (Decidable (_ = _))

/-- What is left to the C library. -/
structure CLib where
  LOG_USER : BitVec 32
  /-- The default facility after `openlog`, from the one before and the one given. -/
  facility : BitVec 32 → BitVec 32 → BitVec 32
  /-- The messages that `syslog` makes of one, with their priorities: of a priority with other bits
  it may make none, or log another one about them. -/
  messages : (priority : BitVec 32) → (message : LStr) → List (BitVec 32 × LStr)
  messages_proper : ∀ priority message, Proper priority →
    messages priority message = [(priority, message)]
  /-- `closelog` forgets the text. -/
  forgets : Bool

/-- The strings of the interpreter, its registry and the variables of the C library. -/
structure Logger where
  strings : Pool LStr
  /-- The slot of `openlog` in the registry. -/
  slot : Option Nat
  /-- `LogTag`, a pointer to the bytes of a string. -/
  tag : Option Nat
  option : BitVec 32
  facility : BitVec 32
  mask : BitVec 32
  logged : List Entry

/-- The level of a priority. -/
def level (priority : BitVec 32) : Nat := (priority &&& LOG_PRIMASK).toNat

/-- The priority with the default facility, if it has none of its own. -/
def withFacility (facility priority : BitVec 32) : BitVec 32 :=
  if priority &&& LOG_FACMASK = 0 then priority ||| facility else priority

/-- A string with the text: the interpreter may find one that is there already. -/
def push (found : Option Nat) (text : LStr) (P : Pool LStr) : Nat × Pool LStr :=
  match found.filter fun i => P.live i = some text with
  | some i => (i, P)
  | none => P.make text

/-- What runs on the logger. -/
abbrev LogM := BindingM Logger LogCall

/-- `openlog(ident, option, facility)`: the pointer is kept. -/
def openlog (C : CLib) (ident : Nat) (option facility : BitVec 32) : LogM Unit :=
  BindingM.libcall (.openlog option facility) fun s =>
    ((), { s with
      tag := some ident, option := option, facility := C.facility s.facility facility })

/-- A message is written; the pointer is followed. -/
def Logger.write (s : Logger) (priority : BitVec 32) (msg : LStr) : Logger :=
  let read : Option LStr × Pool LStr := match s.tag with
    | none => (none, s.strings)
    | some i => s.strings.use i none fun text => (some text, text)
  { s with
    strings := read.2
    logged := s.logged ++ [⟨read.1, s.option, withFacility s.facility priority, msg⟩] }

/-- A message is written if the mask has its level. -/
def Logger.note (s : Logger) (m : BitVec 32 × LStr) : Logger :=
  if s.mask.getLsbD (level m.1) then s.write m.1 m.2 else s

/-- `syslog(priority, "%s", msg)`. -/
def syslog (C : CLib) (priority : BitVec 32) (msg : LStr) : LogM Unit :=
  BindingM.libcall (.syslog priority) fun s => ((), (C.messages priority msg).foldl Logger.note s)

/-- `closelog()`. -/
def closelog (C : CLib) : LogM Unit :=
  BindingM.libcall .closelog fun s => ((), if C.forgets then { s with tag := none } else s)

/-- `setlogmask(mask)`: the mask before. A mask of 0 only asks for it. -/
def setlogmask (mask : BitVec 32) : LogM (BitVec 32) :=
  BindingM.libcall (.setlogmask mask) fun s =>
    (s.mask, if mask = 0 then s else { s with mask := mask })

/-! ## The functions -/

section Model

variable (N : Numerals) (strerror : Int → LStr) (C : CLib)

/-- `lua_pushstring`. -/
def pushstring (found : Option Nat) (text : LStr) : LogM Nat := fun w =>
  .ok (push found text w.sys.strings).1 { w with
    sys := { w.sys with strings := (push found text w.sys.strings).2 } }

/-- `lua_rawset` on the registry slot. -/
def setslot (i : Nat) : LogM Unit := fun w =>
  .ok () { w with sys := { w.sys with slot := some i } }

/-- `openlog(ident, [option, [facility]])`. The second string is the first one, if the interpreter
makes one of them. -/
def Popenlog (interns : LStr → Bool) (found : Option Nat) (args : List LuaValue) :
    LogM (List LuaValue) := do
  let ident ← checklstring args N.numberText 1
  let option ← optint N.strtod args 2 0
  let facility ← optint N.strtod args 3 C.LOG_USER.toInt
  checknargs args 3
  let i ← pushstring found (cstring ident)
  setslot i
  let j ← pushstring (if interns (cstring ident) then some i else none) (cstring ident)
  openlog C j (BitVec.ofInt 32 option) (BitVec.ofInt 32 facility)
  return []

/-- `syslog(priority, message)`. -/
def Psyslog (args : List LuaValue) : LogM (List LuaValue) := do
  let priority ← checkint N.strtod args 1
  let msg ← checklstring args N.numberText 2
  checknargs args 2
  syslog C (BitVec.ofInt 32 priority) (cstring msg)
  return []

/-- `closelog()`. -/
def Pcloselog (args : List LuaValue) : LogM (List LuaValue) := do
  checknargs args 0
  closelog C
  return []

/-- `setlogmask([mask])`. -/
def Psetlogmask (args : List LuaValue) : LogM (List LuaValue) := do
  checknargs args 1
  let mask ← optint N.strtod args 1 0
  let before ← setlogmask (BitVec.ofInt 32 mask)
  return pushresult strerror (← BindingM.errno) (some "setlogmask".toList) before.toInt

end Model

/-! ## Strings that are there already -/

section Strings

variable {P : Pool LStr} {found : Option Nat} {text t : LStr} {i : Nat}

/-- A text that is interned already is found, any other is made. -/
theorem push_cases (found : Option Nat) (text : LStr) (P : Pool LStr) :
    (∃ i, P.live i = some text ∧ push found text P = (i, P)) ∨ push found text P = P.make text := by
  rw [push]
  cases hfound : found.filter fun i => P.live i = some text with
  | none => exact .inr rfl
  | some i =>
      have hlive := (Option.filter_eq_some_iff.mp hfound).2
      exact .inl ⟨i, of_decide_eq_true hlive, rfl⟩

variable (P found text) in
/-- The string is there, with its text. -/
theorem live_push : (push found text P).2.live (push found text P).1 = some text := by
  rcases push_cases found text P with ⟨i, hlive, hpush⟩ | hpush
  · rw [hpush]
    exact hlive
  · rw [hpush]
    exact Function.update_self _ _ _

/-- Pushing a text keeps the pool sound. -/
theorem sound_push (h : P.Sound) : (push found text P).2.Sound := by
  rcases push_cases found text P with ⟨_, -, hpush⟩ | hpush
  · rw [hpush]
    exact h
  · rw [hpush]
    exact h.make text

/-- It misuses no string. -/
theorem misused_push : (push found text P).2.misused = P.misused := by
  rcases push_cases found text P with ⟨_, -, hpush⟩ | hpush
  · rw [hpush]
  · rw [hpush]
    rfl

/-- A string that is found is pushed again. -/
theorem push_self (h : P.live i = some text) : push (some i) text P = (i, P) := by
  have hfilter : (some i).filter (fun i => decide (P.live i = some text)) = some i := by
    rw [Option.filter_some, if_pos (decide_eq_true h)]
  rw [push, hfilter]

end Strings

/-! ## A logger that remembers the text -/

/-- The logger as a program sees it. -/
@[ext] structure Log where
  ident : Option LStr
  option : BitVec 32
  facility : BitVec 32
  mask : BitVec 32
  logged : List Entry

/-- What can happen to it. -/
inductive Event where
  | openlog (ident : LStr) (option facility : BitVec 32)
  | syslog (priority : BitVec 32) (message : LStr)
  | closelog
  | setlogmask (mask : BitVec 32)

/-- The message that the logger writes. -/
def Log.entry (a : Log) (priority : BitVec 32) (message : LStr) : Entry :=
  ⟨a.ident, a.option, withFacility a.facility priority, message⟩

/-- A message is written if the mask has its level. -/
def Log.note (a : Log) (m : BitVec 32 × LStr) : Log :=
  if a.mask.getLsbD (level m.1) then { a with logged := a.logged ++ [a.entry m.1 m.2] } else a

/-- The logger after an event. -/
def Log.after (C : CLib) (a : Log) : Event → Log
  | .openlog ident option facility =>
      { a with ident := some ident, option := option, facility := C.facility a.facility facility }
  | .syslog priority message => (C.messages priority message).foldl Log.note a
  | .closelog => if C.forgets then { a with ident := none } else a
  | .setlogmask mask => if mask = 0 then a else { a with mask := mask }

/-- The machine. -/
def Log.machine (C : CLib) : Machine Log Event where
  init _ := True
  next a e := some (a.after C e)

/-- What the variables of the C library stand for. -/
def Logger.log (s : Logger) : Log :=
  ⟨s.tag.bind s.strings.live, s.option, s.facility, s.mask, s.logged⟩

/-! ## What the functions do -/

section Functions

variable (N : Numerals) (strerror : Int → LStr) (C : CLib) (interns : LStr → Bool)

/-- The event that the arguments of a call stand for, or their error. -/
def openlogEvent (args : List LuaValue) : LuaM Event := do
  let ident ← checklstring args N.numberText 1
  let option ← optint N.strtod args 2 0
  let facility ← optint N.strtod args 3 C.LOG_USER.toInt
  checknargs args 3
  return .openlog (cstring ident) (BitVec.ofInt 32 option) (BitVec.ofInt 32 facility)

/-- What `syslog` asks for. -/
def syslogEvent (args : List LuaValue) : LuaM Event := do
  let priority ← checkint N.strtod args 1
  let message ← checklstring args N.numberText 2
  checknargs args 2
  return .syslog (BitVec.ofInt 32 priority) (cstring message)

/-- What `closelog` asks for. -/
def closelogEvent (args : List LuaValue) : LuaM Event := do
  checknargs args 0
  return .closelog

/-- What `setlogmask` asks for. -/
def setlogmaskEvent (args : List LuaValue) : LuaM Event := do
  checknargs args 1
  let mask ← optint N.strtod args 1 0
  return .setlogmask (BitVec.ofInt 32 mask)

/-- The text of a request is a C string. -/
theorem openlogEvent_eq_ok {args : List LuaValue} {e : Event} (h : openlogEvent N C args = .ok e) :
    ∃ text option facility, e = .openlog (cstring text) option facility := by
  obtain ⟨text, -, h⟩ := LuaM.bind_eq_ok.mp h
  obtain ⟨option, -, h⟩ := LuaM.bind_eq_ok.mp h
  obtain ⟨facility, -, h⟩ := LuaM.bind_eq_ok.mp h
  obtain ⟨-, -, h⟩ := LuaM.bind_eq_ok.mp h
  exact ⟨text, _, _, (Except.ok.inj h).symm⟩

/-- Only `openlog` has a text of its own. -/
theorem syslogEvent_eq_ok {args : List LuaValue} {e : Event} (h : syslogEvent N args = .ok e) :
    ∃ priority message, e = .syslog priority message := by
  obtain ⟨priority, -, h⟩ := LuaM.bind_eq_ok.mp h
  obtain ⟨message, -, h⟩ := LuaM.bind_eq_ok.mp h
  obtain ⟨-, -, h⟩ := LuaM.bind_eq_ok.mp h
  exact ⟨_, _, (Except.ok.inj h).symm⟩

/-- `closelog` asks for one thing. -/
theorem closelogEvent_eq_ok {args : List LuaValue} {e : Event} (h : closelogEvent args = .ok e) :
    e = .closelog := by
  obtain ⟨-, -, h⟩ := LuaM.bind_eq_ok.mp h
  exact (Except.ok.inj h).symm

/-- `setlogmask` sets a mask. -/
theorem setlogmaskEvent_eq_ok {args : List LuaValue} {e : Event}
    (h : setlogmaskEvent N args = .ok e) : ∃ mask, e = .setlogmask mask := by
  obtain ⟨-, -, h⟩ := LuaM.bind_eq_ok.mp h
  obtain ⟨mask, -, h⟩ := LuaM.bind_eq_ok.mp h
  exact ⟨_, (Except.ok.inj h).symm⟩

/-- The logger after an event. The first string found for a text is `found`. -/
def Logger.after (found : Option Nat) (s : Logger) : Event → Logger
  | .openlog ident option facility =>
      let first := push found ident s.strings
      let second := push (if interns ident then some first.1 else none) ident first.2
      { s with
        strings := second.2, slot := some first.1, tag := some second.1
        option := option, facility := C.facility s.facility facility }
  | .syslog priority message => (C.messages priority message).foldl Logger.note s
  | .closelog => if C.forgets then { s with tag := none } else s
  | .setlogmask mask => if mask = 0 then s else { s with mask := mask }

/-- A call does what its arguments ask for, or raises their error and does nothing. -/
def Does (found : Option Nat) (event : LuaM Event) (call : LogM (List LuaValue)) : Prop :=
  ∀ w, (BindingM.worldAfter (call.run w)).sys = match event with
    | .ok e => w.sys.after C interns found e
    | .error _ => w.sys

/-- `openlog` does what it asks for. -/
theorem does_Popenlog (found : Option Nat) (args : List LuaValue) :
    Does C interns found (openlogEvent N C args) (Popenlog N C interns found args) := by
  intro w
  rw [openlogEvent, Popenlog]
  cases checklstring args N.numberText 1 with
  | error e => rfl
  | ok ident =>
      cases optint N.strtod args 2 0 with
      | error e => rfl
      | ok option =>
          cases optint N.strtod args 3 C.LOG_USER.toInt with
          | error e => rfl
          | ok facility => cases checknargs args 3 <;> rfl

/-- So does `syslog`. -/
theorem does_Psyslog (args : List LuaValue) :
    Does C interns none (syslogEvent N args) (Psyslog N C args) := by
  intro w
  rw [syslogEvent, Psyslog]
  cases checkint N.strtod args 1 with
  | error e => rfl
  | ok priority =>
      cases checklstring args N.numberText 2 with
      | error e => rfl
      | ok message => cases checknargs args 2 <;> rfl

/-- So does `closelog`. -/
theorem does_Pcloselog (args : List LuaValue) :
    Does C interns none (closelogEvent args) (Pcloselog C args) := by
  intro w
  rw [closelogEvent, Pcloselog]
  cases checknargs args 0 <;> rfl

/-- So does `setlogmask`. -/
theorem does_Psetlogmask (args : List LuaValue) :
    Does C interns none (setlogmaskEvent N args) (Psetlogmask N strerror args) := by
  intro w
  rw [setlogmaskEvent, Psetlogmask]
  cases checknargs args 1 with
  | error e => rfl
  | ok _ => cases optint N.strtod args 1 0 <;> rfl

end Functions

/-! ## A program with its collector -/

section Programs

variable (N : Numerals) (strerror : Int → LStr) (C : CLib) (interns : LStr → Bool)

/-- What a program can do. -/
inductive Label where
  /-- `openlog`, where the interpreter finds `found` for the text. -/
  | openlog (found : Option Nat) (args : List LuaValue)
  | syslog (args : List LuaValue)
  | closelog (args : List LuaValue)
  | setlogmask (args : List LuaValue)
  /-- It makes a string of its own. -/
  | string (text : LStr)
  /-- The collector takes a string. -/
  | collect (i : Nat)

/-- The program: what a call raises is caught. The collector takes any string that is not in the
registry, as the program may have dropped the others. -/
def machine : Machine (World Logger LogCall) Label where
  init w := w.sys.slot = none ∧ w.sys.tag = none ∧ w.sys.mask = 0xff ∧ w.sys.strings.Sound ∧
    w.sys.strings.misused = false
  next w
    | .openlog found args =>
        some (BindingM.worldAfter ((Popenlog N C interns found args).run w))
    | .syslog args => some (BindingM.worldAfter ((Psyslog N C args).run w))
    | .closelog args => some (BindingM.worldAfter ((Pcloselog C args).run w))
    | .setlogmask args => some (BindingM.worldAfter ((Psetlogmask N strerror args).run w))
    | .string text => some { w with sys := { w.sys with strings := (w.sys.strings.make text).2 } }
    | .collect i =>
        if w.sys.strings.live i ≠ none ∧ w.sys.slot ≠ some i then
          some { w with sys := { w.sys with strings := w.sys.strings.release i } }
        else none

/-- The event that a step stands for: none where a call raises an error. -/
def Label.events : Label → List Event
  | .openlog _ args => (openlogEvent N C args).toOption.toList
  | .syslog args => (syslogEvent N args).toOption.toList
  | .closelog args => (closelogEvent args).toOption.toList
  | .setlogmask args => (setlogmaskEvent N args).toOption.toList
  | .string _ | .collect _ => []

end Programs

/-! ## Where the interpreter makes one string of two -/

section Interned

variable {N : Numerals} {strerror : Int → LStr} {C : CLib} {interns : LStr → Bool} {s : Logger}
  {w w' : World Logger LogCall}

/-- The text is kept alive by the registry. -/
structure Logger.Rooted (s : Logger) : Prop where
  sound : s.strings.Sound
  unmisused : s.strings.misused = false
  tag : ∀ i, s.tag = some i → s.slot = some i
  slot : ∀ i, s.slot = some i → s.strings.live i ≠ none

/-- The text is one that the interpreter makes one string of. -/
def Event.Interned (interns : LStr → Bool) : Event → Prop
  | .openlog ident _ _ => interns ident = true
  | _ => True

/-- Following the pointer finds the text. -/
theorem Logger.Rooted.write (h : s.Rooted) (priority : BitVec 32) (message : LStr) :
    (s.write priority message).Rooted ∧ (s.write priority message).log
      = { s.log with logged := s.logged ++ [s.log.entry priority message] } := by
  rw [Logger.write]
  cases htag : s.tag with
  | none =>
      refine ⟨⟨h.sound, h.unmisused, fun i hi => (nomatch hi), h.slot⟩, ?_⟩
      simp [Logger.log, Log.entry, htag]
  | some i =>
      obtain ⟨text, hlive⟩ := Option.ne_none_iff_exists'.mp (h.slot i (h.tag i htag))
      -- reading leaves the string as it was
      have huse : s.strings.use i none (fun text => (some text, text))
          = (some text, s.strings) := by
        rw [Pool.use_of_live hlive, Function.update_eq_self_iff.mpr hlive.symm]
      simp only [huse]
      refine ⟨⟨h.sound, h.unmisused, fun j hj => ?_, h.slot⟩, ?_⟩
      · exact h.tag j (htag.trans hj)
      · simp [Logger.log, Log.entry, htag, hlive]

/-- A message that is noted leaves the text where it was. -/
theorem Logger.Rooted.note (h : s.Rooted) (m : BitVec 32 × LStr) :
    (s.note m).Rooted ∧ (s.note m).log = s.log.note m := by
  rw [Logger.note, Log.note]
  by_cases hmask : s.mask.getLsbD (level m.1) = true
  · rw [if_pos hmask, if_pos (show s.log.mask.getLsbD _ = true from hmask)]
    exact h.write m.1 m.2
  · rw [if_neg hmask, if_neg (show ¬s.log.mask.getLsbD _ = true from hmask)]
    exact ⟨h, rfl⟩

/-- And so does noting one message after the other. -/
theorem Logger.Rooted.notes (h : s.Rooted) (ms : List (BitVec 32 × LStr)) :
    (ms.foldl Logger.note s).Rooted ∧ (ms.foldl Logger.note s).log = ms.foldl Log.note s.log := by
  induction ms generalizing s with
  | nil => exact ⟨h, rfl⟩
  | cons m ms ih =>
      obtain ⟨hrooted, hlog⟩ := h.note m
      rw [List.foldl_cons, List.foldl_cons, ← hlog]
      exact ih hrooted

/-- **Every event** keeps the text alive, and is what it is for the logger that remembers it. -/
theorem Logger.Rooted.after (h : s.Rooted) {e : Event} (he : e.Interned interns)
    (found : Option Nat) :
    (s.after C interns found e).Rooted ∧ (s.after C interns found e).log = s.log.after C e := by
  cases e with
  | openlog ident option facility =>
      have hlive := live_push s.strings found ident
      have hself := push_self hlive
      have hinterns : interns ident = true := he
      simp only [Logger.after, if_pos hinterns, hself]
      refine ⟨⟨sound_push h.sound, misused_push.trans h.unmisused, fun i hi => hi, ?_⟩, ?_⟩
      · intro i hi
        obtain rfl := Option.some.inj hi
        rw [hlive]
        exact Option.some_ne_none _
      · simp [Logger.log, Log.after, hlive]
  | syslog priority message => exact h.notes _
  | closelog =>
      rw [Logger.after, Log.after]
      split_ifs
      · exact ⟨⟨h.sound, h.unmisused, fun i hi => (nomatch hi), h.slot⟩, rfl⟩
      · exact ⟨h, rfl⟩
  | setlogmask mask =>
      rw [Logger.after, Log.after]
      split_ifs
      · exact ⟨h, rfl⟩
      · exact ⟨⟨h.sound, h.unmisused, h.tag, h.slot⟩, rfl⟩

/-- A new string changes none of those there are. -/
theorem Logger.Rooted.string (h : s.Rooted) (text : LStr) :
    Logger.Rooted { s with strings := (s.strings.make text).2 } ∧
      Logger.log { s with strings := (s.strings.make text).2 } = s.log := by
  have hkept : ∀ i, s.strings.live i ≠ none →
      (s.strings.make text).2.live i = s.strings.live i := by
    intro i hi
    refine Function.update_of_ne ?_ _ _
    rintro rfl
    exact hi h.sound.live_made
  refine ⟨⟨h.sound.make text, h.unmisused, h.tag, fun i hi => ?_⟩, ?_⟩
  · show (s.strings.make text).2.live i ≠ none
    rw [hkept i (h.slot i hi)]
    exact h.slot i hi
  · cases htag : s.tag with
    | none => simp [Logger.log, htag]
    | some i => simp [Logger.log, htag, hkept i (h.slot i (h.tag i htag))]

/-- **The collector** takes nothing that is pointed to. -/
theorem Logger.Rooted.collect (h : s.Rooted) {i : Nat} (hi : s.strings.live i ≠ none)
    (hslot : s.slot ≠ some i) :
    Logger.Rooted { s with strings := s.strings.release i } ∧
      Logger.log { s with strings := s.strings.release i } = s.log := by
  obtain ⟨text, hlive⟩ := Option.ne_none_iff_exists'.mp hi
  have hkept : ∀ j, s.slot = some j → (s.strings.release i).live j = s.strings.live j := by
    intro j hj
    rw [Pool.release_of_live hlive]
    refine Function.update_of_ne ?_ _ _
    rintro rfl
    exact hslot hj
  refine ⟨⟨h.sound.release i, ?_, h.tag, fun j hj => ?_⟩, ?_⟩
  · show (s.strings.release i).misused = false
    rw [Pool.release_of_live hlive]
    exact h.unmisused
  · show (s.strings.release i).live j ≠ none
    rw [hkept j hj]
    exact h.slot j hj
  · cases htag : s.tag with
    | none => simp [Logger.log, htag]
    | some j => simp [Logger.log, htag, hkept j (h.tag j htag)]

/-- **Every step** stands for its events, as long as one string is made of two. -/
theorem rooted_next {l : Label} (h : w.sys.Rooted)
    (hinterns : ∀ text, Char.ofNat 0 ∉ text → interns text = true)
    (hs : (machine N strerror C interns).next w l = some w') :
    w'.sys.Rooted ∧
      (Log.machine C).run w.sys.log (l.events N C) = some w'.sys.log := by
  -- what holds of a call that does what its arguments ask for
  have hcall : ∀ found event (call : LogM (List LuaValue)), Does C interns found event call →
      (∀ e, event = .ok e → e.Interned interns) →
      (BindingM.worldAfter (call.run w)).sys.Rooted ∧
        (Log.machine C).run w.sys.log event.toOption.toList
          = some (BindingM.worldAfter (call.run w)).sys.log := by
    intro found event call hdoes hinterned
    rw [hdoes w]
    cases event with
    | error e => exact ⟨h, rfl⟩
    | ok e =>
        obtain ⟨hrooted, hlog⟩ := h.after (C := C) (hinterned e rfl) found
        refine ⟨hrooted, ?_⟩
        show some (w.sys.log.after C e) = _
        rw [← hlog]
  cases l with
  | openlog found args =>
      cases hs
      refine hcall found _ _ (does_Popenlog N C interns found args) fun e he => ?_
      obtain ⟨text, option, facility, rfl⟩ := openlogEvent_eq_ok N C he
      exact hinterns _ (zero_notMem_cstring text)
  | syslog args =>
      cases hs
      refine hcall none _ _ (does_Psyslog N C interns args) fun e he => ?_
      obtain ⟨priority, message, rfl⟩ := syslogEvent_eq_ok N he
      exact trivial
  | closelog args =>
      cases hs
      refine hcall none _ _ (does_Pcloselog C interns args) fun e he => ?_
      obtain rfl := closelogEvent_eq_ok he
      exact trivial
  | setlogmask args =>
      cases hs
      refine hcall none _ _ (does_Psetlogmask N strerror C interns args) fun e he => ?_
      obtain ⟨mask, rfl⟩ := setlogmaskEvent_eq_ok N he
      exact trivial
  | string text =>
      cases hs
      obtain ⟨hrooted, hlog⟩ := h.string text
      exact ⟨hrooted, congrArg some hlog.symm⟩
  | collect i =>
      obtain ⟨⟨hi, hslot⟩, hs⟩ := Option.ite_none_right_eq_some.mp hs
      cases hs
      obtain ⟨hrooted, hlog⟩ := h.collect hi hslot
      exact ⟨hrooted, congrArg some hlog.symm⟩

end Interned

/-! ## Every program -/

section Runs

variable (N : Numerals) (strerror : Int → LStr) (C : CLib) (interns : LStr → Bool)
  (w₀ : World Logger LogCall)

/-- A run has read no string that had been collected, and has logged what it would have with the
logger that remembers the text. -/
def LogsAsAsked (ls : List Label) (w : World Logger LogCall) : Prop :=
  w.sys.strings.misused = false ∧
    (Log.machine C).run w₀.sys.log (ls.flatMap (Label.events N C)) = some w.sys.log

variable {interns w₀}

/-- The simulation. -/
def asLogger (hinterns : ∀ text, Char.ofNat 0 ∉ text → interns text = true) :
    Machine.Simulation (machine N strerror C interns) (fun _ _ => True) (Log.machine C) where
  abs w := w.sys.log
  events _ l := l.events N C
  Inv w := w.sys.Rooted
  init w h := by
    obtain ⟨hslot, htag, -, hsound, hmisused⟩ := h
    refine ⟨⟨hsound, hmisused, fun i hi => ?_, fun i hi => ?_⟩, trivial⟩
    · exact nomatch htag.symm.trans hi
    · exact nomatch hslot.symm.trans hi
  step _ _ _ hs _ hnext := rooted_next hs hinterns hnext

/-- Two strings are made for a text, and the pointer is to the one that is not in the registry. -/
theorem after_openlog_separate {s : Logger} {ident : LStr} {option facility : BitVec 32}
    (h : interns ident = false) : s.after C interns none (.openlog ident option facility) =
      { s with
        strings := ((s.strings.make ident).2.make ident).2
        slot := some s.strings.made, tag := some (s.strings.made + 1)
        option := option, facility := C.facility s.facility facility } := by
  simp only [Logger.after, h]
  rfl

/-- **A text of which two strings are made**: the collector takes the one pointed to. -/
theorem exists_misused {text : LStr} (hclean : Char.ofNat 0 ∉ text) (htext : interns text = false)
    (h₀ : (machine N strerror C interns).init w₀) :
    ∃ ls w, (machine N strerror C interns).run w₀ ls = some w ∧
      w.sys.strings.misused = true := by
  obtain ⟨-, -, hmask, hsound, -⟩ := h₀
  -- `openlog(text)`
  let w₁ := BindingM.worldAfter ((Popenlog N C interns none [.string text]).run w₀)
  have hopen : w₁.sys = w₀.sys.after C interns none
      (.openlog (cstring text) 0 (BitVec.ofInt 32 C.LOG_USER.toInt)) :=
    does_Popenlog N C interns none [.string text] w₀
  rw [cstring_eq_self hclean, after_openlog_separate C htext] at hopen
  -- the collector takes the string that is not in the registry
  let i := w₀.sys.strings.made + 1
  have hlive : w₁.sys.strings.live i = some text := by
    rw [hopen]
    exact Function.update_self _ _ _
  have hslot : w₁.sys.slot ≠ some i := by
    rw [hopen]
    intro heq
    exact absurd (Option.some.inj heq) (Nat.ne_of_lt (Nat.lt_succ_self _))
  let w₂ : World Logger LogCall :=
    { w₁ with sys := { w₁.sys with strings := w₁.sys.strings.release i } }
  have hcollect : (machine N strerror C interns).next w₁ (.collect i) = some w₂ := by
    refine if_pos ⟨?_, hslot⟩
    rw [hlive]
    exact Option.some_ne_none text
  -- and a message follows the pointer
  let w₃ := BindingM.worldAfter ((Psyslog N C [.integer 0, .string []]).run w₂)
  have hwrite : w₃.sys = w₂.sys.write 0 [] := by
    have hsyslog : w₃.sys = w₂.sys.after C interns none (.syslog 0 []) :=
      does_Psyslog N C interns [.integer 0, .string []] w₂
    have hlevel : w₂.sys.mask.getLsbD (level 0) = true := by
      show w₁.sys.mask.getLsbD (level 0) = true
      rw [hopen]
      show w₀.sys.mask.getLsbD (level 0) = true
      rw [hmask]
      rfl
    rw [hsyslog, Logger.after, C.messages_proper 0 [] (by decide)]
    exact if_pos hlevel
  refine ⟨[.openlog none [.string text], .collect i, .syslog [.integer 0, .string []]], w₃, ?_, ?_⟩
  · exact Machine.run_cons.mpr ⟨w₁, rfl, Machine.run_cons.mpr ⟨w₂, hcollect,
      Machine.run_cons.mpr ⟨w₃, rfl, rfl⟩⟩⟩
  · have htag : w₂.sys.tag = some i := by
      show w₁.sys.tag = some i
      rw [hopen]
    have hdead : w₂.sys.strings.live i = none := by
      show (w₁.sys.strings.release i).live i = none
      rw [Pool.release_of_live hlive]
      exact Function.update_self _ _ _
    rw [hwrite, Logger.write, htag]
    simp only [Pool.use_of_not_live hdead]

/-- **The text of `openlog`**: every program logs as with a logger that remembers the text, and
reads no string that has been collected, if and only if the interpreter makes one string of two
that are pushed in a row, whatever the text. -/
theorem logs_iff_interns (h₀ : (machine N strerror C interns).init w₀) :
    (∀ ls w, (machine N strerror C interns).run w₀ ls = some w → LogsAsAsked N C w₀ ls w) ↔
      ∀ text, Char.ofNat 0 ∉ text → interns text = true := by
  constructor
  · intro h text hclean
    by_contra htext
    obtain ⟨ls, w, hrun, hmisused⟩ :=
      exists_misused N strerror C hclean (Bool.eq_false_iff.mpr htext) h₀
    exact absurd (hmisused.symm.trans (h ls w hrun).1) (by decide)
  · intro hinterns ls w hrun
    have hmeets : (machine N strerror C interns).Meets (fun _ _ => True) w₀ ls :=
      .of_forall fun _ _ _ => trivial
    have hinit := (asLogger N strerror C hinterns).init w₀ h₀
    obtain ⟨hrooted, hlog⟩ := (asLogger N strerror C hinterns).run hinit.1 hmeets hrun
    rw [Machine.Simulation.trace_eq_flatMap (fun _ _ => rfl) hrun] at hlog
    exact ⟨hrooted.unmisused, hlog⟩

end Runs

/-- The message of glibc about a priority with bits of neither kind. -/
def unknownBits (priority : BitVec 32) : LStr :=
  "syslog: unknown facility/priority: ".toList ++ Nat.toDigits 16 priority.toNat

/-- The C library of GNU: `closelog` forgets the text, and a message about such bits is logged as an
error before the bits are cleared. -/
def glibc : CLib where
  LOG_USER := 8
  facility before given :=
    if given = 0 ∨ given &&& ~~~LOG_FACMASK ≠ 0 then before else given
  messages priority message :=
    if Proper priority then [(priority, message)]
    else [(0x23, unknownBits priority), (priority &&& (LOG_PRIMASK ||| LOG_FACMASK), message)]
  messages_proper _ _ h := if_pos h
  forgets := true

/-- A process that has not logged anything. -/
def quiet : World Logger LogCall := ⟨0, .empty, ⟨.empty, none, none, 0, 8, 0xff, []⟩, []⟩

/-- An interpreter that makes one string of two up to 40 characters. -/
def shortOnly (text : LStr) : Bool := text.length ≤ 40

/-- There some program follows a pointer to a string that has been collected. -/
theorem not_logs_shortOnly : ¬∀ ls w,
    (machine .zero (fun _ => []) glibc shortOnly).run quiet ls = some w →
      LogsAsAsked .zero glibc quiet ls w := by
  rw [logs_iff_interns .zero (fun _ => []) glibc ⟨rfl, rfl, rfl, Pool.sound_empty, rfl⟩]
  intro h
  exact absurd (h (List.replicate 41 'x') (by decide)) (by decide)

end LuaPosix.Syslog

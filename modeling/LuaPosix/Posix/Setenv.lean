import LuaPosix.Lib.FirstMatch
import LuaPosix.Lib.Simulation
import LuaPosix.Lua.Expressions
import LuaPosix.Lua.Results
import LuaPosix.Posix.Environment
import Mathlib.Algebra.Order.BigOperators.Group.List

/-! # Changing the environment

`setenv` of `posix.stdlib` sets a variable or, without a value, removes it. By name the
environment is a map from names to values, in which a variable has what it was given last,
whatever block the process was started with. The table of all variables shows the same map at
every moment of every run exactly if that block has each name at most once, with `=`. -/

namespace LuaPosix.Stdlib

open LuaPattern (LStr)
open Traversal (Layout)
open FirstMatch (put erase Apart)

/-! ## The C library -/

/-- The calls that change the environment. -/
inductive SetCall where
  | setenv (name value : LStr) (overwrite : Bool)
  | unsetenv (name : LStr)
  deriving DecidableEq

/-- The argument is not valid. -/
def invalidArgument : Int := 22

/-- There is no memory for the entry. -/
def noMemory : Int := 12

/-- A name that the environment can have. -/
def ValidName (name : LStr) : Prop := name ≠ [] ∧ '=' ∉ name

/-- Whether a name is valid can be decided. -/
instance (name : LStr) : Decidable (ValidName name) := inferInstanceAs (Decidable (_ ∧ _))

/-- The entry that sets a name. -/
def setting (name value : LStr) : CString :=
  ⟨cstring (name ++ '=' :: value), zero_notMem_cstring _⟩

/-- `setenv(name, value, overwrite)`: an error number, if it fails, and the environment. An entry
needs room. -/
def setenv (room : Bool) (name value : LStr) (overwrite : Bool) (environ : Environ) :
    Option Int × Environ :=
  if ¬ValidName name then (some invalidArgument, environ)
  else if (getenv environ name).isSome = true ∧ overwrite = false then (none, environ)
  else if room then (none, put (fun e => Begins name e) (setting name value) environ)
  else (some noMemory, environ)

/-- `unsetenv(name)`. -/
def unsetenv (name : LStr) (environ : Environ) : Option Int × Environ :=
  if ¬ValidName name then (some invalidArgument, environ)
  else (none, erase (fun e => Begins name e) environ)

/-- What runs on the environment. -/
abbrev EnvironM := BindingM Environ SetCall

/-- A call that returns 0, or -1 and sets `errno`. -/
def checked (call : SetCall) (f : Environ → Option Int × Environ) : EnvironM Int := do
  match ← BindingM.libcall call f with
  | none => return 0
  | some e =>
      BindingM.seterrno e
      return -1

/-! ## The function -/

section Model

variable (N : Numerals) (strerror : Int → LStr)

/-- `Psetenv`: `setenv(name, [value, [overwrite]])`. What `unsetenv` comes to is not looked at. -/
def Psetenv (room : Bool) (args : List LuaValue) : EnvironM (List LuaValue) := do
  let name ← checklstring args N.numberText 1
  let value ← optstring N args 2
  checknargs args 3
  match value with
  | none => do
      let _ ← checked (.unsetenv (cstring name)) (unsetenv (cstring name))
      return pushresult strerror (← BindingM.errno) none 0
  | some value => do
      let overwrite := isnoneornil args 3 || ((argument args 3).getD .nil).truthy
      let r ← checked (.setenv (cstring name) value overwrite)
        (setenv room (cstring name) value overwrite)
      return pushresult strerror (← BindingM.errno) none r

end Model

/-! ## What the calls do to a name -/

section Names

variable {environ : Environ} {name k value : LStr} {e : CString} {room overwrite : Bool}

/-- A name that C can say, and that the environment can have. -/
abbrev Name := {k : LStr // ValidName k ∧ Char.ofNat 0 ∉ k}

/-- A name has no zero in it. -/
theorem Name.cstring_eq (k : Name) : cstring k.1 = k.1 := cstring_eq_self k.2.2

/-- An entry begins with one name at most. -/
theorem begins_inj (hname : '=' ∉ name) (hk : '=' ∉ k) (h : Begins name e) (h' : Begins k e) :
    name = k := by
  obtain ⟨v, hv⟩ := begins_iff.mp h
  obtain ⟨v', hv'⟩ := begins_iff.mp h'
  rw [← takeWhile_name (v := v) hname, ← hv, hv', takeWhile_name hk]

/-- Different names do not share entries. -/
theorem apart_begins (hname : '=' ∉ name) (hk : '=' ∉ k) (hne : name ≠ k) :
    Apart (fun e => decide (Begins name e)) fun e => decide (Begins k e) := by
  intro e he
  refine decide_eq_false fun h => hne ?_
  exact begins_inj hname hk (of_decide_eq_true he) h

/-- The string that is stored begins with the name and the sign. -/
theorem setting_val (hname : Char.ofNat 0 ∉ name) (hvalue : Char.ofNat 0 ∉ value) :
    (setting name value).1 = name ++ '=' :: value := by
  refine cstring_eq_self ?_
  rw [List.mem_append, List.mem_cons]
  rintro (h | h | h)
  · exact hname h
  · exact absurd h (by decide)
  · exact hvalue h

/-- So it is found under the name. -/
theorem begins_setting (hname : Char.ofNat 0 ∉ name) (hvalue : Char.ofNat 0 ∉ value) :
    Begins name (setting name value) :=
  begins_iff.mpr ⟨value, setting_val hname hvalue⟩

/-- An entry for a name is found under no other. -/
theorem not_begins_setting (hname : Char.ofNat 0 ∉ name) (hvalue : Char.ofNat 0 ∉ value)
    (heq : '=' ∉ name) (hk : '=' ∉ k) (hne : name ≠ k) : ¬Begins k (setting name value) :=
  fun h => hne (begins_inj heq hk (begins_setting hname hvalue) h)

/-- **What a setting leaves to be read.** -/
theorem getenv_put (hname : Char.ofNat 0 ∉ name) (hvalue : Char.ofNat 0 ∉ value)
    (heq : '=' ∉ name) (hk : '=' ∉ k) :
    getenv (put (fun e => Begins name e) (setting name value) environ) k
      = if k = name then some value else getenv environ k := by
  rw [getenv]
  by_cases hkn : k = name
  · subst hkn
    rw [if_pos rfl, FirstMatch.find_put (p := fun e => decide (Begins k e))
      (decide_eq_true (begins_setting hname hvalue)),
      Option.map_some, setting_val hname hvalue]
    simp
  · have hne : name ≠ k := fun h => hkn h.symm
    rw [if_neg hkn, FirstMatch.find_put_of_apart (apart_begins heq hk hne)
      (decide_eq_false (not_begins_setting hname hvalue heq hk hne)), getenv]

/-- **What a removal leaves to be read.** -/
theorem getenv_erase (heq : '=' ∉ name) (hk : '=' ∉ k) :
    getenv (erase (fun e => Begins name e) environ) k
      = if k = name then none else getenv environ k := by
  rw [getenv]
  by_cases hkn : k = name
  · subst hkn
    rw [if_pos rfl, FirstMatch.find_erase, Option.map_none]
  · have hne : name ≠ k := fun h => hkn h.symm
    rw [if_neg hkn, FirstMatch.find_erase_of_apart (apart_begins heq hk hne), getenv]

end Names

/-! ## A program's calls -/

section Requests

variable (N : Numerals) {room : Bool} {args : List LuaValue}

/-- What the arguments ask for. -/
inductive Request where
  | set (name value : LStr) (overwrite : Bool)
  | unset (name : LStr)

/-- The request in the arguments, or their error. -/
def request (args : List LuaValue) : LuaM Request := do
  let name ← checklstring args N.numberText 1
  let value ← optstring N args 2
  checknargs args 3
  match value with
  | none => return .unset (cstring name)
  | some value =>
      return .set (cstring name) value
        (isnoneornil args 3 || ((argument args 3).getD .nil).truthy)

/-- What a request does to the environment. -/
def Request.apply (room : Bool) (environ : Environ) : Request → Environ
  | .set name value overwrite => (setenv room name value overwrite environ).2
  | .unset name => (unsetenv name environ).2

/-- Its name and value are strings of C. -/
def Request.Clean : Request → Prop
  | .set name value _ => Char.ofNat 0 ∉ name ∧ Char.ofNat 0 ∉ value
  | .unset name => Char.ofNat 0 ∉ name

/-- The checked call makes its change. -/
theorem run_checked (call : SetCall) (f : Environ → Option Int × Environ)
    (w : World Environ SetCall) :
    ∃ r w', (checked call f).run w = .ok r w' ∧ w'.sys = (f w.sys).2 := by
  rw [checked, BindingM.run_bind_of_ok (BindingM.run_libcall w call f)]
  cases (f w.sys).1 with
  | none => exact ⟨_, _, rfl, rfl⟩
  | some e => exact ⟨_, _, rfl, rfl⟩

/-- A value that was read has no zero in it. -/
theorem clean_of_optstring {value : Option LStr} (h : optstring N args 2 = .ok value) :
    ∀ v ∈ value, Char.ofNat 0 ∉ v := by
  rw [optstring] at h
  split_ifs at h
  · cases h
    exact fun v hv => nomatch hv
  · split at h
    · cases h
      intro v hv
      obtain rfl := Option.mem_some_iff.mp hv
      exact zero_notMem_cstring _
    · cases h

variable (room args) in
/-- **`Psetenv`** does what is asked for, or raises an error and does nothing. -/
theorem sys_Psetenv (strerror : Int → LStr) (w : World Environ SetCall) :
    (∃ e, request N args = .error e ∧
      (Psetenv N strerror room args).run w = .error (.raises e) w) ∨
    ∃ r vs w', request N args = .ok r ∧ r.Clean ∧
      (Psetenv N strerror room args).run w = .ok vs w' ∧ w'.sys = r.apply room w.sys := by
  cases hname : checklstring args N.numberText 1 with
  | error e =>
      rw [request, Psetenv, hname]
      exact .inl ⟨e, rfl, rfl⟩
  | ok name =>
      cases hvalue : optstring N args 2 with
      | error e =>
          rw [request, Psetenv, hname, hvalue]
          exact .inl ⟨e, rfl, rfl⟩
      | ok value =>
          cases hnargs : checknargs args 3 with
          | error e =>
              rw [request, Psetenv, hname, hvalue, hnargs]
              exact .inl ⟨e, rfl, rfl⟩
          | ok _ =>
              rw [request, Psetenv, hname, hvalue, hnargs]
              refine .inr ?_
              cases value with
              | none =>
                  obtain ⟨r, w', hrun, hsys⟩ := run_checked (.unsetenv (cstring name))
                    (unsetenv (cstring name)) w
                  refine ⟨.unset (cstring name), pushresult strerror w'.errno none 0, w', rfl,
                    zero_notMem_cstring _, ?_, hsys⟩
                  exact BindingM.run_bind_of_ok hrun
              | some value =>
                  obtain ⟨r, w', hrun, hsys⟩ := run_checked
                    (.setenv (cstring name) value
                      (isnoneornil args 3 || ((argument args 3).getD .nil).truthy))
                    (setenv room (cstring name) value
                      (isnoneornil args 3 || ((argument args 3).getD .nil).truthy)) w
                  have hclean := clean_of_optstring N hvalue value rfl
                  refine ⟨.set (cstring name) value _, pushresult strerror w'.errno none r, w',
                    rfl, ⟨zero_notMem_cstring _, hclean⟩, ?_, hsys⟩
                  exact BindingM.run_bind_of_ok hrun

end Requests

/-! ## A map from names to values -/

/-- What each name has as its value. -/
abbrev Variables := Name → Option LStr

namespace Variables

/-- What can happen to a map. -/
inductive Event where
  | set (name : Name) (value : LStr) (overwrite : Bool)
  | unset (name : Name)

/-- The map after an event. -/
def after (v : Variables) : Event → Variables
  | .set name value overwrite =>
      if (v name).isSome = true ∧ overwrite = false then v
      else Function.update v name (some value)
  | .unset name => Function.update v name none

/-- The machine. -/
def machine : Machine Variables Event where
  init _ := True
  next v e := some (v.after e)

end Variables

/-- The map that the environment stands for. -/
def valuesOf (environ : Environ) : Variables := fun k => getenv environ k.1

section Maps

variable {environ : Environ} {name value : LStr} {room overwrite : Bool}

/-- Storing changes the value of the one name. -/
theorem valuesOf_put (n : Name) (hvalue : Char.ofNat 0 ∉ value) :
    valuesOf (put (fun e => Begins n.1 e) (setting n.1 value) environ)
      = Function.update (valuesOf environ) n (some value) := by
  funext k
  rw [valuesOf, getenv_put n.2.2 hvalue n.2.1.2 k.2.1.2, Function.update_apply]
  exact if_congr Subtype.ext_iff.symm rfl rfl

/-- Erasing leaves the one name without a value. -/
theorem valuesOf_erase (n : Name) :
    valuesOf (erase (fun e => Begins n.1 e) environ)
      = Function.update (valuesOf environ) n none := by
  funext k
  rw [valuesOf, getenv_erase n.2.1.2 k.2.1.2, Function.update_apply]
  exact if_congr Subtype.ext_iff.symm rfl rfl

/-- The events of a request: none where the name is not valid, or there is no room. -/
def Request.events (room : Bool) : Request → List Variables.Event
  | .set name value overwrite =>
      if h : (ValidName name ∧ Char.ofNat 0 ∉ name) ∧ room = true then
        [.set ⟨name, h.1⟩ value overwrite]
      else []
  | .unset name =>
      if h : ValidName name ∧ Char.ofNat 0 ∉ name then [.unset ⟨name, h⟩] else []

/-- **A request changes the map as its event says.** -/
theorem valuesOf_apply {r : Request} (hclean : r.Clean) :
    Variables.machine.run (valuesOf environ) (r.events room)
      = some (valuesOf (r.apply room environ)) := by
  cases r with
  | unset name =>
      by_cases hvalid : ValidName name
      · have hname : ValidName name ∧ Char.ofNat 0 ∉ name := ⟨hvalid, hclean⟩
        rw [Request.events, dif_pos hname, Request.apply, unsetenv, if_neg (not_not.mpr hvalid),
          valuesOf_erase ⟨name, hname⟩]
        rfl
      · rw [Request.events, dif_neg fun h => hvalid h.1, Request.apply, unsetenv, if_pos hvalid]
        rfl
  | set name value overwrite =>
      obtain ⟨hzero, hvalue⟩ := hclean
      rw [Request.apply, setenv]
      by_cases hvalid : ValidName name
      · have hname : ValidName name ∧ Char.ofNat 0 ∉ name := ⟨hvalid, hzero⟩
        rw [if_neg (not_not.mpr hvalid)]
        by_cases hkeep : (getenv environ name).isSome = true ∧ overwrite = false
        · -- the value stays, whether or not there would be room for another
          rw [if_pos hkeep, Request.events]
          split_ifs
          · exact congrArg some (if_pos hkeep)
          · rfl
        · rw [if_neg hkeep]
          cases room with
          | false =>
              rw [Request.events, dif_neg fun h => nomatch h.2]
              rfl
          | true =>
              rw [Request.events, dif_pos ⟨hname, rfl⟩, if_pos rfl,
                valuesOf_put ⟨name, hname⟩ hvalue]
              exact congrArg some (if_neg hkeep)
      · rw [if_pos hvalid, Request.events, dif_neg fun h => hvalid h.1.1]
        rfl

end Maps

/-! ## Every run -/

section Runs

variable (N : Numerals) (strerror : Int → LStr) (L : Layout fun _ : LuaValue => LuaValue)

/-- What a program calls; `room` is whether the C library finds memory. -/
inductive EnvLabel where
  | setenv (room : Bool) (args : List LuaValue)
  | getenv (args : List LuaValue)

/-- The world as `getenv` finds it. -/
def reading (w : World Environ SetCall) : World Environ Call := ⟨w.errno, w.heap, w.sys, []⟩

/-- The program: whatever a call raises is caught. -/
def environMachine : Machine (World Environ SetCall) EnvLabel where
  init _ := True
  next w
    | .setenv room args => some (BindingM.worldAfter ((Psetenv N strerror room args).run w))
    | .getenv args =>
        let w' := BindingM.worldAfter ((Pgetenv N L args).run (reading w))
        some { w with errno := w'.errno, heap := w'.heap, sys := w'.sys }

/-- The events of a call. -/
def EnvLabel.events : EnvLabel → List Variables.Event
  | .setenv room args =>
      match request N args with
      | .ok r => r.events room
      | .error _ => []
  | .getenv _ => []

variable {N L} in
/-- Reading changes nothing. -/
theorem sys_Pgetenv (args : List LuaValue) (w : World Environ Call) :
    (BindingM.worldAfter ((Pgetenv N L args).run w)).sys = w.sys := by
  cases hnargs : checknargs args 1 with
  | error e =>
      rw [Pgetenv, hnargs]
      rfl
  | ok _ =>
      rw [Pgetenv, hnargs]
      by_cases hnone : isnoneornil args 1 = true
      · rw [if_pos hnone]
        simp only [EStateM.run_bind, BindingM.run_lua_ok, BindingM.run_newtable, EStateM.run_get,
          BindingM.run_forM_settable]
        rfl
      · rw [if_neg hnone]
        cases optstring N args 1 <;> rfl

/-- **One call** changes the map as its events say. -/
theorem valuesOf_next {w w' : World Environ SetCall} {l : EnvLabel}
    (hs : (environMachine N strerror L).next w l = some w') :
    Variables.machine.run (valuesOf w.sys) (l.events N) = some (valuesOf w'.sys) := by
  cases l with
  | getenv args =>
      cases hs
      exact congrArg (some ∘ valuesOf) (sys_Pgetenv args (reading w)).symm
  | setenv room args =>
      cases hs
      rw [EnvLabel.events]
      rcases sys_Psetenv N room args strerror w
        with ⟨e, hreq, hrun⟩ | ⟨r, vs, w', hreq, hclean, hrun, hsys⟩
      · rw [hreq, hrun]
        rfl
      · rw [hreq, hrun]
        show Variables.machine.run _ (r.events room) = some (valuesOf w'.sys)
        rw [hsys]
        exact valuesOf_apply hclean

/-- **The simulation** of a program by the map. -/
def asMap : Machine.Simulation (environMachine N strerror L) (fun _ _ => True)
    Variables.machine where
  abs w := valuesOf w.sys
  events _ l := l.events N
  Inv _ := True
  init _ _ := ⟨trivial, trivial⟩
  step _ _ _ _ _ hs := ⟨trivial, valuesOf_next N strerror L hs⟩

variable {N strerror L} {w₀ w : World Environ SetCall} {ls : List EnvLabel}

/-- **The environment is a map**: after any calls, whatever the environment was, `getenv` of a name
is what the map has that the requests made, from the one that the environment stood for. -/
theorem environ_is_map (hrun : (environMachine N strerror L).run w₀ ls = some w) :
    ∃ v, Variables.machine.run (valuesOf w₀.sys) (ls.flatMap fun l => l.events N) = some v ∧
      ∀ k : Name, ∃ w', (Pgetenv N L [.string k.1]).run (reading w)
        = .ok [pushstring (v k)] w' := by
  have hmap := ((asMap N strerror L).run_of_init trivial
    (.of_forall fun _ _ _ => trivial) hrun).2
  rw [Machine.Simulation.trace_eq_flatMap (fun _ _ => rfl) hrun] at hmap
  refine ⟨_, hmap, fun k => ?_⟩
  have hread := run_getenv_named N L k.1 (reading w)
  rw [namedValue, k.cstring_eq] at hread
  exact ⟨_, hread⟩

end Runs

/-- A process started with two settings of one name. -/
def twice : World Environ SetCall :=
  ⟨0, .empty, [⟨"A=1".toList, by decide⟩, ⟨"A=2".toList, by decide⟩], []⟩

/-- It sets the name, and then again unless it has a value. -/
private def setTwice : List EnvLabel :=
  [.setenv true [.string "A".toList, .string "3".toList],
    .setenv true [.string "A".toList, .string "4".toList, .boolean false]]

/-- The first of its settings is read. -/
theorem getenv_setTwice : ∃ w,
    (environMachine .zero (fun _ => []) Heap.newestFirst).run twice setTwice = some w ∧
      ∃ w', (Pgetenv .zero Heap.newestFirst [.string "A".toList]).run (reading w)
        = .ok [.string "3".toList] w' := by
  have hrun : (environMachine .zero (fun _ => []) Heap.newestFirst).run twice setTwice
      = some _ := rfl
  obtain ⟨v, hv, hread⟩ := environ_is_map hrun
  obtain ⟨w', hread⟩ := hread ⟨"A".toList, by decide⟩
  have hvalue : v ⟨"A".toList, by decide⟩ = some "3".toList := by
    rw [← Option.some.inj hv]
    rfl
  rw [hvalue] at hread
  exact ⟨_, hrun, w', hread⟩

/-! ## The table of all variables -/

section Tables

variable {environ : Environ} {k value : LStr} {e : CString}

/-- Each name has one entry at most, with `=`. -/
def Tidy (environ : Environ) : Prop :=
  ∀ k : Name, environ.countP (fun e => Begins k.1 e) ≤ 1 ∧
    ∀ e ∈ environ, Names k.1 e → Begins k.1 e

/-- An entry that begins with a name names it. -/
theorem names_of_begins (hk : '=' ∉ k) (h : Begins k e) : Names k e := by
  obtain ⟨v, hv⟩ := begins_iff.mp h
  rw [Names, hv, takeWhile_name hk]

/-- The two ways of looking for a name agree on a tidy block. -/
theorem Tidy.find_names (h : Tidy environ) (k : Name) :
    (environ.reverse.find? fun e => Names k.1 e) = environ.find? fun e => Begins k.1 e := by
  have hsame : ∀ e ∈ environ.reverse, decide (Names k.1 e) = decide (Begins k.1 e) := by
    intro e he
    refine decide_eq_decide.mpr ⟨(h k).2 e (List.mem_reverse.mp he), names_of_begins k.2.1.2⟩
  rw [FirstMatch.find_congr hsame]
  exact FirstMatch.find_reverse_of_countP (h k).1

/-- **No name is ambiguous in a tidy block.** -/
theorem Tidy.unambiguous (h : Tidy environ) (k : Name) : Unambiguous environ k.1 := by
  rw [unambiguous_iff, k.cstring_eq]
  exact h.find_names k

/-- Storing keeps the environment tidy. -/
theorem Tidy.put (h : Tidy environ) (n : Name) (hvalue : Char.ofNat 0 ∉ value) :
    Tidy (put (fun e => Begins n.1 e) (setting n.1 value) environ) := by
  have hbegins := begins_setting n.2.2 hvalue
  intro k
  constructor
  · by_cases hkn : n = k
    · subst hkn
      rw [FirstMatch.countP_put (p := fun e => decide (Begins n.1 e)) (decide_eq_true hbegins)]
      exact max_le le_rfl (h n).1
    · have hne : n.1 ≠ k.1 := fun heq => hkn (Subtype.ext heq)
      rw [FirstMatch.countP_put_of_apart (apart_begins n.2.1.2 k.2.1.2 hne)
        (decide_eq_false (not_begins_setting n.2.2 hvalue n.2.1.2 k.2.1.2 hne))]
      exact (h k).1
  · intro e he hnames
    rcases FirstMatch.mem_put he with rfl | he
    · rw [Names, setting_val n.2.2 hvalue, takeWhile_name n.2.1.2] at hnames
      exact hnames ▸ hbegins
    · exact (h k).2 e he hnames

/-- So does erasing. -/
theorem Tidy.erase (h : Tidy environ) (n : Name) :
    Tidy (erase (fun e => Begins n.1 e) environ) :=
  fun k => ⟨FirstMatch.countP_erase_le.trans (h k).1,
    fun e he => (h k).2 e (List.mem_of_mem_filter he)⟩

/-- **A request keeps a tidy block tidy.** -/
theorem Tidy.apply (h : Tidy environ) {room : Bool} {r : Request} (hclean : r.Clean) :
    Tidy (r.apply room environ) := by
  cases r with
  | unset name =>
      rw [Request.apply, unsetenv]
      by_cases hvalid : ValidName name
      · rw [if_neg (not_not.mpr hvalid)]
        exact h.erase ⟨name, hvalid, hclean⟩
      · rw [if_pos hvalid]
        exact h
  | set name value overwrite =>
      rw [Request.apply, setenv]
      by_cases hvalid : ValidName name
      · rw [if_neg (not_not.mpr hvalid)]
        split_ifs
        · exact h
        · exact h.put ⟨name, hvalid, hclean.1⟩ hclean.2
        · exact h
      · rw [if_pos hvalid]
        exact h

/-- Some value is not the one that an entry sets. -/
theorem exists_fresh (environ : Environ) (n : Name) :
    ∃ value, Char.ofNat 0 ∉ value ∧ setting n.1 value ∉ environ := by
  have hzero : ∀ m, Char.ofNat 0 ∉ List.replicate m 'x' := by
    intro m h
    exact absurd (List.eq_of_mem_replicate h) (by decide)
  let M := (environ.map fun e => e.1.length).sum
  refine ⟨List.replicate (M + 1) 'x', hzero _, fun h => ?_⟩
  have hle : (setting n.1 (List.replicate (M + 1) 'x')).1.length ≤ M :=
    List.single_le_sum (fun _ _ => Nat.zero_le _) _ (List.mem_map_of_mem h)
  rw [setting_val n.2.2 (hzero _)] at hle
  simp at hle
  omega

/-- Two entries for a name: once it is set, the table still shows the last of them. -/
theorem ambiguous_put (n : Name) (hcount : 2 ≤ environ.countP fun e => Begins n.1 e)
    (hvalue : Char.ofNat 0 ∉ value) (hfresh : setting n.1 value ∉ environ) :
    ¬Unambiguous (FirstMatch.put (fun e => Begins n.1 e) (setting n.1 value) environ) n.1 := by
  rw [unambiguous_iff, n.cstring_eq,
    FirstMatch.find_put (p := fun e => decide (Begins n.1 e))
      (decide_eq_true (begins_setting n.2.2 hvalue))]
  refine FirstMatch.find_reverse_put_ne (fun e he => ?_) hcount hfresh
  exact decide_eq_true (names_of_begins n.2.1.2 (of_decide_eq_true he))

/-- An entry without `=`: once its name is removed, the table still shows it. -/
theorem ambiguous_erase (n : Name) (he : e ∈ environ) (hnames : Names n.1 e)
    (hnot : ¬Begins n.1 e) :
    ¬Unambiguous (FirstMatch.erase (fun e => Begins n.1 e) environ) n.1 := by
  rw [unambiguous_iff, n.cstring_eq, FirstMatch.find_erase, List.find?_eq_none]
  intro hnone
  have hleft : e ∈ FirstMatch.erase (fun e => decide (Begins n.1 e)) environ :=
    List.mem_filter.mpr ⟨he, by simp [hnot]⟩
  exact hnone e (List.mem_reverse.mpr hleft) (decide_eq_true hnames)

variable {N : Numerals} {strerror : Int → LStr} {L : Layout fun _ : LuaValue => LuaValue}
  {w₀ w w' : World Environ SetCall} {ls : List EnvLabel}

/-- **Every call keeps a tidy block tidy.** -/
theorem tidy_next {l : EnvLabel} (h : Tidy w.sys)
    (hs : (environMachine N strerror L).next w l = some w') : Tidy w'.sys := by
  cases l with
  | getenv args =>
      cases hs
      exact (sys_Pgetenv args (reading w)).symm ▸ h
  | setenv room args =>
      cases hs
      rcases sys_Psetenv N room args strerror w
        with ⟨e, -, hrun⟩ | ⟨r, vs, w', -, hclean, hrun, hsys⟩
      · rw [hrun]
        exact h
      · rw [hrun]
        show Tidy w'.sys
        rw [hsys]
        exact h.apply hclean

variable (N strerror L w₀) in
/-- What a single call with a valid name leaves. -/
theorem run_set (n : Name) (hvalue : Char.ofNat 0 ∉ value) :
    ∃ w, (environMachine N strerror L).run w₀ [.setenv true [.string n.1, .string value]]
        = some w ∧
      w.sys = FirstMatch.put (fun e => Begins n.1 e) (setting n.1 value) w₀.sys := by
  rcases sys_Psetenv N true [.string n.1, .string value] strerror w₀
    with ⟨e, hreq, -⟩ | ⟨r, vs, w', hreq, -, hrun, hsys⟩
  · cases hreq
  · refine ⟨w', ?_, ?_⟩
    · show (some (BindingM.worldAfter _)).bind _ = _
      rw [hrun]
      rfl
    · obtain rfl : Request.set (cstring n.1) (cstring value) true = r := Except.ok.inj hreq
      rw [hsys, Request.apply, setenv, n.cstring_eq, cstring_eq_self hvalue,
        if_neg (not_not.mpr n.2.1), if_neg fun h => nomatch h.2]
      rfl

variable (N strerror L w₀) in
/-- Unsetting erases the first entry of the name. -/
theorem run_unset (n : Name) :
    ∃ w, (environMachine N strerror L).run w₀ [.setenv true [.string n.1]] = some w ∧
      w.sys = FirstMatch.erase (fun e => Begins n.1 e) w₀.sys := by
  rcases sys_Psetenv N true [.string n.1] strerror w₀
    with ⟨e, hreq, -⟩ | ⟨r, vs, w', hreq, -, hrun, hsys⟩
  · cases hreq
  · refine ⟨w', ?_, ?_⟩
    · show (some (BindingM.worldAfter _)).bind _ = _
      rw [hrun]
      rfl
    · obtain rfl : Request.unset (cstring n.1) = r := Except.ok.inj hreq
      rw [hsys, Request.apply, unsetenv, n.cstring_eq, if_neg (not_not.mpr n.2.1)]

/-- The readers agree on a name that is not ambiguous. -/
theorem sameValue_reading {k : LStr} : SameValue N L (reading w) k ↔ Unambiguous w.sys k := by
  rw [sameValue_iff, values_eq_iff]
  rfl

/-- **The table and the single variables**: they agree on every name after every run if and only
if the environment that the process was started with has each name at most once, with `=`. -/
theorem agree_iff_tidy (w₀ : World Environ SetCall) :
    (∀ ls w, (environMachine N strerror L).run w₀ ls = some w →
      ∀ k : Name, SameValue N L (reading w) k.1) ↔ Tidy w₀.sys := by
  constructor
  · intro h n
    refine ⟨Nat.le_of_not_lt fun hcount => ?_, fun e he hnames => ?_⟩
    · obtain ⟨value, hvalue, hfresh⟩ := exists_fresh w₀.sys n
      obtain ⟨w, hrun, hsys⟩ := run_set N strerror L w₀ n hvalue
      refine ambiguous_put n hcount hvalue hfresh ?_
      rw [← hsys]
      exact sameValue_reading.mp (h _ w hrun n)
    · by_contra hnot
      obtain ⟨w, hrun, hsys⟩ := run_unset N strerror L w₀ n
      refine ambiguous_erase n he hnames hnot ?_
      rw [← hsys]
      exact sameValue_reading.mp (h _ w hrun n)
  · intro h ls w hrun k
    have htidy : Tidy w.sys :=
      Machine.invariant_of_run (I := fun w : World Environ SetCall => Tidy w.sys)
        (fun _ _ _ h hs => tidy_next h hs) h hrun
    exact sameValue_reading.mpr (htidy.unambiguous k)

end Tables

end LuaPosix.Stdlib

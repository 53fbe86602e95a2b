import LuaPosix.Lua.Binding

/-! # The environment

`getenv` of `posix.stdlib` with a name asks the C library for the first entry of the environment
that sets it. Without a name it goes through the whole block and assigns each entry to a field of
a table, where a later entry takes the place of an earlier one. The two agree on a name exactly if
the entry asked for first is the one assigned last. -/

namespace LuaPosix.Stdlib

open LuaPattern (LStr)
open Traversal (Layout)

/-! ## The environment of a process -/

/-- A string of C has no zero before its end. -/
abbrev CString := {s : LStr // Char.ofNat 0 ∉ s}

/-- `environ`: strings in any order, a name as often as one likes, with or without `=`. -/
abbrev Environ := List CString

/-- The calls of the C library. -/
inductive Call where
  | getenv (name : LStr)
  deriving DecidableEq

/-- The entry begins with the name and `=`. -/
def Begins (name : LStr) (e : CString) : Prop := name ++ ['='] <+: e.1

/-- Whether an entry begins with a name can be decided. -/
instance (name : LStr) : DecidablePred (Begins name) := fun _ =>
  inferInstanceAs (Decidable (_ <+: _))

/-- `getenv(name)` of the C library: what comes after `=` in the first entry that begins with the
name and `=`. -/
def getenv (environ : Environ) (name : LStr) : Option LStr :=
  (environ.find? fun e => Begins name e).map fun e => e.1.drop (name.length + 1)

/-! ## The function -/

/-- `strchr(s, c)`, as an offset. -/
def strchr (s : LStr) (c : Char) : Option Nat := s.idxOf? c

/-- `lua_pushstring(L, s)`: nil for NULL. -/
def pushstring : Option LStr → LuaValue
  | none => .nil
  | some s => .string s

/-- The key and the value that the loop over `environ` pushes for an entry. -/
def pushEntry (e : CString) : LuaValue × LuaValue :=
  let s := e.1
  match strchr s '=' with
  | none => (.string s, .boolean true)
  | some eq => (.string (s.take eq), pushstring (some (s.drop (eq + 1))))

/-- The default given for a name. -/
def unreachable : LStr := "lua_isnoneornil prevents this happening".toList

/-- `Pgetenv`: `getenv([name])`. -/
def Pgetenv (N : Numerals) (L : Layout fun _ : LuaValue => LuaValue) (args : List LuaValue) :
    BindingM Environ Call (List LuaValue) := do
  checknargs args 1
  if isnoneornil args 1 then do
    let table ← BindingM.newtable L []
    let w ← get
    w.sys.forM fun e => BindingM.settable L table (pushEntry e).1 (pushEntry e).2
    return [table]
  else do
    let name := (← optstring N args 1).getD unreachable
    let value ← BindingM.libcall (.getenv name) fun environ => (getenv environ name, environ)
    return [pushstring value]

/-! ## What an entry sets -/

section Entries

variable {name k : LStr} {e : CString}

/-- The entry is the name itself, or the name, `=` and a value. -/
def Names (name : LStr) (e : CString) : Prop := e.1.takeWhile (· ≠ '=') = name

/-- Whether it is one of a name can be decided. -/
instance (name : LStr) : DecidablePred (Names name) := fun _ =>
  inferInstanceAs (Decidable (_ = _))

/-- An entry without `=`, or its name and value. -/
theorem exists_name_value (e : CString) :
    '=' ∉ e.1 ∨ ∃ name v, e.1 = name ++ '=' :: v ∧ '=' ∉ name := by
  by_cases h : '=' ∈ e.1
  · exact .inr (List.eq_append_cons_of_mem h)
  · exact .inl h

/-- Without an equals sign all of a string is a name. -/
theorem takeWhile_eq_self {s : LStr} (h : '=' ∉ s) : s.takeWhile (· ≠ '=') = s := by
  rw [List.takeWhile_eq_self_iff]
  intro c hc
  exact decide_eq_true fun heq => h (heq ▸ hc)

/-- The name of an entry is what comes before the first one. -/
theorem takeWhile_name {v : LStr} (h : '=' ∉ name) :
    (name ++ '=' :: v).takeWhile (· ≠ '=') = name := by
  have hname : ∀ c ∈ name, decide (c ≠ '=') = true := by
    intro c hc
    exact decide_eq_true fun heq => h (heq ▸ hc)
  rw [List.takeWhile_append_of_pos hname]
  simp

/-- There it is found. -/
theorem strchr_name {v : LStr} (h : '=' ∉ name) :
    strchr (name ++ '=' :: v) '=' = some name.length := by
  rw [strchr, List.idxOf?_eq_some_iff]
  refine ⟨by simp, by simp, ?_⟩
  intro j hj heq
  rw [List.getElem_append_left hj] at heq
  exact h (heq ▸ List.getElem_mem hj)

/-- An entry without one is pushed as true. -/
theorem pushEntry_of_notMem (h : '=' ∉ e.1) : pushEntry e = (.string e.1, .boolean true) := by
  have hstrchr : strchr e.1 '=' = none := List.idxOf?_eq_none_iff.mpr h
  simp only [pushEntry, hstrchr]

/-- An entry with one is pushed as a name and a value. -/
theorem pushEntry_of_eq {v : LStr} (he : e.1 = name ++ '=' :: v) (h : '=' ∉ name) :
    pushEntry e = (.string name, .string v) := by
  simp only [pushEntry, he, strchr_name h]
  simp [pushstring]

/-- The key is what comes before `=`. -/
theorem pushEntry_key : (pushEntry e).1 = .string (e.1.takeWhile (· ≠ '=')) := by
  rcases exists_name_value e with h | ⟨name, v, he, h⟩
  · rw [pushEntry_of_notMem h, takeWhile_eq_self h]
  · rw [pushEntry_of_eq he h, he, takeWhile_name h]

/-- The key of an entry is the name it has in the table. -/
theorem pushEntry_key_eq_iff : (pushEntry e).1 = .string k ↔ Names k e := by
  rw [pushEntry_key]
  exact ⟨LuaValue.string.inj, congrArg _⟩

/-- The value of an entry is never nil. -/
theorem pushEntry_value_ne_nil : (pushEntry e).2 ≠ .nil := by
  rcases exists_name_value e with h | ⟨name, v, he, h⟩
  · rw [pushEntry_of_notMem h]
    intro hnil
    cases hnil
  · rw [pushEntry_of_eq he h]
    intro hnil
    cases hnil

/-- An entry of a name, taken apart. -/
theorem begins_iff : Begins name e ↔ ∃ v, e.1 = name ++ '=' :: v := by
  constructor
  · rintro ⟨v, hv⟩
    exact ⟨v, by rw [← hv, List.append_assoc, List.singleton_append]⟩
  · rintro ⟨v, hv⟩
    exact ⟨v, by rw [hv, List.append_assoc, List.singleton_append]⟩

end Entries

/-! ## What the two forms return -/

section Values

variable (N : Numerals) (L : Layout fun _ : LuaValue => LuaValue) (environ : Environ) (k : LStr)
  (w : World Environ Call)

/-- The value of a field of the table: what the last entry for it sets. -/
def tableValue : LuaValue :=
  ((environ.reverse.find? fun e => Names k e).map fun e => (pushEntry e).2).getD .nil

/-- The value returned for a name. -/
def namedValue : LuaValue := pushstring (getenv environ (cstring k))

/-- The tables after the loop over the block. -/
def environHeap (H : Heap) : Heap :=
  environ.foldl (fun H' e => H'.set L H.size (pushEntry e).1 (pushEntry e).2) (H.newtable L []).2

/-- All variables make one table. -/
theorem run_getenv_table : (Pgetenv N L []).run w
    = .ok [.table w.heap.size] { w with heap := environHeap L w.sys w.heap } := by
  have hnargs : checknargs [] 1 = .ok () := rfl
  have hnone : isnoneornil [] 1 = true := rfl
  rw [Pgetenv, hnargs, hnone]
  simp only [EStateM.run_bind, BindingM.run_lua_ok]
  rw [if_pos trivial, EStateM.run_bind, BindingM.run_newtable]
  simp only [EStateM.run_bind, EStateM.run_get, BindingM.run_forM_settable]
  rfl

/-- **The table of all variables.** -/
theorem get_environHeap (H : Heap) :
    (environHeap L environ H).get H.size (.string k) = tableValue environ k := by
  have hfresh : (H.newtable L []).2.get H.size (.string k) = .nil := by
    have hname : Heap.fieldName (String.ofList k) = .string k := by
      rw [Heap.fieldName, String.toList_ofList]
    rw [← hname, Heap.get_newtable]
    rfl
  rw [environHeap, Heap.get_foldl_set_last, hfresh]
  simp only [pushEntry_key_eq_iff]
  rfl

/-- **The value of one variable.** -/
theorem run_getenv_named : (Pgetenv N L [.string k]).run w
    = .ok [namedValue w.sys k] { w with calls := w.calls ++ [.getenv (cstring k)] } := rfl

end Values

/-! ## When they agree -/

section Agreement

/-- The table has at the name the value that is returned for it. -/
def SameValue (N : Numerals) (L : Layout fun _ : LuaValue => LuaValue) (w : World Environ Call)
    (k : LStr) : Prop :=
  ∃ t w₁ v w₂, (Pgetenv N L []).run w = .ok [.table t] w₁ ∧
    (Pgetenv N L [.string k]).run w = .ok [v] w₂ ∧ w₁.heap.get t (.string k) = v

variable {N : Numerals} {L : Layout fun _ : LuaValue => LuaValue} {w : World Environ Call}
  {environ : Environ} {k : LStr}

/-- The two forms of `getenv` agree in a name if they find the same value. -/
theorem sameValue_iff : SameValue N L w k ↔ tableValue w.sys k = namedValue w.sys k := by
  constructor
  · rintro ⟨t, w₁, v, w₂, htable, hnamed, hsame⟩
    rw [run_getenv_table] at htable
    rw [run_getenv_named] at hnamed
    cases htable
    cases hnamed
    rw [← hsame, get_environHeap]
  · intro h
    exact ⟨_, _, _, _, run_getenv_table N L w, run_getenv_named N L k w,
      (get_environHeap L w.sys k w.heap).trans h⟩

/-- No entry sets the name; or the first one that begins with it and `=` is the last one that is
the name or sets it. -/
def Unambiguous (environ : Environ) (k : LStr) : Prop :=
  (∀ e ∈ environ, ¬Names k e ∧ ¬Begins (cstring k) e) ∨
    ∃ e, environ.find? (fun e => Begins (cstring k) e) = some e ∧
      environ.reverse.find? (fun e => Names k e) = some e

/-- The table has no entry of a name that none has. -/
theorem find_names_eq_none :
    (environ.reverse.find? fun e => Names k e) = none ↔ ∀ e ∈ environ, ¬Names k e := by
  rw [List.find?_eq_none]
  simp

/-- The only entry that passes a test is found. -/
theorem find_eq_some_of_unique {p : CString → Bool} {l : Environ} {e : CString} (he : e ∈ l)
    (hp : p e = true) (hunique : ∀ e' ∈ l, p e' = true → e' = e) : l.find? p = some e := by
  cases hfind : l.find? p with
  | none => exact absurd hp (List.find?_eq_none.mp hfind e he)
  | some e' => rw [hunique e' (List.mem_of_find?_eq_some hfind) (List.find?_some hfind)]

/-- `getenv(3)` finds no entry of a name that none begins with. -/
theorem find_begins_eq_none {name : LStr} :
    (environ.find? fun e => Begins name e) = none ↔ ∀ e ∈ environ, ¬Begins name e := by
  rw [List.find?_eq_none]
  simp

/-- An entry that sets a name says that the name has no zero. -/
theorem cstring_of_names {e : CString} (h : Names k e) : cstring k = k := by
  refine cstring_eq_self fun hzero => e.2 ?_
  exact (List.takeWhile_prefix _).subset (h.symm ▸ hzero)

/-- Unambiguous names are those whose last entry is the first one asked for. -/
theorem unambiguous_iff : Unambiguous environ k ↔
    (environ.reverse.find? fun e => Names k e)
      = environ.find? fun e => Begins (cstring k) e := by
  constructor
  · rintro (hnot | ⟨e, hfirst, hlast⟩)
    · have hnames := find_names_eq_none.mpr fun e he => (hnot e he).1
      have hbegins := find_begins_eq_none.mpr fun e he => (hnot e he).2
      rw [hnames, hbegins]
    · rw [hlast, hfirst]
  · intro heq
    cases hlast : environ.reverse.find? fun e => Names k e with
    | none =>
        rw [hlast] at heq
        exact .inl fun e he =>
          ⟨find_names_eq_none.mp hlast e he, find_begins_eq_none.mp heq.symm e he⟩
    | some e =>
        rw [hlast] at heq
        exact .inr ⟨e, heq.symm, hlast⟩

/-- The last entry of a name and the first that begins with it and `=` give one value if and only
if they are one entry. -/
theorem value_eq_iff {e e' : CString} (h : Names k e) (h' : Begins (cstring k) e') :
    (pushEntry e).2 = .string (e'.1.drop ((cstring k).length + 1)) ↔ e = e' := by
  obtain ⟨v', hv'⟩ := begins_iff.mp h'
  have hdrop : e'.1.drop ((cstring k).length + 1) = v' := by
    rw [hv']
    simp
  rw [hdrop]
  rcases exists_name_value e with hnot | ⟨name, v, he, hname⟩
  · rw [pushEntry_of_notMem hnot]
    constructor
    · intro hv
      cases hv
    · rintro rfl
      rw [hv'] at hnot
      exact absurd (List.mem_append_right _ List.mem_cons_self) hnot
  · have hk : name = k := by
      rw [← h, he, takeWhile_name hname]
    subst hk
    rw [cstring_of_names h] at hv'
    rw [pushEntry_of_eq he hname, Subtype.ext_iff, he, hv']
    simp

/-- **One environment**: the two forms agree on a name exactly if it is unambiguous. -/
theorem values_eq_iff : tableValue environ k = namedValue environ k ↔ Unambiguous environ k := by
  rw [unambiguous_iff, tableValue, namedValue, getenv]
  cases hlast : environ.reverse.find? fun e => Names k e with
  | none =>
      cases hfirst : environ.find? fun e => Begins (cstring k) e with
      | none => exact ⟨fun _ => rfl, fun _ => rfl⟩
      | some e' =>
          constructor
          · intro hv
            cases hv
          · intro h
            cases h
  | some e =>
      have hnames : Names k e :=
        of_decide_eq_true (List.find?_some (p := fun e => decide (Names k e)) hlast)
      cases hfirst : environ.find? fun e => Begins (cstring k) e with
      | none =>
          constructor
          · intro hnil
            exact absurd hnil pushEntry_value_ne_nil
          · intro h
            cases h
      | some e' =>
          have hbegins : Begins (cstring k) e' :=
            of_decide_eq_true (List.find?_some (p := fun e => decide (Begins (cstring k) e)) hfirst)
          rw [Option.some_inj, ← value_eq_iff hnames hbegins]
          exact Iff.rfl

/-- With `=` in the entry and none in the name the two ways of looking for the name agree. -/
theorem names_iff_begins {e : CString} (hset : '=' ∈ e.1) (hk : '=' ∉ k) :
    Names k e ↔ Begins k e := by
  rw [begins_iff]
  constructor
  · intro h
    obtain hnot | ⟨name, v, he, hname⟩ := exists_name_value e
    · exact absurd hset hnot
    · rw [Names, he, takeWhile_name hname] at h
      exact ⟨v, h ▸ he⟩
  · rintro ⟨v, he⟩
    rw [Names, he, takeWhile_name hk]

/-- Where every entry has `=` and no name comes twice, the names are unambiguous that have neither
`=` nor a zero. -/
theorem unambiguous_of_nodup (hset : ∀ e ∈ environ, '=' ∈ e.1)
    (hnodup : (environ.map fun e => e.1.takeWhile (· ≠ '=')).Nodup) (hk : '=' ∉ k)
    (hzero : Char.ofNat 0 ∉ k) : Unambiguous environ k := by
  have hsame : ∀ e ∈ environ, Names k e ↔ Begins (cstring k) e := by
    intro e he
    rw [cstring_eq_self hzero]
    exact names_iff_begins (hset e he) hk
  by_cases hnames : ∃ e ∈ environ, Names k e
  · obtain ⟨e, he, hname⟩ := hnames
    -- no other entry has the name
    have hunique : ∀ e' ∈ environ, Names k e' → e' = e := fun e' he' hname' =>
      List.inj_on_of_nodup_map hnodup he' he (hname'.trans hname.symm)
    refine .inr ⟨e, ?_, ?_⟩
    · refine find_eq_some_of_unique he (decide_eq_true ((hsame e he).mp hname)) ?_
      intro e' he' hbegins
      exact hunique e' he' ((hsame e' he').mpr (of_decide_eq_true hbegins))
    · refine find_eq_some_of_unique (List.mem_reverse.mpr he) (decide_eq_true hname) ?_
      intro e' he' hname'
      exact hunique e' (List.mem_reverse.mp he') (of_decide_eq_true hname')
  · refine .inl fun e he => ?_
    have hnot : ¬Names k e := fun hname => hnames ⟨e, he, hname⟩
    exact ⟨hnot, fun hbegins => hnot ((hsame e he).mpr hbegins)⟩

/-- **The two forms of `getenv` agree** on a name exactly if the block is unambiguous about it. -/
theorem getenv_agrees_iff (N : Numerals) (L : Layout fun _ : LuaValue => LuaValue)
    (w : World Environ Call) (k : LStr) : SameValue N L w k ↔ Unambiguous w.sys k := by
  rw [sameValue_iff, values_eq_iff]

/-- A name set twice has the last value in the table; `getenv` finds the first. -/
theorem second_setting_shown : ¬ ∀ (N : Numerals) (L : Layout fun _ : LuaValue => LuaValue)
    (w : World Environ Call) (k : LStr), SameValue N L w k := by
  intro h
  have hsame := h .zero Heap.newestFirst
    ⟨0, .empty, [⟨"A=1".toList, by decide⟩, ⟨"A=2".toList, by decide⟩], []⟩ "A".toList
  rw [sameValue_iff] at hsame
  revert hsame
  decide

end Agreement

end LuaPosix.Stdlib

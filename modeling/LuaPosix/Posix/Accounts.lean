import LuaPosix.Lib.Machine
import LuaPosix.Lua.Binding
import LuaPosix.Lua.Sequence

/-! # The databases of users and groups

`posix.pwd` and `posix.grp` read a database each, in the same way: by an enumeration, which the C
library keeps the place of, and by searches for an id or a name, which leave that place alone. A
record is returned as a table of its own. That an enumeration has come to its end is told from
`errno`, which only the searches clear. -/

namespace LuaPosix.Accounts

open LuaPattern (LStr)
open Traversal (Layout)

/-- `struct group`. An `int` counts the members. -/
structure Group where
  gr_gid : BitVec 32
  gr_name : LStr
  gr_mem : Option (List LStr)
  counted : ∀ l ∈ gr_mem, l.length < 2 ^ 31

/-- `struct passwd`. -/
structure Passwd where
  pw_uid : BitVec 32
  pw_gid : BitVec 32
  pw_name : LStr
  pw_dir : LStr
  pw_shell : LStr
  pw_passwd : LStr

/-- The calls of the C library. -/
inductive Call where
  | getent
  | setent
  | endent
  | getid (id : BitVec 32)
  | getnam (name : LStr)

/-- A database and the place of its enumeration. -/
structure Cursor (ρ : Type) where
  records : List ρ
  place : Nat

/-- What runs on it. -/
abbrev AccountM (ρ : Type) := BindingM (Cursor ρ) Call

/-- A C string, as a value. -/
def text (s : LStr) : LuaValue := .string (cstring s)

/-- An unsigned id, as a value. -/
def number (id : BitVec 32) : LuaValue := .integer (id.setWidth 64)

/-- What tells one database from the other. -/
structure Kind (ρ : Type) where
  id : ρ → BitVec 32
  name : ρ → LStr
  /-- The fields of a table, in the order they are set. -/
  fields : ρ → List (String × LuaValue)
  /-- The list that is set after them, if there is one. -/
  members : ρ → Option (List LStr)
  idField : String
  nameField : String
  /-- The field of the list. -/
  listField : String
  /-- The functions that search. -/
  byId : String
  byName : String
  counted : ∀ r, ∀ l ∈ members r, l.length < 2 ^ 31
  fieldOf_id : ∀ r, Heap.fieldOf (fields r) idField = number (id r)
  fieldOf_name : ∀ r, Heap.fieldOf (fields r) nameField = text (name r)
  fieldOf_list : ∀ r, Heap.fieldOf (fields r) listField = .nil
  id_ne : idField ≠ listField
  name_ne : nameField ≠ listField

/-- Groups: what `pushgroup` makes of a record. -/
def group : Kind Group where
  id := Group.gr_gid
  name := Group.gr_name
  fields g := [("gr_gid", number g.gr_gid), ("gr_name", text g.gr_name)]
  members := Group.gr_mem
  idField := "gr_gid"
  nameField := "gr_name"
  listField := "gr_mem"
  byId := "getgrgid"
  byName := "getgrnam"
  counted := Group.counted
  fieldOf_id _ := rfl
  fieldOf_name _ := rfl
  fieldOf_list _ := rfl
  id_ne := by decide
  name_ne := by decide

/-- Users: what `pushpasswd` makes of one. -/
def passwd : Kind Passwd where
  id := Passwd.pw_uid
  name := Passwd.pw_name
  fields p := [("pw_uid", number p.pw_uid), ("pw_gid", number p.pw_gid),
    ("pw_name", text p.pw_name), ("pw_dir", text p.pw_dir), ("pw_shell", text p.pw_shell),
    ("pw_passwd", text p.pw_passwd)]
  members _ := none
  idField := "pw_uid"
  nameField := "pw_name"
  listField := "gr_mem"
  byId := "getpwuid"
  byName := "getpwnam"
  counted _ _ h := nomatch h
  fieldOf_id _ := rfl
  fieldOf_name _ := rfl
  fieldOf_list _ := rfl
  id_ne := by decide
  name_ne := by decide

/-! ## The C library -/

section Library

variable {ρ : Type}

/-- `setgrent()` and `setpwent()`; and `endgrent()` and `endpwent()`, after which an enumeration
begins anew as well. -/
def rewind (call : Call) : AccountM ρ Unit := fun w =>
  .ok () { w with sys := { w.sys with place := 0 }, calls := w.calls ++ [call] }

/-- `getgrent()` and `getpwent()`, which fail with an error number or go to the next record. At the
end they leave `errno` alone. -/
def nextRecord (fails : Option Int) : AccountM ρ (Option ρ) := fun w =>
  match fails with
  | some e => .ok none { w with errno := e, calls := w.calls ++ [.getent] }
  | none => .ok w.sys.records[w.sys.place]? { w with
      sys := { w.sys with
        place := if w.sys.place < w.sys.records.length then w.sys.place + 1 else w.sys.place }
      calls := w.calls ++ [.getent] }

/-- A search, which fails or finds the first record that meets the condition. Where there is none it
leaves `errno` alone. -/
def findRecord (call : Call) (p : ρ → Bool) (fails : Option Int) : AccountM ρ (Option ρ) := fun w =>
  match fails with
  | some e => .ok none { w with errno := e, calls := w.calls ++ [call] }
  | none => .ok (w.sys.records.find? p) { w with calls := w.calls ++ [call] }

end Library

section Model

variable {ρ : Type} (K : Kind ρ) (N : Numerals) (strerror : Int → LStr)
  (L : Layout fun _ : LuaValue => LuaValue)

/-- `pushgroup` and `pushpasswd`. -/
def push : Option ρ → AccountM ρ LuaValue
  | none => return .nil
  | some r => do
      let t ← BindingM.newtable L (K.fields r)
      match K.members r with
      | none => return t
      | some l =>
          let list ← BindingM.pack L (l.map text)
          BindingM.settable L t (Heap.fieldName K.listField) (.table list)
          return t

/-- `if (!g && errno == 0) endgrent();` -/
def endAtEnd (r : Option ρ) : AccountM ρ Unit := do
  if r.isNone ∧ (← BindingM.errno) = 0 then rewind .endent

/-- `getgrent()` and `getpwent()`. -/
def getent (fails : Option Int) (args : List LuaValue) : AccountM ρ (List LuaValue) := do
  checknargs args 0
  let r ← nextRecord fails
  endAtEnd r
  return [← push K L r]

/-- What a search returns. -/
def found (info : String) (r : Option ρ) : AccountM ρ (List LuaValue) := do
  if r.isNone ∧ (← BindingM.errno) ≠ 0 then
    return pusherror strerror (← BindingM.errno) (some info.toList)
  else return [← push K L r]

/-- A search, after the checks of its arguments. -/
def search (call : Call) (p : ρ → Bool) (info : String) (fails : Option Int) :
    AccountM ρ (List LuaValue) := do
  -- So that a result without a record can be told from a failure.
  BindingM.seterrno 0
  let r ← findRecord call p fails
  found K strerror L info r

/-- `getgrgid(gid)` and `getpwuid(uid)`. -/
def getid (fails : Option Int) (args : List LuaValue) : AccountM ρ (List LuaValue) := do
  let id ← checkinteger N.strtod args 1
  checknargs args 1
  search K strerror L (.getid (id.setWidth 32)) (fun r => K.id r = id.setWidth 32) K.byId fails

/-- `getgrnam(name)` and `getpwnam(name)`. -/
def getnam (fails : Option Int) (args : List LuaValue) : AccountM ρ (List LuaValue) := do
  let name ← cstring <$> checklstring args N.numberText 1
  checknargs args 1
  search K strerror L (.getnam name) (fun r => cstring (K.name r) = name) K.byName fails

/-- `setgrent()` and `endgrent()`, `setpwent()` and `endpwent()`. -/
def rewinding (call : Call) (args : List LuaValue) : AccountM ρ (List LuaValue) := do
  checknargs args 0
  rewind call
  return []

end Model

section Names

variable (N : Numerals) (strerror : Int → LStr) (L : Layout fun _ : LuaValue => LuaValue)

/-- `pushgroup(L, g)`. -/
def pushgroup : Option Group → AccountM Group LuaValue := push group L

/-- `getgrent()`. -/
def Pgetgrent : Option Int → List LuaValue → AccountM Group (List LuaValue) := getent group L

/-- `getgrgid(gid)`. -/
def Pgetgrgid : Option Int → List LuaValue → AccountM Group (List LuaValue) :=
  getid group N strerror L

/-- `getgrnam(name)`. -/
def Pgetgrnam : Option Int → List LuaValue → AccountM Group (List LuaValue) :=
  getnam group N strerror L

/-- `setgrent()`. -/
def Psetgrent : List LuaValue → AccountM Group (List LuaValue) := rewinding .setent

/-- `endgrent()`. -/
def Pendgrent : List LuaValue → AccountM Group (List LuaValue) := rewinding .endent

/-- `pushpasswd(L, p)`. -/
def pushpasswd : Option Passwd → AccountM Passwd LuaValue := push passwd L

/-- `getpwent()`. -/
def Pgetpwent : Option Int → List LuaValue → AccountM Passwd (List LuaValue) := getent passwd L

/-- `getpwuid(uid)`. -/
def Pgetpwuid : Option Int → List LuaValue → AccountM Passwd (List LuaValue) :=
  getid passwd N strerror L

/-- `getpwnam(name)`. -/
def Pgetpwnam : Option Int → List LuaValue → AccountM Passwd (List LuaValue) :=
  getnam passwd N strerror L

/-- `setpwent()`. -/
def Psetpwent : List LuaValue → AccountM Passwd (List LuaValue) := rewinding .setent

/-- `endpwent()`. -/
def Pendpwent : List LuaValue → AccountM Passwd (List LuaValue) := rewinding .endent

end Names

/-! ## Tables of records -/

section Tables

variable {ρ : Type} {K : Kind ρ} {L : Layout fun _ : LuaValue => LuaValue} {H H' H'' : Heap}
  {v : LuaValue} {r : ρ}

/-- The tables that were there are as they were. -/
def Extends (H H' : Heap) : Prop := H.size ≤ H'.size ∧ ∀ t < H.size, H'.tables t = H.tables t

/-- A heap extends itself. -/
theorem Extends.refl (H : Heap) : Extends H H := ⟨le_rfl, fun _ _ => rfl⟩

/-- One extension after another. -/
theorem Extends.trans (h : Extends H H') (h' : Extends H' H'') : Extends H H'' :=
  ⟨h.1.trans h'.1, fun t ht => (h'.2 t (ht.trans_le h.1)).trans (h.2 t ht)⟩

/-- The tables of the smaller heap are as they were. -/
theorem Extends.get (h : Extends H H') {t : Nat} (ht : t < H.size) (k : LuaValue) :
    H'.get t k = H.get t k := by
  rw [Heap.get, Heap.get, h.2 t ht]

/-- **The table of a record**: its fields, and a table of its list. -/
structure Kind.IsAt (K : Kind ρ) (H : Heap) (t : Nat) (r : ρ) : Prop where
  lt : t < H.size
  field : ∀ k, k ≠ K.listField →
    H.get t (Heap.fieldName k) = Heap.fieldOf (K.fields r) k
  list : ∀ l ∈ K.members r, ∃ m < H.size,
    H.get t (Heap.fieldName K.listField) = .table m ∧ H.Holds m (l.map text)
  noList : K.members r = none → H.get t (Heap.fieldName K.listField) = .nil

/-- A value is the table of a record. -/
def Kind.At (K : Kind ρ) (H : Heap) (v : LuaValue) (r : ρ) : Prop :=
  ∃ t, v = .table t ∧ K.IsAt H t r

/-- A table of a record stays one where only tables are added. -/
theorem Kind.IsAt.extends {t : Nat} (h : K.IsAt H t r) (hH : Extends H H') : K.IsAt H' t r where
  lt := h.lt.trans_le hH.1
  field k hk := (hH.get h.lt _).trans (h.field k hk)
  list l hl := by
    obtain ⟨m, hm, hget, hholds⟩ := h.list l hl
    refine ⟨m, hm.trans_le hH.1, (hH.get h.lt _).trans hget, ?_⟩
    rw [Heap.Holds, hH.2 m hm]
    exact hholds
  noList hnone := (hH.get h.lt _).trans (h.noList hnone)

/-- So does the value that is returned for a record. -/
theorem Kind.At.extends (h : K.At H v r) (hH : Extends H H') : K.At H' v r := by
  obtain ⟨t, rfl, ht⟩ := h
  exact ⟨t, rfl, ht.extends hH⟩

/-- A new table is an extension. -/
theorem extends_newtable (fields : List (String × LuaValue)) :
    Extends H (H.newtable L fields).2 := by
  refine ⟨?_, fun t ht => Heap.tables_newtable_of_ne (Nat.ne_of_lt ht)⟩
  rw [Heap.size_newtable]
  exact Nat.le_succ _

/-- So is a list that is packed. -/
theorem extends_pack (vs : List LuaValue) : Extends H (H.pack L vs).2 := by
  refine ⟨?_, fun t ht => Heap.tables_pack_of_ne (Nat.ne_of_lt ht)⟩
  rw [Heap.size_pack]
  exact Nat.le_succ _

/-- What is assigned to a new table concerns no other. -/
theorem Extends.set (h : Extends H H') {t : Nat} (ht : H.size ≤ t) (k v : LuaValue) :
    Extends H (H'.set L t k v) :=
  ⟨h.1, fun u hu => (Heap.tables_set_of_ne k v (Nat.ne_of_lt (hu.trans_le ht))).trans (h.2 u hu)⟩

/-- **A record is pushed as a new table**. -/
theorem run_push (r : ρ) (w : World (Cursor ρ) Call) : ∃ v w',
    (push K L (some r)).run w = .ok v w' ∧
    w'.errno = w.errno ∧ w'.sys = w.sys ∧ Extends w.heap w'.heap ∧ K.At w'.heap v r := by
  have hnew : ∀ k, (w.heap.newtable L (K.fields r)).2.get w.heap.size (Heap.fieldName k)
      = Heap.fieldOf (K.fields r) k := Heap.get_newtable (K.fields r)
  have hlt : w.heap.size < (w.heap.newtable L (K.fields r)).2.size := by
    rw [Heap.size_newtable]
    exact Nat.lt_succ_self _
  rw [push, BindingM.run_bind_of_ok (BindingM.run_newtable w L (K.fields r))]
  cases hmembers : K.members r with
  | none =>
      refine ⟨_, _, rfl, rfl, rfl, extends_newtable _, w.heap.size, rfl, hlt,
        fun k _ => hnew k, fun l hl => ?_, fun _ => ?_⟩
      · rw [hmembers] at hl
        cases hl
      · rw [hnew, K.fieldOf_list]
  | some l =>
      let H := (w.heap.newtable L (K.fields r)).2
      let H' := (H.pack L (l.map text)).2
      have hpack : Extends H H' := extends_pack (l.map text)
      have hsize : H'.size = H.size + 1 := Heap.size_pack
      have hrun : (BindingM.settable L (.table w.heap.size) (Heap.fieldName K.listField)
          (.table H.size) : AccountM ρ Unit).run { w with heap := H' } = .ok () { w with
            heap := H'.set L w.heap.size (Heap.fieldName K.listField) (.table H.size) } := rfl
      have hindexable : Indexable (l.map text) := by
        have hlength := K.counted r l hmembers
        rw [Indexable, List.length_map]
        omega
      have hnil : .nil ∉ l.map text := by
        intro hmem
        obtain ⟨s, -, hs⟩ := List.mem_map.mp hmem
        cases hs
      simp only []
      rw [BindingM.run_bind_of_ok (BindingM.run_pack _ L _), BindingM.run_bind_of_ok hrun]
      refine ⟨_, _, rfl, rfl, rfl, ((extends_newtable _).trans hpack).set le_rfl _ _,
        w.heap.size, rfl, hlt.trans_le hpack.1, fun k hk => ?_, fun l' hl' => ?_, fun hnone => ?_⟩
      · rw [Heap.get_set_of_ne _ _ fun h => hk (Heap.fieldName_injective h), hpack.get hlt, hnew]
      · obtain rfl : l = l' := by
          rw [hmembers] at hl'
          exact Option.some.inj hl'
        refine ⟨H.size, ?_, Heap.get_set _ _ _, ?_⟩
        · rw [Heap.size_set, hsize]
          exact Nat.lt_succ_self _
        · rw [Heap.Holds, Heap.tables_set_of_ne _ _ (Nat.ne_of_gt hlt)]
          exact Heap.holds_pack hindexable hnil
      · rw [hmembers] at hnone
        cases hnone

end Tables

/-! ## Calls -/

section Calls

variable {ρ : Type} {K : Kind ρ} {N : Numerals} {strerror : Int → LStr}
  {L : Layout fun _ : LuaValue => LuaValue} {w : World (Cursor ρ) Call} {r : ρ}

/-- The check of `getent`. -/
theorem checknargs_nil : checknargs [] 0 = .ok () := rfl

/-- An enumeration that has given a record is not at its end. -/
theorem run_endAtEnd_some (r : ρ) (w : World (Cursor ρ) Call) :
    (endAtEnd (some r)).run w = .ok () w := by
  rw [endAtEnd, BindingM.run_bind_of_ok (BindingM.run_errno _), if_neg fun h => nomatch h.1]
  rfl

/-- At the end the enumeration begins anew if `errno` is 0. -/
theorem run_endAtEnd_none (w : World (Cursor ρ) Call) :
    (endAtEnd none).run w = if w.errno = 0 then (rewind .endent).run w else .ok () w := by
  rw [endAtEnd, BindingM.run_bind_of_ok (BindingM.run_errno _)]
  by_cases herrno : w.errno = 0
  · rw [if_pos ⟨rfl, herrno⟩, if_pos herrno]
  · rw [if_neg fun h => herrno h.2, if_neg herrno]
    rfl

variable (K L) in
/-- `getent` takes no argument. -/
theorem run_getent_refused (fails : Option Int) (v : LuaValue) (args : List LuaValue) :
    ∃ e, (getent K L fails (v :: args)).run w = .error e w := ⟨_, rfl⟩

variable (K L) in
/-- `getent` that fails. -/
theorem run_getent_fails {e : Int} (he : e ≠ 0) : ∃ w', (getent K L (some e) []).run w
    = .ok [.nil] w' ∧ w'.errno = e ∧ w'.sys = w.sys ∧ w'.heap = w.heap := by
  refine ⟨{ w with errno := e, calls := w.calls ++ [.getent] }, ?_, rfl, rfl, rfl⟩
  have hnext : (nextRecord (some e) : AccountM ρ (Option ρ)).run w
      = .ok none { w with errno := e, calls := w.calls ++ [.getent] } := rfl
  have hend := run_endAtEnd_none { w with errno := e, calls := w.calls ++ [.getent] }
  rw [if_neg he] at hend
  rw [getent, checknargs_nil, BindingM.run_bind_of_ok (BindingM.run_lua_ok w ()),
    BindingM.run_bind_of_ok hnext, BindingM.run_bind_of_ok hend]
  rfl

/-- `getent` on a record. -/
theorem run_getent_next (h : w.sys.records[w.sys.place]? = some r) :
    ∃ v w', (getent K L none []).run w = .ok [v] w' ∧ w'.errno = w.errno ∧
      w'.sys = { w.sys with place := w.sys.place + 1 } ∧ Extends w.heap w'.heap ∧
      K.At w'.heap v r := by
  have hlt : w.sys.place < w.sys.records.length := (List.getElem?_eq_some_iff.mp h).1
  let w₁ : World (Cursor ρ) Call := { w with
    sys := { w.sys with place := w.sys.place + 1 }, calls := w.calls ++ [.getent] }
  have hnext : (nextRecord none : AccountM ρ (Option ρ)).run w = .ok (some r) w₁ := by
    show nextRecord none w = _
    rw [nextRecord, h, if_pos hlt]
  obtain ⟨v, w', hpush, herrno, hsys, hheap, hat⟩ := run_push (K := K) (L := L) r w₁
  refine ⟨v, w', ?_, herrno, hsys, hheap, hat⟩
  rw [getent, checknargs_nil, BindingM.run_bind_of_ok (BindingM.run_lua_ok w ()),
    BindingM.run_bind_of_ok hnext, BindingM.run_bind_of_ok (run_endAtEnd_some r w₁),
    BindingM.run_bind_of_ok hpush]
  rfl

variable (K L) in
/-- `getent` at the end: the enumeration begins anew if `errno` is 0. -/
theorem run_getent_end (h : w.sys.records.length ≤ w.sys.place) :
    ∃ w', (getent K L none []).run w = .ok [.nil] w' ∧ w'.errno = w.errno ∧
      w'.sys = { w.sys with place := if w.errno = 0 then 0 else w.sys.place } ∧
      w'.heap = w.heap := by
  let w₁ : World (Cursor ρ) Call := { w with calls := w.calls ++ [.getent] }
  have hnext : (nextRecord none : AccountM ρ (Option ρ)).run w = .ok none w₁ := by
    show nextRecord none w = _
    rw [nextRecord, List.getElem?_eq_none h, if_neg (Nat.not_lt.mpr h)]
  have hend := run_endAtEnd_none w₁
  rw [getent, checknargs_nil, BindingM.run_bind_of_ok (BindingM.run_lua_ok w ()),
    BindingM.run_bind_of_ok hnext]
  by_cases herrno : w.errno = 0
  · have hrewind : (rewind .endent).run w₁ = .ok () { w₁ with
        sys := { w₁.sys with place := 0 }, calls := w₁.calls ++ [.endent] } := rfl
    rw [if_pos herrno, hrewind] at hend
    rw [BindingM.run_bind_of_ok hend, if_pos herrno]
    exact ⟨_, rfl, rfl, rfl, rfl⟩
  · rw [if_neg herrno] at hend
    rw [BindingM.run_bind_of_ok hend, if_neg herrno]
    exact ⟨_, rfl, rfl, rfl, rfl⟩

/-- A call that leaves the enumeration alone. -/
def Aside (w : World (Cursor ρ) Call) (x : EStateM.Result Fault (World (Cursor ρ) Call)
    (List LuaValue)) : Prop :=
  (BindingM.worldAfter x).sys = w.sys ∧ Extends w.heap (BindingM.worldAfter x).heap

/-- What a search returns for its record. -/
theorem run_found (info : String) (r : Option ρ) (hw : r = none → w.errno = 0) : ∃ v w',
    (found K strerror L info r).run w = .ok [v] w' ∧ w'.sys = w.sys ∧ Extends w.heap w'.heap ∧
      (r = none → v = .nil) ∧ ∀ r' ∈ r, K.At w'.heap v r' := by
  rw [found, BindingM.run_bind_of_ok (BindingM.run_errno _)]
  cases r with
  | none =>
      rw [if_neg fun h => h.2 (hw rfl)]
      exact ⟨.nil, w, rfl, rfl, .refl _, fun _ => rfl, fun r' hr' => nomatch hr'⟩
  | some r =>
      obtain ⟨v, w', hpush, -, hsys, hheap, hat⟩ := run_push (K := K) (L := L) r w
      rw [if_neg fun h => nomatch h.1]
      refine ⟨v, w', ?_, hsys, hheap, nofun, fun r' hr' => ?_⟩
      · rw [BindingM.run_bind_of_ok hpush]
        rfl
      · obtain rfl := Option.some.inj hr'
        exact hat

variable (K strerror L) in
/-- Making a table of what was found touches nothing else. -/
theorem aside_found (info : String) (r : Option ρ) :
    Aside w ((found K strerror L info r).run w) := by
  by_cases hfails : r.isNone = true ∧ w.errno ≠ 0
  · rw [found, BindingM.run_bind_of_ok (BindingM.run_errno _), if_pos hfails]
    exact ⟨rfl, .refl _⟩
  · have hw : r = none → w.errno = 0 := fun hr => by_contra fun h => hfails ⟨by rw [hr]; rfl, h⟩
    obtain ⟨v, w', hrun, hsys, hheap, -⟩ := run_found (K := K) (L := L) (w := w) info r hw
    rw [hrun]
    exact ⟨hsys, hheap⟩

variable (strerror) in
/-- A search that does not fail returns the table of the first record that meets the condition, or
nil. -/
theorem run_search (call : Call) (p : ρ → Bool) (info : String) : ∃ v w',
    (search K strerror L call p info none).run w = .ok [v] w' ∧ w'.sys = w.sys ∧
      Extends w.heap w'.heap ∧ (w.sys.records.find? p = none → v = .nil) ∧
      ∀ r ∈ w.sys.records.find? p, K.At w'.heap v r := by
  let w₁ : World (Cursor ρ) Call := { w with errno := 0, calls := w.calls ++ [call] }
  have hfind : (findRecord call p none).run { w with errno := 0 }
      = .ok (w.sys.records.find? p) w₁ := rfl
  rw [search, BindingM.run_bind_of_ok (BindingM.run_seterrno w 0), BindingM.run_bind_of_ok hfind]
  exact run_found (w := w₁) info (w.sys.records.find? p) fun _ => rfl

variable (K strerror L) in
/-- Searches leave the enumeration alone. -/
theorem aside_search (call : Call) (p : ρ → Bool) (info : String) (fails : Option Int) :
    Aside w ((search K strerror L call p info fails).run w) := by
  cases fails with
  | none =>
      obtain ⟨v, w', hrun, hsys, hheap, -⟩ :=
        run_search (K := K) strerror (L := L) (w := w) call p info
      rw [hrun]
      exact ⟨hsys, hheap⟩
  | some e =>
      let w₁ : World (Cursor ρ) Call := { w with errno := e, calls := w.calls ++ [call] }
      have hfind : (findRecord call p (some e)).run { w with errno := 0 } = .ok none w₁ := rfl
      have haside := aside_found (w := w₁) K strerror L info none
      rw [search, BindingM.run_bind_of_ok (BindingM.run_seterrno w 0),
        BindingM.run_bind_of_ok hfind]
      exact haside

variable (K N strerror L) (fails : Option Int) (args : List LuaValue)

/-- A search by id leaves the enumeration alone. -/
theorem aside_getid : Aside w ((getid K N strerror L fails args).run w) := by
  rw [getid]
  cases checkinteger N.strtod args 1 with
  | error e => exact ⟨rfl, .refl _⟩
  | ok id =>
      cases checknargs args 1 with
      | error e => exact ⟨rfl, .refl _⟩
      | ok _ => exact aside_search K strerror L _ _ _ fails

/-- A search by name does too. -/
theorem aside_getnam : Aside w ((getnam K N strerror L fails args).run w) := by
  rw [getnam]
  cases checklstring args N.numberText 1 with
  | error e => exact ⟨rfl, .refl _⟩
  | ok name =>
      cases checknargs args 1 with
      | error e => exact ⟨rfl, .refl _⟩
      | ok _ => exact aside_search K strerror L _ _ _ fails

end Calls

/-! ## Runs -/

/-- A program that reads a database. -/
structure Session (ρ : Type) where
  world : World (Cursor ρ) Call
  /-- The tables that the enumeration has given since it was begun: by a call that rewinds it, or
  after it has returned nil with `errno` 0. -/
  pass : List LuaValue

/-- What happens next: calls, each with its failure, if it fails. -/
inductive Label where
  | getent (fails : Option Int) (args : List LuaValue)
  | getid (fails : Option Int) (args : List LuaValue)
  | getnam (fails : Option Int) (args : List LuaValue)
  | setent (args : List LuaValue)
  | endent (args : List LuaValue)
  /-- Any other call, which leaves its own `errno`. -/
  | other (errno : Int)

/-- A failure has an error number. -/
def Label.Allowed : Label → Prop
  | .getent fails _ | .getid fails _ | .getnam fails _ => fails ≠ some 0
  | _ => True

section Machine

variable {ρ : Type} (K : Kind ρ) (N : Numerals) (strerror : Int → LStr)
  (L : Layout fun _ : LuaValue => LuaValue)

/-- `getent` has returned. -/
def Session.given (s : Session ρ) : EStateM.Result Fault (World (Cursor ρ) Call) (List LuaValue) →
    Session ρ
  | .ok [v] w => ⟨w, if v = .nil then if w.errno = 0 then [] else s.pass else s.pass ++ [v]⟩
  | x => { s with world := BindingM.worldAfter x }

/-- The enumeration has been rewound. -/
def Session.begun (s : Session ρ) : EStateM.Result Fault (World (Cursor ρ) Call) (List LuaValue) →
    Session ρ
  | .ok _ w => ⟨w, []⟩
  | .error _ w => { s with world := w }

/-- The next state. -/
def Session.next (s : Session ρ) : Label → Option (Session ρ)
  | .getent fails args => some (s.given ((getent K L fails args).run s.world))
  | .getid fails args => some { s with
      world := BindingM.worldAfter ((getid K N strerror L fails args).run s.world) }
  | .getnam fails args => some { s with
      world := BindingM.worldAfter ((getnam K N strerror L fails args).run s.world) }
  | .setent args => some (s.begun ((rewinding .setent args).run s.world))
  | .endent args => some (s.begun ((rewinding .endent args).run s.world))
  | .other errno => some { s with world := { s.world with errno := errno } }

/-- A program that has not read anything. -/
structure Session.Start (s : Session ρ) : Prop where
  place : s.world.sys.place = 0
  pass : s.pass = []

/-- The machine. -/
def machine : Machine (Session ρ) Label := ⟨Session.Start, Session.next K N strerror L⟩

end Machine

section Runs

variable {ρ : Type} {K : Kind ρ} {N : Numerals} {strerror : Int → LStr}
  {L : Layout fun _ : LuaValue => LuaValue} {s s' : Session ρ} {l : Label}

/-- **The invariant**: the tables of the pass are those of the first records, in order. -/
structure Session.Inv (K : Kind ρ) (s : Session ρ) : Prop where
  place : s.world.sys.place ≤ s.world.sys.records.length
  pass : List.Forall₂ (K.At s.world.heap) s.pass (s.world.sys.records.take s.world.sys.place)

/-- As many tables have been given as the place says. -/
theorem Session.Inv.length_pass (h : s.Inv K) : s.pass.length = s.world.sys.place := by
  have hlength := h.pass.length_eq
  rw [List.length_take, Nat.min_eq_left h.place] at hlength
  exact hlength

/-- What leaves the enumeration alone keeps the invariant. -/
theorem Session.Inv.aside (h : s.Inv K)
    {x : EStateM.Result Fault (World (Cursor ρ) Call) (List LuaValue)} (hx : Aside s.world x) :
    ({ s with world := BindingM.worldAfter x } : Session ρ).Inv K := by
  obtain ⟨hsys, hheap⟩ := hx
  refine ⟨?_, ?_⟩
  · show (BindingM.worldAfter x).sys.place ≤ (BindingM.worldAfter x).sys.records.length
    rw [hsys]
    exact h.place
  · show List.Forall₂ (K.At (BindingM.worldAfter x).heap) s.pass
      ((BindingM.worldAfter x).sys.records.take (BindingM.worldAfter x).sys.place)
    rw [hsys]
    exact h.pass.imp fun v r hv => hv.extends hheap

/-- A record that is given is the next one. -/
theorem Session.Inv.given (h : s.Inv K) {fails : Option Int} {args : List LuaValue}
    (hfails : fails ≠ some 0) : (s.given ((getent K L fails args).run s.world)).Inv K := by
  cases args with
  | cons v vs =>
      obtain ⟨e, hrun⟩ := run_getent_refused K L (w := s.world) fails v vs
      rw [hrun]
      exact h
  | nil =>
      cases fails with
      | some e =>
          have he : e ≠ 0 := fun h => hfails (congrArg some h)
          obtain ⟨w', hrun, herrno, hsys, hheap⟩ := run_getent_fails K L (w := s.world) he
          rw [hrun, Session.given, if_pos rfl, if_neg (herrno ▸ he)]
          exact h.aside (x := .ok [.nil] w') ⟨hsys, hheap ▸ .refl _⟩
      | none =>
          rcases Nat.lt_or_ge s.world.sys.place s.world.sys.records.length with hlt | hge
          · have hget := List.getElem?_eq_getElem hlt
            obtain ⟨v, w', hrun, -, hsys, hheap, hat⟩ :=
              run_getent_next (K := K) (L := L) hget
            have hne : v ≠ .nil := by
              obtain ⟨t, rfl, -⟩ := hat
              exact nofun
            rw [hrun, Session.given, if_neg hne]
            refine ⟨?_, ?_⟩
            · show w'.sys.place ≤ w'.sys.records.length
              rw [hsys]
              exact hlt
            · show List.Forall₂ (K.At w'.heap) (s.pass ++ [v])
                (w'.sys.records.take w'.sys.place)
              rw [hsys]
              show List.Forall₂ (K.At w'.heap) (s.pass ++ [v])
                (s.world.sys.records.take (s.world.sys.place + 1))
              rw [List.take_succ_eq_append_getElem hlt]
              exact List.rel_append (h.pass.imp fun u r hu => hu.extends hheap) (.cons hat .nil)
          · obtain ⟨w', hrun, herrno, hsys, hheap⟩ := run_getent_end K L (w := s.world) hge
            rw [hrun, Session.given, if_pos rfl, herrno]
            by_cases hzero : s.world.errno = 0
            · rw [if_pos hzero] at hsys ⊢
              refine ⟨?_, ?_⟩
              · show w'.sys.place ≤ _
                rw [hsys]
                exact Nat.zero_le _
              · show List.Forall₂ _ [] (w'.sys.records.take w'.sys.place)
                rw [hsys]
                exact .nil
            · rw [if_neg hzero] at hsys ⊢
              exact h.aside (x := .ok [.nil] w') ⟨hsys, hheap ▸ .refl _⟩

/-- A rewound enumeration has given nothing. -/
theorem Session.Inv.begun (h : s.Inv K) (call : Call) (args : List LuaValue) :
    (s.begun ((rewinding call args).run s.world)).Inv K := by
  rw [rewinding]
  cases checknargs args 0 with
  | error e => exact h
  | ok _ => exact ⟨Nat.zero_le _, .nil⟩

/-- **Every call keeps the invariant.** -/
theorem inv_next (h : s.Inv K) (ha : l.Allowed) (hs : s.next K N strerror L l = some s') :
    s'.Inv K := by
  cases l with
  | getent fails args =>
      cases hs
      exact h.given ha
  | getid fails args =>
      cases hs
      exact h.aside (aside_getid K N strerror L fails args)
  | getnam fails args =>
      cases hs
      exact h.aside (aside_getnam K N strerror L fails args)
  | setent args =>
      cases hs
      exact h.begun .setent args
  | endent args =>
      cases hs
      exact h.begun .endent args
  | other errno =>
      cases hs
      exact ⟨h.place, h.pass⟩

/-- The invariant holds at any moment of a run. -/
theorem inv_of_reachable (h : (machine K N strerror L).Reachable (fun _ l => l.Allowed) s) :
    s.Inv K :=
  h.invariant (fun s hs => ⟨by rw [hs.place]; exact Nat.zero_le _, by
    rw [hs.place, hs.pass]
    exact .nil⟩) fun _ _ _ hinv ha hs => inv_next hinv ha hs

/-- **The enumeration** gives the tables of the records one after the other, in order, whatever is
called in between; each keeps its fields; and at the end it returns nil and begins anew, if `errno`
is 0 then, or else stays at the end. -/
theorem enumeration (h : (machine K N strerror L).Reachable (fun _ l => l.Allowed) s) :
    List.Forall₂ (K.At s.world.heap) s.pass (s.world.sys.records.take s.pass.length) ∧
    (∀ r, s.world.sys.records[s.pass.length]? = some r → ∃ v w,
      (getent K L none []).run s.world = .ok [v] w ∧ K.At w.heap v r ∧
        s.next K N strerror L (.getent none []) = some ⟨w, s.pass ++ [v]⟩) ∧
    (s.world.sys.records.length ≤ s.pass.length → ∃ w,
      (getent K L none []).run s.world = .ok [.nil] w ∧
        s.next K N strerror L (.getent none [])
          = some ⟨w, if s.world.errno = 0 then [] else s.pass⟩) := by
  have hinv := inv_of_reachable h
  have hlength := hinv.length_pass
  refine ⟨?_, fun r hr => ?_, fun hend => ?_⟩
  · rw [hlength]
    exact hinv.pass
  · rw [hlength] at hr
    obtain ⟨v, w, hrun, -, -, -, hat⟩ := run_getent_next (K := K) (L := L) hr
    have hne : v ≠ .nil := by
      obtain ⟨t, rfl, -⟩ := hat
      exact nofun
    refine ⟨v, w, hrun, hat, ?_⟩
    rw [Session.next, hrun, Session.given, if_neg hne]
  · rw [hlength] at hend
    obtain ⟨w, hrun, herrno, -⟩ := run_getent_end K L (w := s.world) hend
    refine ⟨w, hrun, ?_⟩
    rw [Session.next, hrun, Session.given, if_pos rfl, herrno]

/-! ## Searches -/

/-- The first record of an id. -/
def Kind.withId (K : Kind ρ) (records : List ρ) (id : BitVec 32) : Option ρ :=
  records.find? fun r => K.id r = id

/-- The first record of a name. -/
def Kind.withName (K : Kind ρ) (records : List ρ) (name : LStr) : Option ρ :=
  records.find? fun r => cstring (K.name r) = cstring name

/-- What a search answers: the table of a record, or nil if there is none; or, if it fails, nil with
a message and the error number. -/
def Answers (K : Kind ρ) (strerror : Int → LStr) (info : String) (fails : Option Int)
    (found : Option ρ) (s : Session ρ)
    (x : EStateM.Result Fault (World (Cursor ρ) Call) (List LuaValue)) : Prop :=
  ∃ vs w, x = .ok vs w ∧ w.sys = s.world.sys ∧ Extends s.world.heap w.heap ∧
    match fails, found with
    | some e, _ => vs = pusherror strerror e (some info.toList)
    | none, none => vs = [.nil]
    | none, some r => ∃ v, vs = [v] ∧ K.At w.heap v r

/-- A search answers with the first record that there is. -/
theorem answers_search (call : Call) (p : ρ → Bool) (info : String) {fails : Option Int}
    (hfails : fails ≠ some 0) : Answers K strerror info fails (s.world.sys.records.find? p) s
      ((search K strerror L call p info fails).run s.world) := by
  cases fails with
  | some e =>
      have he : e ≠ 0 := fun h => hfails (congrArg some h)
      let w₁ : World (Cursor ρ) Call :=
        { s.world with errno := e, calls := s.world.calls ++ [call] }
      have hfind : (findRecord call p (some e)).run { s.world with errno := 0 } = .ok none w₁ := rfl
      refine ⟨_, w₁, ?_, rfl, .refl _, rfl⟩
      rw [search, BindingM.run_bind_of_ok (BindingM.run_seterrno _ 0),
        BindingM.run_bind_of_ok hfind, found, BindingM.run_bind_of_ok (BindingM.run_errno _),
        if_pos ⟨rfl, he⟩]
      rfl
  | none =>
      obtain ⟨v, w, hrun, hsys, hheap, hnil, hat⟩ :=
        run_search (K := K) strerror (L := L) (w := s.world) call p info
      refine ⟨[v], w, hrun, hsys, hheap, ?_⟩
      cases hfind : s.world.sys.records.find? p with
      | none => exact congrArg (fun u => [u]) (hnil hfind)
      | some r => exact ⟨v, rfl, hat r hfind⟩

/-- **Searches** for what a table says of its record: by its id or its name the first record of that
id or name is found. -/
theorem searches (h : (machine K N strerror L).Reachable (fun _ l => l.Allowed) s)
    {fails : Option Int} (hfails : fails ≠ some 0) :
    (∀ id, Answers K strerror K.byId fails (K.withId s.world.sys.records (id.setWidth 32)) s
      ((getid K N strerror L fails [.integer id]).run s.world)) ∧
    (∀ name, Answers K strerror K.byName fails (K.withName s.world.sys.records name) s
      ((getnam K N strerror L fails [.string name]).run s.world)) ∧
    ∀ v ∈ s.pass, ∃ t r, v = .table t ∧ r ∈ s.world.sys.records ∧ K.IsAt s.world.heap t r ∧
      Answers K strerror K.byId fails (K.withId s.world.sys.records (K.id r)) s
        ((getid K N strerror L fails
          [s.world.heap.get t (Heap.fieldName K.idField)]).run s.world) ∧
      Answers K strerror K.byName fails (K.withName s.world.sys.records (K.name r)) s
        ((getnam K N strerror L fails
          [s.world.heap.get t (Heap.fieldName K.nameField)]).run s.world) := by
  have hid : ∀ id : BitVec 64, Answers K strerror K.byId fails
      (K.withId s.world.sys.records (id.setWidth 32)) s
      ((getid K N strerror L fails [.integer id]).run s.world) :=
    fun id => answers_search (.getid (id.setWidth 32)) _ K.byId hfails
  have hname : ∀ name, Answers K strerror K.byName fails
      (K.withName s.world.sys.records name) s
      ((getnam K N strerror L fails [.string name]).run s.world) :=
    fun name => answers_search (.getnam (cstring name)) _ K.byName hfails
  refine ⟨hid, hname, fun v hv => ?_⟩
  have hpass := (inv_of_reachable h).pass
  obtain ⟨r, hr, hat⟩ :
      ∃ r ∈ s.world.sys.records.take s.world.sys.place, K.At s.world.heap v r := by
    obtain ⟨i, hi, rfl⟩ := List.mem_iff_getElem.mp hv
    have hi' := hpass.length_eq ▸ hi
    exact ⟨_, List.getElem_mem hi', hpass.get hi hi'⟩
  obtain ⟨t, rfl, hat⟩ := hat
  refine ⟨t, r, rfl, List.mem_of_mem_take hr, hat, ?_, ?_⟩
  · rw [hat.field _ K.id_ne, K.fieldOf_id]
    have hwidth := hid ((K.id r).setWidth 64)
    rw [setWidth_setWidth_64 (by decide)] at hwidth
    exact hwidth
  · rw [hat.field _ K.name_ne, K.fieldOf_name]
    have hcut := hname (cstring (K.name r))
    rw [Kind.withName, cstring_cstring] at hcut
    exact hcut

end Runs

/-! ## A database of one group -/

/-- A group with one member. -/
def wheel : Group := ⟨10, "wheel".toList, some ["ann".toList], fun l h => by
  obtain rfl := Option.some.inj h
  decide⟩

/-- Before anything has been read. -/
def unread : Session Group := ⟨⟨0, .empty, ⟨[wheel], 0⟩, []⟩, []⟩

/-- The machine of the instance. -/
def wheelMachine : Machine (Session Group) Label :=
  machine group .zero (fun _ => []) Heap.newestFirst

/-- The first call of a run that is allowed. -/
theorem reachable_wheel {s : Session Group}
    (h : wheelMachine.run unread [.getent none []] = some s) :
    wheelMachine.Reachable (fun _ l => l.Allowed) s := by
  refine .of_run ⟨rfl, rfl⟩ (fun l hl _ => ?_) h
  obtain rfl := List.mem_singleton.mp hl
  exact nofun

/-- After its group the enumeration returns nil and begins anew. -/
theorem enumeration_wheel : ∃ s, wheelMachine.run unread [.getent none []] = some s ∧
    s.pass = [.table 0] ∧ ∃ w, (getent group Heap.newestFirst none []).run s.world = .ok [.nil] w ∧
      s.next group .zero (fun _ => []) Heap.newestFirst (.getent none []) = some ⟨w, []⟩ :=
  ⟨_, rfl, rfl, (enumeration (reachable_wheel rfl)).2.2 le_rfl⟩

/-- The group is found by its id. -/
theorem searches_wheel : ∃ s, wheelMachine.run unread [.getent none []] = some s ∧
    Answers group (fun _ => []) "getgrgid" none (some wheel) s
      ((getid group .zero (fun _ => []) Heap.newestFirst none [.integer 10]).run s.world) := by
  have hsucceeds : (none : Option Int) ≠ some 0 := nofun
  exact ⟨_, rfl, (searches (reachable_wheel rfl) hsucceeds).1 10⟩

end LuaPosix.Accounts

import LuaPosix.Posix.Exec
import LuaPosix.Posix.Selection

/-! # Legacy `exec` with and without checked arguments

`exec` and `execp` of `posix.deprecated` take the arguments of a program as strings, or a table of
them. Each is defined twice: once as it is, and once more where `std._debug.argcheck` is on. -/

namespace LuaPosix.Deprecated

open LuaPattern (LStr)
open Traversal (Layout)

/-- A call of `exec` or `execp` of `posix.unistd`, in the heap it is made in. -/
structure ExecCall where
  use_shell : Bool
  path : LuaValue
  argt : LuaValue
  heap : Heap

section Model

variable (Λ : Length) (L : Layout fun _ : LuaValue => LuaValue) (H : Heap) (path : LuaValue)
  (args : List LuaValue)

/-- What both functions do where arguments are not checked. -/
def execUnchecked (use_shell : Bool) : ExecCall :=
  match first args with
  | .table t => ⟨use_shell, path, .table t, H⟩
  | _ => ⟨use_shell, path, .table (H.pack L args).1, (H.pack L args).2⟩

/-- What both do where they are. -/
def execChecked (name : String) (use_shell : Bool) : CallM ExecCall := do
  checkstring name 1 path
  match first args with
  | .string _ => do
      let argt := (H.pack L args).1
      let H' := (H.pack L args).2
      (List.range (Λ.len (H'.tables argt))).forM fun i =>
        checkstring name (i + 2) (H'.get argt (position (i + 1)))
      return ⟨use_shell, path, .table argt, H'⟩
  | .table t => do
      if 1 < args.length then toomanyargerror name 2 (args.length + 1)
      return ⟨use_shell, path, .table t, H⟩
  | argt => argtypeerror name 2 "nil, string or table" argt

/-- `exec(path, ...)`. -/
def Pexec : ExecCall := execUnchecked L H path args false

/-- `exec(path, ...)`, checked. -/
def PexecChecked : CallM ExecCall := execChecked Λ L H path args "exec" false

/-- `execp(path, ...)`. -/
def Pexecp : ExecCall := execUnchecked L H path args true

/-- `execp(path, ...)`, checked. -/
def PexecpChecked : CallM ExecCall := execChecked Λ L H path args "execp" true

end Model

/-! ## What the program gets -/

/-- What the C function does with the call. -/
def ExecCall.run (c : ExecCall) (Λ : Length) (N : Numerals) (E : Environment Unistd.Call) :
    FrameM Unistd.Call (List LuaValue) :=
  Unistd.runexec N (fun H t => BitVec.ofNat 64 (Λ.len (H.tables t))) E c.heap [c.path, c.argt]
    c.use_shell

section Strings

variable {Λ : Length} {L : Layout fun _ : LuaValue => LuaValue} {H : Heap} {use_shell : Bool}
  {N : Numerals} {ks : List LStr} {file : LStr}

/-- Strings are put in a table. -/
theorem execUnchecked_names {path : LuaValue} : execUnchecked L H path (names ks) use_shell
    = ⟨use_shell, path, .table H.size, (H.pack L (names ks)).2⟩ := by
  cases ks with
  | nil => rfl
  | cons k ks => rfl

/-- The C function finds them there. -/
theorem element_of_names (hargs : Indexable (names ks)) {i : Nat} {k : LStr}
    (hk : ks[i]? = some k) :
    Unistd.element (H.pack L (names ks)).2 H.size (i + 1) = .string k :=
  (Heap.holds_pack hargs nil_notMem_names).get (getElem?_names hk)

/-- Strings passed one by one are the elements of the table they are packed in. -/
theorem elements_of_names (hargs : Indexable (names ks)) :
    Unistd.elements N (H.pack L (names ks)).2 H.size ks.length
      = ks.map fun k => some (cstring k) := by
  rw [Unistd.elements]
  refine List.ext_getElem (by rw [List.length_map, List.length_map, List.length_range])
    fun i hi hi' => ?_
  have hlt : i < ks.length := by rwa [List.length_map] at hi'
  rw [List.getElem_map, List.getElem_map, List.getElem_range,
    element_of_names hargs (List.getElem?_eq_getElem hlt)]
  rfl

/-- **The program gets the path and the strings**, if it is called at all. -/
theorem exec_passes_names {E : Environment Unistd.Call} (hlt : ks.length + 2 < 2 ^ 31)
    {f : LStr} {argv : List (Option LStr)}
    (h : .execv f argv ∈
        FrameM.made ((execUnchecked L H (.string file) (names ks) use_shell).run Λ N E) ∨
      .execvp f argv ∈
        FrameM.made ((execUnchecked L H (.string file) (names ks) use_shell).run Λ N E)) :
    f = cstring file ∧
    argv = some (cstring file) :: ks.map (fun k => some (cstring k)) ++ [none] := by
  have hargs : Indexable (names ks) := by
    rw [Indexable, names, List.length_map]
    omega
  have hholds := Heap.holds_pack (L := L) (H := H) hargs nil_notMem_names
  have hlen : (BitVec.ofNat 64 (Λ.len ((H.pack L (names ks)).2.tables H.size))).toNat
      = ks.length := by
    rw [Heap.len_of_holds Λ hargs nil_notMem_names hholds, names, List.length_map,
      BitVec.toNat_ofNat]
    omega
  have htext : Unistd.AllText N (H.pack L (names ks)).2 H.size ks.length := by
    intro i hi
    rw [element_of_names hargs (List.getElem?_eq_getElem hi)]
    exact Option.some_ne_none _
  have hcommand : Unistd.command (H.pack L (names ks)).2 H.size (cstring file)
      = cstring file := by
    have helement : Unistd.element (H.pack L (names ks)).2 H.size 0 = .nil :=
      hholds.get_zero hargs
    rw [Unistd.command, helement]
  have hexec : Unistd.ExecArgs N [.string file, .table H.size] (cstring file) H.size :=
    ⟨rfl, Nat.le_refl 2, rfl⟩
  rw [execUnchecked_names, ExecCall.run] at h
  have hwhole : Unistd.PassesWhole N (fun H t => BitVec.ofNat 64 (Λ.len (H.tables t))) E
      (H.pack L (names ks)).2 [.string file, .table H.size] use_shell (cstring file) H.size :=
    Unistd.passesWhole_of_allText hexec (by rw [hlen]; exact htext) (by rw [hlen]; exact hlt)
  obtain ⟨hfile, hargv, -⟩ := hwhole.vector f argv h
  rw [hlen, Unistd.whole, hcommand, elements_of_names hargs] at hargv
  exact ⟨hfile, hargv⟩

end Strings

/-! ## Agreement -/

/-- Arguments after the path: none, one table, or strings. -/
def WellTyped (args : List LuaValue) : Prop :=
  args = [] ∨ (∃ t, args = [.table t]) ∨ args ≠ [] ∧ ∃ ks, args = names ks

/-- The checked version makes the same call, and raises only on what is not well typed. -/
structure Agree (unchecked : ExecCall) (checked : CallM ExecCall) (args : List LuaValue) :
    Prop where
  same : WellTyped args → checked = .ok unchecked
  raises : ∀ e, checked = .error e → ¬WellTyped args

section Agreement

variable {Λ : Length} {L : Layout fun _ : LuaValue => LuaValue} {H : Heap} {path : LuaValue}
  {args : List LuaValue} {name : String} {use_shell : Bool} {ks : List LStr} {file : LStr}

/-- A table is passed on unchecked. -/
theorem execChecked_table {t : Nat} :
    execChecked Λ L H (.string file) [.table t] name use_shell
      = .ok (execUnchecked L H (.string file) [.table t] use_shell) := rfl

/-- Strings pass the check. -/
theorem execChecked_names {k : LStr} (hargs : Indexable (names (k :: ks))) :
    execChecked Λ L H (.string file) (names (k :: ks)) name use_shell
      = .ok (execUnchecked L H (.string file) (names (k :: ks)) use_shell) := by
  have hholds := Heap.holds_pack (L := L) (H := H) hargs nil_notMem_names
  have hlen : Λ.len ((H.pack L (names (k :: ks))).2.tables H.size) = (k :: ks).length := by
    rw [Heap.len_of_holds Λ hargs nil_notMem_names hholds, names, List.length_map]
  have hloop : (List.range (Λ.len ((H.pack L (names (k :: ks))).2.tables H.size))).forM
      (fun i => checkstring name (i + 2)
        ((H.pack L (names (k :: ks))).2.get H.size (position (i + 1)))) = .ok () := by
    rw [hlen]
    refine CallM.forM_of_ok fun i hi => ?_
    have hk := List.getElem?_eq_getElem (List.mem_range.mp hi)
    rw [hholds.get (getElem?_names hk)]
    rfl
  have hpath : checkstring name 1 (.string file) = .ok () := rfl
  exact CallM.bind_of_ok hpath (CallM.bind_of_ok hloop rfl)

/-- No arguments are refused. -/
theorem execChecked_nil :
    execChecked Λ L H (.string file) [] name use_shell
      = argtypeerror name 2 "nil, string or table" .nil := rfl

/-- **The two versions agree if and only if** there are arguments after the path. -/
theorem agree_iff (hargs : Indexable args) :
    Agree (execUnchecked L H (.string file) args use_shell)
      (execChecked Λ L H (.string file) args name use_shell) args ↔ args ≠ [] := by
  constructor
  · rintro h rfl
    exact h.raises _ execChecked_nil (.inl rfl)
  · intro hne
    have hsame : WellTyped args → execChecked Λ L H (.string file) args name use_shell
        = .ok (execUnchecked L H (.string file) args use_shell) := by
      rintro (rfl | ⟨t, rfl⟩ | ⟨-, ks, rfl⟩)
      · exact absurd rfl hne
      · exact execChecked_table
      · cases ks with
        | nil => exact absurd rfl hne
        | cons k ks => exact execChecked_names hargs
    refine ⟨hsame, fun e he htyped => ?_⟩
    rw [hsame htyped] at he
    cases he

/-- **Checked `exec` and `execp`** agree with the unchecked ones if and only if there are arguments
after the path. -/
theorem checked_exec_agrees_iff (hargs : Indexable args) :
    (Agree (Pexec L H (.string file) args) (PexecChecked Λ L H (.string file) args) args ↔
      args ≠ []) ∧
    (Agree (Pexecp L H (.string file) args) (PexecpChecked Λ L H (.string file) args) args ↔
      args ≠ []) := ⟨agree_iff hargs, agree_iff hargs⟩

/-- `ls -l`, in both forms. -/
theorem checked_exec_agrees_ls :
    (Agree (Pexec Heap.newestFirst .empty (.string ['l', 's']) [.string ['-', 'l']])
        (PexecChecked .last Heap.newestFirst .empty (.string ['l', 's']) [.string ['-', 'l']])
        [.string ['-', 'l']] ↔ [LuaValue.string ['-', 'l']] ≠ []) ∧
    (Agree (Pexecp Heap.newestFirst .empty (.string ['l', 's']) [.string ['-', 'l']])
        (PexecpChecked .last Heap.newestFirst .empty (.string ['l', 's']) [.string ['-', 'l']])
        [.string ['-', 'l']] ↔ [LuaValue.string ['-', 'l']] ≠ []) :=
  checked_exec_agrees_iff (by decide)

end Agreement

/-- A program is run without arguments, or refused. -/
theorem no_arguments_refused :
    PexecChecked .last Heap.newestFirst .empty (.string ['l', 's']) []
      = .error (.raises (.error
        "bad argument #2 to 'exec' (nil, string or table expected, got no value)")) ∧
    ¬Agree (Pexec Heap.newestFirst .empty (.string ['l', 's']) [])
      (PexecChecked .last Heap.newestFirst .empty (.string ['l', 's']) []) [] := by
  have herror : PexecChecked .last Heap.newestFirst .empty (.string ['l', 's']) []
      = .error (.raises (.error
        "bad argument #2 to 'exec' (nil, string or table expected, got no value)")) := by
    rfl
  exact ⟨herror, fun h => h.raises _ herror (.inl rfl)⟩

end LuaPosix.Deprecated

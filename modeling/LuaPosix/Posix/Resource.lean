import LuaPosix.Lua.Binding

/-! # `getrlimit` and `setrlimit`

Resource limits as tables. -/

namespace LuaPosix.Resource

open LuaPattern (LStr)
open Traversal (Layout)

/-- `struct rlimit`. -/
structure Rlimit where
  rlim_cur : BitVec 64
  rlim_max : BitVec 64
  deriving DecidableEq, Repr

/-- The calls of the C library. -/
inductive Call where
  | getrlimit (resource : Int)
  | setrlimit (resource : Int) (lim : Rlimit)
  deriving DecidableEq

/-- What the rest of the system answers, in a state of its own. -/
structure System (σ : Type) where
  num : Numerals
  strerror : Int → LStr
  getrlimit : (resource : Int) → σ → (SysResult 32 × Rlimit) × σ
  setrlimit : (resource : Int) → Rlimit → σ → SysResult 32 × σ

/-- `Srlimit_fields`. -/
def Srlimit_fields : List String := ["rlim_cur", "rlim_max"]

/-- They are different names. -/
theorem names_Srlimit_fields : Heap.Names Srlimit_fields := by decide

open Heap (pushintegerfield) in
/-- The fields `pushrlimit` sets. -/
def Rlimit.fields (lim : Rlimit) : List (String × LuaValue) :=
  pushintegerfield "rlim_cur" lim.rlim_cur ++ pushintegerfield "rlim_max" lim.rlim_max

section Model

variable {σ : Type} (S : System σ) (args : List LuaValue)

/-- `getrlimit(resource)`. -/
def Pgetrlimit (L : Layout fun _ : LuaValue => LuaValue) : BindingM σ Call (List LuaValue) := do
  checknargs args 1
  let resource ← checkint S.num.strtod args 1
  let x ← BindingM.syscall (.getrlimit resource) (fun x => x.1.errno) (S.getrlimit resource)
  if cint x.1.value < 0 then
    return pusherror S.strerror (← BindingM.errno) (some "getrlimit".toList)
  else do
    let table ← BindingM.newtable L x.2.fields
    return [table]

/-- The fields of a table that `setrlimit` reads. -/
def rlimitFields (N : Numerals) (H : Heap) (t : Nat) : CallM Rlimit := do
  let rlim_cur ← H.checkintegerfield 2 t "rlim_cur"
  let rlim_max ← H.checkintegerfield 2 t "rlim_max"
  H.checkfieldnames N 2 t Srlimit_fields
  return ⟨rlim_cur, rlim_max⟩

/-- `setrlimit(resource, limits)`. -/
def Psetrlimit : BindingM σ Call (List LuaValue) := do
  let rid ← checkint S.num.strtod args 1
  let t ← checktable args 2
  checknargs args 2
  let lim ← BindingM.read fun H => rlimitFields S.num H t
  let x ← BindingM.syscall (.setrlimit rid lim) SysResult.errno (S.setrlimit rid lim)
  return x.push S.strerror (some "setrlimit".toList)

end Model

/-- A small instance, where limits may only be read. -/
def System.unlimited : System Unit where
  num := .zero
  strerror _ := []
  getrlimit _ s := ((.returned 0 0, ⟨-1, -1⟩), s)
  setrlimit _ _ s := (.failed 1, s)

end LuaPosix.Resource

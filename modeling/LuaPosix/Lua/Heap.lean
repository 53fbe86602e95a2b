import LuaPosix.Lib.Traversal
import LuaPosix.Lua.Value
import Mathlib.Data.List.Induction

/-! # Tables on the heap

Tables without metatables, known by their identities. Where the content of a single table is
enough it is a `LuaTable`; here tables refer to each other, and `lua_next` visits their entries
in an order that a new key may change. -/

namespace LuaPosix

open Traversal (Layout)

/-- How a call of a C function goes wrong. -/
inductive Fault where
  | raises (e : LuaError)
  /-- C leaves the behaviour undefined. -/
  | undefined
  /-- More rounds of a loop than were counted for it. -/
  | unfinished
  deriving DecidableEq, Repr

/-- Calls that may go wrong. -/
abbrev CallM := Except Fault

/-- A value goes on to what follows. -/
@[simp] theorem CallM.ok_bind {α β : Type} (a : α) (f : α → CallM β) :
    (Except.ok a >>= f : CallM β) = f a := rfl

/-- The tables by their identities; from `size` on they are free. -/
structure Heap where
  tables : Nat → AList fun _ : LuaValue => LuaValue
  size : Nat

namespace Heap

variable (L : Layout fun _ : LuaValue => LuaValue) (H : Heap)

/-- A field of a table, nil where it has none. -/
def get (t : Nat) (k : LuaValue) : LuaValue := ((H.tables t).lookup k).getD .nil

/-- Assign to a field of a table, not nil. -/
def set (t : Nat) (k v : LuaValue) : Heap :=
  { H with tables := Function.update H.tables t (L.assign (H.tables t) k v) }

/-- `lua_createtable`. -/
def createtable : Nat × Heap :=
  (H.size, ⟨Function.update H.tables H.size ∅, H.size + 1⟩)

/-- The name of a field. -/
def fieldName (name : String) : LuaValue := .string name.toList

/-- Different names are different keys. -/
theorem fieldName_injective : Function.Injective fieldName := by
  intro j k h
  exact String.toList_inj.mp (LuaValue.string.inj h)

/-- The error of indexing what is not a table. -/
def indexError (v : LuaValue) : Fault :=
  .raises (.error ("attempt to index a " ++ LuaValue.typename (some v) ++ " value"))

/-- `lua_getfield`. -/
def getfield (v : LuaValue) (name : String) : CallM LuaValue :=
  match v with
  | .table t => .ok (H.get t (fieldName name))
  | v => .error (indexError v)

/-- `lua_setfield`. -/
def setfield (v : LuaValue) (name : String) (x : LuaValue) : CallM Heap :=
  match v with
  | .table t => .ok (H.set L t (fieldName name) x)
  | v => .error (indexError v)

/-- `for (lua_pushnil(L); lua_next(L, t); ...) body`, for at most `n` calls of `lua_next`. -/
def whileNext {σ : Type} (t : Nat) (heap : σ → Heap)
    (body : σ → LuaValue → LuaValue → CallM σ) (n : Nat) (s : σ) : CallM σ :=
  Traversal.loop (fun s => ((heap s).tables t).entries) (fun s e => body s e.1 e.2)
    (.raises (.error "invalid key to 'next'")) .unfinished n none s

variable {L H}

/-- The table that is assigned to. -/
theorem tables_set (t : Nat) (k v : LuaValue) :
    (H.set L t k v).tables t = L.assign (H.tables t) k v := Function.update_self _ _ _

/-- The key that is assigned to has its new value. -/
@[simp] theorem get_set (t : Nat) (k v : LuaValue) : (H.set L t k v).get t k = v := by
  rw [get, tables_set, Traversal.lookup_assign, Option.getD_some]

/-- Any other key has its old one. -/
theorem get_set_of_ne {k k' : LuaValue} (t : Nat) (v : LuaValue) (h : k' ≠ k) :
    (H.set L t k v).get t k' = H.get t k' := by
  rw [get, tables_set, Traversal.lookup_assign_ne L _ v h, ← get]

/-- Other tables are not touched. -/
theorem tables_set_of_ne {t t' : Nat} (k v : LuaValue) (h : t' ≠ t) :
    (H.set L t k v).tables t' = H.tables t' := Function.update_of_ne h _ _

/-- An assignment makes no table. -/
@[simp] theorem size_set (t : Nat) (k v : LuaValue) : (H.set L t k v).size = H.size := rfl

section Assignments

variable {ι : Type} {l : List ι} {key val : ι → LuaValue} {t : Nat}

/-- A field that assignments one after the other agree on. -/
theorem get_foldl_set {i : ι} (hval : ∀ j ∈ l, key j = key i → val j = val i)
    (h : i ∈ l ∨ H.get t (key i) = val i) :
    (l.foldl (fun H j => H.set L t (key j) (val j)) H).get t (key i) = val i := by
  induction l generalizing H with
  | nil =>
      rcases h with hi | h
      · exact absurd hi List.not_mem_nil
      · exact h
  | cons j l ih =>
      obtain ⟨hj, hl⟩ := List.forall_mem_cons.mp hval
      refine ih hl ?_
      by_cases hkey : key j = key i
      · rw [← hkey, ← hj hkey]
        exact .inr (get_set t (key j) (val j))
      · rcases h with hi | h
        · rcases List.mem_cons.mp hi with rfl | hi
          · exact absurd rfl hkey
          · exact .inl hi
        · refine .inr ?_
          rw [get_set_of_ne _ _ (Ne.symm hkey), h]

/-- Of several assignments to a field the last one counts. -/
theorem get_foldl_set_last (k : LuaValue) :
    (l.foldl (fun H j => H.set L t (key j) (val j)) H).get t k
      = ((l.reverse.find? fun j => key j = k).map val).getD (H.get t k) := by
  induction l using List.reverseRecOn with
  | nil => rfl
  | append_singleton l j ih =>
      rw [List.foldl_append, List.reverse_append]
      show (Heap.set L _ t (key j) (val j)).get t k = _
      by_cases hk : key j = k
      · rw [← hk, get_set]
        simp
      · rw [get_set_of_ne _ _ (Ne.symm hk), ih]
        simp [hk]

/-- The entries of a table assigned to another. -/
theorem get_foldl_entries {l : List (Sigma fun _ : LuaValue => LuaValue)} (h : l.NodupKeys)
    (k : LuaValue) :
    (l.foldl (fun H e => H.set L t e.1 e.2) H).get t k = (l.dlookup k).getD (H.get t k) := by
  induction l generalizing H with
  | nil => rfl
  | cons e l ih =>
      obtain ⟨hnotMem, hl⟩ := List.nodupKeys_cons.mp h
      rw [List.foldl_cons, ih hl]
      by_cases hk : k = e.1
      · have hnone : l.dlookup k = none := List.dlookup_eq_none.mpr (hk ▸ hnotMem)
        rw [hnone, hk, List.dlookup_cons_eq]
        exact get_set t e.1 e.2
      · rw [List.dlookup_cons_ne _ _ hk, get_set_of_ne _ _ hk]

/-- The keys are those there were and those that are assigned. -/
theorem mem_foldl_set {k : LuaValue}
    (h : k ∈ (l.foldl (fun H j => H.set L t (key j) (val j)) H).tables t) :
    k ∈ H.tables t ∨ ∃ j ∈ l, k = key j := by
  induction l generalizing H with
  | nil => exact .inl h
  | cons j l ih =>
      rcases ih h with hmem | ⟨i, hi, hk⟩
      · rw [tables_set, Traversal.mem_assign] at hmem
        rcases hmem with hk | hmem
        · exact .inr ⟨j, List.mem_cons_self, hk⟩
        · exact .inl hmem
      · exact .inr ⟨i, List.mem_cons_of_mem j hi, hk⟩

/-- Other tables are left alone. -/
theorem tables_foldl_set_of_ne {t' : Nat} (h : t' ≠ t) :
    (l.foldl (fun H j => H.set L t (key j) (val j)) H).tables t' = H.tables t' := by
  induction l generalizing H with
  | nil => rfl
  | cons j l ih => rw [List.foldl_cons, ih, tables_set_of_ne _ _ h]

/-- Neither do many. -/
theorem size_foldl_set : (l.foldl (fun H j => H.set L t (key j) (val j)) H).size = H.size := by
  induction l generalizing H with
  | nil => rfl
  | cons j l ih => rw [List.foldl_cons, ih, size_set]

end Assignments

/-- A loop whose body leaves the table alone is the fold over its entries. -/
theorem whileNext_eq_foldlM {σ : Type} {t : Nat} {heap : σ → Heap}
    {body : σ → LuaValue → LuaValue → CallM σ} {l : AList fun _ : LuaValue => LuaValue} {s : σ}
    (hkeep : ∀ l₁ l₂ s', l₁ ++ l₂ = l.entries →
      l₁.foldlM (fun s e => body s e.1 e.2) s = .ok s' → (heap s').tables t = l)
    {n : Nat} (hn : l.entries.length < n) :
    whileNext t heap body n s = l.entries.foldlM (fun s e => body s e.1 e.2) s :=
  Traversal.loop_eq_foldlM l (fun l₁ l₂ s' hl hs' => congrArg _ (hkeep l₁ l₂ s' hl hs')) hn

end Heap

end LuaPosix

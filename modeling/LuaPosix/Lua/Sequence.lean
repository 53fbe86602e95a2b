import LuaPosix.Lua.Expressions
import Mathlib.Data.List.MinMax

/-! # Lists in tables

Tables that hold a list at the integers from 1 on, the operator `#`, and the table `{...}` of the
arguments of a function. The operator gives the length of a sequence; for a table with gaps it may
give the place before any of them. -/

namespace LuaPosix

open LuaPattern (LStr)
open Traversal (Layout)

/-- The content of a table, as the heap has it. -/
abbrev TableEntries := AList fun _ : LuaValue => LuaValue

/-- The key of a place in a list, the first being 1. -/
def position (i : Nat) : LuaValue := .integer (BitVec.ofNat 64 i)

/-- Different places have different keys. -/
theorem position_injective {i j : Nat} (hi : i < 2 ^ 64) (hj : j < 2 ^ 64)
    (h : position i = position j) : i = j := by
  have hbits := congrArg BitVec.toNat (LuaValue.integer.inj h)
  rwa [BitVec.toNat_ofNat, BitVec.toNat_ofNat, Nat.mod_eq_of_lt hi, Nat.mod_eq_of_lt hj] at hbits

/-- A list that a table has keys for. -/
def Indexable (vs : List LuaValue) : Prop := vs.length < 2 ^ 63

/-- Whether a list can be indexed is decided by its length. -/
instance (vs : List LuaValue) : Decidable (Indexable vs) := inferInstanceAs (Decidable (_ < _))

/-- A single value can be. -/
theorem indexable_singleton (v : LuaValue) : Indexable [v] := by
  rw [Indexable, List.length_singleton]
  decide

/-- A table has the values of a list from 1 on, and no other fields. -/
structure HoldsList (T : TableEntries) (vs : List LuaValue) : Prop where
  lookup : ∀ i v, vs[i]? = some v → T.lookup (position (i + 1)) = some v
  key : ∀ k ∈ T, ∃ i < vs.length, k = position (i + 1)

/-- The operator `#` on tables without metatables. -/
structure Length where
  len : TableEntries → Nat
  len_of_holdsList : ∀ T vs, Indexable vs → .nil ∉ vs → HoldsList T vs → len T = vs.length

namespace Heap

variable {L : Layout fun _ : LuaValue => LuaValue} {H : Heap}

/-- A table of the heap holds a list. -/
def Holds (H : Heap) (t : Nat) (vs : List LuaValue) : Prop := HoldsList (H.tables t) vs

variable {t : Nat} {vs : List LuaValue}

/-- An element of a list that a table holds. -/
theorem Holds.get (h : H.Holds t vs) {i : Nat} {v : LuaValue} (hv : vs[i]? = some v) :
    H.get t (position (i + 1)) = v := by
  rw [Heap.get, h.lookup i v hv, Option.getD_some]

/-- The value at 1 is the first of the list, nil if there is none. -/
theorem Holds.get_first (h : H.Holds t vs) : H.get t (position 1) = first vs := by
  cases vs with
  | nil =>
      have hnone : (H.tables t).lookup (position 1) = none := by
        refine AList.lookup_eq_none.mpr fun hmem => ?_
        obtain ⟨i, hi, -⟩ := h.key _ hmem
        exact absurd hi (Nat.not_lt_zero i)
      rw [Heap.get, hnone]
      rfl
  | cons v vs => exact h.get (i := 0) rfl

/-- There is no value at 0. -/
theorem Holds.get_zero (h : H.Holds t vs) (hi : Indexable vs) : H.get t (position 0) = .nil := by
  have hbound : vs.length < 2 ^ 63 := hi
  have hnone : (H.tables t).lookup (position 0) = none := by
    refine AList.lookup_eq_none.mpr fun hmem => ?_
    obtain ⟨i, hlt, hkey⟩ := h.key _ hmem
    have hplace : 0 = i + 1 := position_injective (by omega) (by omega) hkey
    omega
  rw [Heap.get, hnone]
  rfl

/-- A table of an empty list is empty, any other is not. -/
theorem Holds.entries_eq_nil_iff (h : H.Holds t vs) : (H.tables t).entries = [] ↔ vs = [] := by
  constructor
  · intro hempty
    cases vs with
    | nil => rfl
    | cons v vs =>
        have hmem : position 1 ∈ H.tables t := by
          rw [← AList.lookup_isSome, h.lookup 0 v rfl]
          rfl
        have hkeys : position 1 ∈ (H.tables t).keys := hmem
        rw [AList.keys, hempty] at hkeys
        exact absurd hkeys List.not_mem_nil
  · rintro rfl
    refine List.eq_nil_iff_forall_not_mem.mpr fun e he => ?_
    obtain ⟨i, hi, -⟩ := h.key e.1 (List.mem_map_of_mem he)
    exact absurd hi (Nat.not_lt_zero i)

/-! ## The arguments of a function -/

variable (L H)

/-- `{...}`. -/
def pack (vs : List LuaValue) : Nat × Heap :=
  (H.size, ((vs.zipIdx 1).filter fun p => p.1 ≠ .nil).foldl
    (fun H' p => H'.set L H.size (position p.2) p.1) H.createtable.2)

variable {L H}

/-- A value that is there is found. -/
theorem lookup_of_get {k v : LuaValue} (h : H.get t k = v) (hv : v ≠ .nil) :
    (H.tables t).lookup k = some v := by
  rw [Heap.get] at h
  cases hlookup : (H.tables t).lookup k with
  | none =>
      rw [hlookup] at h
      exact absurd h.symm hv
  | some u =>
      rw [hlookup] at h
      exact congrArg some h

/-- The table of the arguments is a new one, and the other tables are as before. -/
theorem tables_pack_of_ne (h : t ≠ H.size) : (H.pack L vs).2.tables t = H.tables t := by
  rw [pack, tables_foldl_set_of_ne h]
  exact Function.update_of_ne h _ _

/-- Packing makes one table. -/
theorem size_pack : (H.pack L vs).2.size = H.size + 1 := size_foldl_set

/-- It touches no other. -/
theorem get_pack_of_ne (h : t ≠ H.size) (k : LuaValue) :
    (H.pack L vs).2.get t k = H.get t k := by
  rw [Heap.get, Heap.get, tables_pack_of_ne h]

/-- **The table of the arguments holds them**, if none is nil. -/
theorem holds_pack (hi : Indexable vs) (hnil : .nil ∉ vs) :
    (H.pack L vs).2.Holds H.size vs := by
  have hbound : vs.length < 2 ^ 63 := hi
  have hall : (vs.zipIdx 1).filter (fun p => p.1 ≠ .nil) = vs.zipIdx 1 := by
    refine List.filter_eq_self.mpr fun p hp => decide_eq_true ?_
    rintro hp1
    exact hnil (hp1 ▸ List.fst_mem_of_mem_zipIdx hp)
  rw [pack, hall]
  refine ⟨fun i v hv => lookup_of_get ?_ ?_, fun k hk => ?_⟩
  · have hmem : (v, i + 1) ∈ vs.zipIdx 1 := by
      rw [Nat.add_comm]
      exact List.mk_add_mem_zipIdx_iff_getElem?.mpr hv
    refine get_foldl_set (i := (v, i + 1)) (fun p hp hpos => ?_) (.inl hmem)
    -- The places are told apart.
    have hlt := List.snd_lt_of_mem_zipIdx hp
    have hilt := List.snd_lt_of_mem_zipIdx hmem
    have hplace : p.2 = i + 1 := position_injective (by omega) (by omega) hpos
    have hp' := (List.mem_zipIdx_iff_le_and_getElem?_sub.mp hp).2
    rw [hplace, Nat.add_sub_cancel, hv] at hp'
    exact (Option.some.inj hp').symm
  · rintro rfl
    exact hnil (List.mem_of_getElem? hv)
  · rcases mem_foldl_set hk
      with hmem | ⟨p, hp, rfl⟩
    · have hempty : (H.createtable.2).tables H.size = ∅ := Function.update_self _ _ _
      rw [hempty] at hmem
      exact absurd hmem (AList.notMem_empty k)
    · obtain ⟨hle, hget⟩ := List.mem_zipIdx_iff_le_and_getElem?_sub.mp hp
      obtain ⟨hlt, -⟩ := List.getElem?_eq_some_iff.mp hget
      exact ⟨p.2 - 1, hlt, by rw [Nat.sub_add_cancel hle]⟩

/-- The length of a table that holds a list. -/
theorem len_of_holds (Λ : Length) (hi : Indexable vs) (hnil : .nil ∉ vs) (h : H.Holds t vs) :
    Λ.len (H.tables t) = vs.length := Λ.len_of_holdsList _ _ hi hnil h

/-! ## `table.remove` -/

variable (L H)

/-- `t[k] = v`; where the value is nil the field is gone. -/
def put (t : Nat) (k v : LuaValue) : Heap :=
  if v = .nil then { H with tables := Function.update H.tables t ((H.tables t).erase k) }
  else H.set L t k v

/-- `table.remove(t, 1)`, where `#t` is `size`: the first value, and the table with those behind it
moved down. -/
def removeFirst (t : Nat) (size : LuaInteger) : LuaValue × Heap :=
  let moved := (List.range (size.toInt.toNat - 1)).foldl
    (fun H' i => H'.put L t (position (i + 1)) (H'.get t (position (i + 2)))) H
  (H.get t (position 1), moved.put L t (position (max 1 size.toInt.toNat)) .nil)

variable {L H}

/-- A value of the list is replaced by another. -/
theorem Holds.put {i : Nat} {v : LuaValue} (h : H.Holds t vs) (hbound : Indexable vs)
    (hi : i < vs.length) (hv : v ≠ .nil) :
    (H.put L t (position (i + 1)) v).Holds t (vs.set i v) := by
  have hlt : vs.length < 2 ^ 63 := hbound
  have htables : (H.put L t (position (i + 1)) v).tables t
      = L.assign (H.tables t) (position (i + 1)) v := by
    rw [Heap.put, if_neg hv, tables_set]
  rw [Holds, htables]
  refine ⟨fun j u hu => ?_, fun k hk => ?_⟩
  · by_cases hj : j = i
    · subst hj
      rw [List.getElem?_set_self hi] at hu
      rw [← Option.some.inj hu, Traversal.lookup_assign]
    · rw [List.getElem?_set_ne (Ne.symm hj)] at hu
      obtain ⟨hjlt, -⟩ := List.getElem?_eq_some_iff.mp hu
      have hne : position (j + 1) ≠ position (i + 1) := fun heq =>
        hj (Nat.succ_injective (position_injective (by omega) (by omega) heq))
      rw [Traversal.lookup_assign_ne L _ v hne, h.lookup j u hu]
  · rw [List.length_set]
    rcases (Traversal.mem_assign L _ v).mp hk with rfl | hk
    · exact ⟨i, hi, rfl⟩
    · exact h.key k hk

/-- The last value of the list is taken away. -/
theorem Holds.put_nil {v : LuaValue} (h : H.Holds t (vs ++ [v])) (hbound : Indexable (vs ++ [v])) :
    (H.put L t (position (vs.length + 1)) .nil).Holds t vs := by
  have hlt : vs.length + 1 < 2 ^ 63 := by
    rw [Indexable, List.length_append, List.length_singleton] at hbound
    exact hbound
  have htables : (H.put L t (position (vs.length + 1)) .nil).tables t
      = (H.tables t).erase (position (vs.length + 1)) := by
    rw [Heap.put, if_pos rfl]
    exact Function.update_self _ _ _
  rw [Holds, htables]
  refine ⟨fun j u hu => ?_, fun k hk => ?_⟩
  · obtain ⟨hj, -⟩ := List.getElem?_eq_some_iff.mp hu
    have hne : position (j + 1) ≠ position (vs.length + 1) := fun heq => by
      have hplace : j + 1 = vs.length + 1 := position_injective (by omega) (by omega) heq
      omega
    rw [AList.lookup_erase_ne hne]
    exact h.lookup j u ((List.getElem?_append_left hj).trans hu)
  · obtain ⟨hne, hmem⟩ := AList.mem_erase.mp hk
    obtain ⟨j, hj, rfl⟩ := h.key k hmem
    rw [List.length_append, List.length_singleton] at hj
    refine ⟨j, Nat.lt_of_le_of_ne (Nat.le_of_lt_succ hj) ?_, rfl⟩
    rintro rfl
    exact hne rfl

/-- After so many rounds the values before have moved down. -/
theorem Holds.moved {v : LuaValue} (h : H.Holds t (v :: vs)) (hbound : Indexable (v :: vs))
    (hnil : .nil ∉ vs) {n : Nat} (hn : n ≤ vs.length) :
    ((List.range n).foldl
      (fun H' i => H'.put L t (position (i + 1)) (H'.get t (position (i + 2)))) H).Holds t
        (vs.take n ++ (v :: vs).drop n) := by
  induction n with
  | zero => exact h
  | succ n ih =>
      have hih := ih (Nat.le_of_succ_le hn)
      have hlength : (vs.take n ++ (v :: vs).drop n).length = vs.length + 1 := by
        rw [List.length_append, List.length_take, List.length_drop, List.length_cons]
        omega
      -- The next value is still where it was.
      have hnext : (vs.take n ++ (v :: vs).drop n)[n + 1]? = some vs[n] := by
        rw [List.getElem?_append_right (by rw [List.length_take]; omega), List.length_take,
          List.getElem?_drop, Nat.min_eq_left (by omega), Nat.add_sub_cancel_left,
          List.getElem?_cons_succ, List.getElem?_eq_getElem hn]
      rw [List.range_succ, List.foldl_append, List.foldl_cons, List.foldl_nil, hih.get hnext]
      have hput := hih.put (L := L) (i := n) (v := vs[n])
        (by rw [Indexable, hlength]; exact hbound) (by rw [hlength]; omega)
        (fun heq => hnil (heq ▸ List.getElem_mem hn))
      have hset : (vs.take n ++ (v :: vs).drop n).set n vs[n]
          = vs.take (n + 1) ++ (v :: vs).drop (n + 1) := by
        have hdrop : ∃ u, (v :: vs).drop n = u :: vs.drop n :=
          ⟨_, List.drop_eq_getElem_cons (by rw [List.length_cons]; omega)⟩
        obtain ⟨u, hdrop⟩ := hdrop
        rw [List.set_append_right _ _ (by rw [List.length_take]; omega), List.length_take,
          Nat.min_eq_left (by omega), Nat.sub_self, hdrop, List.set_cons_zero, List.drop_succ_cons,
          List.take_succ_eq_append_getElem hn, List.append_assoc, List.singleton_append]
      rwa [hset] at hput

/-- **The first value of a list is removed**, and the table holds the rest of it. -/
theorem Holds.removeFirst {v : LuaValue} (h : H.Holds t (v :: vs)) (hbound : Indexable (v :: vs))
    (hnil : .nil ∉ vs) :
    (H.removeFirst L t (BitVec.ofNat 64 (v :: vs).length)).1 = v ∧
      (H.removeFirst L t (BitVec.ofNat 64 (v :: vs).length)).2.Holds t vs := by
  have hlt : (v :: vs).length < 2 ^ 63 := hbound
  have hsize : (BitVec.ofNat 64 (v :: vs).length).toInt.toNat = vs.length + 1 := by
    rw [BitVec.toInt_ofNat', Int.bmod_eq_of_le (by omega) (by omega), Int.toNat_natCast,
      List.length_cons]
  refine ⟨h.get_first, ?_⟩
  rw [Heap.removeFirst, hsize, Nat.add_sub_cancel, Nat.max_eq_right (Nat.le_add_left 1 _)]
  have hmoved := h.moved (L := L) hbound hnil (Nat.le_refl vs.length)
  rw [List.take_length] at hmoved
  -- One value is left behind them.
  have hlast : ∃ u, (v :: vs).drop vs.length = [u] := by
    refine List.length_eq_one_iff.mp ?_
    rw [List.length_drop, List.length_cons, Nat.add_sub_cancel_left]
  obtain ⟨u, hu⟩ := hlast
  rw [hu] at hmoved
  refine hmoved.put_nil (L := L) ?_
  rw [Indexable, List.length_append, List.length_singleton]
  exact hbound

end Heap

/-- `{...}` in a function. -/
def BindingM.pack {σ κ : Type} (L : Layout fun _ : LuaValue => LuaValue) (vs : List LuaValue) :
    BindingM σ κ Nat := fun w =>
  .ok (w.heap.pack L vs).1 { w with heap := (w.heap.pack L vs).2 }

/-- Packing is one step. -/
@[simp] theorem BindingM.run_pack {σ κ : Type} (w : World σ κ)
    (L : Layout fun _ : LuaValue => LuaValue) (vs : List LuaValue) :
    (BindingM.pack L vs : BindingM σ κ Nat).run w
      = .ok w.heap.size { w with heap := (w.heap.pack L vs).2 } := rfl

/-! ## Loops -/

namespace CallM

variable {ι α : Type} {l : List ι} {f : ι → CallM α} {e : Fault}

/-- A loop whose rounds all return. -/
theorem mapM_of_ok {g : ι → α} (h : ∀ i ∈ l, f i = .ok (g i)) : l.mapM f = .ok (l.map g) := by
  induction l with
  | nil => rfl
  | cons i l ih =>
      obtain ⟨hi, hl⟩ := List.forall_mem_cons.mp h
      rw [List.mapM_cons, hi, ih hl]
      rfl

/-- A loop that goes wrong in a round, those before it having returned. -/
theorem mapM_of_error {l₁ l₂ : List ι} {i : ι} (hok : ∀ j ∈ l₁, (f j).Succeeds)
    (herror : f i = .error e) : (l₁ ++ i :: l₂).mapM f = .error e := by
  induction l₁ with
  | nil =>
      rw [List.nil_append, List.mapM_cons, herror]
      rfl
  | cons j l₁ ih =>
      obtain ⟨⟨a, hj⟩, hl⟩ := List.forall_mem_cons.mp hok
      rw [List.cons_append, List.mapM_cons, hj, ih hl]
      rfl

/-- The same for a loop over numbers. -/
theorem mapM_range_of_error {f : Nat → CallM α} {n i : Nat} (hi : i < n)
    (hok : ∀ j < i, (f j).Succeeds) (herror : f i = .error e) :
    (List.range n).mapM f = .error e := by
  obtain ⟨k, rfl⟩ := Nat.exists_eq_add_of_lt hi
  rw [Nat.add_assoc, List.range_add, List.range_succ_eq_map, List.map_cons, Nat.add_zero]
  exact mapM_of_error (fun j hj => hok j (List.mem_range.mp hj)) herror

/-- A loop of checks that all succeed. -/
theorem forM_of_ok {f : ι → CallM Unit} (h : ∀ i ∈ l, f i = .ok ()) : l.forM f = .ok () := by
  induction l with
  | nil => rfl
  | cons i l ih =>
      obtain ⟨hi, hl⟩ := List.forall_mem_cons.mp h
      rw [List.forM_eq_forM, List.forM_cons, hi]
      exact ih hl

end CallM

/-! ## A small instance -/

/-- The place of a key, 0 for no integer. -/
def place : LuaValue → Nat
  | .integer d => d.toNat
  | _ => 0

/-- The place of a position is the position's. -/
theorem place_position {i : Nat} (hi : i < 2 ^ 64) : place (position i) = i := by
  show (BitVec.ofNat 64 i).toNat = i
  rw [BitVec.toNat_ofNat, Nat.mod_eq_of_lt hi]

/-- The last place there is. -/
def Length.last : Length where
  len T := (T.keys.map place).foldr max 0
  len_of_holdsList T vs hi _ h := by
    have hbound : vs.length < 2 ^ 63 := hi
    refine Nat.le_antisymm (List.max_le_of_forall_le _ _ fun n hn => ?_) ?_
    · obtain ⟨k, hk, rfl⟩ := List.mem_map.mp hn
      obtain ⟨i, hlt, rfl⟩ := h.key k hk
      rw [place_position (by omega)]
      omega
    · cases hlen : vs.length with
      | zero => exact Nat.zero_le _
      | succ n =>
          have hkey : position (n + 1) ∈ T := by
            rw [← AList.lookup_isSome, h.lookup n vs[n] (List.getElem?_eq_getElem (by omega))]
            rfl
          refine List.le_max_of_le (List.mem_map_of_mem hkey) ?_
          rw [place_position (by omega)]

end LuaPosix

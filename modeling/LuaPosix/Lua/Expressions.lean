import LuaPosix.Lua.Binding

/-! # Lua expressions

The operators and table constructors in functions that are written in Lua. Arithmetic on integers
wraps around; that on floats and numerals, and the errors for the rest, are a parameter. -/

namespace LuaPosix

open Traversal (Layout)

namespace LuaValue

/-- Neither nil nor false. -/
def truthy : LuaValue → Bool
  | nil | boolean false => false
  | _ => true

/-- `a and b`. -/
def and (a b : LuaValue) : LuaValue := if a.truthy then b else a

/-- `a or b`. -/
def or (a b : LuaValue) : LuaValue := if a.truthy then a else b

end LuaValue

/-- The first of the values an expression has, nil if there is none. -/
def first (values : List LuaValue) : LuaValue := values.head?.getD .nil

/-- Of some values the first. -/
@[simp] theorem first_cons (v : LuaValue) (values : List LuaValue) : first (v :: values) = v := rfl

/-- `tonumber(v)`: what is neither a number nor a numeral becomes nil. -/
def Numerals.tonumber (N : Numerals) : LuaValue → LuaValue
  | .integer i => .integer i
  | .float q => .float q
  | .nonfinite => .nonfinite
  | .string s => match l_str2int s, N.strtod s with
      | some i, _ => .integer i
      | none, some q => .float q
      | none, none => .nil
  | _ => .nil

/-- Operators on two values, one of which is not an integer. -/
structure Operators where
  plus : LuaValue → LuaValue → CallM LuaValue
  minus : LuaValue → LuaValue → CallM LuaValue
  less : LuaValue → LuaValue → CallM Bool
  equal : LuaValue → LuaValue → Bool

namespace Operators

variable (O : Operators)

/-- `v + v'`. -/
def add : LuaValue → LuaValue → CallM LuaValue
  | .integer i, .integer j => .ok (.integer (i + j))
  | v, v' => O.plus v v'

/-- `v - v'`. -/
def sub : LuaValue → LuaValue → CallM LuaValue
  | .integer i, .integer j => .ok (.integer (i - j))
  | v, v' => O.minus v v'

/-- `v < v'`. -/
def lt : LuaValue → LuaValue → CallM Bool
  | .integer i, .integer j => .ok (i.slt j)
  | v, v' => O.less v v'

/-- `v == v'`. -/
def eq : LuaValue → LuaValue → Bool
  | .integer i, .integer j => i = j
  | v, v' => O.equal v v'

variable (i j : LuaInteger)

/-- The sum of integers wraps around. -/
@[simp] theorem add_integer : O.add (.integer i) (.integer j) = .ok (.integer (i + j)) := rfl

/-- And so does their difference. -/
@[simp] theorem sub_integer : O.sub (.integer i) (.integer j) = .ok (.integer (i - j)) := rfl

/-- Integers are compared with their sign. -/
@[simp] theorem lt_integer : O.lt (.integer i) (.integer j) = .ok (i.slt j) := rfl

/-- Integers are equal if they are the same. -/
@[simp] theorem eq_integer : O.eq (.integer i) (.integer j) = decide (i = j) := rfl

/-- A small instance: operators on nothing but integers. -/
def integers : Operators where
  plus v v' := .error (.raises (.error ("attempt to add a " ++ LuaValue.typename (some v)
    ++ " value and a " ++ LuaValue.typename (some v') ++ " value")))
  minus v v' := .error (.raises (.error ("attempt to subtract a " ++ LuaValue.typename (some v')
    ++ " value from a " ++ LuaValue.typename (some v) ++ " value")))
  less v v' := .error (.raises (.error ("attempt to compare " ++ LuaValue.typename (some v)
    ++ " with " ++ LuaValue.typename (some v'))))
  equal v v' := v = v'

end Operators

/-! ## Table constructors -/

namespace Heap

/-- The fields that are not nil. -/
def present (fields : List (String × LuaValue)) : List (String × LuaValue) :=
  fields.filter fun f => f.2 ≠ .nil

variable (L : Layout fun _ : LuaValue => LuaValue) (H : Heap)

/-- A table constructor, of fields with different names. -/
def construct (fields : List (String × LuaValue)) : Nat × Heap := H.newtable L (present fields)

variable {L H}

/-- A field that is nil makes no difference. -/
theorem fieldOf_present {fields : List (String × LuaValue)} (h : (fields.map Prod.fst).Nodup)
    (k : String) : fieldOf (present fields) k = fieldOf fields k := by
  induction fields using List.reverseRecOn with
  | nil => rfl
  | append_singleton fields f ih =>
      rw [List.map_append, List.nodup_append] at h
      have hf : f.1 ∉ fields.map Prod.fst := fun hmem =>
        h.2.2 _ hmem _ (List.mem_singleton_self _) rfl
      rw [fieldOf_concat]
      by_cases hnil : f.2 = .nil
      · have hskip : present (fields ++ [f]) = present fields := by
          rw [present, List.filter_append, List.filter_cons_of_neg (by simpa using hnil),
            List.filter_nil, List.append_nil, present]
        rw [hskip, ih h.1]
        split_ifs with hk
        · rw [hk, fieldOf_of_notMem hf, hnil]
        · rfl
      · have hkeep : present (fields ++ [f]) = present fields ++ [f] := by
          rw [present, List.filter_append, List.filter_cons_of_pos (by simpa using hnil),
            List.filter_nil, present]
        rw [hkeep, fieldOf_concat, ih h.1]

/-- **The fields of a table constructor.** -/
theorem get_construct {fields : List (String × LuaValue)} (h : (fields.map Prod.fst).Nodup)
    (k : String) : (H.construct L fields).2.get H.size (fieldName k) = fieldOf fields k := by
  rw [construct, get_newtable, fieldOf_present h]

/-- Each field of a table constructor has its value. -/
theorem forall_get_construct {fields : List (String × LuaValue)}
    (h : (fields.map Prod.fst).Nodup) :
    ∀ f ∈ fields, (H.construct L fields).2.get H.size (fieldName f.1) = f.2 := fun f hf =>
  (get_construct h f.1).trans (fieldOf_of_mem h hf)

end Heap

namespace BindingM

variable {σ κ : Type}

/-- A table constructor. -/
def construct (L : Layout fun _ : LuaValue => LuaValue) (fields : List (String × LuaValue)) :
    BindingM σ κ LuaValue := newtable L (Heap.present fields)

/-- A table constructor makes the next table of the heap. -/
@[simp] theorem run_construct (w : World σ κ) (L : Layout fun _ : LuaValue => LuaValue)
    (fields : List (String × LuaValue)) : (construct L fields : BindingM σ κ LuaValue).run w
      = .ok (.table w.heap.size) { w with heap := (w.heap.construct L fields).2 } := rfl

end BindingM

end LuaPosix

import LuaPosix.Posix.Resource

/-! # Integers in fields and in arguments

`checkintegerfield` reads a number from a field of a table and `expectinteger` one from an
argument. The first asks only whether the field is a number, and `lua_tointeger` makes zero of a
number that is no integer; the second asks whether the conversion succeeded. -/

namespace LuaPosix

open LuaPattern (LStr)
open Heap (fieldName)

/-! ## Numbers with an integer value -/

namespace LuaValue

/-- A number of Lua, an integer or a float. -/
def IsNumber (v : LuaValue) : Prop := typename (some v) = "number"

/-- A number that is exactly an integer of Lua. -/
def HasInteger (v : LuaValue) (d : LuaInteger) : Prop :=
  v = .integer d ∨ v = .float (d.toInt : Rat)

/-- A float converts to the integer it is. -/
theorem floatToInteger_eq_some_iff {q : Rat} {d : LuaInteger} :
    floatToInteger q = some d ↔ q = (d.toInt : Rat) := by
  rw [floatToInteger]
  constructor
  · intro h
    split_ifs at h with hq
    obtain ⟨hden, hle, hlt⟩ := hq
    rw [← Option.some.inj h, BitVec.toInt_ofInt_eq_self (by decide) hle hlt]
    exact (Rat.den_eq_one_iff q).mp hden |>.symm
  · rintro rfl
    rw [Rat.den_intCast, Rat.num_intCast, if_pos ⟨rfl, d.le_toInt, d.toInt_lt⟩,
      BitVec.ofInt_toInt]

variable {v : LuaValue} {d : LuaInteger}

/-- A number converts to the integer it is. -/
theorem IsNumber.tointegerx_eq_some_iff (hv : v.IsNumber) {strtod : LStr → Option Rat} :
    v.tointegerx strtod = some d ↔ v.HasInteger d := by
  cases v with
  | integer i => simp [tointegerx, HasInteger]
  | float q => simp [tointegerx, HasInteger, floatToInteger_eq_some_iff]
  | nonfinite => simp [tointegerx, HasInteger]
  | string s => simp [IsNumber, typename] at hv
  | _ => simp [IsNumber, typename] at hv

end LuaValue

/-! ## The two readers -/

/-- Two readers have the same outcome: the same integer, or an argument error of their own. -/
def Alike (x y : CallM LuaInteger) : Prop := x = y ∨ x.RaisesArg ∧ y.RaisesArg

section Readers

variable {H : Heap} {index t : Nat} {k : String} {strtod : LStr → Option Rat}
  {args : List LuaValue} {narg : Nat} {v : LuaValue} {d dflt : LuaInteger} {expected : String}

/-- A field that is a number is read as `lua_tointeger` has it. -/
theorem checkintegerfield_of_isNumber (hfield : H.get t (fieldName k) = v) (hv : v.IsNumber) :
    H.checkintegerfield index t k = .ok (tointeger v) := by
  have htype : H.HasType t k "number" := by
    rw [Heap.HasType, hfield]
    exact hv
  rw [Heap.checkintegerfield, Heap.checkfieldtype_of_hasType htype, hfield]
  rfl

/-- A number is there, and the default is not used. -/
theorem optintegerfield_of_isNumber (hfield : H.get t (fieldName k) = v) (hv : v.IsNumber) :
    H.optintegerfield index t k dflt = .ok (tointeger v) := by
  have hpresent : H.get t (fieldName k) ≠ .nil := by
    rw [hfield]
    rintro rfl
    have hnil : "nil" = "number" := hv
    exact absurd hnil (by decide)
  rw [Heap.optintegerfield, if_neg hpresent, checkintegerfield_of_isNumber hfield hv]

/-- An integer is read as it is. -/
theorem tointeger_of_hasInteger (h : v.HasInteger d) : tointeger v = d := by
  rcases h with rfl | rfl
  · rfl
  · rw [tointeger, LuaValue.floatToInteger_eq_some_iff.mpr rfl, Option.getD_some]

/-- A number with an integer value is read as it. -/
theorem expectinteger_of_hasInteger (harg : argument args narg = some v) (hv : v.IsNumber)
    (h : v.HasInteger d) : expectinteger strtod args narg expected = .ok d := by
  rw [argument] at harg
  rw [expectinteger, harg, Option.bind_some, hv.tointegerx_eq_some_iff.mpr h]

/-- A number that is no integer is refused. -/
theorem expectinteger_of_not_hasInteger (harg : argument args narg = some v) (hv : v.IsNumber)
    (h : ¬∃ d, v.HasInteger d) :
    expectinteger strtod args narg expected = .error (argtypeerror args narg expected) := by
  have hnone : v.tointegerx strtod = none := by
    rw [Option.eq_none_iff_forall_not_mem]
    exact fun d hd => h ⟨d, hv.tointegerx_eq_some_iff.mp hd⟩
  rw [argument] at harg
  rw [expectinteger, harg, Option.bind_some, hnone]

/-- The readings of a number agree if and only if it is an integer. -/
theorem alike_expectinteger_iff (harg : argument args narg = some v) (hv : v.IsNumber) :
    Alike (.ok (tointeger v)) (liftM (expectinteger strtod args narg expected))
      ↔ ∃ d, v.HasInteger d := by
  constructor
  · intro halike
    by_contra hnone
    rw [expectinteger_of_not_hasInteger harg hv hnone] at halike
    rcases halike with heq | ⟨⟨_, _, hraises⟩, -⟩
    · cases heq
    · cases hraises
  · rintro ⟨d, hd⟩
    rw [expectinteger_of_hasInteger harg hv hd, tointeger_of_hasInteger hd]
    exact .inl rfl

/-- **Fields and arguments read a number alike if and only if it is an integer**, whether or not
the field has a default; the integer is then the number itself. -/
theorem fields_read_as_arguments (hfield : H.get t (fieldName k) = v)
    (harg : argument args narg = some v) (hv : v.IsNumber) :
    (Alike (H.checkintegerfield index t k) (liftM (expectinteger strtod args narg expected))
      ↔ ∃ d, v.HasInteger d) ∧
    (Alike (H.optintegerfield index t k dflt) (liftM (expectinteger strtod args narg expected))
      ↔ ∃ d, v.HasInteger d) ∧
    ∀ d, v.HasInteger d → H.checkintegerfield index t k = .ok d ∧
      H.optintegerfield index t k dflt = .ok d ∧
      expectinteger strtod args narg expected = .ok d := by
  rw [checkintegerfield_of_isNumber hfield hv, optintegerfield_of_isNumber hfield hv]
  refine ⟨alike_expectinteger_iff harg hv, alike_expectinteger_iff harg hv, fun d hd => ?_⟩
  rw [tointeger_of_hasInteger hd]
  exact ⟨rfl, rfl, expectinteger_of_hasInteger harg hv hd⟩

end Readers

/-- 1.5. -/
def oneAndHalf : Rat where
  num := 3
  den := 2
  reduced := by decide

/-- A table `{ rlim_cur = 1.5, rlim_max = 1 / 0 }`. -/
def oddLimits : Heap :=
  (Heap.empty.newtable Heap.newestFirst
    [("rlim_cur", .float oneAndHalf), ("rlim_max", .nonfinite)]).2

/-- One and a half is refused by both. -/
theorem fields_read_as_arguments_oddLimits :
    (Alike (oddLimits.checkintegerfield 2 0 "rlim_cur")
        (liftM (expectinteger (fun _ => none) [.float oneAndHalf] 1 "integer"))
      ↔ ∃ d, (LuaValue.float oneAndHalf).HasInteger d) ∧
    (Alike (oddLimits.optintegerfield 2 0 "rlim_cur" 0)
        (liftM (expectinteger (fun _ => none) [.float oneAndHalf] 1 "integer"))
      ↔ ∃ d, (LuaValue.float oneAndHalf).HasInteger d) ∧
    ∀ d, (LuaValue.float oneAndHalf).HasInteger d →
      oddLimits.checkintegerfield 2 0 "rlim_cur" = .ok d ∧
      oddLimits.optintegerfield 2 0 "rlim_cur" 0 = .ok d ∧
      expectinteger (fun _ => none) [.float oneAndHalf] 1 "integer" = .ok d :=
  fields_read_as_arguments (t := 0) (k := "rlim_cur") rfl rfl rfl

/-- A limit of one and a half, and one without end, are set to zero. -/
theorem odd_limits_are_zero :
    BindingM.made ⟨0, oddLimits, (), []⟩
        (Resource.Psetrlimit .unlimited [.integer 7, .table 0]) = [.setrlimit 7 ⟨0, 0⟩] ∧
    oddLimits.checkintegerfield 2 0 "rlim_cur" = .ok 0 ∧
    expectinteger (fun _ => none) [.float oneAndHalf] 1 "integer"
      = .error (argtypeerror [.float oneAndHalf] 1 "integer") ∧
    ¬Alike (oddLimits.checkintegerfield 2 0 "rlim_cur")
      (liftM (expectinteger (fun _ => none) [.float oneAndHalf] 1 "integer")) := by
  have hread : oddLimits.checkintegerfield 2 0 "rlim_cur" = .ok 0 := rfl
  have hrefused : expectinteger (fun _ => none) [.float oneAndHalf] 1 "integer"
      = .error (argtypeerror [.float oneAndHalf] 1 "integer") := rfl
  refine ⟨rfl, hread, hrefused, ?_⟩
  rw [hread, hrefused]
  rintro (heq | ⟨⟨_, _, hraises⟩, -⟩)
  · cases heq
  · cases hraises

end LuaPosix

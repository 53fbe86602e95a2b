import LuaPosix.Posix.Owner

/-! # Integers cut to 32 bits

Lua integers have 64 bits, an `int`, an `uid_t` and a `gid_t` have 32. The helpers that read one
check that there is an integer, and cut it afterwards: a large one acts as the one that has the
same low 32 bits. -/

namespace LuaPosix.Narrowing

open LuaPattern (LStr)
open Owner (System Call mygetuid mygetgid)

/-- The C types. -/
inductive CType where
  | int
  | id
  deriving DecidableEq, Repr

/-- The integers that mean a value of the type; -1 means the id that is all ones. -/
def CType.Fits : CType → Int → Prop
  | .int, v => -2 ^ 31 ≤ v ∧ v < 2 ^ 31
  | .id, v => -1 ≤ v ∧ v < 2 ^ 32

/-- The value an integer means. -/
def CType.meaning : CType → Int → Int
  | .int, v => v
  | .id, v => if v = -1 then 2 ^ 32 - 1 else v

/-- The value the cast of a Lua integer has. -/
def CType.cast : CType → LuaInteger → Int
  | .int, v => toInt v
  | .id, v => (v.setWidth 32).toNat

/-- A cast keeps exactly the integers of its type. -/
theorem CType.cast_eq_meaning_iff (c : CType) (v : LuaInteger) :
    c.cast v = c.meaning v.toInt ↔ c.Fits v.toInt := by
  cases c with
  | int => exact cint_eq_iff v (by decide)
  | id =>
      -- The low 32 bits are the integer modulo `2 ^ 32`.
      have hmod : ((v.setWidth 32).toNat : Int) = v.toInt % 2 ^ 32 := by
        rw [BitVec.toNat_setWidth, BitVec.toInt_eq_toNat_cond]
        split_ifs <;> omega
      show ((v.setWidth 32).toNat : Int) = (if v.toInt = -1 then 2 ^ 32 - 1 else v.toInt) ↔
        -1 ≤ v.toInt ∧ v.toInt < 2 ^ 32
      rw [hmod]
      split_ifs <;> omega

/-- Integers of the type that mean the same are equal, or -1 and the id it means. -/
theorem CType.meaning_inj {c : CType} {v v' : Int} (h : c.meaning v = c.meaning v') :
    v = v' ∨ c = .id ∧ (v = -1 ∨ v' = -1) := by
  cases c with
  | int => exact .inl h
  | id =>
      rw [meaning, meaning] at h
      split_ifs at h with hv hv' hv'
      · exact .inl (hv.trans hv'.symm)
      · exact .inr ⟨rfl, .inl hv⟩
      · exact .inr ⟨rfl, .inr hv'⟩
      · exact .inl h

/-! ## The helpers -/

/-- A call of one of the helpers, with all it may depend on. -/
inductive Taking (σ : Type) where
  | checkint (strtod : LStr → Option Rat) (args : List LuaValue) (narg : Nat)
  | optint (strtod : LStr → Option Rat) (args : List LuaValue) (narg : Nat) (dflt : Int)
  | checkintfield (H : Heap) (index t : Nat) (k : String)
  | optintfield (H : Heap) (index t : Nat) (k : String) (dflt : LuaInteger)
  | mygetuid (S : System σ) (args : List LuaValue) (i : Nat) (w : World σ Call)
  | mygetgid (S : System σ) (args : List LuaValue) (i : Nat) (w : World σ Call)

namespace Taking

variable {σ : Type}

/-- The type of its result. -/
def ctype : Taking σ → CType
  | checkint .. | optint .. | checkintfield .. | optintfield .. => .int
  | mygetuid .. | mygetgid .. => .id

/-- The argument or the field it is given. -/
def given : Taking σ → Option LuaValue
  | checkint _ args narg | optint _ args narg _ => argument args narg
  | checkintfield H _ t k | optintfield H _ t k _ => some (H.get t (Heap.fieldName k))
  | mygetuid _ args i _ | mygetgid _ args i _ => argument args i

/-- The id that a run ends with. -/
def endsWith : EStateM.Result Fault (World σ Call) (BitVec 32) → CallM Int
  | .ok id _ => .ok id.toNat
  | .error e _ => .error e

/-- Its result, as an integer. -/
def used : Taking σ → CallM Int
  | checkint strtod args narg => liftM (LuaPosix.checkint strtod args narg)
  | optint strtod args narg dflt => liftM (LuaPosix.optint strtod args narg dflt)
  | checkintfield H index t k => H.checkintfield index t k
  | optintfield H index t k dflt => H.optintfield index t k dflt
  | mygetuid S args i w => endsWith ((Owner.mygetuid S args i).run w)
  | mygetgid S args i w => endsWith ((Owner.mygetgid S args i).run w)

/-- The result is what the integer means, or an argument error is raised. -/
def Exact (T : Taking σ) (v : LuaInteger) : Prop :=
  T.used = .ok (T.ctype.meaning v.toInt) ∨ T.used.RaisesArg

variable {T T' : Taking σ} {v v' : LuaInteger}

/-- No integer is refused: each is cast. -/
theorem used_of_given (h : T.given = some (.integer v)) : T.used = .ok (T.ctype.cast v) := by
  cases T with
  | checkint strtod args narg =>
      have harg : args[narg - 1]? = some (.integer v) := h
      rw [used, LuaPosix.checkint, expectinteger, harg]
      rfl
  | optint strtod args narg dflt =>
      have harg : args[narg - 1]? = some (.integer v) := h
      rw [used, LuaPosix.optint, isnoneornil, expectinteger, harg]
      rfl
  | checkintfield H index t k => exact Heap.checkintfield_of_get (Option.some.inj h)
  | optintfield H index t k dflt => exact Heap.optintfield_of_get (Option.some.inj h)
  | mygetuid S args i w =>
      have harg : argument args i = some (.integer v) := h
      rw [used, Owner.mygetuid, Owner.mygetid, harg]
      rfl
  | mygetgid S args i w =>
      have harg : argument args i = some (.integer v) := h
      rw [used, Owner.mygetgid, Owner.mygetid, harg]
      rfl

/-- **A helper uses exactly the integer it is given, or refuses it, if and only if the integer is
one of the C type.** Such integers are told apart, but for -1 and the id it means. -/
theorem exact_iff (h : T.given = some (.integer v)) (h' : T'.given = some (.integer v'))
    (hc : T.ctype = T'.ctype) :
    (T.Exact v ↔ T.ctype.Fits v.toInt) ∧
      (T.ctype.Fits v.toInt → T'.ctype.Fits v'.toInt → T.used = T'.used →
        v = v' ∨ T.ctype = .id ∧ (v = -1 ∨ v' = -1)) := by
  have hused : T.used = .ok (T.ctype.cast v) := used_of_given h
  constructor
  · rw [Exact, hused, ← T.ctype.cast_eq_meaning_iff]
    constructor
    · rintro (hok | ⟨narg, msg, herr⟩)
      · exact Except.ok.inj hok
      · cases herr
    · intro hcast
      exact .inl (congrArg _ hcast)
  · intro hfits hfits' hsame
    rw [hused, used_of_given h', ← hc] at hsame
    rw [← hc] at hfits'
    have hmeaning : T.ctype.meaning v.toInt = T.ctype.meaning v'.toInt := by
      rw [← (T.ctype.cast_eq_meaning_iff v).mpr hfits, Except.ok.inj hsame,
        (T.ctype.cast_eq_meaning_iff v').mpr hfits']
    have hone (u : LuaInteger) (hu : u.toInt = -1) : u = -1 := BitVec.eq_of_toInt_eq hu
    rcases CType.meaning_inj hmeaning with heq | ⟨hid, hneg | hneg⟩
    · exact .inl (BitVec.eq_of_toInt_eq heq)
    · exact .inr ⟨hid, .inl (hone v hneg)⟩
    · exact .inr ⟨hid, .inr (hone v' hneg)⟩

end Taking

/-- The user 1000, given to `mygetuid`. -/
def user1000 : Taking Unit := .mygetuid .rootOnly [.integer 1000] 1 .start

/-- A user id that fits. -/
theorem exact_user1000 :
    (user1000.Exact 1000 ↔ CType.id.Fits 1000) ∧
      (CType.id.Fits 1000 → CType.id.Fits 1000 → user1000.used = user1000.used →
        (1000 : LuaInteger) = 1000 ∨ CType.id = .id ∧ ((1000 : LuaInteger) = -1 ∨
          (1000 : LuaInteger) = -1)) :=
  have hgiven : user1000.given = some (.integer 1000) := rfl
  Taking.exact_iff hgiven hgiven rfl

/-- The user `2 ^ 32` is the superuser, and `2 ^ 32` among the file descriptors is 0. -/
theorem superuser_by_overflow :
    ¬(Taking.mygetuid System.rootOnly [.integer (2 ^ 32)] 1 .start).Exact (2 ^ 32) ∧
    (Taking.mygetuid System.rootOnly [.integer (2 ^ 32)] 1 .start).used = .ok 0 ∧
    (Taking.mygetuid System.rootOnly [.integer 0] 1 .start).used = .ok 0 ∧
    ¬(Taking.checkint (σ := Unit) (fun _ => none) [.integer (2 ^ 32)] 1).Exact (2 ^ 32) ∧
    (Taking.checkint (σ := Unit) (fun _ => none) [.integer (2 ^ 32)] 1).used = .ok 0 := by
  refine ⟨?_, rfl, rfl, ?_, rfl⟩
  · rintro (h | ⟨narg, msg, h⟩)
    · exact absurd (Except.ok.inj h) (by decide)
    · cases h
  · rintro (h | ⟨narg, msg, h⟩)
    · exact absurd (Except.ok.inj h) (by decide)
    · cases h

end LuaPosix.Narrowing

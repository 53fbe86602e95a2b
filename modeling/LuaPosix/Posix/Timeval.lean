import LuaPosix.Lib.WhileLoop
import LuaPosix.Lua.Expressions
import Mathlib.Data.BitVec

/-! # Arithmetic on timevals

`timeradd`, `timercmp` and `timersub` take the tables of `gettimeofday` or those of its legacy
form, whose fields have other names, and read fields that are missing as zero. Each decides in its
own way which names a table uses. -/

namespace LuaPosix.Timers

open LuaPattern (LStr)
open Traversal (Layout)
open WhileLoop (loop)

/-! ## The three functions -/

section Model

variable (N : Numerals) (O : Operators) (L : Layout fun _ : LuaValue => LuaValue) (H : Heap)

/-- `tonumber(x.k) or 0`. -/
def number (x : LuaValue) (k : String) : CallM LuaValue := do
  return (N.tonumber (← H.getfield x k)).or (.integer 0)

/-- The seconds and the microseconds that `timeradd` and `timersub` read of a table. -/
def numbers (x : LuaValue) : CallM (LuaValue × LuaValue) := do
  let tv_sec ← H.getfield x "tv_sec"
  let tv_usec ← H.getfield x "tv_usec"
  if (tv_sec.or tv_usec).truthy then
    return (← number N H x "tv_sec", ← number N H x "tv_usec")
  else
    return (← number N H x "sec", ← number N H x "usec")

/-- `usec > 1000000`. -/
def overflows (s : LuaValue × LuaValue) : CallM Bool := O.lt (.integer 1000000) s.2

/-- `sec = sec + 1; usec = usec - 1000000`. -/
def carryOne (s : LuaValue × LuaValue) : CallM (LuaValue × LuaValue) := do
  return (← O.add s.1 (.integer 1), ← O.sub s.2 (.integer 1000000))

/-- `usec < 0`. -/
def underflows (s : LuaValue × LuaValue) : CallM Bool := O.lt s.2 (.integer 0)

/-- `sec = sec - 1; usec = usec + 1000000`. -/
def borrowOne (s : LuaValue × LuaValue) : CallM (LuaValue × LuaValue) := do
  return (← O.sub s.1 (.integer 1), ← O.add s.2 (.integer 1000000))

/-- `{sec=sec, usec=usec}`. -/
def timeval (s : LuaValue × LuaValue) : Nat × Heap :=
  H.construct L [("sec", s.1), ("usec", s.2)]

/-- `timeradd(x, y)`, with at most `n` tests of the loop's condition. -/
def Ptimeradd (n : Nat) (x y : LuaValue) : CallM (Nat × Heap) := do
  let xs ← numbers N H x
  let sec ← O.add (.integer 0) xs.1
  let usec ← O.add (.integer 0) xs.2
  let ys ← numbers N H y
  let sec ← O.add sec ys.1
  let usec ← O.add usec ys.2
  return timeval L H (← loop .unfinished (overflows O) (carryOne O) n (sec, usec))

/-- `x.tv_k or x.k or 0`. -/
def alternative (x : LuaValue) (tv_k k : String) : CallM LuaValue := do
  return ((← H.getfield x tv_k).or (← H.getfield x k)).or (.integer 0)

/-- `timercmp(x, y)`. -/
def Ptimercmp (x y : LuaValue) : CallM LuaValue := do
  let xs := (← alternative H x "tv_sec" "sec", ← alternative H x "tv_usec" "usec")
  let ys := (← alternative H y "tv_sec" "sec", ← alternative H y "tv_usec" "usec")
  if O.eq xs.1 ys.1 then O.sub xs.2 ys.2 else O.sub xs.1 ys.1

/-- `timersub(x, y)`, with at most `n` tests of the loop's condition. -/
def Ptimersub (n : Nat) (x y : LuaValue) : CallM (Nat × Heap) := do
  let xs ← numbers N H x
  let ys ← numbers N H y
  let sec ← O.sub xs.1 ys.1
  let usec ← O.sub xs.2 ys.2
  return timeval L H (← loop .unfinished (underflows O) (borrowOne O) n (sec, usec))

end Model

/-! ## Timevals -/

/-- The names of the fields. -/
inductive Style where
  | systime
  | legacy
  deriving DecidableEq, Repr

/-- The key of the seconds. -/
def Style.sec : Style → String
  | .systime => "tv_sec"
  | .legacy => "sec"

/-- The key of the microseconds. -/
def Style.usec : Style → String
  | .systime => "tv_usec"
  | .legacy => "usec"

/-- A value that is the integer, or missing where the integer is zero. -/
def Reads (v : LuaValue) (d : LuaInteger) : Prop := v = .integer d ∨ v = .nil ∧ d = 0

/-- A table that has a time in one of the styles, in any number of microseconds. It is of the style
of `gettimeofday` if it has a field of that style. -/
structure Fields (H : Heap) where
  table : Nat
  allocated : table < H.size
  style : Style
  sec : LuaInteger
  usec : LuaInteger
  reads_sec : Reads (H.get table (Heap.fieldName style.sec)) sec
  reads_usec : Reads (H.get table (Heap.fieldName style.usec)) usec
  style_iff : style = .systime ↔ H.get table (Heap.fieldName "tv_sec") ≠ .nil ∨
    H.get table (Heap.fieldName "tv_usec") ≠ .nil

/-- The table has no field of the other style. -/
def Fields.Unmixed {H : Heap} (x : Fields H) : Prop :=
  x.style = .systime → H.get x.table (Heap.fieldName "sec") = .nil ∧
    H.get x.table (Heap.fieldName "usec") = .nil

/-- A timeval: the microseconds are less than a second. -/
structure Timeval (H : Heap) extends Fields H where
  usec_nonneg : 0 ≤ usec.toInt
  usec_lt : usec.toInt < 1000000

/-- The time in microseconds. -/
def Timeval.total {H : Heap} (x : Timeval H) : Int := x.sec.toInt * 1000000 + x.usec.toInt

/-! ## What is read -/

section Reading

variable {N : Numerals} {H : Heap} (x : Fields H)

/-- A number that is given is used. -/
theorem Reads.tonumber_or {v : LuaValue} {d : LuaInteger} (h : Reads v d) :
    (N.tonumber v).or (.integer 0) = .integer d := by
  rcases h with rfl | ⟨rfl, rfl⟩ <;> rfl

/-- So is an integer. -/
theorem Reads.or_zero {v : LuaValue} {d : LuaInteger} (h : Reads v d) :
    v.or (.integer 0) = .integer d := by
  rcases h with rfl | ⟨rfl, rfl⟩ <;> rfl

/-- What is missing is `nil`. -/
theorem Reads.truthy_iff {v : LuaValue} {d : LuaInteger} (h : Reads v d) :
    v.truthy ↔ v ≠ .nil := by
  rcases h with rfl | ⟨rfl, rfl⟩
  · exact iff_of_true rfl LuaValue.noConfusion
  · exact iff_of_false Bool.false_ne_true (absurd rfl)

/-- The field is the number it reads as. -/
theorem number_eq {t : Nat} {k : String} {d : LuaInteger}
    (h : Reads (H.get t (Heap.fieldName k)) d) : number N H (.table t) k = .ok (.integer d) := by
  show Except.ok ((N.tonumber (H.get t (Heap.fieldName k))).or (.integer 0)) = _
  rw [h.tonumber_or]

/-- The test for the style. -/
theorem truthy_iff_systime : ((H.get x.table (Heap.fieldName "tv_sec")).or
    (H.get x.table (Heap.fieldName "tv_usec"))).truthy ↔ x.style = .systime := by
  constructor
  · intro h
    refine x.style_iff.mpr ?_
    by_contra hnil
    rw [not_or, not_not, not_not] at hnil
    rw [hnil.1, hnil.2] at h
    exact Bool.false_ne_true h
  · intro h
    have hsec := x.reads_sec.truthy_iff
    have husec := x.reads_usec.truthy_iff
    rw [h] at hsec husec
    rw [LuaValue.or]
    split_ifs with htruthy
    · exact htruthy
    · exact husec.mpr ((x.style_iff.mp h).resolve_left fun hne => htruthy (hsec.mpr hne))

/-- The numbers of a table. -/
theorem numbers_eq : numbers N H (.table x.table) = .ok (.integer x.sec, .integer x.usec) := by
  have hsec := number_eq (N := N) x.reads_sec
  have husec := number_eq (N := N) x.reads_usec
  have htest := truthy_iff_systime x
  rw [numbers, Heap.getfield, CallM.ok_bind, Heap.getfield, CallM.ok_bind]
  cases hstyle : x.style with
  | systime =>
      rw [hstyle] at hsec husec
      rw [if_pos (htest.mpr hstyle)]
      show (do return (← number N H (.table x.table) Style.systime.sec,
        ← number N H (.table x.table) Style.systime.usec) : CallM _) = _
      rw [hsec, CallM.ok_bind, husec, CallM.ok_bind]
      rfl
  | legacy =>
      rw [hstyle] at hsec husec
      have hlegacy : x.style ≠ .systime := by
        rw [hstyle]
        exact Style.noConfusion
      rw [if_neg fun h => hlegacy (htest.mp h)]
      show (do return (← number N H (.table x.table) Style.legacy.sec,
        ← number N H (.table x.table) Style.legacy.usec) : CallM _) = _
      rw [hsec, CallM.ok_bind, husec, CallM.ok_bind]
      rfl

/-- One of two fields is there at most. -/
theorem alternative_eq {t : Nat} {j k : String} {d : LuaInteger}
    (h : Reads (H.get t (Heap.fieldName j)) d ∧ H.get t (Heap.fieldName k) = .nil ∨
      H.get t (Heap.fieldName j) = .nil ∧ Reads (H.get t (Heap.fieldName k)) d) :
    alternative H (.table t) j k = .ok (.integer d) := by
  show Except.ok (((H.get t (Heap.fieldName j)).or (H.get t (Heap.fieldName k))).or
    (.integer 0)) = _
  rcases h with ⟨hj, hk⟩ | ⟨hj, hk⟩
  · rw [hk]
    rcases hj with hj | ⟨hj, rfl⟩ <;> rw [hj] <;> rfl
  · rw [hj]
    exact congrArg _ hk.or_zero

variable {x}

/-- The numbers that `timercmp` finds. -/
theorem alternatives_eq (hx : x.Unmixed) :
    alternative H (.table x.table) "tv_sec" "sec" = .ok (.integer x.sec) ∧
      alternative H (.table x.table) "tv_usec" "usec" = .ok (.integer x.usec) := by
  have hsec := x.reads_sec
  have husec := x.reads_usec
  cases hstyle : x.style with
  | systime =>
      rw [hstyle] at hsec husec
      obtain ⟨hnosec, hnousec⟩ := hx hstyle
      exact ⟨alternative_eq (.inl ⟨hsec, hnosec⟩), alternative_eq (.inl ⟨husec, hnousec⟩)⟩
  | legacy =>
      rw [hstyle] at hsec husec
      have hnone : ¬(H.get x.table (Heap.fieldName "tv_sec") ≠ .nil ∨
          H.get x.table (Heap.fieldName "tv_usec") ≠ .nil) := by
        rw [← x.style_iff, hstyle]
        exact Style.noConfusion
      rw [not_or, not_not, not_not] at hnone
      exact ⟨alternative_eq (.inr ⟨hnone.1, hsec⟩), alternative_eq (.inr ⟨hnone.2, husec⟩)⟩

end Reading

/-! ## The loops -/

section Loops

variable (O : Operators)

/-- A difference in range is exact. -/
theorem toInt_sub_eq {i j : LuaInteger} (h : -2 ^ 63 ≤ i.toInt - j.toInt)
    (h' : i.toInt - j.toInt < 2 ^ 63) : (i - j).toInt = i.toInt - j.toInt := by
  rw [BitVec.toInt_sub, Int.bmod_eq_of_le_mul_two (by omega) (by omega)]

/-- So is a sum. -/
theorem toInt_add_eq {i j : LuaInteger} (h : -2 ^ 63 ≤ i.toInt + j.toInt)
    (h' : i.toInt + j.toInt < 2 ^ 63) : (i + j).toInt = i.toInt + j.toInt := by
  rw [BitVec.toInt_add, Int.bmod_eq_of_le_mul_two (by omega) (by omega)]

/-- A million is itself. -/
theorem toInt_million : (1000000 : LuaInteger).toInt = 1000000 := rfl

/-- The microseconds, from which the rounds that are left can be told. -/
def micros (s : LuaValue × LuaValue) : Int := (tointeger s.2).toInt

/-- A loop ends whose rounds change the microseconds by so many each and lower a measure of them.
`seconds` are those after so many rounds, and `After` is what a round leaves true. -/
theorem rounds_end (test : LuaValue × LuaValue → CallM Bool)
    (round : LuaValue × LuaValue → CallM (LuaValue × LuaValue)) (seconds : Nat → LuaInteger)
    (next : LuaInteger → LuaInteger) {change : Int} (measure : Int → Nat) (After : Int → Prop)
    (htest : ∀ s u, ∃ b, test (.integer s, .integer u) = .ok b)
    (hround : ∀ k u, test (.integer (seconds k), .integer u) = .ok true →
      round (.integer (seconds k), .integer u)
          = .ok (.integer (seconds (k + 1)), .integer (next u)) ∧
        (next u).toInt = u.toInt + change ∧ After (next u).toInt ∧
          measure (next u).toInt < measure u.toInt) (usec : LuaInteger) :
    ∃ (k : Nat) (u : LuaInteger), u.toInt = usec.toInt + k * change ∧ (k = 0 ∨ After u.toInt) ∧
      test (.integer (seconds k), .integer u) = .ok false ∧ ∀ n, measure usec.toInt < n →
        loop .unfinished test round n (.integer (seconds 0), .integer usec)
          = .ok (.integer (seconds k), .integer u) := by
  -- After `k` rounds.
  let Inv (s : LuaValue × LuaValue) : Prop := ∃ (k : Nat) (u : LuaInteger),
    s = (.integer (seconds k), .integer u) ∧ u.toInt = usec.toInt + k * change ∧
      (k = 0 ∨ After u.toInt)
  have hends : ∃ s, Inv s ∧ test s = .ok false ∧
      ∀ n, measure (micros (.integer (seconds 0), .integer usec)) < n →
        loop .unfinished test round n (.integer (seconds 0), .integer usec) = .ok s := by
    refine WhileLoop.ends (fun s => measure (micros s)) ?_ ?_ ?_
    · rintro _ ⟨k, u, rfl, -⟩
      exact htest _ _
    · rintro _ ⟨k, u, rfl, hu, -⟩ htrue
      obtain ⟨hnext, hchange, hafter, hlt⟩ := hround k u htrue
      refine ⟨_, hnext, ⟨k + 1, next u, rfl, ?_, .inr hafter⟩, hlt⟩
      rw [hchange, hu]
      push_cast
      ring
    · exact ⟨0, usec, rfl, by omega, .inl rfl⟩
  obtain ⟨_, ⟨k, u, rfl, hu, hk⟩, hfalse, hloop⟩ := hends
  exact ⟨k, u, hu, hk, hfalse, hloop⟩

/-- A round carries without wrapping around. -/
theorem carryOne_of_overflows {sec usec : LuaInteger}
    (h : overflows O (.integer sec, .integer usec) = .ok true) :
    carryOne O (.integer sec, .integer usec) = .ok (.integer (sec + 1), .integer (usec - 1000000)) ∧
      (usec - 1000000).toInt = usec.toInt + -1000000 ∧ 0 < (usec - 1000000).toInt ∧
        (usec - 1000000).toInt.toNat < usec.toInt.toNat := by
  have hlt : 1000000 < usec.toInt := BitVec.slt_iff_toInt_lt.mp (Except.ok.inj h)
  have hle := usec.toInt_lt
  have hu : (usec - 1000000).toInt = usec.toInt - 1000000 :=
    toInt_sub_eq (by rw [toInt_million]; omega) (by rw [toInt_million]; omega)
  exact ⟨rfl, hu, by omega, by omega⟩

/-- **Carrying ends**, with as many seconds more as millions of microseconds less. -/
theorem carry_ends (sec usec : LuaInteger) : ∃ (k : Nat) (u : LuaInteger),
    u.toInt = usec.toInt - k * 1000000 ∧ u.toInt ≤ 1000000 ∧ (k = 0 ∨ 0 < u.toInt) ∧
      ∀ n, usec.toInt.toNat < n →
        loop .unfinished (overflows O) (carryOne O) n (.integer sec, .integer usec)
          = .ok (.integer (sec + BitVec.ofNat 64 k), .integer u) := by
  obtain ⟨k, u, hu, hk, hfalse, hloop⟩ := rounds_end (overflows O) (carryOne O)
    (fun k => sec + BitVec.ofNat 64 k) (fun u => u - 1000000) Int.toNat (fun u => 0 < u)
    (fun s u => ⟨_, rfl⟩)
    (fun k u htrue => by
      rw [BitVec.ofNat_add, ← BitVec.add_assoc]
      exact carryOne_of_overflows O htrue) usec
  have hnot : ¬1000000 < u.toInt := fun hlt =>
    Bool.false_ne_true ((Except.ok.inj hfalse).symm.trans (BitVec.slt_iff_toInt_lt.mpr hlt))
  rw [BitVec.add_zero] at hloop
  exact ⟨k, u, by omega, by omega, hk, hloop⟩

/-- A round borrows without wrapping around. -/
theorem borrowOne_of_underflows {sec usec : LuaInteger}
    (h : underflows O (.integer sec, .integer usec) = .ok true) :
    borrowOne O (.integer sec, .integer usec)
        = .ok (.integer (sec - 1), .integer (usec + 1000000)) ∧
      (usec + 1000000).toInt = usec.toInt + 1000000 ∧ (usec + 1000000).toInt < 1000000 ∧
        (-(usec + 1000000).toInt).toNat < (-usec.toInt).toNat := by
  have hlt : usec.toInt < 0 := BitVec.slt_iff_toInt_lt.mp (Except.ok.inj h)
  have hle := usec.le_toInt
  have hu : (usec + 1000000).toInt = usec.toInt + 1000000 :=
    toInt_add_eq (by rw [toInt_million]; omega) (by rw [toInt_million]; omega)
  exact ⟨rfl, hu, by omega, by omega⟩

/-- **Borrowing ends**, with as many seconds less as millions of microseconds more. -/
theorem borrow_ends (sec usec : LuaInteger) : ∃ (k : Nat) (u : LuaInteger),
    u.toInt = usec.toInt + k * 1000000 ∧ 0 ≤ u.toInt ∧ (k = 0 ∨ u.toInt < 1000000) ∧
      ∀ n, (-usec.toInt).toNat < n →
        loop .unfinished (underflows O) (borrowOne O) n (.integer sec, .integer usec)
          = .ok (.integer (sec - BitVec.ofNat 64 k), .integer u) := by
  obtain ⟨k, u, hu, hk, hfalse, hloop⟩ := rounds_end (underflows O) (borrowOne O)
    (fun k => sec - BitVec.ofNat 64 k) (fun u => u + 1000000) (fun u => (-u).toNat)
    (fun u => u < 1000000) (fun s u => ⟨_, rfl⟩)
    (fun k u htrue => by
      rw [BitVec.ofNat_add, sub_add_eq_sub_sub]
      exact borrowOne_of_underflows O htrue) usec
  have hnot : ¬u.toInt < 0 := fun hlt =>
    Bool.false_ne_true ((Except.ok.inj hfalse).symm.trans (BitVec.slt_iff_toInt_lt.mpr hlt))
  rw [BitVec.sub_zero] at hloop
  exact ⟨k, u, hu, by omega, hk, hloop⟩

end Loops

end LuaPosix.Timers

import LuaPosix.Posix.Timeval

/-! # Sums and differences of timevals

`timersub` takes differences and `timercmp` orders by them, up to what a Lua integer holds.
`timeradd` leaves a sum of exactly a second in the microseconds. -/

namespace LuaPosix.Timers

open Traversal (Layout)
open WhileLoop (loop)

/-! ## Results -/

/-- A call whose loop may take so many rounds returns in the end, and then always the same. -/
def Returns {α : Type} (call : Nat → CallM α) (r : α) : Prop := ∃ k, ∀ n, k < n → call n = .ok r

/-- A call returns one result. -/
theorem Returns.unique {α : Type} {call : Nat → CallM α} {r r' : α} (h : Returns call r)
    (h' : Returns call r') : r = r' := by
  obtain ⟨k, hk⟩ := h
  obtain ⟨k', hk'⟩ := h'
  have hlt : k < max k k' + 1 := Nat.lt_succ_of_le (le_max_left k k')
  have hlt' : k' < max k k' + 1 := Nat.lt_succ_of_le (le_max_right k k')
  exact Except.ok.inj ((hk _ hlt).symm.trans (hk' _ hlt'))

/-- The fields of a result. -/
def HasFields (r : Nat × Heap) (sec usec : LuaInteger) : Prop :=
  r.2.get r.1 (Heap.fieldName "sec") = .integer sec ∧
    r.2.get r.1 (Heap.fieldName "usec") = .integer usec

/-- What a Lua integer holds. -/
def InRange (s : Int) : Prop := -2 ^ 63 ≤ s ∧ s < 2 ^ 63

section Results

variable {N : Numerals} {O : Operators} {L : Layout fun _ : LuaValue => LuaValue} {H : Heap}
  {sec usec : LuaInteger}

/-- The table made has the two fields. -/
theorem get_timeval (k : String) :
    (timeval L H (.integer sec, .integer usec)).2.get H.size (Heap.fieldName k)
      = Heap.fieldOf [("sec", .integer sec), ("usec", .integer usec)] k := by
  have hnodup : ([("sec", LuaValue.integer sec), ("usec", .integer usec)].map Prod.fst).Nodup := by
    show ["sec", "usec"].Nodup
    decide
  exact Heap.get_construct hnodup k

/-- They are the seconds and the microseconds. -/
theorem hasFields_timeval :
    HasFields (timeval L H (.integer sec, .integer usec)) sec usec :=
  ⟨get_timeval "sec", get_timeval "usec"⟩

/-- A table has one of each. -/
theorem HasFields.unique {r : Nat × Heap} {sec' usec' : LuaInteger} (h : HasFields r sec usec)
    (h' : HasFields r sec' usec') : sec = sec' ∧ usec = usec' :=
  ⟨LuaValue.integer.inj (h.1.symm.trans h'.1), LuaValue.integer.inj (h.2.symm.trans h'.2)⟩

/-- One table is made. -/
theorem size_timeval (s : LuaValue × LuaValue) : (timeval L H s).2.size = H.size + 1 :=
  Heap.size_newtable _

/-- The tables there are stay as they are. -/
theorem get_timeval_of_lt (s : LuaValue × LuaValue) {t : Nat} (h : t < H.size) (key : LuaValue) :
    (timeval L H s).2.get t key = H.get t key := by
  have htables : (timeval L H s).2.tables t = H.tables t := Heap.tables_newtable_of_ne h.ne
  rw [Heap.get, htables, Heap.get]

variable (L H sec usec) in
/-- A result as an argument. -/
def result : Fields (timeval L H (.integer sec, .integer usec)).2 where
  table := H.size
  allocated := by
    rw [size_timeval]
    exact Nat.lt_succ_self _
  style := .legacy
  sec := sec
  usec := usec
  reads_sec := .inl (get_timeval "sec")
  reads_usec := .inl (get_timeval "usec")
  style_iff := by
    rw [get_timeval, get_timeval]
    exact iff_of_false Style.noConfusion fun h => h.elim (absurd rfl) (absurd rfl)

variable (L) in
/-- An argument after a call. -/
def Fields.after (x : Fields H) (s : LuaValue × LuaValue) : Fields (timeval L H s).2 where
  table := x.table
  allocated := by
    rw [size_timeval]
    exact Nat.lt_succ_of_lt x.allocated
  style := x.style
  sec := x.sec
  usec := x.usec
  reads_sec := by
    rw [get_timeval_of_lt s x.allocated]
    exact x.reads_sec
  reads_usec := by
    rw [get_timeval_of_lt s x.allocated]
    exact x.reads_usec
  style_iff := by
    rw [get_timeval_of_lt s x.allocated, get_timeval_of_lt s x.allocated]
    exact x.style_iff

/-! ## What the functions return -/

variable (N O L)

/-- **What `timeradd` returns.** -/
theorem timeradd_returns (x y : Fields H) (hle : -2 ^ 63 ≤ x.usec.toInt + y.usec.toInt)
    (hlt : x.usec.toInt + y.usec.toInt < 2 ^ 63) : ∃ (k : Nat) (u : LuaInteger),
      u.toInt = x.usec.toInt + y.usec.toInt - k * 1000000 ∧ u.toInt ≤ 1000000 ∧
        (k = 0 ∨ 0 < u.toInt) ∧
        Returns (fun n => Ptimeradd N O L H n (.table x.table) (.table y.table))
          (timeval L H (.integer (x.sec + y.sec + BitVec.ofNat 64 k), .integer u)) := by
  obtain ⟨k, u, hu, hle', hk, hloop⟩ := carry_ends O (x.sec + y.sec) (x.usec + y.usec)
  rw [toInt_add_eq hle hlt] at hu hloop
  refine ⟨k, u, hu, hle', hk, (x.usec.toInt + y.usec.toInt).toNat, fun n hn => ?_⟩
  show Ptimeradd N O L H n _ _ = _
  rw [Ptimeradd, numbers_eq, numbers_eq, CallM.ok_bind, Operators.add_integer, CallM.ok_bind,
    Operators.add_integer, CallM.ok_bind, CallM.ok_bind, Operators.add_integer, CallM.ok_bind,
    Operators.add_integer, CallM.ok_bind, zero_add, zero_add, hloop n hn]
  rfl

/-- **What `timersub` returns.** -/
theorem timersub_returns (x y : Fields H) (hle : -2 ^ 63 ≤ x.usec.toInt - y.usec.toInt)
    (hlt : x.usec.toInt - y.usec.toInt < 2 ^ 63) : ∃ (k : Nat) (u : LuaInteger),
      u.toInt = x.usec.toInt - y.usec.toInt + k * 1000000 ∧ 0 ≤ u.toInt ∧
        (k = 0 ∨ u.toInt < 1000000) ∧
        Returns (fun n => Ptimersub N O L H n (.table x.table) (.table y.table))
          (timeval L H (.integer (x.sec - y.sec - BitVec.ofNat 64 k), .integer u)) := by
  obtain ⟨k, u, hu, hle', hk, hloop⟩ := borrow_ends O (x.sec - y.sec) (x.usec - y.usec)
  rw [toInt_sub_eq hle hlt] at hu hloop
  refine ⟨k, u, hu, hle', hk, (-(x.usec.toInt - y.usec.toInt)).toNat, fun n hn => ?_⟩
  show Ptimersub N O L H n _ _ = _
  rw [Ptimersub, numbers_eq, numbers_eq, CallM.ok_bind, CallM.ok_bind, Operators.sub_integer,
    CallM.ok_bind, Operators.sub_integer, CallM.ok_bind, hloop n hn]
  rfl

/-- **What `timercmp` returns.** -/
theorem timercmp_returns {x y : Fields H} (hx : x.Unmixed) (hy : y.Unmixed) :
    Ptimercmp O H (.table x.table) (.table y.table)
      = .ok (.integer (if x.sec = y.sec then x.usec - y.usec else x.sec - y.sec)) := by
  obtain ⟨hxsec, hxusec⟩ := alternatives_eq hx
  obtain ⟨hysec, hyusec⟩ := alternatives_eq hy
  rw [Ptimercmp, hxsec, CallM.ok_bind, hxusec, CallM.ok_bind, hysec, CallM.ok_bind, hyusec,
    CallM.ok_bind]
  dsimp only
  rw [Operators.eq_integer]
  split_ifs with heq hsec hsec
  · rfl
  · exact absurd (of_decide_eq_true heq) hsec
  · exact absurd (decide_eq_true hsec) heq
  · rfl

end Results

/-! ## Exactness -/

section Exactness

/-- A word that is an integer up to wrapping around is that integer exactly if it is in range. -/
theorem toInt_eq_iff_inRange {d : LuaInteger} {s : Int} (h : d.toInt = s.bmod (2 ^ 64)) :
    d.toInt = s ↔ InRange s := by
  rw [h, Int.bmod_def, InRange]
  omega

/-- The seconds of a sum, carry included, up to 2^64. -/
theorem toInt_carried (i j : LuaInteger) (k : Nat) :
    (i + j + BitVec.ofNat 64 k).toInt = (i.toInt + j.toInt + k).bmod (2 ^ 64) := by
  rw [BitVec.toInt_add, BitVec.toInt_add, BitVec.toInt_ofNat', Int.bmod_add_bmod,
    Int.add_bmod_bmod]

/-- Those of a difference, borrow included, up to 2^64. -/
theorem toInt_borrowed (i j : LuaInteger) (k : Nat) :
    (i - j - BitVec.ofNat 64 k).toInt = (i.toInt - j.toInt - k).bmod (2 ^ 64) := by
  rw [BitVec.toInt_sub, BitVec.toInt_sub, BitVec.toInt_ofNat', Int.bmod_sub_bmod,
    Int.sub_bmod_bmod]

variable (N : Numerals) (O : Operators) (L : Layout fun _ : LuaValue => LuaValue) {H : Heap}

/-- `timeradd` returns the sum, as a timeval. -/
def ExactSum (x y : Timeval H) : Prop := ∃ (r : Nat × Heap) (sec usec : LuaInteger),
  Returns (fun n => Ptimeradd N O L H n (.table x.table) (.table y.table)) r ∧
    HasFields r sec usec ∧ 0 ≤ usec.toInt ∧ usec.toInt < 1000000 ∧
      sec.toInt * 1000000 + usec.toInt = x.total + y.total

variable {N O L} in
/-- What `timeradd` returns decides. -/
theorem exists_exactSum_iff (x y : Timeval H) : ∃ (k : Nat) (u : LuaInteger),
    u.toInt = x.usec.toInt + y.usec.toInt - k * 1000000 ∧ u.toInt ≤ 1000000 ∧
      (k = 0 ∨ 0 < u.toInt) ∧ (ExactSum N O L x y ↔ u.toInt < 1000000 ∧
        (x.sec + y.sec + BitVec.ofNat 64 k).toInt = x.sec.toInt + y.sec.toInt + k) := by
  obtain ⟨hx, hx'⟩ := And.intro x.usec_nonneg x.usec_lt
  obtain ⟨hy, hy'⟩ := And.intro y.usec_nonneg y.usec_lt
  obtain ⟨k, u, hu, hle, hk, hreturns⟩ :=
    timeradd_returns N O L x.toFields y.toFields (by omega) (by omega)
  have htotal : x.total + y.total
      = (x.sec.toInt + y.sec.toInt + k) * 1000000 + u.toInt := by
    rw [Timeval.total, Timeval.total]
    omega
  refine ⟨k, u, hu, hle, hk, ?_⟩
  rw [ExactSum, htotal]
  constructor
  · rintro ⟨r, sec, usec, hr, hfields, -, hlt, hsum⟩
    rw [hr.unique hreturns] at hfields
    obtain ⟨rfl, rfl⟩ := hfields.unique hasFields_timeval
    exact ⟨hlt, by omega⟩
  · rintro ⟨hlt, hsec⟩
    exact ⟨_, _, u, hreturns, hasFields_timeval, by omega, hlt, by rw [hsec]⟩

/-- **`timeradd` is exact if and only if the microseconds are not exactly a second and the seconds
of the sum are in range.** -/
theorem exactSum_iff (x y : Timeval H) : ExactSum N O L x y ↔
    x.usec.toInt + y.usec.toInt ≠ 1000000 ∧ InRange ((x.total + y.total) / 1000000) := by
  obtain ⟨hx, hx'⟩ := And.intro x.usec_nonneg x.usec_lt
  obtain ⟨hy, hy'⟩ := And.intro y.usec_nonneg y.usec_lt
  obtain ⟨k, u, hu, hle, hk, hexact⟩ := exists_exactSum_iff (N := N) (O := O) (L := L) x y
  rw [hexact, toInt_eq_iff_inRange (toInt_carried x.sec y.sec k), Timeval.total, Timeval.total]
  -- A sum of a second is not carried, and everything else is.
  have hlt : u.toInt < 1000000 ↔ x.usec.toInt + y.usec.toInt ≠ 1000000 := by omega
  rw [hlt]
  refine and_congr_right fun hne => ?_
  have hseconds : (x.sec.toInt * 1000000 + x.usec.toInt +
      (y.sec.toInt * 1000000 + y.usec.toInt)) / 1000000 = x.sec.toInt + y.sec.toInt + k := by
    omega
  rw [hseconds]

/-! ## Differences and order -/

/-- `timersub` returns the difference, as a timeval. -/
def ExactDifference (x y : Timeval H) : Prop := ∃ (r : Nat × Heap) (sec usec : LuaInteger),
  Returns (fun n => Ptimersub N O L H n (.table x.table) (.table y.table)) r ∧
    HasFields r sec usec ∧ 0 ≤ usec.toInt ∧ usec.toInt < 1000000 ∧
      sec.toInt * 1000000 + usec.toInt = x.total - y.total

/-- `timercmp` returns an integer with the sign of the difference. -/
def Compares (x y : Timeval H) : Prop := ∃ d : LuaInteger,
  Ptimercmp O H (.table x.table) (.table y.table) = .ok (.integer d) ∧
    d.toInt.sign = (x.total - y.total).sign

variable {N O L} in
/-- What `timersub` returns is normalised, and decides. -/
theorem exists_exactDifference_iff (x y : Timeval H) : ∃ (k : Nat) (u : LuaInteger),
    u.toInt = x.usec.toInt - y.usec.toInt + k * 1000000 ∧ 0 ≤ u.toInt ∧ u.toInt < 1000000 ∧
      Returns (fun n => Ptimersub N O L H n (.table x.table) (.table y.table))
        (timeval L H (.integer (x.sec - y.sec - BitVec.ofNat 64 k), .integer u)) ∧
      (ExactDifference N O L x y ↔
        (x.sec - y.sec - BitVec.ofNat 64 k).toInt = x.sec.toInt - y.sec.toInt - k) := by
  obtain ⟨hx, hx'⟩ := And.intro x.usec_nonneg x.usec_lt
  obtain ⟨hy, hy'⟩ := And.intro y.usec_nonneg y.usec_lt
  obtain ⟨k, u, hu, hle, hk, hreturns⟩ :=
    timersub_returns N O L x.toFields y.toFields (by omega) (by omega)
  have htotal : x.total - y.total
      = (x.sec.toInt - y.sec.toInt - k) * 1000000 + u.toInt := by
    rw [Timeval.total, Timeval.total]
    omega
  have hlt : u.toInt < 1000000 := by omega
  refine ⟨k, u, hu, hle, hlt, hreturns, ?_⟩
  rw [ExactDifference, htotal]
  constructor
  · rintro ⟨r, sec, usec, hr, hfields, -, -, hdiff⟩
    rw [hr.unique hreturns] at hfields
    obtain ⟨rfl, rfl⟩ := hfields.unique hasFields_timeval
    omega
  · intro hsec
    exact ⟨_, _, u, hreturns, hasFields_timeval, hle, hlt, by rw [hsec]⟩

variable {N O L} in
/-- `timersub` is exact if and only if the seconds of the difference are in range. -/
theorem exactDifference_iff (x y : Timeval H) :
    ExactDifference N O L x y ↔ InRange ((x.total - y.total) / 1000000) := by
  obtain ⟨k, u, hu, hle, hlt, -, hexact⟩ :=
    exists_exactDifference_iff (N := N) (O := O) (L := L) x y
  rw [hexact, toInt_eq_iff_inRange (toInt_borrowed x.sec y.sec k), Timeval.total, Timeval.total]
  have hseconds : (x.sec.toInt * 1000000 + x.usec.toInt -
      (y.sec.toInt * 1000000 + y.usec.toInt)) / 1000000 = x.sec.toInt - y.sec.toInt - k := by
    omega
  rw [hseconds]

/-- Two numbers have the same sign where each is positive or negative with the other. -/
theorem sign_eq_sign_iff {a b : Int} : a.sign = b.sign ↔ (0 < a ↔ 0 < b) ∧ (a < 0 ↔ b < 0) := by
  rw [← Int.sign_eq_one_iff_pos, ← Int.sign_eq_one_iff_pos, ← Int.sign_eq_neg_one_iff_neg,
    ← Int.sign_eq_neg_one_iff_neg]
  rcases Int.sign_trichotomy a with ha | ha | ha <;>
    rcases Int.sign_trichotomy b with hb | hb | hb <;> rw [ha, hb] <;> decide

variable {O} in
/-- `timercmp` has the right sign if and only if the difference of the seconds is in range. -/
theorem compares_iff {x y : Timeval H} (hx : x.Unmixed) (hy : y.Unmixed) :
    Compares O x y ↔ InRange (x.sec.toInt - y.sec.toInt) := by
  obtain ⟨hxu, hxu'⟩ := And.intro x.usec_nonneg x.usec_lt
  obtain ⟨hyu, hyu'⟩ := And.intro y.usec_nonneg y.usec_lt
  have hcmp := timercmp_returns O hx hy
  have hcompares : Compares O x y ↔ (if x.sec = y.sec then x.usec - y.usec
      else x.sec - y.sec).toInt.sign = (x.total - y.total).sign := by
    constructor
    · rintro ⟨d, hd, hsign⟩
      rw [LuaValue.integer.inj (Except.ok.inj (hd.symm.trans hcmp))] at hsign
      exact hsign
    · exact fun hsign => ⟨_, hcmp, hsign⟩
  rw [hcompares, sign_eq_sign_iff, Timeval.total, Timeval.total, InRange]
  split_ifs with hsec
  · rw [hsec, toInt_sub_eq (by omega) (by omega)]
    omega
  · -- What is out of range has the other sign.
    have hne : x.sec.toInt ≠ y.sec.toInt := fun h => hsec (BitVec.eq_of_toInt_eq h)
    have hxs := And.intro x.sec.le_toInt x.sec.toInt_lt
    have hys := And.intro y.sec.le_toInt y.sec.toInt_lt
    rw [BitVec.toInt_sub, Int.bmod_def]
    omega

/-- A comparison has the sign of the difference. -/
theorem Compares.sign_eq {x y : Timeval H} (h : Compares O x y) {d : LuaInteger}
    (hd : Ptimercmp O H (.table x.table) (.table y.table) = .ok (.integer d)) :
    d.toInt.sign = (x.total - y.total).sign := by
  obtain ⟨d', hd', hsign⟩ := h
  rwa [LuaValue.integer.inj (Except.ok.inj (hd.symm.trans hd'))]

/-- Subtracting what was added gives the same fields, also where the sum was not carried or went out
of range. -/
def SubUndoesAdd (x y : Timeval H) : Prop := ∃ r r' : Nat × Heap,
  Returns (fun n => Ptimeradd N O L H n (.table x.table) (.table y.table)) r ∧
    Returns (fun n => Ptimersub N O L r.2 n (.table r.1) (.table y.table)) r' ∧
    HasFields r' x.sec x.usec

/-- Subtracting what was added gives the first time back. -/
theorem subUndoesAdd (x y : Timeval H) : SubUndoesAdd N O L x y := by
  obtain ⟨hx, hx'⟩ := And.intro x.usec_nonneg x.usec_lt
  obtain ⟨hy, hy'⟩ := And.intro y.usec_nonneg y.usec_lt
  obtain ⟨k, u, hu, hle, hk, hadd⟩ :=
    timeradd_returns N O L x.toFields y.toFields (by omega) (by omega)
  obtain ⟨k', u', hu', hle', hk', hsub⟩ := timersub_returns N O L
    (result L H (x.sec + y.sec + BitVec.ofNat 64 k) u) (y.after L _)
    (show -2 ^ 63 ≤ u.toInt - y.usec.toInt by omega)
    (show u.toInt - y.usec.toInt < 2 ^ 63 by omega)
  -- As many seconds are borrowed as were carried.
  have hdiff : u'.toInt = u.toInt - y.usec.toInt + k' * 1000000 := hu'
  have hsame : k' = k := by omega
  have husec : u' = x.usec := BitVec.eq_of_toInt_eq (by omega)
  have hsec : x.sec + y.sec + BitVec.ofNat 64 k - y.sec - BitVec.ofNat 64 k = x.sec := by ring
  refine ⟨_, _, hadd, hsub, ?_⟩
  rw [husec, hsame]
  show HasFields (timeval L _ (.integer (x.sec + y.sec + BitVec.ofNat 64 k - y.sec
    - BitVec.ofNat 64 k), .integer x.usec)) x.sec x.usec
  rw [hsec]
  exact hasFields_timeval

/-- What `timersub` and `timercmp` do with timevals, where the differences are in range. -/
structure Laws (x y z : Timeval H) : Prop where
  /-- The loop ends, and less than a second is left. -/
  normalised : ∃ (r : Nat × Heap) (sec usec : LuaInteger),
    Returns (fun n => Ptimersub N O L H n (.table x.table) (.table y.table)) r ∧
      HasFields r sec usec ∧ 0 ≤ usec.toInt ∧ usec.toInt < 1000000
  exact : ExactDifference N O L x y ↔ InRange ((x.total - y.total) / 1000000)
  compares : Compares O x y ↔ InRange (x.sec.toInt - y.sec.toInt)
  antisymm : ∀ d e : LuaInteger,
    Ptimercmp O H (.table x.table) (.table y.table) = .ok (.integer d) →
    Ptimercmp O H (.table y.table) (.table x.table) = .ok (.integer e) →
    InRange (x.sec.toInt - y.sec.toInt) → InRange (y.sec.toInt - x.sec.toInt) →
      e.toInt.sign = -d.toInt.sign
  trans : ∀ d e f : LuaInteger,
    Ptimercmp O H (.table x.table) (.table y.table) = .ok (.integer d) →
    Ptimercmp O H (.table y.table) (.table z.table) = .ok (.integer e) →
    Ptimercmp O H (.table x.table) (.table z.table) = .ok (.integer f) →
    InRange (x.sec.toInt - y.sec.toInt) → InRange (y.sec.toInt - z.sec.toInt) →
    InRange (x.sec.toInt - z.sec.toInt) → d.toInt ≤ 0 → e.toInt ≤ 0 →
      f.toInt ≤ 0 ∧ (f.toInt = 0 → d.toInt = 0 ∧ e.toInt = 0)
  inverse : SubUndoesAdd N O L x y

/-- **`timersub` and `timercmp` keep the laws of differences and their order**, whatever the styles
of the timevals. -/
theorem laws {x y z : Timeval H} (hx : x.Unmixed) (hy : y.Unmixed) (hz : z.Unmixed) :
    Laws N O L x y z where
  normalised := by
    obtain ⟨k, u, -, hle, hlt, hreturns, -⟩ :=
      exists_exactDifference_iff (N := N) (O := O) (L := L) x y
    exact ⟨_, _, u, hreturns, hasFields_timeval, hle, hlt⟩
  exact := exactDifference_iff x y
  compares := compares_iff hx hy
  antisymm d e hd he hxy hyx := by
    rw [((compares_iff hx hy).mpr hxy).sign_eq O hd, ((compares_iff hy hx).mpr hyx).sign_eq O he,
      ← Int.sign_neg, neg_sub]
  trans d e f hd he hf hxy hyz hxz hled hlee := by
    have hdsign := sign_eq_sign_iff.mp (((compares_iff hx hy).mpr hxy).sign_eq O hd)
    have hesign := sign_eq_sign_iff.mp (((compares_iff hy hz).mpr hyz).sign_eq O he)
    have hfsign := sign_eq_sign_iff.mp (((compares_iff hx hz).mpr hxz).sign_eq O hf)
    omega
  inverse := subUndoesAdd N O L x y

end Exactness

/-! ## Two timevals -/

section Two

variable (sec usec sec' usec' : LuaInteger)

/-- Two legacy timevals. -/
def two : Heap :=
  (timeval Heap.newestFirst (timeval Heap.newestFirst .empty (.integer sec, .integer usec)).2
    (.integer sec', .integer usec')).2

variable {sec usec sec' usec'}

/-- The first of two tables as a time. -/
def two.first (h : 0 ≤ usec.toInt) (h' : usec.toInt < 1000000) :
    Timeval (two sec usec sec' usec') :=
  { (result Heap.newestFirst .empty sec usec).after Heap.newestFirst _ with
    usec_nonneg := h
    usec_lt := h' }

/-- The second one. -/
def two.second (h : 0 ≤ usec'.toInt) (h' : usec'.toInt < 1000000) :
    Timeval (two sec usec sec' usec') :=
  { result Heap.newestFirst _ sec' usec' with
    usec_nonneg := h
    usec_lt := h' }

end Two

/-- Twice half a second. -/
def halves : Heap := two 0 500000 0 500000

/-- Half a second. -/
def half : Timeval halves := two.first (by decide) (by decide)

/-- Another half. -/
def otherHalf : Timeval halves := two.second (by decide) (by decide)

/-- Half a second and half a second are no seconds and a million microseconds. -/
theorem timeradd_halves : ¬ExactSum .zero .integers Heap.newestFirst half otherHalf ∧
    ∃ r, Returns (fun n => Ptimeradd .zero .integers Heap.newestFirst halves n
      (.table half.table) (.table otherHalf.table)) r ∧ HasFields r 0 1000000 := by
  constructor
  · obtain ⟨k, u, hu, -, hk, hexact⟩ := exists_exactSum_iff (N := .zero) (O := .integers)
      (L := Heap.newestFirst) half otherHalf
    have hu' : u.toInt = 500000 + 500000 - k * 1000000 := hu
    rw [hexact]
    omega
  · exact ⟨_, ⟨0, fun n hn => by
      obtain ⟨m, rfl⟩ := Nat.exists_eq_add_one.mpr hn
      rfl⟩, by decide, by decide⟩

/-- The last second, and the one before the first. -/
def extremes : Heap := two 0x7fffffffffffffff 0 (-1) 0

/-- The last second that a Lua integer counts. -/
def lastSecond : Timeval extremes := two.first (by decide) (by decide)

/-- A time before the epoch. -/
def beforeEpoch : Timeval extremes := two.second (by decide) (by decide)

/-- Their difference wraps around, and so the last second comes before the epoch. -/
theorem extremes_wrap :
    ¬ExactDifference .zero .integers Heap.newestFirst lastSecond beforeEpoch ∧
    ¬Compares .integers lastSecond beforeEpoch ∧
    Ptimercmp .integers extremes (.table lastSecond.table) (.table beforeEpoch.table)
      = .ok (.integer 0x8000000000000000) := by
  have hlast : lastSecond.sec.toInt = 2 ^ 63 - 1 := rfl
  have hbefore : beforeEpoch.sec.toInt = -1 := rfl
  refine ⟨?_, ?_, rfl⟩
  · have husec : lastSecond.usec.toInt = 0 := by decide
    have husec' : beforeEpoch.usec.toInt = 0 := by decide
    rw [exactDifference_iff, Timeval.total, Timeval.total, hlast, hbefore, husec, husec', InRange]
    omega
  · rw [compares_iff (fun h => Style.noConfusion h) (fun h => Style.noConfusion h), hlast, hbefore,
      InRange]
    omega

/-- The laws hold of the two halves. -/
theorem laws_halves : Laws .zero .integers Heap.newestFirst half otherHalf half :=
  laws _ _ _ (fun h => Style.noConfusion h) (fun h => Style.noConfusion h)
    fun h => Style.noConfusion h

end LuaPosix.Timers

import LuaPosix.Lua.Expressions
import LuaPosix.Posix.Time
import Mathlib.Data.BitVec

/-! # Legacy times

`posix.deprecated` has names of its own for the fields of a broken-down time, counts months from
one and years from zero, and has a boolean for daylight saving time, or nothing. Times keep their
fields on the way to that form and back. -/

namespace LuaPosix.Time

open LuaPattern (LStr)
open Traversal (Layout)

/-! ## Conversions -/

section Conversions

variable (O : Operators) (H : Heap)

/-- The fields of the table that `PosixTm(legacytm)` makes. -/
def posixFields (legacytm : LuaValue) : CallM (List (String × LuaValue)) := do
  let sec ← H.getfield legacytm "sec"
  let min ← H.getfield legacytm "min"
  let hour ← H.getfield legacytm "hour"
  let monthday ← H.getfield legacytm "monthday"
  let day ← H.getfield legacytm "day"
  let month ← H.getfield legacytm "month"
  let tm_mon ← O.add month (.integer (-1))
  let year ← H.getfield legacytm "year"
  let tm_year ← O.add year (.integer (-1900))
  let weekday ← H.getfield legacytm "weekday"
  let yearday ← H.getfield legacytm "yearday"
  let is_dst ← H.getfield legacytm "is_dst"
  let given := LuaValue.boolean (is_dst ≠ .nil)
  let gmtoff ← H.getfield legacytm "gmtoff"
  let zone ← H.getfield legacytm "zone"
  return [
    ("tm_sec", sec),
    ("tm_min", min),
    ("tm_hour", hour),
    -- `monthday` takes precedence.
    ("tm_mday", monthday.or day),
    ("tm_mon", tm_mon),
    ("tm_year", tm_year),
    ("tm_wday", weekday),
    ("tm_yday", yearday),
    -- True is 1, false is 0 and nil is -1.
    ("tm_isdst", (is_dst.and (.integer 1)).or ((given.and (.integer 0)).or (.integer (-1)))),
    ("tm_gmtoff", gmtoff),
    ("tm_zone", zone)]

/-- `tm_isdst > 0 or (tm_isdst < 0 and nil)`. -/
def isDst (tm_isdst : LuaValue) : CallM LuaValue := do
  -- Not known is nil: `true and nil`; not in effect is false: `false and nil`.
  if ← O.lt (.integer 0) tm_isdst then return .boolean true
  else do
    let unknown ← O.lt tm_isdst (.integer 0)
    return (LuaValue.boolean unknown).and .nil

/-- The fields of the table that `LegacyTm(posixtm)` makes. -/
def legacyFields (posixtm : LuaValue) : CallM (List (String × LuaValue)) := do
  let tm_sec ← H.getfield posixtm "tm_sec"
  let tm_min ← H.getfield posixtm "tm_min"
  let tm_hour ← H.getfield posixtm "tm_hour"
  let tm_mday ← H.getfield posixtm "tm_mday"
  let tm_mon ← H.getfield posixtm "tm_mon"
  let month ← O.add tm_mon (.integer 1)
  let tm_year ← H.getfield posixtm "tm_year"
  let year ← O.add tm_year (.integer 1900)
  let tm_wday ← H.getfield posixtm "tm_wday"
  let tm_yday ← H.getfield posixtm "tm_yday"
  let tm_isdst ← H.getfield posixtm "tm_isdst"
  let is_dst ← isDst O tm_isdst
  let tm_gmtoff ← H.getfield posixtm "tm_gmtoff"
  let tm_zone ← H.getfield posixtm "tm_zone"
  return [
    ("sec", tm_sec),
    ("min", tm_min),
    ("hour", tm_hour),
    ("monthday", tm_mday),
    ("day", tm_mday),
    ("month", month),
    ("year", year),
    ("weekday", tm_wday),
    ("yearday", tm_yday),
    ("is_dst", is_dst),
    ("gmtoff", tm_gmtoff),
    ("zone", tm_zone)]

variable (L : Layout fun _ : LuaValue => LuaValue) {σ κ : Type}

/-- `PosixTm(legacytm)`. -/
def PosixTm (legacytm : LuaValue) : BindingM σ κ LuaValue := do
  let fields ← BindingM.read fun H => posixFields O H legacytm
  BindingM.construct L fields

/-- `LegacyTm(posixtm)`. -/
def LegacyTm (posixtm : LuaValue) : BindingM σ κ LuaValue := do
  let fields ← BindingM.read fun H => legacyFields O H posixtm
  BindingM.construct L fields

end Conversions

/-! ## The functions of `posix.deprecated` -/

namespace Legacy

variable {σ : Type} (O : Operators) (S : System σ) (args : List LuaValue)
  (L : Layout fun _ : LuaValue => LuaValue)

/-- `epoch or time()`. -/
def epochOrTime (epoch : LuaValue) : BindingM σ Call LuaValue := do
  if epoch.truthy then return epoch else return first (← Ptime S [])

/-- `gmtime(epoch)` and `localtime(epoch)`, by the function of `posix.time`. -/
def brokenDown (f : List LuaValue → BindingM σ Call (List LuaValue)) :
    BindingM σ Call (List LuaValue) := do
  let epoch ← epochOrTime S (first args)
  let legacytm ← LegacyTm O L (first (← f [epoch]))
  return [legacytm]

/-- `gmtime(epoch)`. -/
def gmtime : BindingM σ Call (List LuaValue) := brokenDown O S args L fun args => Pgmtime S args L

/-- `localtime(epoch)`. -/
def localtime : BindingM σ Call (List LuaValue) :=
  brokenDown O S args L fun args => Plocaltime S args L

/-- `legacytm and PosixTm(legacytm) or localtime(time())`. -/
def posixOrLocal (legacytm : LuaValue) : BindingM σ Call LuaValue := do
  if legacytm.truthy then PosixTm O L legacytm
  else return first (← Plocaltime S (← Ptime S []) L)

/-- `mktime(legacytm)`. -/
def mktime : BindingM σ Call (List LuaValue) := do
  let posixtm ← posixOrLocal O S L (first args)
  Pmktime S [posixtm]

/-- `strftime(fmt, legacytm)`. -/
def strftime : BindingM σ Call (List LuaValue) := do
  let posixtm ← posixOrLocal O S L (first args.tail)
  Pstrftime S [first args, posixtm]

end Legacy

/-! ## What the conversions make of the fields -/

/-- The fields of a legacy time, from those of a broken-down time. -/
def legacyList (get : String → LuaValue) (month year : LuaInteger) (is_dst : LuaValue) :
    List (String × LuaValue) :=
  [("sec", get "tm_sec"), ("min", get "tm_min"), ("hour", get "tm_hour"),
    ("monthday", get "tm_mday"), ("day", get "tm_mday"), ("month", .integer month),
    ("year", .integer year), ("weekday", get "tm_wday"), ("yearday", get "tm_yday"),
    ("is_dst", is_dst), ("gmtoff", get "tm_gmtoff"), ("zone", get "tm_zone")]

/-- The fields of a broken-down time, from those of a legacy time. -/
def posixList (get : String → LuaValue) (mon year isdst : LuaInteger) :
    List (String × LuaValue) :=
  [("tm_sec", get "sec"), ("tm_min", get "min"), ("tm_hour", get "hour"),
    ("tm_mday", (get "monthday").or (get "day")), ("tm_mon", .integer mon),
    ("tm_year", .integer year), ("tm_wday", get "weekday"), ("tm_yday", get "yearday"),
    ("tm_isdst", .integer isdst), ("tm_gmtoff", get "gmtoff"), ("tm_zone", get "zone")]

/-- The three states of daylight saving time: in effect, not in effect, not known. -/
inductive Daylight where
  | inEffect
  | notInEffect
  | unknown
  deriving DecidableEq, Repr

/-- As `tm_isdst`. -/
def Daylight.tm_isdst : Daylight → LuaInteger
  | .inEffect => 1
  | .notInEffect => 0
  | .unknown => -1

/-- As `is_dst`. -/
def Daylight.is_dst : Daylight → LuaValue
  | .inEffect => .boolean true
  | .notInEffect => .boolean false
  | .unknown => .nil

/-- A flag for daylight saving time comes back as a boolean or nil. -/
theorem isDst_tm_isdst (O : Operators) (d : Daylight) :
    isDst O (.integer d.tm_isdst) = .ok d.is_dst := by
  cases d <;> rfl

section Fields

variable {O : Operators} {H : Heap} {p : Nat} {mon year : LuaInteger}

/-- The legacy fields of a table with an integer month and year. -/
theorem legacyFields_table {d : Daylight}
    (hmon : H.get p (Heap.fieldName "tm_mon") = .integer mon)
    (hyear : H.get p (Heap.fieldName "tm_year") = .integer year)
    (hdst : H.get p (Heap.fieldName "tm_isdst") = .integer d.tm_isdst) :
    legacyFields O H (.table p) = .ok (legacyList (fun k => H.get p (Heap.fieldName k)) (mon + 1)
      (year + 1900) d.is_dst) := by
  simp only [legacyFields, Heap.getfield, CallM.ok_bind, hmon, hyear, hdst,
    Operators.add_integer, isDst_tm_isdst]
  rfl

/-- The fields for the C library, of a legacy table with an integer month and year. -/
theorem posixFields_table {d : Daylight}
    (hmonth : H.get p (Heap.fieldName "month") = .integer mon)
    (hyear : H.get p (Heap.fieldName "year") = .integer year)
    (hdst : H.get p (Heap.fieldName "is_dst") = d.is_dst) :
    posixFields O H (.table p) = .ok (posixList (fun k => H.get p (Heap.fieldName k)) (mon + -1)
      (year + -1900) d.tm_isdst) := by
  simp only [posixFields, Heap.getfield, CallM.ok_bind, hmonth, hyear, hdst,
    Operators.add_integer]
  cases d <;> rfl

end Fields

/-- The names of the legacy fields are different. -/
theorem nodup_legacyList (get : String → LuaValue) (month year : LuaInteger)
    (is_dst : LuaValue) : ((legacyList get month year is_dst).map Prod.fst).Nodup := by
  show ["sec", "min", "hour", "monthday", "day", "month", "year", "weekday", "yearday", "is_dst",
    "gmtoff", "zone"].Nodup
  decide

/-- So are those of the others. -/
theorem nodup_posixList (get : String → LuaValue) (mon year isdst : LuaInteger) :
    ((posixList get mon year isdst).map Prod.fst).Nodup := by
  show Stm_fields.Nodup
  decide

/-! ## From a broken-down time and back -/

/-- The daylight flag is one of the three that have a meaning. -/
def Tm.Meant (t : Tm) : Prop := t.tm_isdst = 1 ∨ t.tm_isdst = 0 ∨ t.tm_isdst = -1

/-- A flag that means something is one of three. -/
theorem Tm.Meant.exists_daylight {t : Tm} (h : t.Meant) :
    ∃ d : Daylight, t.tm_isdst.signExtend 64 = d.tm_isdst := by
  rcases h with h | h | h
  · exact ⟨.inEffect, by rw [h]; rfl⟩
  · exact ⟨.notInEffect, by rw [h]; rfl⟩
  · exact ⟨.unknown, by rw [h]; rfl⟩

/-- The fields of the legacy form of a time. -/
def Tm.legacy (t : Tm) (d : Daylight) : List (String × LuaValue) :=
  legacyList (Heap.fieldOf t.fields) (t.tm_mon.signExtend 64 + 1)
    (t.tm_year.signExtend 64 + 1900) d.is_dst

section There

variable {O : Operators} {H : Heap} {p : Nat} {t : Tm} {d : Daylight}

/-- `LegacyTm` of a table that shows a time. -/
theorem legacyFields_of_shows (h : Shows H p t) (hd : t.tm_isdst.signExtend 64 = d.tm_isdst) :
    legacyFields O H (.table p) = .ok (t.legacy d) := by
  have hint := h.integers
  simp only [Tm.integerFields, Heap.pushintegerfield, List.forall_mem_append,
    List.forall_mem_singleton] at hint
  obtain ⟨⟨⟨⟨⟨⟨⟨⟨⟨-, -⟩, -⟩, -⟩, mon⟩, year⟩, -⟩, -⟩, isdst⟩, -⟩ := hint
  rw [hd] at isdst
  have hget : (fun k => H.get p (Heap.fieldName k)) = Heap.fieldOf t.fields := funext h.fields
  rw [legacyFields_table mon year isdst, hget, Tm.legacy]

/-- All fields of a time, the zone nil for NULL. -/
def Tm.allFields (t : Tm) : List (String × LuaValue) := t.integerFields ++ [("tm_zone", t.zone)]

/-- The fields that are there are those of the struct. -/
theorem Tm.present_allFields (t : Tm) : Heap.present t.allFields = t.fields := by
  rw [Tm.allFields, Tm.fields, Tm.zone]
  cases t.tm_zone with
  | none => rfl
  | some z => exact congrArg (fun s => t.integerFields ++ [("tm_zone", .string s)]) z.2.symm

/-- `PosixTm` of the legacy form of a time. -/
theorem posixFields_of_legacy (hd : t.tm_isdst.signExtend 64 = d.tm_isdst)
    (h : ∀ f ∈ t.legacy d, H.get p (Heap.fieldName f.1) = f.2) :
    posixFields O H (.table p) = .ok t.allFields := by
  have hint : ∀ f ∈ t.integerFields, Heap.fieldOf t.fields f.1 = f.2 := fun f hf =>
    Heap.fieldOf_of_mem t.nodup_fields (List.mem_append_left _ hf)
  simp only [Tm.integerFields, Heap.pushintegerfield, List.forall_mem_append,
    List.forall_mem_singleton] at hint
  obtain ⟨⟨⟨⟨⟨⟨⟨⟨⟨tsec, tmin⟩, thour⟩, tmday⟩, tmon⟩, tyear⟩, twday⟩, tyday⟩, tisdst⟩, toff⟩ := hint
  simp only [Tm.legacy, legacyList, List.forall_mem_cons] at h
  obtain ⟨sec, min, hour, monthday, day, month, year, wday, yday, isdst, off, zone, -⟩ := h
  -- `monthday` is an integer, and so true: it is the day that is taken.
  rw [posixFields_table month year isdst, posixList, sec, min, hour, monthday, wday, yday, off,
    zone, tsec, tmin, thour, tmday, twday, tyday, toff, t.fieldOf_zone, add_neg_cancel_right,
    add_neg_cancel_right, ← hd]
  rfl

end There

section Trips

variable {σ κ : Type} (O : Operators) (L : Layout fun _ : LuaValue => LuaValue) (N : Numerals)

/-- `LegacyTm` makes one table of its fields. -/
theorem run_LegacyTm {w : World σ κ} {posixtm : LuaValue} {fields : List (String × LuaValue)}
    (h : legacyFields O w.heap posixtm = .ok fields) :
    (LegacyTm O L posixtm : BindingM σ κ LuaValue).run w
      = .ok (.table w.heap.size) { w with heap := (w.heap.construct L fields).2 } := by
  rw [LegacyTm, EStateM.run_bind, BindingM.run_read, h]
  rfl

/-- So does `PosixTm`. -/
theorem run_PosixTm {w : World σ κ} {legacytm : LuaValue} {fields : List (String × LuaValue)}
    (h : posixFields O w.heap legacytm = .ok fields) :
    (PosixTm O L legacytm : BindingM σ κ LuaValue).run w
      = .ok (.table w.heap.size) { w with heap := (w.heap.construct L fields).2 } := by
  rw [PosixTm, EStateM.run_bind, BindingM.run_read, h]
  rfl

variable {O L N} {t : Tm} {d : Daylight} {w : World σ κ}

/-- A table has the fields of the legacy form of a time. -/
structure ShowsLegacy (H : Heap) (l : Nat) (t : Tm) (d : Daylight) : Prop where
  daylight : t.tm_isdst.signExtend 64 = d.tm_isdst
  fields : ∀ f ∈ t.legacy d, H.get l (Heap.fieldName f.1) = f.2

/-- A table of the legacy fields shows them. -/
theorem showsLegacy_construct (H : Heap) (hd : t.tm_isdst.signExtend 64 = d.tm_isdst) :
    ShowsLegacy (H.construct L (t.legacy d)).2 H.size t d :=
  ⟨hd, Heap.forall_get_construct (nodup_legacyList _ _ _ _)⟩

/-- A table of the struct's fields shows them. -/
theorem shows_construct (H : Heap) : Shows (H.construct L t.allFields).2 H.size t := by
  rw [Heap.construct, t.present_allFields]
  exact shows_newtable L H t

/-- `LegacyTm` makes the legacy form of a time. -/
theorem run_LegacyTm_shows {p : Nat} (h : Shows w.heap p t)
    (hd : t.tm_isdst.signExtend 64 = d.tm_isdst) :
    ∃ l w', (LegacyTm O L (.table p) : BindingM σ κ LuaValue).run w = .ok (.table l) w' ∧
      ShowsLegacy w'.heap l t d ∧ w'.calls = w.calls := by
  have hrun := run_LegacyTm O L (legacyFields_of_shows (O := O) h hd)
  refine ⟨_, _, hrun, ?_, rfl⟩
  dsimp only
  exact showsLegacy_construct w.heap hd

/-- `PosixTm` makes the broken-down time of a legacy form. -/
theorem run_PosixTm_shows {l : Nat} (h : ShowsLegacy w.heap l t d) :
    ∃ p w', (PosixTm O L (.table l) : BindingM σ κ LuaValue).run w = .ok (.table p) w' ∧
      Shows w'.heap p t ∧ w'.calls = w.calls := by
  have hrun := run_PosixTm O L (posixFields_of_legacy (O := O) h.daylight h.fields)
  refine ⟨_, _, hrun, ?_, rfl⟩
  dsimp only
  exact shows_construct w.heap

variable (O L N)

/-- A time through the four conversions. -/
def roundTrip (t : Tm) : BindingM σ κ Tm := do
  let posixtm ← pushtm L t
  let legacytm ← LegacyTm O L posixtm
  let posixtm' ← PosixTm O L legacytm
  BindingM.read (totm N [posixtm'] 1)

/-- **A broken-down time comes back** from its legacy form. -/
theorem run_roundTrip (ht : t.Meant) (hoff : t.OffsetFits) (w : World σ κ) :
    ∃ w', (roundTrip O L N t : BindingM σ κ Tm).run w = .ok t w' := by
  obtain ⟨d, hd⟩ := ht.exists_daylight
  obtain ⟨p, w₁, hpush, hp, -⟩ := run_pushtm L t w
  obtain ⟨l, w₂, hlegacy, hl, -⟩ := run_LegacyTm_shows (O := O) (L := L) hp hd
  obtain ⟨p', w₃, hposix, hp', -⟩ := run_PosixTm_shows (O := O) (L := L) hl
  refine ⟨w₃, ?_⟩
  have hread : totm N [.table p'] 1 w₃.heap = .ok t := totm_of_shows rfl hp' hoff
  rw [roundTrip, BindingM.run_bind_of_ok hpush, BindingM.run_bind_of_ok hlegacy,
    BindingM.run_bind_of_ok hposix, BindingM.run_read, hread, BindingM.run_lift_ok]

/-- A legacy table has the fields of another, except that the day has one value under both of its
names: that of `monthday`, or of `day` where there is none. -/
structure SameLegacy (H : Heap) (l : Nat) (H' : Heap) (l' : Nat) : Prop where
  fields : ∀ k ∈ ["sec", "min", "hour", "month", "year", "weekday", "yearday", "is_dst", "gmtoff",
    "zone"], H'.get l' (Heap.fieldName k) = H.get l (Heap.fieldName k)
  days : ∀ k ∈ ["monthday", "day"], H'.get l' (Heap.fieldName k)
    = (H.get l (Heap.fieldName "monthday")).or (H.get l (Heap.fieldName "day"))

variable {O L}

/-- The fields of what a conversion makes. -/
theorem exists_run_construct {f : LuaValue → BindingM σ κ LuaValue} {v : LuaValue}
    {fields : List (String × LuaValue)} (hnodup : (fields.map Prod.fst).Nodup)
    (h : (f v).run w
      = .ok (.table w.heap.size) { w with heap := (w.heap.construct L fields).2 }) :
    ∃ p w', (f v).run w = .ok (.table p) w' ∧
      ∀ f ∈ fields, w'.heap.get p (Heap.fieldName f.1) = f.2 := by
  refine ⟨_, _, h, ?_⟩
  dsimp only
  exact Heap.forall_get_construct hnodup

variable (O L)

/-- **A legacy table comes back** from its broken-down time. -/
theorem run_PosixTm_LegacyTm {l : Nat} {month year : LuaInteger}
    (hmonth : w.heap.get l (Heap.fieldName "month") = .integer month)
    (hyear : w.heap.get l (Heap.fieldName "year") = .integer year)
    (hdst : w.heap.get l (Heap.fieldName "is_dst") = d.is_dst) :
    ∃ l' w', (do let posixtm ← PosixTm O L (.table l)
                 LegacyTm O L posixtm : BindingM σ κ LuaValue).run w = .ok (.table l') w' ∧
      SameLegacy w.heap l w'.heap l' := by
  obtain ⟨p, w₁, hposix, hp⟩ := exists_run_construct (nodup_posixList _ _ _ _)
    (run_PosixTm O L (posixFields_table (O := O) hmonth hyear hdst))
  simp only [posixList, List.forall_mem_cons] at hp
  obtain ⟨sec, min, hour, mday, mon, year', wday, yday, isdst, gmtoff, zone, -⟩ := hp
  obtain ⟨l', w₂, hlegacy, hl⟩ := exists_run_construct (nodup_legacyList _ _ _ _)
    (run_LegacyTm O L (legacyFields_table (O := O) mon year' isdst))
  -- Months and years have been shifted there and back.
  simp only [legacyList, List.forall_mem_cons, neg_add_cancel_right] at hl
  obtain ⟨sec', min', hour', monthday', day', month', year'', weekday', yearday', is_dst', gmtoff',
    zone', -⟩ := hl
  refine ⟨l', w₂, ?_, ?_, ?_⟩
  · simp only [EStateM.run_bind, hposix, hlegacy]
  · simp only [List.forall_mem_cons]
    exact ⟨sec'.trans sec, min'.trans min, hour'.trans hour, month'.trans hmonth.symm,
      year''.trans hyear.symm, weekday'.trans wday, yearday'.trans yday, is_dst'.trans hdst.symm,
      gmtoff'.trans gmtoff, zone'.trans zone, fun k hk => absurd hk List.not_mem_nil⟩
  · simp only [List.forall_mem_cons]
    exact ⟨monthday'.trans mday, day'.trans mday, fun k hk => absurd hk List.not_mem_nil⟩

end Trips

/-! ## What C is given -/

namespace Legacy

/-- The functions of `posix.deprecated` that return a time. -/
inductive Clock where
  | gmtime
  | localtime
  deriving DecidableEq, Repr

variable {σ : Type} (O : Operators) (S : System σ) (args : List LuaValue)
  (L : Layout fun _ : LuaValue => LuaValue)

/-- The legacy function. -/
def Clock.run : Clock → BindingM σ Call (List LuaValue)
  | .gmtime => Legacy.gmtime O S args L
  | .localtime => Legacy.localtime O S args L

/-- What the C library answers. -/
def Clock.answer : Clock → BitVec 64 → σ → BrokenDown × σ
  | .gmtime => S.gmtime_r
  | .localtime => S.localtime_r

variable {O S args L} {w w₀ w₁ : World σ Call} {e : LuaValue} {epoch : BitVec 64} {t : Tm}
  {errno : Int} {d : Daylight}

/-- A legacy function returns the legacy form of what the other one returns. -/
theorem run_brokenDown {f : List LuaValue → BindingM σ Call (List LuaValue)} {p : Nat}
    (hepoch : (epochOrTime S (first args)).run w = .ok e w₀)
    (hf : (f [e]).run w₀ = .ok [.table p] w₁) (hp : Shows w₁.heap p t)
    (hd : t.tm_isdst.signExtend 64 = d.tm_isdst) :
    ∃ l w', (brokenDown O S args L f).run w = .ok [.table l] w' ∧
      ShowsLegacy w'.heap l t d := by
  obtain ⟨l, w', hlegacy, hl, -⟩ := run_LegacyTm_shows (O := O) (L := L) hp hd
  refine ⟨l, w', ?_, hl⟩
  simp only [brokenDown, EStateM.run_bind, hepoch, hf, first_cons, hlegacy, BindingM.run_pure]

/-- What a clock returns is the legacy form of the time. -/
theorem run_clock (clock : Clock) (hepoch : (epochOrTime S (first args)).run w = .ok e w₀)
    (hint : checkinteger S.num.strtod [e] 1 = .ok epoch)
    (hfilled : (clock.answer S epoch w₀.sys).1 = .filled t errno)
    (hd : t.tm_isdst.signExtend 64 = d.tm_isdst) :
    ∃ l w', (clock.run O S args L).run w = .ok [.table l] w' ∧ ShowsLegacy w'.heap l t d := by
  cases clock with
  | gmtime =>
      obtain ⟨p, w₁, hbroken, hp, -⟩ := Time.run_brokenDown (L := L) "gmtime" .gmtime_r
        hint rfl hfilled
      exact run_brokenDown (f := fun args => Pgmtime S args L) hepoch hbroken hp hd
  | localtime =>
      obtain ⟨p, w₁, hbroken, hp, -⟩ := Time.run_brokenDown (L := L) "localtime" .localtime_r
        hint rfl hfilled
      exact run_brokenDown (f := fun args => Plocaltime S args L) hepoch hbroken hp hd

/-- What `mktime` and `strftime` make of a legacy form. -/
theorem run_posixOrLocal {l : Nat} (hl : ShowsLegacy w.heap l t d) :
    ∃ p w', (posixOrLocal O S L (.table l)).run w = .ok (.table p) w' ∧ Shows w'.heap p t ∧
      w'.calls = w.calls := run_PosixTm_shows hl

/-- **Legacy `mktime` hands C the time of a legacy form.** -/
theorem made_mktime {l : Nat} (hl : ShowsLegacy w.heap l t d) (hoff : t.OffsetFits) :
    BindingM.made w (mktime O S [.table l] L) = [.mktime t] := by
  obtain ⟨p, w', hposix, hp, hcalls⟩ := run_posixOrLocal (O := O) (S := S) (L := L) hl
  have hread : totm S.num [.table p] 1 w'.heap = .ok t := totm_of_shows rfl hp hoff
  have hnargs : checknargs [.table p] 1 = .ok () := rfl
  refine BindingM.made_eq ?_
  simp only [mktime, first_cons, EStateM.run_bind, hposix, Pmktime, hnargs, BindingM.run_lua_ok,
    BindingM.run_read, hread, BindingM.run_lift_ok, BindingM.run_syscall]
  split_ifs <;> rw [← hcalls] <;> rfl

/-- **So does legacy `strftime`.** -/
theorem made_strftime {l : Nat} (fmt : LStr) (hl : ShowsLegacy w.heap l t d)
    (hoff : t.OffsetFits) :
    BindingM.made w (strftime O S [.string fmt, .table l] L) = [.strftime (cstring fmt) t] := by
  obtain ⟨p, w', hposix, hp, hcalls⟩ := run_posixOrLocal (O := O) (S := S) (L := L) hl
  have hread : totm S.num [.string fmt, .table p] 2 w'.heap = .ok t := totm_of_shows rfl hp hoff
  have hnargs : checknargs [.string fmt, .table p] 2 = .ok () := rfl
  have hfmt : checklstring [.string fmt, .table p] S.num.numberText 1 = .ok fmt := rfl
  refine BindingM.made_eq ?_
  simp only [strftime, first_cons, List.tail_cons, EStateM.run_bind, hposix, Pstrftime, hnargs,
    hfmt, BindingM.run_lua_ok, BindingM.run_read, hread, BindingM.run_lift_ok,
    BindingM.run_libcall]
  rw [pushbuffer]
  split_ifs <;> rw [← hcalls] <;> rfl

end Legacy

/-- **Broken-down times survive the legacy form**: there and back, and back and there, and C is
handed by `mktime` and `strftime` the time that `gmtime` and `localtime` were given. -/
theorem times_survive {σ : Type} (O : Operators) (S : System σ)
    (L : Layout fun _ : LuaValue => LuaValue) :
    (∀ (t : Tm) (w : World σ Call), t.Meant → t.OffsetFits →
      ∃ w', (roundTrip O L S.num t).run w = .ok t w') ∧
    (∀ (w : World σ Call) (l : Nat) (month year : LuaInteger) (d : Daylight),
      w.heap.get l (Heap.fieldName "month") = .integer month →
      w.heap.get l (Heap.fieldName "year") = .integer year →
      w.heap.get l (Heap.fieldName "is_dst") = d.is_dst →
      ∃ l' w', (do let posixtm ← PosixTm O L (.table l)
                   LegacyTm O L posixtm : BindingM σ Call LuaValue).run w = .ok (.table l') w' ∧
        SameLegacy w.heap l w'.heap l') ∧
    ∀ (clock : Legacy.Clock) (args : List LuaValue) (w w₀ : World σ Call) (e : LuaValue)
      (epoch : BitVec 64) (t : Tm) (errno : Int),
      (Legacy.epochOrTime S (first args)).run w = .ok e w₀ →
      checkinteger S.num.strtod [e] 1 = .ok epoch →
      (clock.answer S epoch w₀.sys).1 = .filled t errno → t.Meant → t.OffsetFits →
      ∃ l w₁, (clock.run O S args L).run w = .ok [.table l] w₁ ∧
        ∀ w₂ : World σ Call, w₂.heap = w₁.heap →
          BindingM.made w₂ (Legacy.mktime O S [.table l] L) = [.mktime t] ∧
          ∀ fmt, BindingM.made w₂ (Legacy.strftime O S [.string fmt, .table l] L)
            = [.strftime (cstring fmt) t] := by
  refine ⟨fun t w ht hoff => run_roundTrip O L S.num ht hoff w,
    fun w l month year d hmonth hyear hdst => run_PosixTm_LegacyTm O L hmonth hyear hdst, ?_⟩
  intro clock args w w₀ e epoch t errno hepoch hint hfilled ht hoff
  obtain ⟨d, hd⟩ := ht.exists_daylight
  obtain ⟨l, w₁, hrun, hl⟩ := Legacy.run_clock (O := O) (L := L) clock hepoch hint hfilled hd
  refine ⟨l, w₁, hrun, fun w₂ hheap => ?_⟩
  -- The table may be used in any later world that still has it.
  rw [← hheap] at hl
  exact ⟨Legacy.made_mktime hl hoff, fun fmt => Legacy.made_strftime fmt hl hoff⟩

/-- The world with the legacy table `{ month = 1, year = 2000, day = 1 }`. -/
def januaryFirst : World Unit Call where
  errno := 0
  heap := (Heap.empty.newtable Heap.newestFirst
    [("month", .integer 1), ("year", .integer 2000), ("day", .integer 1)]).2
  sys := ()
  calls := []

/-- New Year's Day goes through all conversions. -/
theorem times_survive_newYear :
    (∃ w', (roundTrip .integers Heap.newestFirst .zero newYear).run januaryFirst
      = .ok newYear w') ∧
    (∃ l' w', (do let posixtm ← PosixTm .integers Heap.newestFirst (.table 0)
                  LegacyTm .integers Heap.newestFirst posixtm : BindingM Unit Call LuaValue).run
        januaryFirst = .ok (.table l') w' ∧ SameLegacy januaryFirst.heap 0 w'.heap l') ∧
    ∃ l w₁, (Legacy.Clock.gmtime.run .integers System.newYear [] Heap.newestFirst).run januaryFirst
      = .ok [.table l] w₁ ∧ ∀ w₂ : World Unit Call, w₂.heap = w₁.heap →
        BindingM.made w₂ (Legacy.mktime .integers System.newYear [.table l] Heap.newestFirst)
          = [.mktime newYear] ∧
        ∀ fmt, BindingM.made w₂
          (Legacy.strftime .integers System.newYear [.string fmt, .table l] Heap.newestFirst)
            = [.strftime (cstring fmt) newYear] :=
  have h := times_survive .integers System.newYear Heap.newestFirst
  ⟨h.1 newYear januaryFirst (.inr (.inl rfl)) (by decide),
    h.2.1 januaryFirst 0 1 2000 .unknown rfl rfl rfl,
    h.2.2 .gmtime [] januaryFirst _ _ _ newYear 0 rfl rfl rfl (.inr (.inl rfl)) (by decide)⟩

end LuaPosix.Time

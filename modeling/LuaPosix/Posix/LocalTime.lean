import LuaPosix.Posix.Time

/-! # `mktime` after `localtime`

`mktime(3)` returns -1 where it fails. `mktime` takes every negative number for that, and so knows
no time before the epoch. -/

namespace LuaPosix.Time

open Traversal (Layout)

section Inverse

variable {σ : Type} (S : System σ) (L : Layout fun _ : LuaValue => LuaValue)

/-- `mktime(localtime(t))`. -/
def mktimeLocaltime (t : LuaInteger) : BindingM σ Call (List LuaValue) := do
  let results ← Plocaltime S [.integer t] L
  Pmktime S results

variable {S L} {w : World σ Call} {t : LuaInteger} {tm : Tm} {e e' : Int}

/-- `mktime` of a table that shows a time. -/
theorem run_Pmktime {p : Nat} (hp : Shows w.heap p tm) (hoff : tm.OffsetFits)
    (hmktime : (S.mktime tm w.sys).1 = .returned t e') : ∃ w',
      (Pmktime S [.table p]).run w = .ok (if t.toInt < 0 then [] else [.integer t]) w' := by
  have hnargs : checknargs [.table p] 1 = .ok () := rfl
  have hread : totm S.num [.table p] 1 w.heap = .ok tm := totm_of_shows rfl hp hoff
  refine ⟨{ w with
    errno := e'
    sys := (S.mktime tm w.sys).2
    calls := w.calls ++ [.mktime tm] }, ?_⟩
  simp only [Pmktime, EStateM.run_bind, hnargs, BindingM.run_lua_ok, BindingM.run_read, hread,
    BindingM.run_lift_ok, BindingM.run_syscall, hmktime]
  show EStateM.run (if t.toInt < 0 then pure [] else pure [LuaValue.integer t]) _ = _
  by_cases hneg : t.toInt < 0
  · rw [if_pos hneg, if_pos hneg, BindingM.run_pure]
    rfl
  · rw [if_neg hneg, if_neg hneg, BindingM.run_pure]
    rfl

end Inverse

/-- **`mktime` is the inverse of `localtime` exactly from the epoch on**, where that of the C
library is: for the times before it returns nothing. -/
theorem mktime_localtime_iff {σ : Type} (S : System σ) (L : Layout fun _ : LuaValue => LuaValue)
    (w : World σ Call) (t : LuaInteger) (tm : Tm) (e e' : Int)
    (hlocal : (S.localtime_r t w.sys).1 = .filled tm e) (hoff : tm.OffsetFits)
    (hundo : (S.mktime tm (S.localtime_r t w.sys).2).1 = .returned t e') :
    (∃ w', (mktimeLocaltime S L t).run w = .ok [.integer t] w') ↔ 0 ≤ t.toInt := by
  have hint : checkinteger S.num.strtod [.integer t] 1 = .ok t := rfl
  obtain ⟨p, w₁, hlocaltime, hp, hsys⟩ := run_brokenDown (L := L) "localtime" .localtime_r
    hint rfl hlocal
  rw [← hsys] at hundo
  obtain ⟨w₂, hmktime⟩ := run_Pmktime hp hoff hundo
  have hrun : (mktimeLocaltime S L t).run w
      = .ok (if t.toInt < 0 then [] else [.integer t]) w₂ := by
    rw [mktimeLocaltime, Plocaltime, BindingM.run_bind_of_ok hlocaltime, hmktime]
  constructor
  -- Where `mktime` has returned nothing there is no time to compare.
  · rintro ⟨w', h⟩
    rw [hrun] at h
    split_ifs at h with hneg
    · cases h
    · exact Int.not_lt.mp hneg
  · intro hnonneg
    rw [if_neg (Int.not_lt.mpr hnonneg)] at hrun
    exact ⟨w₂, hrun⟩

/-- The last second before the epoch. -/
def lastSecond : Tm where
  tm_sec := 59
  tm_min := 59
  tm_hour := 23
  tm_mday := 31
  tm_mon := 11
  tm_year := 69
  tm_wday := 3
  tm_yday := 364
  tm_isdst := 0
  tm_gmtoff := 0
  tm_zone := some .utc

/-- A system that knows the first second of the year 2000 and the last one before the epoch. -/
def System.twoTimes : System Unit :=
  { System.newYear with
    localtime_r := fun epoch s => (.filled (if epoch = -1 then lastSecond else Time.newYear) 0, s)
    mktime := fun t s => (.returned (if t = lastSecond then -1 else 946684800) 0, s) }

/-- The first second of 2000 comes back. -/
theorem mktime_localtime_newYear :
    (∃ w', (mktimeLocaltime System.twoTimes Heap.newestFirst 946684800).run .start
      = .ok [.integer 946684800] w') ↔ 0 ≤ (946684800 : LuaInteger).toInt :=
  mktime_localtime_iff System.twoTimes Heap.newestFirst .start 946684800 Time.newYear 0 0 rfl
    (by decide) rfl

/-- `mktime(localtime(-1))` returns nothing, although the C library undoes the conversion. -/
theorem mktime_before_epoch :
    (∃ e, (System.twoTimes.localtime_r (-1) ()).1 = .filled lastSecond e) ∧
    (∃ e, (System.twoTimes.mktime lastSecond ()).1 = .returned (-1) e) ∧
    (¬∃ w', (mktimeLocaltime System.twoTimes Heap.newestFirst (-1)).run .start
      = .ok [.integer (-1)] w') ∧
    ∃ w', (mktimeLocaltime System.twoTimes Heap.newestFirst (-1)).run .start = .ok [] w' := by
  refine ⟨⟨0, rfl⟩, ⟨0, rfl⟩, ?_, _, rfl⟩
  rintro ⟨w', h⟩
  cases h

end LuaPosix.Time

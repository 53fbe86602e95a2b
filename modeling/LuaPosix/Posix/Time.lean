import LuaPosix.Lua.Binding

/-! # `gmtime`, `localtime`, `mktime`, `strftime` and `nanosleep`

Broken-down times and time specifications as tables. An `int` has 32 bits, a `long` and a `time_t`
have 64. -/

namespace LuaPosix.Time

open LuaPattern (LStr)
open Traversal (Layout)

/-- A string of C, which has no zeros. -/
abbrev CString := { s : LStr // cstring s = s }

/-- The string of C that a Lua string is read as. -/
def CString.of (s : LStr) : CString := ⟨cstring s, cstring_cstring s⟩

/-- `struct tm`. -/
@[ext] structure Tm where
  tm_sec : BitVec 32
  tm_min : BitVec 32
  tm_hour : BitVec 32
  tm_mday : BitVec 32
  tm_mon : BitVec 32
  tm_year : BitVec 32
  tm_wday : BitVec 32
  tm_yday : BitVec 32
  tm_isdst : BitVec 32
  tm_gmtoff : BitVec 64
  /-- NULL or a string. -/
  tm_zone : Option CString
  deriving DecidableEq

/-- `struct timespec`. -/
structure Timespec where
  tv_sec : BitVec 64
  tv_nsec : BitVec 64
  deriving DecidableEq, Repr

/-- The calls of the C library. -/
inductive Call where
  | time
  | gmtime_r (epoch : BitVec 64)
  | localtime_r (epoch : BitVec 64)
  | mktime (t : Tm)
  | strftime (fmt : LStr) (t : Tm)
  | nanosleep (req : Timespec)
  deriving DecidableEq

/-- What comes of `gmtime_r(3)` and `localtime_r(3)`: NULL, or the structure filled in. -/
inductive BrokenDown where
  | null (errno : Int)
  | filled (t : Tm) (errno : Int)

/-- `errno` after the call. -/
def BrokenDown.errno : BrokenDown → Int
  | .null errno => errno
  | .filled _ errno => errno

/-- What the rest of the system answers, in a state of its own. -/
structure System (σ : Type) where
  num : Numerals
  strerror : Int → LStr
  time : σ → SysResult 64 × σ
  gmtime_r : (epoch : BitVec 64) → σ → BrokenDown × σ
  localtime_r : (epoch : BitVec 64) → σ → BrokenDown × σ
  mktime : Tm → σ → SysResult 64 × σ
  /-- What is in the buffer of 256 bytes then. -/
  strftime : (fmt : LStr) → Tm → σ → LStr × σ
  /-- The result, and the time that remains. -/
  nanosleep : (req : Timespec) → σ → (SysResult 32 × Timespec) × σ

/-! ## From C to Lua -/

section ToLua

open Heap (pushintegerfield pushstringfield)

/-- The numbers among the fields `pushtm` sets. -/
def Tm.integerFields (t : Tm) : List (String × LuaValue) :=
  pushintegerfield "tm_sec" (t.tm_sec.signExtend 64) ++
  pushintegerfield "tm_min" (t.tm_min.signExtend 64) ++
  pushintegerfield "tm_hour" (t.tm_hour.signExtend 64) ++
  pushintegerfield "tm_mday" (t.tm_mday.signExtend 64) ++
  pushintegerfield "tm_mon" (t.tm_mon.signExtend 64) ++
  pushintegerfield "tm_year" (t.tm_year.signExtend 64) ++
  pushintegerfield "tm_wday" (t.tm_wday.signExtend 64) ++
  pushintegerfield "tm_yday" (t.tm_yday.signExtend 64) ++
  pushintegerfield "tm_isdst" (t.tm_isdst.signExtend 64) ++
  pushintegerfield "tm_gmtoff" t.tm_gmtoff

/-- The fields `pushtm` sets. -/
def Tm.fields (t : Tm) : List (String × LuaValue) :=
  t.integerFields ++ pushstringfield "tm_zone" (t.tm_zone.map (·.1))

/-- The fields `pushtimespec` sets. -/
def Timespec.fields (ts : Timespec) : List (String × LuaValue) :=
  pushintegerfield "tv_sec" ts.tv_sec ++ pushintegerfield "tv_nsec" ts.tv_nsec

variable {σ κ : Type} (L : Layout fun _ : LuaValue => LuaValue)

/-- `pushtm(L, &t)`. -/
def pushtm (t : Tm) : BindingM σ κ LuaValue := BindingM.newtable L t.fields

/-- `pushtimespec(L, &ts)`. -/
def pushtimespec (ts : Timespec) : BindingM σ κ LuaValue := BindingM.newtable L ts.fields

end ToLua

/-! ## From Lua to C -/

/-- `Stimespec_fields`. -/
def Stimespec_fields : List String := ["tv_sec", "tv_nsec"]

/-- `Stm_fields`. -/
def Stm_fields : List String :=
  ["tm_sec", "tm_min", "tm_hour", "tm_mday", "tm_mon", "tm_year", "tm_wday", "tm_yday",
    "tm_isdst", "tm_gmtoff", "tm_zone"]

/-- The two fields have different names. -/
theorem names_Stimespec_fields : Heap.Names Stimespec_fields := by decide

/-- So have the eleven. -/
theorem names_Stm_fields : Heap.Names Stm_fields := by decide

section FromLua

variable (N : Numerals) (args : List LuaValue) (index : Nat) (H : Heap)

/-- The fields of a table that `totimespec` reads. -/
def timespecFields (t : Nat) : CallM Timespec := do
  let tv_sec ← H.optintegerfield index t "tv_sec" 0
  let tv_nsec ← H.optintegerfield index t "tv_nsec" 0
  H.checkfieldnames N index t Stimespec_fields
  return ⟨tv_sec, tv_nsec⟩

/-- `totimespec(L, index, &ts)`. -/
def totimespec : CallM Timespec := do
  let t ← checktable args index
  timespecFields N index H t

/-- The fields of a table that `totm` reads. -/
def tmFields (t : Nat) : CallM Tm := do
  let tm_sec ← H.optintfield index t "tm_sec" 0
  let tm_min ← H.optintfield index t "tm_min" 0
  let tm_hour ← H.optintfield index t "tm_hour" 0
  let tm_mday ← H.optintfield index t "tm_mday" 0
  let tm_mon ← H.optintfield index t "tm_mon" 0
  let tm_year ← H.optintfield index t "tm_year" 0
  let tm_wday ← H.optintfield index t "tm_wday" 0
  let tm_yday ← H.optintfield index t "tm_yday" 0
  let tm_isdst ← H.optintfield index t "tm_isdst" 0
  let tm_gmtoff ← H.optintfield index t "tm_gmtoff" 0
  let tm_zone ← H.optstringfield index t "tm_zone"
  H.checkfieldnames N index t Stm_fields
  return {
    tm_sec := BitVec.ofInt 32 tm_sec
    tm_min := BitVec.ofInt 32 tm_min
    tm_hour := BitVec.ofInt 32 tm_hour
    tm_mday := BitVec.ofInt 32 tm_mday
    tm_mon := BitVec.ofInt 32 tm_mon
    tm_year := BitVec.ofInt 32 tm_year
    tm_wday := BitVec.ofInt 32 tm_wday
    tm_yday := BitVec.ofInt 32 tm_yday
    tm_isdst := BitVec.ofInt 32 tm_isdst
    tm_gmtoff := BitVec.ofInt 64 tm_gmtoff
    tm_zone := tm_zone.map CString.of }

/-- `totm(L, index, &t)`. -/
def totm : CallM Tm := do
  let t ← checktable args index
  tmFields N index H t

end FromLua

/-! ## Tables that show a time -/

/-- The time zone's offset is an `int`, as which `totm` reads it. -/
def Tm.OffsetFits (t : Tm) : Prop := -2 ^ 31 ≤ t.tm_gmtoff.toInt ∧ t.tm_gmtoff.toInt < 2 ^ 31

/-- Whether the offset fits can be decided. -/
instance (t : Tm) : Decidable t.OffsetFits := inferInstanceAs (Decidable (_ ∧ _))

/-- A table has the fields of a time and no others. -/
structure Shows (H : Heap) (p : Nat) (t : Tm) : Prop where
  fields : ∀ k, H.get p (Heap.fieldName k) = Heap.fieldOf t.fields k
  known : ∀ key ∈ H.tables p, Heap.Known Stm_fields key

/-- The zone as a value, nil for NULL. -/
def Tm.zone (t : Tm) : LuaValue :=
  match t.tm_zone with
  | some z => .string z.1
  | none => .nil

/-- The names of the fields: `tm_zone` is left out for NULL. -/
theorem Tm.names_fields (t : Tm) : t.fields.map Prod.fst <+: Stm_fields := by
  rw [Tm.fields]
  cases t.tm_zone with
  | none => exact List.dropLast_prefix Stm_fields
  | some z => exact List.prefix_refl Stm_fields

/-- No field is pushed twice. -/
theorem Tm.nodup_fields (t : Tm) : (t.fields.map Prod.fst).Nodup :=
  t.names_fields.sublist.nodup (by decide)

/-- The zone is pushed under its name. -/
theorem Tm.fieldOf_zone (t : Tm) : Heap.fieldOf t.fields "tm_zone" = t.zone := by
  have hnodup := t.nodup_fields
  rw [Tm.fields] at hnodup ⊢
  rw [Tm.zone]
  cases hz : t.tm_zone with
  | none =>
      refine Heap.fieldOf_of_notMem ?_
      show "tm_zone" ∉ Stm_fields.dropLast
      decide
  | some z =>
      rw [hz] at hnodup
      rw [Heap.fieldOf_of_mem hnodup (f := ("tm_zone", .string (cstring z.1)))
        (List.mem_append_right _ (List.mem_singleton_self _)), z.2]

/-- What `pushtm` makes is such a table. -/
theorem shows_newtable (L : Layout fun _ : LuaValue => LuaValue) (H : Heap) (t : Tm) :
    Shows (H.newtable L t.fields).2 H.size t where
  fields := Heap.get_newtable _
  known key hkey := by
    obtain ⟨f, hf, rfl⟩ := Heap.mem_newtable hkey
    exact ⟨f.1, t.names_fields.subset (List.mem_map_of_mem hf), rfl⟩

/-- `pushtm` makes one table, which shows the broken-down time. -/
theorem run_pushtm {σ κ : Type} (L : Layout fun _ : LuaValue => LuaValue) (t : Tm)
    (w : World σ κ) : ∃ p w', (pushtm L t : BindingM σ κ LuaValue).run w = .ok (.table p) w' ∧
      Shows w'.heap p t ∧ w'.sys = w.sys ∧ w'.calls = w.calls := by
  refine ⟨_, _, BindingM.run_newtable w L t.fields, ?_, rfl, rfl⟩
  dsimp only
  exact shows_newtable L w.heap t

/-- The numbers of the time, as the table shows them. -/
theorem Shows.integers {H : Heap} {p : Nat} {t : Tm} (h : Shows H p t) :
    ∀ f ∈ t.integerFields, H.get p (Heap.fieldName f.1) = f.2 := fun f hf =>
  (h.fields f.1).trans (Heap.fieldOf_of_mem t.nodup_fields (List.mem_append_left _ hf))

/-- An offset that is an `int` comes back. -/
theorem ofInt_toInt_gmtoff {t : Tm} (h : t.OffsetFits) :
    BitVec.ofInt 64 (toInt t.tm_gmtoff) = t.tm_gmtoff := by
  have hint : toInt t.tm_gmtoff = t.tm_gmtoff.toInt := (cint_eq_iff _ (by decide)).mpr h
  rw [hint, BitVec.ofInt_toInt]

open Heap (pushintegerfield optintfield_of_get) in
/-- **`totm` reads the time that a table shows.** -/
theorem tmFields_of_shows (N : Numerals) (index : Nat) {H : Heap} {p : Nat} {t : Tm}
    (h : Shows H p t) (hoff : t.OffsetFits) : tmFields N index H p = .ok t := by
  have hnames : H.checkfieldnames N index p Stm_fields = .ok () :=
    Heap.checkfieldnames_of_known names_Stm_fields h.known
  have hint := h.integers
  simp only [Tm.integerFields, pushintegerfield, List.forall_mem_append, List.forall_mem_singleton]
    at hint
  obtain ⟨⟨⟨⟨⟨⟨⟨⟨⟨sec, min⟩, hour⟩, mday⟩, mon⟩, year⟩, wday⟩, yday⟩, isdst⟩, gmtoff⟩ := hint
  have hzone : H.optstringfield index p "tm_zone" = .ok (t.tm_zone.map (·.1)) := by
    have hget := (h.fields "tm_zone").trans t.fieldOf_zone
    rw [Tm.zone] at hget
    cases hz : t.tm_zone with
    | none =>
        rw [hz] at hget
        exact Heap.optstringfield_of_nil hget
    | some z =>
        rw [hz] at hget
        rw [Heap.optstringfield_of_get hget, z.2]
        rfl
  have hz : (t.tm_zone.map (·.1)).map CString.of = t.tm_zone := by
    have hof : CString.of ∘ (fun z : CString => z.1) = id := funext fun z => Subtype.ext z.2
    rw [Option.map_map, hof, Option.map_id]
    rfl
  have hint : ∀ v : BitVec 32, BitVec.ofInt 32 (toInt (v.signExtend 64)) = v :=
    ofInt_toInt_signExtend (Nat.le_refl 32)
  refine CallM.bind_of_ok (optintfield_of_get sec) ?_
  refine CallM.bind_of_ok (optintfield_of_get min) ?_
  refine CallM.bind_of_ok (optintfield_of_get hour) ?_
  refine CallM.bind_of_ok (optintfield_of_get mday) ?_
  refine CallM.bind_of_ok (optintfield_of_get mon) ?_
  refine CallM.bind_of_ok (optintfield_of_get year) ?_
  refine CallM.bind_of_ok (optintfield_of_get wday) ?_
  refine CallM.bind_of_ok (optintfield_of_get yday) ?_
  refine CallM.bind_of_ok (optintfield_of_get isdst) ?_
  refine CallM.bind_of_ok (optintfield_of_get gmtoff) ?_
  refine CallM.bind_of_ok hzone (CallM.bind_of_ok hnames (congrArg Except.ok ?_))
  exact Tm.ext (hint _) (hint _) (hint _) (hint _) (hint _) (hint _) (hint _) (hint _) (hint _)
    (ofInt_toInt_gmtoff hoff) hz

/-- `totm` of a table that shows a time. -/
theorem totm_of_shows {N : Numerals} {H : Heap} {args : List LuaValue} {index p : Nat}
    {t : Tm} (harg : argument args index = some (.table p)) (h : Shows H p t)
    (hoff : t.OffsetFits) : totm N args index H = .ok t := by
  have htable : checktable args index = .ok p := by
    rw [checktable, harg]
  rw [totm, htable]
  exact tmFields_of_shows N index h hoff

/-! ## Bindings -/

/-- The value of the macro. -/
def EINTR : Int := 4

section Model

variable {σ : Type} (S : System σ) (args : List LuaValue)
  (L : Layout fun _ : LuaValue => LuaValue)

/-- What `gmtime` and `localtime` make of their call. -/
def brokenDown (name : String) (call : BitVec 64 → Call)
    (f : BitVec 64 → σ → BrokenDown × σ) : BindingM σ Call (List LuaValue) := do
  let epoch ← checkinteger S.num.strtod args 1
  checknargs args 1
  match ← BindingM.syscall (call epoch) BrokenDown.errno (f epoch) with
  | .null _ => return pusherror S.strerror (← BindingM.errno) (some name.toList)
  | .filled t _ => do
      let table ← pushtm L t
      return [table]

/-- `gmtime(t)`. -/
def Pgmtime : BindingM σ Call (List LuaValue) :=
  brokenDown S args L "gmtime" .gmtime_r S.gmtime_r

/-- `localtime(t)`. -/
def Plocaltime : BindingM σ Call (List LuaValue) :=
  brokenDown S args L "localtime" .localtime_r S.localtime_r

/-- `mktime(t)`. Nothing is returned where the time is negative. -/
def Pmktime : BindingM σ Call (List LuaValue) := do
  checknargs args 1
  let t ← BindingM.read (totm S.num args 1)
  let x ← BindingM.syscall (.mktime t) SysResult.errno (S.mktime t)
  -- A time before the epoch passes for a failure.
  if x.value.toInt < 0 then return [] else return [.integer x.value]

/-- `pushstringresult(tmp)`, `tmp` being an array of `size` bytes: without a zero among them it is
read beyond its end. -/
def pushbuffer (size : Nat) (tmp : LStr) : CallM (List LuaValue) :=
  if (cstring tmp).length < size then .ok [.string (cstring tmp)] else .error .undefined

/-- `strftime(format, t)`. -/
def Pstrftime : BindingM σ Call (List LuaValue) := do
  let fmt ← checklstring args S.num.numberText 1
  let t ← BindingM.read (totm S.num args 2)
  checknargs args 2
  let tmp ← BindingM.libcall (.strftime (cstring fmt) t) (S.strftime (cstring fmt) t)
  pushbuffer 256 tmp

/-- `nanosleep(requested)`. -/
def Pnanosleep : BindingM σ Call (List LuaValue) := do
  let req ← BindingM.read (totimespec S.num args 1)
  checknargs args 1
  let x ← BindingM.syscall (.nanosleep req) (fun x => x.1.errno) (S.nanosleep req)
  let results := x.1.push S.strerror (some "nanosleep".toList)
  if results.length = 3 ∧ (← BindingM.errno) = EINTR then do
    let rem ← pushtimespec L x.2
    return results ++ [rem]
  else return results

/-- `time()`. -/
def Ptime : BindingM σ Call (List LuaValue) := do
  let t ← BindingM.syscall .time SysResult.errno S.time
  checknargs args 0
  if t.value = -1 then
    return pusherror S.strerror (← BindingM.errno) (some "time".toList)
  else return [.integer t.value]

variable {S args}

/-- What `gmtime` and `localtime` return is a table that shows the time. -/
theorem run_brokenDown (name : String) (call : BitVec 64 → Call)
    {f : BitVec 64 → σ → BrokenDown × σ} {w : World σ Call} {epoch : BitVec 64} {t : Tm} {e : Int}
    (hint : checkinteger S.num.strtod args 1 = .ok epoch) (hnargs : checknargs args 1 = .ok ())
    (hfilled : (f epoch w.sys).1 = .filled t e) :
    ∃ p w', (brokenDown S args L name call f).run w = .ok [.table p] w' ∧ Shows w'.heap p t ∧
      w'.sys = (f epoch w.sys).2 := by
  obtain ⟨p, w', hpush, hp, hsys, -⟩ := run_pushtm L t { w with
    errno := e, sys := (f epoch w.sys).2, calls := w.calls ++ [call epoch] }
  refine ⟨p, w', ?_, hp, hsys⟩
  simp only [brokenDown, EStateM.run_bind, hint, hnargs, BindingM.run_lua_ok,
    BindingM.run_syscall, hfilled, BrokenDown.errno]
  rw [hpush]
  rfl

end Model

/-! ## A small instance -/

/-- The zone of `gmtime`. -/
def CString.utc : CString := ⟨"UTC".toList, by decide⟩

/-- The first second of the year 2000. -/
def newYear : Tm where
  tm_sec := 0
  tm_min := 0
  tm_hour := 0
  tm_mday := 1
  tm_mon := 0
  tm_year := 100
  tm_wday := 6
  tm_yday := 0
  tm_isdst := 0
  tm_gmtoff := 0
  tm_zone := some .utc

/-- A system that knows no other time. -/
def System.newYear : System Unit where
  num := .zero
  strerror _ := []
  time s := (.returned 946684800 0, s)
  gmtime_r _ s := (.filled Time.newYear 0, s)
  localtime_r _ s := (.filled Time.newYear 0, s)
  mktime _ s := (.returned 946684800 0, s)
  strftime _ _ s := ([], s)
  nanosleep _ s := ((.returned 0 0, ⟨0, 0⟩), s)

end LuaPosix.Time

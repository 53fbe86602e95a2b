import LuaPosix.Posix.LegacyCalls

/-! # Failures of legacy calls

A call that fails returns nil or nothing where it returns a table otherwise. The legacy functions
index what it returns without a check, so that most failures end in an error of Lua. -/

namespace LuaPosix.LegacyCalls

open LuaPattern (LStr)
open Traversal (Layout)
open Heap (indexError)

/-! ## Failures -/

section Failures

variable {σ κ : Type}

/-- A call fails: it returns nil first, or nothing. -/
structure Failed (x : BindingM σ κ (List LuaValue)) (w : World σ κ) (results : List LuaValue)
    (w' : World σ κ) : Prop where
  run : x.run w = .ok results w'
  nil : first results = .nil

/-- What a function comes to. -/
def outcome (x : BindingM σ κ (List LuaValue)) (w : World σ κ) : Except Fault (List LuaValue) :=
  match x.run w with
  | .ok results _ => .ok results
  | .error e _ => .error e

/-- The failure is passed on: nil is returned, with the message and number where there are any. -/
def PassesOn (results : List LuaValue) (r : Except Fault (List LuaValue)) : Prop :=
  ∃ results', r = .ok results' ∧ ∀ i < 3, results'.getD i .nil = results.getD i .nil

/-- A call that raises passes nothing on. -/
theorem not_passesOn_error {results : List LuaValue} {e : Fault} :
    ¬PassesOn results (.error e) := by
  rintro ⟨results', h, -⟩
  cases h

/-- What a call that raises comes to. -/
theorem outcome_of_error {x : BindingM σ κ (List LuaValue)} {w w' : World σ κ} {e : Fault}
    (h : x.run w = .error e w') : outcome x w = .error e := by
  rw [outcome, h]

/-- What a call that returns comes to. -/
theorem outcome_of_ok {x : BindingM σ κ (List LuaValue)} {w w' : World σ κ}
    {results : List LuaValue} (h : x.run w = .ok results w') : outcome x w = .ok results := by
  rw [outcome, h]

end Failures

/-- The calls that the legacy functions make of `posix.time` and `posix.sys.resource`, by the
function that makes it and, where there are two, the call. -/
inductive Site where
  | clock_getres
  | clock_gettime
  | gmtime
  | gmtime_time
  | localtime
  | localtime_time
  | getrlimit
  | setrlimit
  | setrlimit_getrlimit
  | nanosleep
  | strptime
  deriving DecidableEq, Repr

section Sites

variable {σ : Type} (O : Operators) (T : Time.System σ) (R : Resource.System σ) (S : System σ)
  (L : Layout fun _ : LuaValue => LuaValue)

/-- **A call of `posix.time` or `posix.sys.resource` in a legacy function fails**: what it returns,
`errno` then, and what the function comes to. -/
inductive Fails : Site → List LuaValue → Int → Except Fault (List LuaValue) → Prop
  | clock_getres {args w results w'}
      (h : Failed (Pclock_getres S [get_clk_id_const (first args)] L) w results w') :
      Fails .clock_getres results w'.errno (outcome (clock_getres L S args) w)
  | clock_gettime {args w results w'}
      (h : Failed (Pclock_gettime S [get_clk_id_const (first args)] L) w results w') :
      Fails .clock_gettime results w'.errno (outcome (clock_gettime L S args) w)
  | gmtime {args w epoch w₁ results w'}
      (hepoch : (Time.Legacy.epochOrTime T (first args)).run w = .ok epoch w₁)
      (h : Failed (Time.Pgmtime T [epoch] L) w₁ results w') :
      Fails .gmtime results w'.errno (outcome (Time.Legacy.gmtime O T args L) w)
  | gmtime_time {args w results w'} (hepoch : (first args).truthy = false)
      (h : Failed (Time.Ptime T []) w results w') :
      Fails .gmtime_time results w'.errno (outcome (Time.Legacy.gmtime O T args L) w)
  | localtime {args w epoch w₁ results w'}
      (hepoch : (Time.Legacy.epochOrTime T (first args)).run w = .ok epoch w₁)
      (h : Failed (Time.Plocaltime T [epoch] L) w₁ results w') :
      Fails .localtime results w'.errno (outcome (Time.Legacy.localtime O T args L) w)
  | localtime_time {args w results w'} (hepoch : (first args).truthy = false)
      (h : Failed (Time.Ptime T []) w results w') :
      Fails .localtime_time results w'.errno (outcome (Time.Legacy.localtime O T args L) w)
  | getrlimit {args w rc results w'} (hrc : resourceId R.num (first args) = .ok rc)
      (h : Failed (Resource.Pgetrlimit R [rc] L) w results w') :
      Fails .getrlimit results w'.errno (outcome (getrlimit L R args) w)
  | setrlimit {args w rc t w₁ results w'} (hrc : resourceId R.num (first args) = .ok rc)
      (ht : (limits L R rc (args.getD 1 .nil) (args.getD 2 .nil)).run w = .ok t w₁)
      (h : Failed (Resource.Psetrlimit R [rc, t]) w₁ results w') :
      Fails .setrlimit results w'.errno (outcome (setrlimit L R args) w)
  | setrlimit_getrlimit {args w rc results w'} (hrc : resourceId R.num (first args) = .ok rc)
      (hmissing : args.getD 1 .nil = .nil ∨ args.getD 2 .nil = .nil)
      (h : Failed (Resource.Pgetrlimit R [rc] L) w results w') :
      Fails .setrlimit_getrlimit results w'.errno (outcome (setrlimit L R args) w)
  | nanosleep {args w t w₁ results w'}
      (ht : (requested L (args.getD 0 .nil) (args.getD 1 .nil)).run w = .ok t w₁)
      (h : Failed (Time.Pnanosleep T [t] L) w₁ results w') :
      Fails .nanosleep results w'.errno (outcome (nanosleep L T args) w)
  | strptime {args w results w'}
      (h : Failed (Pstrptime S [args.getD 0 .nil, args.getD 1 .nil] L) w results w') :
      Fails .strptime results w'.errno (outcome (strptime L O S args) w)

end Sites

/-! ## Results that are indexed -/

section Indexed

variable {σ κ : Type} {O : Operators} {L : Layout fun _ : LuaValue => LuaValue}
  {w w' : World σ κ} {results : List LuaValue}

/-- A function that indexes the first result of a failed call raises. -/
theorem Failed.twoFields {f : BindingM σ κ (List LuaValue)} (h : Failed f w results w')
    (a b : String) : (twoFields f a b).run w = .error (indexError .nil) w' := by
  rw [LegacyCalls.twoFields, BindingM.run_bind_of_ok h.run, h.nil]
  rfl

/-- Where no time was read, `LegacyTm` has no fields to take. -/
theorem run_strptime_of_failed {S : System σ} {args : List LuaValue} {w w' : World σ Call}
    (h : Failed (Pstrptime S [args.getD 0 .nil, args.getD 1 .nil] L) w results w') :
    (strptime L O S args).run w = .error (indexError .nil) w' := by
  rw [strptime, BindingM.run_bind_of_ok h.run, h.nil]
  rfl

/-- Without a broken-down time there is nothing to convert. -/
theorem brokenDown_of_failed {σ : Type} {T : Time.System σ} {args : List LuaValue}
    {f : List LuaValue → BindingM σ Time.Call (List LuaValue)} {w w₁ w' : World σ Time.Call}
    {epoch : LuaValue} (hepoch : (Time.Legacy.epochOrTime T (first args)).run w = .ok epoch w₁)
    (h : Failed (f [epoch]) w₁ results w') :
    (Time.Legacy.brokenDown O T args L f).run w = .error (indexError .nil) w' := by
  rw [Time.Legacy.brokenDown, BindingM.run_bind_of_ok hepoch, BindingM.run_bind_of_ok h.run, h.nil]
  rfl

/-- Without a time there is no epoch. -/
theorem epochOrTime_of_failed {σ : Type} {T : Time.System σ} {epoch : LuaValue}
    {w w' : World σ Time.Call} (hepoch : epoch.truthy = false)
    (h : Failed (Time.Ptime T []) w results w') :
    (Time.Legacy.epochOrTime T epoch).run w = .ok .nil w' := by
  rw [Time.Legacy.epochOrTime, hepoch, if_neg Bool.false_ne_true, BindingM.run_bind_of_ok h.run,
    h.nil]
  rfl

/-- What `gmtime` and `localtime` do then. -/
theorem brokenDown_of_time_failed {σ : Type} {T : Time.System σ} {args : List LuaValue}
    {name : String} {call : BitVec 64 → Time.Call}
    {f : BitVec 64 → σ → Time.BrokenDown × σ} {w w' : World σ Time.Call}
    (hepoch : (first args).truthy = false) (h : Failed (Time.Ptime T []) w results w') :
    (Time.Legacy.brokenDown O T args L
        fun args => Time.brokenDown T args L name call f).run w
      = .error (.raises (argtypeerror [.nil] 1 "integer")) w' := by
  rw [Time.Legacy.brokenDown, BindingM.run_bind_of_ok (epochOrTime_of_failed hepoch h)]
  rfl

end Indexed

/-! ## `setrlimit` and `nanosleep` -/

section Limits

variable {σ : Type} {R : Resource.System σ} {L : Layout fun _ : LuaValue => LuaValue}
  {w w' : World σ Resource.Call} {results : List LuaValue} {rc cur max : LuaValue}

/-- A limit that is not given cannot be had of nil. -/
theorem orField_nil {κ : Type} {v : LuaValue} {w : World σ κ} (hv : v = .nil) (name : String) :
    (orField v .nil name : BindingM σ κ LuaValue).run w = .error (indexError .nil) w := by
  rw [hv]
  rfl

/-- Without the limits of the system one that is missing cannot be had. -/
theorem limits_of_failed (hmissing : cur = .nil ∨ max = .nil)
    (h : Failed (Resource.Pgetrlimit R [rc] L) w results w') :
    (limits L R rc cur max).run w = .error (indexError .nil) w' := by
  have hlim : (first <$> Resource.Pgetrlimit R [rc] L).run w = .ok .nil w' := by
    rw [map_eq_pure_bind, BindingM.run_bind_of_ok h.run, h.nil]
    rfl
  rw [limits, if_pos hmissing, BindingM.run_bind_of_ok hlim]
  by_cases hcur : cur.truthy = true
  · have hmax : max = .nil := by
      refine hmissing.resolve_left ?_
      rintro rfl
      cases hcur
    have hgiven : (orField cur .nil "rlim_cur" : BindingM σ Resource.Call LuaValue).run w'
        = .ok cur w' := by
      rw [orField, if_pos hcur]
      rfl
    rw [BindingM.run_bind_of_ok hgiven, EStateM.run_bind, orField_nil hmax]
  · have hindexed : (orField cur .nil "rlim_cur" : BindingM σ Resource.Call LuaValue).run w'
        = .error (indexError .nil) w' := by
      rw [orField, if_neg hcur]
      rfl
    rw [EStateM.run_bind, hindexed]

variable {args : List LuaValue} (hrc : resourceId R.num (first args) = .ok rc)

include hrc

/-- `getrlimit` raises where its call fails. -/
theorem run_getrlimit_of_failed (h : Failed (Resource.Pgetrlimit R [rc] L) w results w') :
    (getrlimit L R args).run w = .error (indexError .nil) w' := by
  rw [getrlimit, hrc, BindingM.run_bind_of_ok (BindingM.run_lua_ok w rc)]
  exact h.twoFields _ _

/-- `setrlimit` raises where it needs the call and the call fails. -/
theorem run_setrlimit_of_missing (hmissing : args.getD 1 .nil = .nil ∨ args.getD 2 .nil = .nil)
    (h : Failed (Resource.Pgetrlimit R [rc] L) w results w') :
    (setrlimit L R args).run w = .error (indexError .nil) w' := by
  rw [setrlimit, hrc, BindingM.run_bind_of_ok (BindingM.run_lua_ok w rc), EStateM.run_bind,
    limits_of_failed hmissing h]

/-- The limits are set last: what the call returns is returned. -/
theorem run_setrlimit_of_failed {t : LuaValue} {w₁ : World σ Resource.Call}
    (ht : (limits L R rc (args.getD 1 .nil) (args.getD 2 .nil)).run w = .ok t w₁)
    (h : Failed (Resource.Psetrlimit R [rc, t]) w₁ results w') :
    (setrlimit L R args).run w = .ok results w' := by
  rw [setrlimit, hrc, BindingM.run_bind_of_ok (BindingM.run_lua_ok w rc),
    BindingM.run_bind_of_ok ht]
  exact h.run

end Limits

section Sleeps

variable {σ : Type} {T : Time.System σ} {L : Layout fun _ : LuaValue => LuaValue}
  {args : List LuaValue} {w w' : World σ Time.Call} {results : List LuaValue}

/-- A sleep that fails: a table with the time that remains follows where it was interrupted. -/
theorem exists_of_Pnanosleep (h : Failed (Time.Pnanosleep T args L) w results w') :
    ∃ msg errnum, w'.errno ≠ Time.EINTR ∧ results = [.nil, .string msg, .integer errnum] ∨
      w'.errno = Time.EINTR ∧
        ∃ p, results = [.nil, .string msg, .integer errnum, .table p] := by
  have hrun := h.run
  rw [Time.Pnanosleep] at hrun
  obtain ⟨req, w₁, -, hrun⟩ := BindingM.run_bind_eq_ok hrun
  obtain ⟨-, w₂, -, hrun⟩ := BindingM.run_bind_eq_ok hrun
  obtain ⟨x, w₃, -, hrun⟩ := BindingM.run_bind_eq_ok hrun
  rw [BindingM.run_bind_of_ok (BindingM.run_errno w₃)] at hrun
  obtain hpush | ⟨i, hpush⟩ := x.1.push_cases T.strerror (some "nanosleep".toList)
  · rw [hpush] at hrun
    by_cases hinterrupted : w₃.errno = Time.EINTR
    · rw [if_pos ⟨rfl, hinterrupted⟩] at hrun
      obtain ⟨rem, w₄, hrem, hrun⟩ := BindingM.run_bind_eq_ok hrun
      cases hrem
      cases hrun
      exact ⟨_, _, .inr ⟨hinterrupted, _, rfl⟩⟩
    · rw [if_neg fun hcond => hinterrupted hcond.2] at hrun
      cases hrun
      exact ⟨_, _, .inl ⟨hinterrupted, rfl⟩⟩
  · -- A sleep that returns an integer has not failed.
    rw [hpush, if_neg fun hcond => absurd hcond.1 (Nat.ne_of_lt (by decide : 1 < 3))] at hrun
    cases hrun
    cases h.nil

variable {t : LuaValue} {w₁ : World σ Time.Call}
  (ht : (requested L (args.getD 0 .nil) (args.getD 1 .nil)).run w = .ok t w₁)
  (h : Failed (Time.Pnanosleep T [t] L) w₁ results w')

include ht h

/-- The time that remains is taken from nil where the sleep was not interrupted. -/
theorem run_nanosleep_of_failed (he : w'.errno ≠ Time.EINTR) :
    (nanosleep L T args).run w = .error (indexError .nil) w' := by
  obtain ⟨msg, errnum, ⟨-, rfl⟩ | ⟨hinterrupted, -⟩⟩ := exists_of_Pnanosleep h
  · rw [nanosleep, BindingM.run_bind_of_ok ht, BindingM.run_bind_of_ok h.run]
    rfl
  · exact absurd hinterrupted he

/-- An interrupted sleep returns five values. -/
theorem run_nanosleep_of_interrupted (he : w'.errno = Time.EINTR) :
    ∃ msg errnum p tv_sec tv_nsec, results = [.nil, .string msg, .integer errnum, .table p] ∧
      (nanosleep L T args).run w
        = .ok [.nil, .string msg, .integer errnum, tv_sec, tv_nsec] w' := by
  obtain ⟨msg, errnum, ⟨hfailed, -⟩ | ⟨-, p, rfl⟩⟩ := exists_of_Pnanosleep h
  · exact absurd he hfailed
  · refine ⟨msg, errnum, p, w'.heap.get p (Heap.fieldName "tv_sec"),
      w'.heap.get p (Heap.fieldName "tv_nsec"), rfl, ?_⟩
    rw [nanosleep, BindingM.run_bind_of_ok ht, BindingM.run_bind_of_ok h.run]
    rfl

end Sleeps

/-! ## Which failures are passed on -/

/-- The failures that their function gets by without a table: those of `setrlimit`, and a sleep
that was interrupted. -/
def Handled (site : Site) (errno : Int) : Prop :=
  site = .setrlimit ∨ site = .nanosleep ∧ errno = Time.EINTR

section PassedOn

variable {σ : Type} {O : Operators} {T : Time.System σ} {R : Resource.System σ} {S : System σ}
  {L : Layout fun _ : LuaValue => LuaValue} {site : Site} {results : List LuaValue} {errno : Int}
  {r : Except Fault (List LuaValue)}

/-- Every other failure ends in an error of Lua. -/
theorem Fails.raises (h : Fails O T R S L site results errno r) (hnot : ¬Handled site errno) :
    ∃ e, r = .error e := by
  cases h with
  | clock_getres h => exact ⟨_, outcome_of_error (h.twoFields _ _)⟩
  | clock_gettime h => exact ⟨_, outcome_of_error (h.twoFields _ _)⟩
  | gmtime hepoch h =>
      exact ⟨_, outcome_of_error
        (brokenDown_of_failed (f := fun args => Time.Pgmtime T args L) hepoch h)⟩
  | gmtime_time hepoch h => exact ⟨_, outcome_of_error (brokenDown_of_time_failed hepoch h)⟩
  | localtime hepoch h =>
      exact ⟨_, outcome_of_error
        (brokenDown_of_failed (f := fun args => Time.Plocaltime T args L) hepoch h)⟩
  | localtime_time hepoch h => exact ⟨_, outcome_of_error (brokenDown_of_time_failed hepoch h)⟩
  | getrlimit hrc h => exact ⟨_, outcome_of_error (run_getrlimit_of_failed hrc h)⟩
  | setrlimit hrc ht h => exact absurd (.inl rfl) hnot
  | setrlimit_getrlimit hrc hmissing h =>
      exact ⟨_, outcome_of_error (run_setrlimit_of_missing hrc hmissing h)⟩
  | nanosleep ht h =>
      have he := fun he => hnot (.inr ⟨rfl, he⟩)
      exact ⟨_, outcome_of_error (run_nanosleep_of_failed ht h he)⟩
  | strptime h => exact ⟨_, outcome_of_error (run_strptime_of_failed h)⟩

/-- Where a failure is handled it is passed on. -/
theorem Fails.passesOn (h : Fails O T R S L site results errno r) (hhandled : Handled site errno) :
    PassesOn results r := by
  obtain rfl | ⟨rfl, he⟩ := hhandled
  · cases h with
    | setrlimit hrc ht h =>
        exact ⟨results, outcome_of_ok (run_setrlimit_of_failed hrc ht h), fun i hi => rfl⟩
  · cases h with
    | nanosleep ht h =>
        obtain ⟨msg, errnum, p, tv_sec, tv_nsec, rfl, hrun⟩ :=
          run_nanosleep_of_interrupted ht h he
        refine ⟨_, outcome_of_ok hrun, fun i hi => ?_⟩
        match i, hi with
        | 0, _ => rfl
        | 1, _ => rfl
        | 2, _ => rfl

/-- **A failure is passed on by `setrlimit`, and by `nanosleep` where it was interrupted, and never
else**: the other functions look for a table. -/
theorem passesOn_iff (h : Fails O T R S L site results errno r) :
    PassesOn results r ↔ Handled site errno := by
  refine ⟨fun hpasses => ?_, h.passesOn⟩
  by_contra hnot
  obtain ⟨e, rfl⟩ := h.raises hnot
  exact not_passesOn_error hpasses

end PassedOn

/-- A system in which every sleep ends with `errno`, a second early. -/
def endingSleeps (errno : Int) : Time.System Unit :=
  { Time.System.newYear with nanosleep := fun _ s => ((.failed errno, ⟨1, 0⟩), s) }

/-- What `nanosleep` of `posix.time` returns then. -/
def earlyResults (errno : Int) : List LuaValue :=
  pusherror (fun _ => []) errno (some "nanosleep".toList) ++
    if errno = Time.EINTR then [.table 1] else []

/-- `posix.nanosleep(sec, nsec)` in such a system. -/
def earlyOutcome (errno : Int) (sec nsec : LuaInteger) : Except Fault (List LuaValue) :=
  outcome (nanosleep Heap.newestFirst (endingSleeps errno) [.integer sec, .integer nsec])
    World.start

/-- A sleep that fails is one of the failures. -/
theorem fails_of_nanosleep {σ : Type} {O : Operators} {T : Time.System σ}
    {R : Resource.System σ} {S : System σ} {L : Layout fun _ : LuaValue => LuaValue}
    {args results : List LuaValue} {w w₁ w' : World σ Time.Call} {t : LuaValue} {errno : Int}
    {r : Except Fault (List LuaValue)} (hr : outcome (nanosleep L T args) w = r)
    (ht : (requested L (args.getD 0 .nil) (args.getD 1 .nil)).run w = .ok t w₁)
    (h : Failed (Time.Pnanosleep T [t] L) w₁ results w') (he : w'.errno = errno) :
    Fails O T R S L .nanosleep results errno r := by
  rw [← hr, ← he]
  exact .nanosleep ht h

/-- A sleep that is interrupted, a second early. -/
theorem fails_interrupted :
    Fails .integers (endingSleeps Time.EINTR) .unlimited .undated Heap.newestFirst .nanosleep
      (earlyResults Time.EINTR) Time.EINTR (earlyOutcome Time.EINTR 2 0) :=
  fails_of_nanosleep rfl rfl ⟨rfl, rfl⟩ rfl

/-- Two seconds of sleep that a signal cuts short. -/
theorem passesOn_interrupted :
    PassesOn (earlyResults Time.EINTR) (earlyOutcome Time.EINTR 2 0)
      ↔ Handled .nanosleep Time.EINTR :=
  passesOn_iff fails_interrupted

/-- The number of an argument that is out of range. -/
def EINVAL : Int := 22

/-- A letter where the day of the month is asked for. -/
def letter : List LuaValue := [.string "x".toList, .string "%d".toList]

/-- `posix.strptime("x", "%d")`. -/
def letterOutcome : Except Fault (List LuaValue) :=
  outcome (strptime Heap.newestFirst .integers .undated letter) (World.start : World Unit Call)

/-- A thousand million nanoseconds are no part of a second, and a letter is no day: both calls
fail as they say, and both end in an error of Lua. -/
theorem raised_out_of_range :
    (Fails .integers (endingSleeps EINVAL) .unlimited .undated Heap.newestFirst .nanosleep
        (earlyResults EINVAL) EINVAL (earlyOutcome EINVAL 0 1000000000) ∧
      earlyOutcome EINVAL 0 1000000000 = .error (indexError .nil) ∧
      ¬PassesOn (earlyResults EINVAL) (earlyOutcome EINVAL 0 1000000000)) ∧
    Fails .integers .newYear .unlimited .undated Heap.newestFirst .strptime [] 0 letterOutcome ∧
      letterOutcome = .error (indexError .nil) ∧ ¬PassesOn [] letterOutcome := by
  have hearly : earlyOutcome EINVAL 0 1000000000 = .error (indexError .nil) := rfl
  have hletter : letterOutcome = .error (indexError .nil) := rfl
  refine ⟨⟨fails_of_nanosleep rfl rfl ⟨rfl, rfl⟩ rfl, hearly, ?_⟩, ?_, hletter, ?_⟩
  · rw [hearly]
    exact not_passesOn_error
  · have hfailed : Failed
        (Pstrptime .undated [letter.getD 0 .nil, letter.getD 1 .nil] Heap.newestFirst)
        World.start [] { World.start with calls := [.strptime "x".toList "%d".toList] } :=
      ⟨rfl, rfl⟩
    exact .strptime (w := World.start) hfailed
  · rw [hletter]
    exact not_passesOn_error

end LuaPosix.LegacyCalls

import LuaPosix.Posix.Exec

/-! # Slots for the argument vectors

`runexec` and `Pgetopt` leave a value on the stack for each argument, and ask for no more slots
than the `LUA_MINSTACK` that every C function has. -/

namespace LuaPosix.Unistd

open LuaPattern (LStr)
open BoundedStack (State Round)
open FrameM (start Raises Overflows asText)

/-! ## `getopt` -/

/-- What `Pgetopt` accepts. -/
structure GetoptArgs (N : Numerals) (args : List LuaValue) (t : Nat) (optstring : LStr)
    (opterr optind : LuaInteger) : Prop where
  nargs : args.length ≤ 4
  table : argument args 1 = some (.table t)
  optstring : checklstring args N.numberText 2 = .ok optstring
  opterr : optinteger N.strtod args 3 0 = .ok opterr
  optind : optinteger N.strtod args 4 1 = .ok optind

section Getopt

variable {N : Numerals} {objlen : Heap → Nat → BitVec 64} {E : Environment Call} {H : Heap}
  {args : List LuaValue} {iter_getopt : LuaValue} {t : Nat} {optstring : LStr}
  {opterr optind : LuaInteger} {s : State LuaValue (List Call)}

/-- What `Pgetopt` does once its arguments are checked. -/
theorem run_Pgetopt (h : GetoptArgs N args t optstring opterr optind) :
    (Pgetopt N objlen E H args iter_getopt).run start
      = (getoptClosure N objlen E H iter_getopt optstring t).run
          ⟨[], [.opterr (toInt opterr), .optind (toInt optind)]⟩ := by
  have hroom : (start : State LuaValue (List Call)).values.length < E.slots :=
    FrameM.length_start_lt
  rw [Pgetopt, BoundedStack.run_bind_of_ok (FrameM.run_checknargs h.nargs hroom),
    BoundedStack.run_bind_of_ok (FrameM.run_totable h.table),
    BoundedStack.run_bind_of_ok (FrameM.run_lift h.optstring),
    BoundedStack.run_bind_of_ok (FrameM.run_lift h.opterr),
    BoundedStack.run_bind_of_ok (FrameM.run_assign _),
    BoundedStack.run_bind_of_ok (FrameM.run_lift h.optind),
    BoundedStack.run_bind_of_ok (FrameM.run_assign _)]
  rfl

/-- Other arguments are refused. -/
theorem raises_Pgetopt
    (h : ¬∃ t optstring opterr optind, GetoptArgs N args t optstring opterr optind) :
    Raises ((Pgetopt N objlen E H args iter_getopt).run start) := by
  have hroom : (start : State LuaValue (List Call)).values.length < E.slots :=
    FrameM.length_start_lt
  rw [Pgetopt]
  by_cases hnargs : args.length ≤ 4
  · rw [BoundedStack.run_bind_of_ok (FrameM.run_checknargs hnargs hroom)]
    by_cases htable : ∃ t, argument args 1 = some (.table t)
    · obtain ⟨t, htable⟩ := htable
      rw [BoundedStack.run_bind_of_ok (FrameM.run_totable htable)]
      cases hoptstring : checklstring args N.numberText 2 with
      | error e => exact (FrameM.raises_lift rfl).bind
      | ok optstring =>
          rw [BoundedStack.run_bind_of_ok (FrameM.run_lift rfl)]
          cases hopterr : optinteger N.strtod args 3 0 with
          | error e => exact (FrameM.raises_lift rfl).bind
          | ok opterr =>
              rw [BoundedStack.run_bind_of_ok (FrameM.run_lift rfl),
                BoundedStack.run_bind_of_ok (FrameM.run_assign _)]
              cases hoptind : optinteger N.strtod args 4 1 with
              | error e => exact (FrameM.raises_lift rfl).bind
              | ok optind =>
                  exact absurd ⟨t, optstring, opterr, optind, hnargs, htable, hoptstring, hopterr,
                    hoptind⟩ h
    · exact (FrameM.raises_totable htable hroom).bind
  · exact (FrameM.raises_checknargs (Nat.not_le.mp hnargs) hroom).bind

/-- What a round of the loop does. -/
def checked (N : Numerals) (H : Heap) (t i : Nat) : Except Halt (LuaValue × LStr) :=
  match N.tolstring (element H t i) with
  | some text => .ok (asText N (element H t i), text)
  | none => .error (.fault (.raises (badvalue "string" (element H t i))))

/-- An argument stays on the stack, or is refused. -/
theorem round_checkarg (i : Nat) :
    Round E.slots .stackOverflow (checkarg N E H t i) (checked N H t i) where
  ok s hroom a b hr := by
    rw [checkarg, BoundedStack.run_bind_of_ok (FrameM.run_index hroom)]
    unfold checked at hr
    cases htext : N.tolstring (element H t i) with
    | some text =>
        rw [htext] at hr
        cases hr
        exact FrameM.run_checkstring htext
    | none =>
        rw [htext] at hr
        cases hr
  error s hroom e hr := by
    rw [checkarg, BoundedStack.run_bind_of_ok (FrameM.run_index hroom)]
    unfold checked at hr
    cases htext : N.tolstring (element H t i) with
    | some text =>
        rw [htext] at hr
        cases hr
    | none =>
        rw [htext] at hr
        cases hr
        exact ⟨_, FrameM.run_checkstring_none htext⟩
  full s hfull := ⟨s, by
    rw [checkarg]
    exact BoundedStack.run_bind_of_error (FrameM.run_index_of_le hfull)⟩

/-- An element that is a string or a number passes the check. -/
theorem checked_of_text {i : Nat} (h : N.tolstring (element H t i) ≠ none) : checked N H t i
    = .ok (asText N (element H t i), (N.tolstring (element H t i)).getD []) := by
  unfold checked
  cases htext : N.tolstring (element H t i) with
  | some text => rfl
  | none => exact absurd htext h

/-- Another one is refused. -/
theorem checked_of_none {i : Nat} (h : N.tolstring (element H t i) = none) :
    checked N H t i = .error (.fault (.raises (badvalue "string" (element H t i)))) := by
  unfold checked
  rw [h]

/-- Only what is no text is refused, by an error. -/
theorem checked_eq_error {i : Nat} {e : Halt} (h : checked N H t i = .error e) :
    N.tolstring (element H t i) = none ∧ ∃ e', e = .fault (.raises e') := by
  unfold checked at h
  cases htext : N.tolstring (element H t i) with
  | some text =>
      rw [htext] at h
      cases h
  | none =>
      rw [htext] at h
      cases h
      exact ⟨rfl, _, rfl⟩

/-- The stack when the loop begins. -/
def beforeLoop (objlen : Heap → Nat → BitVec 64) (H : Heap) (t : Nat) (optstring : LStr) (id : Nat)
    (s : State LuaValue (List Call)) : State LuaValue (List Call) :=
  ((s.push (.integer (BitVec.ofInt 64 (cint (objlen H t) + 1)))).push
    (.string (cstring optstring))).push (.userdata id)

/-- Up to the loop. -/
theorem run_getoptClosure (hs : s.values.length = 0) (hsized : Sized (cint (objlen H t))) {id : Nat}
    (hblock : E.block (BitVec.ofInt 64 (cint (objlen H t) + 1 + 1) * 8#64) = some id) :
    (getoptClosure N objlen E H iter_getopt optstring t).run s = (do
      discard <| (List.range (cint (objlen H t) + 1).toNat).mapM fun i => checkarg N E H t i
      FrameM.pushcclosure iter_getopt (3 + (cint (objlen H t) + 1)).toNat :
        FrameM Call (List LuaValue)).run (beforeLoop objlen H t optstring id s) := by
  obtain ⟨hle, hlt⟩ := hsized
  have hslots : 2 < E.slots := Nat.lt_of_lt_of_le (by decide) E.minstack
  rw [getoptClosure, if_neg (by omega), if_neg (by omega),
    BoundedStack.run_bind_of_ok (FrameM.run_push (by omega)),
    BoundedStack.run_bind_of_ok (FrameM.run_push (by rw [State.length_push]; omega)),
    BoundedStack.run_bind_of_ok (FrameM.run_newpointers (by omega) (by omega) hblock
      (by rw [State.length_push, State.length_push]; omega))]
  rfl

/-- Before the loop three values are on the stack. -/
theorem length_beforeLoop {id : Nat} (hs : s.values.length = 0) :
    (beforeLoop objlen H t optstring id s).values.length = 3 := by
  rw [beforeLoop, State.length_push, State.length_push, State.length_push, hs]

/-- Without a vector, `Pgetopt` goes no further. -/
theorem not_overflows_of_no_vector (hs : s.values.length = 0)
    (h : ¬(Sized (cint (objlen H t)) ∧
      ∃ id, E.block (BitVec.ofInt 64 (cint (objlen H t) + 1 + 1) * 8#64) = some id)) :
    ¬Overflows ((getoptClosure N objlen E H iter_getopt optstring t).run s) := by
  have hslots : 2 < E.slots := Nat.lt_of_lt_of_le (by decide) E.minstack
  have hle := neg_le_cint (objlen H t)
  rw [getoptClosure]
  by_cases hlt : 2 ^ 31 ≤ cint (objlen H t) + 1 + 1
  · rw [if_pos hlt]
    rintro ⟨s', h' | h'⟩
    · cases h'
    · cases h'
  · rw [if_neg hlt, BoundedStack.run_bind_of_ok (FrameM.run_push (by omega)),
      BoundedStack.run_bind_of_ok (FrameM.run_push (by rw [State.length_push]; omega))]
    by_cases hneg : cint (objlen H t) + 1 + 1 < 0
    · exact (FrameM.raises_newpointers (by omega) (by omega) (.inl hneg)).bind.not_overflows
    · cases hblock : E.block (BitVec.ofInt 64 (cint (objlen H t) + 1 + 1) * 8#64) with
      | none =>
          exact (FrameM.raises_newpointers (by omega) (by omega) (.inr hblock)).bind.not_overflows
      | some id =>
          -- `argv[argc]` is no part of a block of no bytes.
          have hsized : ¬Sized (cint (objlen H t)) := fun hsized => h ⟨hsized, id, hblock⟩
          rw [Sized] at hsized
          rw [BoundedStack.run_bind_of_ok (FrameM.run_newpointers (by omega) (by omega) hblock
            (by rw [State.length_push, State.length_push]; omega)), if_pos (by omega)]
          rintro ⟨s', h' | h'⟩
          · cases h'
          · cases h'

/-- The loop runs out of slots after 17 arguments. -/
theorem overflows_getoptClosure (hslots : E.slots = LUA_MINSTACK) (hs : s.values.length = 0)
    (hsized : Sized (cint (objlen H t))) {id : Nat}
    (hblock : E.block (BitVec.ofInt 64 (cint (objlen H t) + 1 + 1) * 8#64) = some id)
    (hlt : 16 < cint (objlen H t)) (htext : ∀ i ≤ 16, N.tolstring (element H t i) ≠ none) :
    Overflows ((getoptClosure N objlen E H iter_getopt optstring t).run s) := by
  rw [LUA_MINSTACK] at hslots
  have hlength : (beforeLoop objlen H t optstring id s).values.length = 3 :=
    length_beforeLoop hs
  obtain ⟨s', hloop⟩ := BoundedStack.run_mapM_of_full (s := beforeLoop objlen H t optstring id s)
    (l := List.range (cint (objlen H t) + 1).toNat)
    (fun i _ => round_checkarg (N := N) (E := E) (H := H) (t := t) i)
    (by rw [hlength]; omega) (by rw [hlength, List.length_range]; omega)
    (by
      intro i hi
      rw [hlength, hslots, List.take_range, List.mem_range] at hi
      exact ⟨_, checked_of_text (htext i (by omega))⟩)
  refine ⟨s', .inl ?_⟩
  rw [run_getoptClosure hs hsized hblock]
  exact BoundedStack.run_bind_of_error (BoundedStack.run_discard_of_error hloop)

/-- It ends before, or an argument before is refused. -/
theorem not_overflows_getoptClosure (hslots : E.slots = LUA_MINSTACK) (hs : s.values.length = 0)
    (h : Sized (cint (objlen H t)) →
      cint (objlen H t) ≤ 16 ∨ ∃ i ≤ 16, N.tolstring (element H t i) = none) :
    ¬Overflows ((getoptClosure N objlen E H iter_getopt optstring t).run s) := by
  by_cases hvector : Sized (cint (objlen H t)) ∧
      ∃ id, E.block (BitVec.ofInt 64 (cint (objlen H t) + 1 + 1) * 8#64) = some id
  · obtain ⟨hsized, id, hblock⟩ := hvector
    have hle := hsized.1
    rw [LUA_MINSTACK] at hslots
    have hlength : (beforeLoop objlen H t optstring id s).values.length = 3 :=
      length_beforeLoop hs
    rw [run_getoptClosure hs hsized hblock]
    by_cases hbad : ∃ i ∈ List.range (min 17 (cint (objlen H t) + 1).toNat),
        N.tolstring (element H t i) = none
    · -- The loop raises an error.
      obtain ⟨i, hi, hnone⟩ := hbad
      obtain ⟨j, -, e, s', hj, hloop⟩ := BoundedStack.run_mapM_of_error
        (s := beforeLoop objlen H t optstring id s)
        (l := List.range (cint (objlen H t) + 1).toNat)
        (fun i _ => round_checkarg (N := N) (E := E) (H := H) (t := t) i)
        ⟨i, by rw [hlength, hslots, List.take_range]; exact hi, _, checked_of_none hnone⟩
      obtain ⟨-, e', rfl⟩ := checked_eq_error hj
      exact Raises.bind ⟨e', s', BoundedStack.run_discard_of_error hloop⟩ |>.not_overflows
    · -- All arguments are text, and there is room for them.
      have htext : ∀ i < min 17 (cint (objlen H t) + 1).toNat,
          N.tolstring (element H t i) ≠ none :=
        fun i hi hnone => hbad ⟨i, List.mem_range.mpr hi, hnone⟩
      have hle16 : cint (objlen H t) ≤ 16 := by
        rcases h hsized with hle16 | ⟨i, hi, hnone⟩
        · exact hle16
        · by_contra hlt
          exact htext i (by omega) hnone
      have hround : ∀ i ∈ List.range (cint (objlen H t) + 1).toNat,
          Round E.slots .stackOverflow (checkarg N E H t i)
            (.ok (asText N (element H t i), (N.tolstring (element H t i)).getD [])) := by
        intro i hi
        have hi' := htext i (by have := List.mem_range.mp hi; omega)
        rw [← checked_of_text hi']
        exact round_checkarg i
      have hloop := BoundedStack.run_mapM_of_room (s := beforeLoop objlen H t optstring id s)
        hround (by rw [hlength, List.length_range]; omega)
      have hclosure : (3 + (cint (objlen H t) + 1)).toNat ≤ MAXUPVAL := by
        rw [MAXUPVAL]
        omega
      rw [BoundedStack.run_bind_of_ok (BoundedStack.run_discard_of_ok hloop),
        FrameM.run_pushcclosure hclosure]
      rintro ⟨s', h' | h'⟩
      · cases h'
      · cases h'
  · exact not_overflows_of_no_vector hs hvector

end Getopt

/-! ## Both functions -/

/-- With the slots that every C function has, no value is pushed where there is none left, and no
closure has more upvalues than Lua allows, whatever is found. -/
def KeepsStack (x : Environment Call → FrameM Call (List LuaValue)) : Prop :=
  ∀ E : Environment Call, E.slots = LUA_MINSTACK → ¬Overflows ((x E).run start)

section Slots

variable {N : Numerals} {objlen : Heap → Nat → BitVec 64} {H : Heap} {args : List LuaValue}

/-- Without a vector, `runexec` goes no further. -/
theorem not_overflows_runexec {E : Environment Call} {use_shell : Bool} {path : LStr} {t : Nat}
    (h : ExecArgs N args path t)
    (hnone : ¬(Sized (cint (objlen H t)) ∧
      ∃ id, E.block (BitVec.ofInt 64 (cint (objlen H t) + 2) * 8#64) = some id)) :
    ¬Overflows ((runexec N objlen E H args use_shell).run start) := by
  rcases runexec_of_no_vector use_shell h hnone with hraises | ⟨s, hs⟩
  · exact hraises.not_overflows
  · rintro ⟨s', h' | h'⟩
    · rw [hs] at h'
      cases h'
    · rw [hs] at h'
      cases h'

/-- **`runexec` keeps to its slots** for lists of 16 strings, of 15 with a command at 0. -/
theorem keepsStack_runexec_iff {use_shell : Bool} :
    KeepsStack (fun E => runexec N objlen E H args use_shell) ↔
      ∀ path t, ExecArgs N args path t → Sized (cint (objlen H t)) →
        cint (objlen H t) + commandSlots H t ≤ 16 := by
  constructor
  · intro hkeeps path t h hsized
    by_contra hlt
    have hle := hsized.1
    -- There is memory, and the call returns.
    refine hkeeps (.returning LUA_MINSTACK (Nat.le_refl _)) rfl ?_
    rcases Nat.lt_or_ge 20 (1 + commandSlots H t + (cint (objlen H t)).toNat)
      with hfull | hroom
    · obtain ⟨s, hs⟩ := execArgv_of_full (N := N)
        (E := .returning LUA_MINSTACK (Nat.le_refl _)) path hsized rfl hfull
      refine ⟨s, .inl ?_⟩
      rw [run_runexec h]
      exact BoundedStack.run_bind_of_error hs
    · obtain ⟨s, hs, hlength⟩ := execArgv_of_room (N := N)
        (E := .returning LUA_MINSTACK (Nat.le_refl _)) path hsized rfl hroom
      obtain ⟨s', hs'⟩ := FrameM.run_pusherror_of_full
        (E := Environment.returning LUA_MINSTACK (Nat.le_refl _))
        (s := { s with rest := s.rest ++
          [.exec use_shell path (vectorOf N H path t (cint (objlen H t)))] })
        (hlength ▸ hroom) (by
          show 20 < s.values.length + 3
          omega)
      refine ⟨s', .inl ?_⟩
      rw [run_runexec h, BoundedStack.run_bind_of_ok hs,
        BoundedStack.run_bind_of_ok (FrameM.run_call_of_some rfl)]
      exact hs'
  · intro hcond E hslots
    by_cases hargs : ∃ path t, ExecArgs N args path t
    · obtain ⟨path, t, h⟩ := hargs
      by_cases hvector : Sized (cint (objlen H t)) ∧
          ∃ id, E.block (BitVec.ofInt 64 (cint (objlen H t) + 2) * 8#64) = some id
      · obtain ⟨hsized, id, hblock⟩ := hvector
        have hle := hsized.1
        have hslot := hcond path t h hsized
        have hcommand := commandSlots_le_one H t
        rw [LUA_MINSTACK] at hslots
        obtain ⟨s, hs, hlength⟩ := execArgv_of_room (N := N) path hsized hblock
          (by omega)
        rintro ⟨s', hs'⟩
        rcases runexec_ends h hs (by omega)
          with ⟨_, hend⟩ | ⟨_, _, hend⟩ | ⟨hfull, -⟩
        · rw [hend] at hs'
          rcases hs' with hs' | hs' <;> cases hs'
        · rw [hend] at hs'
          rcases hs' with hs' | hs' <;> cases hs'
        · omega
      · exact not_overflows_runexec h hvector
    · exact (raises_runexec hargs).not_overflows

/-- **`Pgetopt` keeps to its slots** for lists of 16, or if one of the first 17 arguments is
refused. -/
theorem keepsStack_Pgetopt_iff {iter_getopt : LuaValue} :
    KeepsStack (fun E => Pgetopt N objlen E H args iter_getopt) ↔
      ∀ t optstring opterr optind, GetoptArgs N args t optstring opterr optind →
        Sized (cint (objlen H t)) →
        cint (objlen H t) ≤ 16 ∨ ∃ i ≤ 16, N.tolstring (element H t i) = none := by
  constructor
  · intro hkeeps t optstring opterr optind h hsized
    by_contra hnot
    rw [not_or, not_exists, Int.not_le] at hnot
    refine hkeeps (.returning LUA_MINSTACK (Nat.le_refl _)) rfl ?_
    simp only
    rw [run_Pgetopt h]
    exact overflows_getoptClosure rfl rfl hsized rfl hnot.1 fun i hi hnone => hnot.2 i ⟨hi, hnone⟩
  · intro hcond E hslots
    by_cases hargs : ∃ t optstring opterr optind, GetoptArgs N args t optstring opterr optind
    · obtain ⟨t, optstring, opterr, optind, h⟩ := hargs
      simp only
      rw [run_Pgetopt h]
      exact not_overflows_getoptClosure hslots rfl (hcond t optstring opterr optind h)
    · exact (raises_Pgetopt hargs).not_overflows

/-- **The argument lists for which both functions keep to their slots.** -/
theorem keepsStack_iff {use_shell : Bool} {iter_getopt : LuaValue} :
    (KeepsStack (fun E => runexec N objlen E H args use_shell) ↔
      ∀ path t, ExecArgs N args path t → Sized (cint (objlen H t)) →
        cint (objlen H t) + commandSlots H t ≤ 16) ∧
    (KeepsStack (fun E => Pgetopt N objlen E H args iter_getopt) ↔
      ∀ t optstring opterr optind, GetoptArgs N args t optstring opterr optind →
        Sized (cint (objlen H t)) →
        cint (objlen H t) ≤ 16 ∨ ∃ i ≤ 16, N.tolstring (element H t i) = none) :=
  ⟨keepsStack_runexec_iff, keepsStack_Pgetopt_iff⟩

end Slots

/-- A table with 17 strings from 1 on. -/
def seventeenHeap : Heap := listHeap (List.replicate 17 (.string ['a']))

/-- `exec` with 17 arguments pushes its third result where no slot is left, if the program cannot
be run. -/
theorem seventeen_arguments_overflow :
    ¬KeepsStack (fun E => runexec .zero (fun _ _ => 17) E seventeenHeap echoArgs false) := by
  intro hkeeps
  have hargs : ExecArgs .zero echoArgs ['l', 's'] 0 := ⟨rfl, by decide, rfl⟩
  have hle := keepsStack_runexec_iff.mp hkeeps _ _ hargs ⟨by decide, by decide⟩
  exact absurd hle (by decide)

end LuaPosix.Unistd

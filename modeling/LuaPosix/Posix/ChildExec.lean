import LuaPosix.Posix.Process

/-! # `execp` in a child

A child gives the list of its task to `execp` of `posix.unistd`, which makes a vector of it on a
stack with room for a few values. Where it gets that far, another program runs in the child, or the
call returns and the child exits; where it does not, the child is not ended. -/

namespace LuaPosix.Popen

open LuaPattern (LStr)
open Unistd (Sized commandSlots vectorOf execArgv ExecArgs Call)

variable {E : System} {pid : Nat} {path : LuaValue} {H : Heap} {t : Nat} {file : LStr}

/-- The vector `execp` passes. -/
def System.vector (E : System) (file : LStr) (H : Heap) (t : Nat) : List (Option LStr) :=
  vectorOf E.numerals H file t (cint (E.objlen H t))

/-- `execvp` in a process: `errno`, or nothing where the program replaces it. -/
def System.execvp (E : System) (pid : Nat) (file : LStr) (H : Heap) (t : Nat) : Option Int :=
  (E.frame pid).call (.execvp file (E.vector file H t))

/-- The slots that `execp` takes: one for the vector, one for the command at 0, one for each
element, and three for the results where the program cannot be run. -/
def System.execSlots (E : System) (pid : Nat) (file : LStr) (H : Heap) (t : Nat) : Nat :=
  1 + commandSlots H t + (cint (E.objlen H t)).toNat
    + if E.execvp pid file H t = none then 0 else 3

/-- What `execp` needs in a process to run a program, or to find that it cannot. -/
structure System.Executes (E : System) (pid : Nat) (path : LuaValue) (H : Heap) (t : Nat)
    (file : LStr) : Prop where
  /-- The path is a string or a number. -/
  path : (E.numerals.tolstring path).map cstring = some file
  /-- The size of the vector is an `int`, and there is a place for the command. -/
  sized : Sized (cint (E.objlen H t))
  memory : ∃ id, (E.frame pid).block (BitVec.ofInt 64 (cint (E.objlen H t) + 2) * 8#64) = some id
  slots : E.execSlots pid file H t ≤ (E.frame pid).slots

/-- `execp` accepts a path that is a string or a number. -/
theorem execArgs_iff : ExecArgs E.numerals [path, .table t] file t ↔
    (E.numerals.tolstring path).map cstring = some file := by
  have hpath : checklstring [path, .table t] E.numerals.numberText 1
      = (E.numerals.tolstring path).elim
          (.error (argtypeerror [path, .table t] 1 "string")) .ok := by
    cases path <;> rfl
  constructor
  · intro h
    have htext := h.path
    rw [hpath] at htext
    cases hs : E.numerals.tolstring path with
    | none =>
        rw [hs] at htext
        cases htext
    | some s =>
        rw [hs] at htext
        exact congrArg some (Except.ok.inj htext)
  · intro h
    obtain ⟨s, hs, rfl⟩ := Option.map_eq_some_iff.mp h
    exact ⟨by rw [hpath, hs]; rfl, Nat.le_refl 2, rfl⟩

/-- A raised error is passed on. -/
theorem execp_of_raises
    (h : FrameM.Raises ((Unistd.Pexecp E.numerals E.objlen (E.frame pid) H
      [path, .table t]).run FrameM.start)) : ∃ e, E.execp pid path H t = .error (.raises e) := by
  obtain ⟨e, s, hrun⟩ := h
  exact ⟨e, by rw [System.execp, hrun]⟩

/-- With too few slots a value is pushed where there is none left: an argument, or a result of the
call that fails. -/
theorem Pexecp_of_full (hargs : ExecArgs E.numerals [path, .table t] file t)
    (hsized : Sized (cint (E.objlen H t))) {id : Nat}
    (hblock : (E.frame pid).block (BitVec.ofInt 64 (cint (E.objlen H t) + 2) * 8#64) = some id)
    (hfull : (E.frame pid).slots < E.execSlots pid file H t) :
    ∃ s, (Unistd.Pexecp E.numerals E.objlen (E.frame pid) H [path, .table t]).run FrameM.start
      = .error .stackOverflow s := by
  rw [Unistd.Pexecp]
  rcases Nat.lt_or_ge (E.frame pid).slots (1 + commandSlots H t + (cint (E.objlen H t)).toNat)
    with hlt | hroom
  · obtain ⟨s, hs⟩ := Unistd.execArgv_of_full (N := E.numerals) file hsized hblock hlt
    rw [Unistd.run_runexec hargs]
    exact ⟨s, BoundedStack.run_bind_of_error hs⟩
  · obtain ⟨s, hs, hlength⟩ := Unistd.execArgv_of_room (N := E.numerals) file hsized
      hblock hroom
    rw [System.execSlots] at hfull
    cases hcall : E.execvp pid file H t with
    | none =>
        -- Nothing is pushed after a call that does not return.
        rw [if_pos hcall] at hfull
        exact absurd hroom (Nat.not_le.mpr hfull)
    | some errno =>
        rw [hcall, if_neg (Option.some_ne_none errno)] at hfull
        exact Unistd.runexec_of_full hargs hs hcall (hlength ▸ hroom) (hlength ▸ hfull)

/-- Without what it needs `execp` neither returns nor ends the process. -/
theorem execp_of_not_executes (h : ¬∃ file, E.Executes pid path H t file) :
    (∃ e, E.execp pid path H t = .error (.raises e)) ∨
      E.execp pid path H t = .error .undefined := by
  by_cases hargs : ∃ file t', ExecArgs E.numerals [path, .table t] file t'
  · obtain ⟨file, t', hargs⟩ := hargs
    cases hargs.table
    by_cases hvector : Sized (cint (E.objlen H t)) ∧
        ∃ id, (E.frame pid).block (BitVec.ofInt 64 (cint (E.objlen H t) + 2) * 8#64) = some id
    · obtain ⟨hsized, id, hblock⟩ := hvector
      -- Only the slots can be missing.
      have hfull : (E.frame pid).slots < E.execSlots pid file H t := Nat.lt_of_not_le fun hslots =>
        h ⟨file, execArgs_iff.mp hargs, hsized, ⟨id, hblock⟩, hslots⟩
      obtain ⟨s, hs⟩ := Pexecp_of_full hargs hsized hblock hfull
      exact .inr (by rw [System.execp, hs])
    · rcases Unistd.runexec_of_no_vector true hargs hvector with hraises | ⟨s, hs⟩
      · exact .inl (execp_of_raises hraises)
      · exact .inr (by rw [System.execp, Unistd.Pexecp, hs])
  · exact .inl (execp_of_raises (Unistd.raises_runexec hargs))

/-- **With it** the program takes the arguments before the first NULL, or the call returns. -/
theorem execp_of_executes (h : E.Executes pid path H t file) : E.execp pid path H t =
    if E.execvp pid file H t = none then
      .error (.ends (.exec file (programArgs (E.vector file H t))))
    else .ok () := by
  have hargs : ExecArgs E.numerals [path, .table t] file t := execArgs_iff.mpr h.path
  obtain ⟨id, hblock⟩ := h.memory
  have hslots := h.slots
  rw [System.execSlots] at hslots
  obtain ⟨s, hs, hlength⟩ := Unistd.execArgv_of_room (N := E.numerals) file h.sized hblock
    (Nat.le_of_add_right_le hslots)
  cases hcall : E.execvp pid file H t with
  | none =>
      obtain ⟨s', hs', hrest⟩ := Unistd.runexec_of_replaced true hargs hs hcall
      rw [if_pos rfl, System.execp, Unistd.Pexecp, hs']
      show Except.error (replacedBy s'.rest) = _
      rw [hrest]
      rfl
  | some errno =>
      rw [hcall, if_neg (Option.some_ne_none errno), ← hlength] at hslots
      obtain ⟨results, s', hs'⟩ := Unistd.runexec_of_returned true hargs hs hcall
        hslots
      rw [if_neg (Option.some_ne_none errno), System.execp, Unistd.Pexecp, hs']

/-! ## Lists of strings and numbers -/

section Lists

variable {v : LuaValue} {vs : List LuaValue}

/-- The first value of a list is the path, the others are left in the table. -/
theorem remove_of_holds (h : H.Holds t (v :: vs)) (hbound : Indexable (v :: vs))
    (hnil : .nil ∉ v :: vs) :
    (E.remove H t).1 = v ∧ (E.remove H t).2.Holds t vs := by
  have hlen : E.objlen H t = BitVec.ofNat 64 (v :: vs).length := by
    rw [System.objlen, Heap.len_of_holds E.length hbound hnil h]
  rw [System.remove, hlen]
  exact h.removeFirst hbound fun hmem => hnil (List.mem_cons_of_mem v hmem)

/-- The length of a list that an `int` can count. -/
theorem cint_objlen_of_holds (h : H.Holds t vs) (hlt : vs.length < 2 ^ 31) (hnil : .nil ∉ vs) :
    cint (E.objlen H t) = vs.length := by
  have hbound : Indexable vs := hlt.trans (by decide)
  rw [System.objlen, Heap.len_of_holds E.length hbound hnil h, cint, BitVec.setWidth_ofNat_of_le
    (by decide), BitVec.toInt_ofNat', Int.bmod_eq_of_le (by omega) (by omega)]

/-- **A path and up to 16 arguments are executed**, if there is memory for their vector. -/
theorem executes_of_list (h : H.Holds t (v :: vs)) (hnil : .nil ∉ v :: vs)
    (hpath : (E.numerals.tolstring v).map cstring = some file) (hle : vs.length ≤ 16)
    (hmemory : ∀ n, ∃ id, (E.frame pid).block n = some id) :
    E.Executes pid (E.remove H t).1 (E.remove H t).2 t file := by
  have hbound : Indexable (v :: vs) := by
    rw [Indexable, List.length_cons]
    omega
  obtain ⟨hv, hvs⟩ := remove_of_holds (E := E) h hbound hnil
  have hlen := cint_objlen_of_holds (E := E) hvs (by omega)
    fun hmem => hnil (List.mem_cons_of_mem v hmem)
  -- A list has nothing at 0.
  have hcommand : commandSlots (E.remove H t).2 t = 0 := by
    have hzero : Unistd.element (E.remove H t).2 t 0 = .nil :=
      hvs.get_zero (by rw [Indexable]; omega)
    rw [commandSlots, hzero]
  have hslots : LUA_MINSTACK ≤ (E.frame pid).slots := (E.frame pid).minstack
  rw [LUA_MINSTACK] at hslots
  exact {
    path := by rw [hv, hpath]
    sized := by
      rw [hlen, Sized]
      omega
    memory := hmemory _
    slots := by
      rw [System.execSlots, hlen, hcommand, Int.toNat_natCast]
      split_ifs <;> omega }

end Lists

end LuaPosix.Popen

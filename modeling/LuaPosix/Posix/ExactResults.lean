import LuaPosix.Posix.Transfers

/-! # What the bindings report of their calls

Every binding hands the outcome of its system call to `pushresult`, so it reports it exactly where
`pushresult` does: failures, and results that are an `int` other than -1. -/

namespace LuaPosix.Transfers

open LuaPattern (LStr)

variable {S : System} {args : List LuaValue}

/-! ## Bindings that push the outcome -/

/-- `lseek` pushes what the call comes to. -/
theorem Plseek_push {x : SysResult 64} {results : List LuaValue}
    (h : Plseek S args = .ok (some x, results)) : results = x.push S.strerror none := by
  obtain ⟨fd, -, h⟩ := LuaM.bind_eq_ok.mp h
  obtain ⟨offset, -, h⟩ := LuaM.bind_eq_ok.mp h
  obtain ⟨whence, -, h⟩ := LuaM.bind_eq_ok.mp h
  obtain ⟨-, -, h⟩ := LuaM.bind_eq_ok.mp h
  cases h
  rfl

/-- `nice` does. -/
theorem Pnice_push {x : SysResult 32} {results : List LuaValue}
    (h : Pnice S args = .ok (some x, results)) :
    results = x.push S.strerror (some "nice".toList) := by
  obtain ⟨inc, -, h⟩ := LuaM.bind_eq_ok.mp h
  obtain ⟨-, -, h⟩ := LuaM.bind_eq_ok.mp h
  cases h
  rfl

/-- `write` does. -/
theorem Pwrite_push {call : WriteCall} {x : SysResult 64} {results : List LuaValue}
    (h : Pwrite S args = .ok (some (call, x), results)) : results = x.push S.strerror none := by
  obtain ⟨fd, -, h⟩ := LuaM.bind_eq_ok.mp h
  obtain ⟨buf, -, h⟩ := LuaM.bind_eq_ok.mp h
  obtain ⟨nbytes, -, h⟩ := LuaM.bind_eq_ok.mp h
  obtain ⟨offset, -, h⟩ := LuaM.bind_eq_ok.mp h
  obtain ⟨-, -, h⟩ := LuaM.bind_eq_ok.mp h
  have hanswer : (writeRequest (cint (BitVec.ofNat 64 buf.length)) nbytes offset
      (args[2]? = some .nil)).answer S fd (cint (BitVec.ofNat 64 buf.length))
        = (some (call, x), results) := Except.ok.inj h
  cases hrequest : writeRequest (cint (BitVec.ofNat 64 buf.length)) nbytes offset
      (args[2]? = some .nil) with
  | nothing =>
      rw [hrequest] at hanswer
      cases hanswer
  | call offset nbytes =>
      rw [hrequest] at hanswer
      cases hanswer
      rfl
  | invalid invalid_offset =>
      rw [hrequest] at hanswer
      cases hanswer

/-- `send` does. -/
theorem Psend_push {x : SysResult 64} {results : List LuaValue}
    (h : Psend S args = .ok (some x, results)) :
    results = x.push S.strerror (some "send".toList) := by
  obtain ⟨fd, -, h⟩ := LuaM.bind_eq_ok.mp h
  obtain ⟨buf, -, h⟩ := LuaM.bind_eq_ok.mp h
  obtain ⟨-, -, h⟩ := LuaM.bind_eq_ok.mp h
  cases h
  rfl

/-- `sendto` does. -/
theorem Psendto_push {errno : Int} {x : SysResult 64} {results : List LuaValue}
    (h : Psendto S args errno = .ok (some x, results)) :
    results = x.push S.strerror (some "sendto".toList) := by
  obtain ⟨fd, -, h⟩ := LuaM.bind_eq_ok.mp h
  obtain ⟨buf, -, h⟩ := LuaM.bind_eq_ok.mp h
  obtain ⟨-, -, h⟩ := LuaM.bind_eq_ok.mp h
  obtain ⟨sa, -, h⟩ := LuaM.bind_eq_ok.mp h
  cases sa with
  | none => cases h
  | some sa =>
      cases h
      rfl

/-! ## Exactness -/

/-- **Results are reported exactly** by `lseek`, `nice`, `write`, `send` and `sendto` if the call
fails or its result is an `int` other than -1, and not otherwise. -/
theorem results_exact_iff (S : System) (args : List LuaValue) (errno : Int) :
    (∀ x results, Plseek S args = .ok (some x, results) →
      (x.Exact S.strerror none results ↔ x.Fits)) ∧
    (∀ x results, Pnice S args = .ok (some x, results) →
      (x.Exact S.strerror (some "nice".toList) results ↔ x.Fits)) ∧
    (∀ call x results, Pwrite S args = .ok (some (call, x), results) →
      (x.Exact S.strerror none results ↔ x.Fits)) ∧
    (∀ x results, Psend S args = .ok (some x, results) →
      (x.Exact S.strerror (some "send".toList) results ↔ x.Fits)) ∧
    ∀ x results, Psendto S args errno = .ok (some x, results) →
      (x.Exact S.strerror (some "sendto".toList) results ↔ x.Fits) := by
  refine ⟨fun x results h => ?_, fun x results h => ?_, fun call x results h => ?_,
    fun x results h => ?_, fun x results h => ?_⟩
  · rw [Plseek_push h, SysResult.exact_push_iff (by decide) (by decide)]
  · rw [Pnice_push h, SysResult.exact_push_iff (by decide) (by decide)]
  · rw [Pwrite_push h, SysResult.exact_push_iff (by decide) (by decide)]
  · rw [Psend_push h, SysResult.exact_push_iff (by decide) (by decide)]
  · rw [Psendto_push h, SysResult.exact_push_iff (by decide) (by decide)]

/-! ## An instance -/

/-- A system on which every call succeeds: `lseek` goes where it is told, `nice` lowers the
priority to -1, the others transfer everything. -/
def obligingSystem : System where
  lseek _ offset _ := .returned offset 0
  nice _ := .returned (-1#32) 0
  write call := .returned call.nbytes 0
  send _ buf := .returned (BitVec.ofNat 64 buf.length) 0
  sendto _ buf _ := .returned (BitVec.ofNat 64 buf.length) 0
  sockaddr_from_lua _ := .ok (some [])
  strerror _ := "Success".toList
  EINVAL := 22
  strtod _ := none
  numberText _ := []

/-- `lseek(3, 10, SEEK_SET)` reports 10. -/
theorem results_exact_lseek_10 :
    (SysResult.returned (10#64) 0).Exact obligingSystem.strerror none [.integer 10] :=
  ((results_exact_iff obligingSystem [.integer 3, .integer 10, .integer 0] 0).1 _ _ rfl).mpr
    ⟨by decide, by decide, by decide⟩

/-- A seek to offset 2^31 is reported as -2^31, one to 2^32 - 1 as a failure, and so is a new
nice value of -1. -/
theorem lseek_truncates_nice_fails :
    Plseek obligingSystem [.integer 3, .integer 0x80000000, .integer 0]
      = .ok (some (.returned 0x80000000 0), [.integer (-0x80000000)]) ∧
    Plseek obligingSystem [.integer 3, .integer 0xFFFFFFFF, .integer 0]
      = .ok (some (.returned 0xFFFFFFFF 0), [.nil, .string "Success".toList, .integer 0]) ∧
    Pnice obligingSystem [.integer (-1)]
      = .ok (some (.returned (-1) 0), [.nil, .string "nice: Success".toList, .integer 0]) ∧
    ¬ (SysResult.returned (0x80000000#64) 0).Exact obligingSystem.strerror none
      [.integer (-0x80000000)] := by
  refine ⟨by decide, by decide, by decide, fun h => ?_⟩
  have hlist : [LuaValue.integer (-0x80000000)]
      ≠ [.integer (BitVec.ofInt 64 (0x80000000#64).toInt)] := by decide
  exact hlist h

end LuaPosix.Transfers

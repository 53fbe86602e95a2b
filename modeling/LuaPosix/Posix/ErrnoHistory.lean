import LuaPosix.Posix.Sockets
import LuaPosix.Posix.Messages

/-! # Failures that nothing has numbered

`pusherror` reads the global `errno`. Where a binding finds out by itself that it cannot go on, or
the call it has made reports its error in another way, nothing has set it: what is reported is the
number of some earlier failure, or none. -/

namespace LuaPosix.Errno

open LuaPattern (LStr)
open Traversal (Layout)

/-! ## `posix_fadvise` -/

/-- The call of the C library. -/
inductive Call where
  | posix_fadvise (fd : Int) (offset len : BitVec 64) (advice : Int)

/-- What the rest of the system answers, in a state of its own. `posix_fadvise(3)` returns its
error number. -/
structure System (σ : Type) where
  sockets : Sockets.System σ
  messages : Messages.System σ
  strerror : Int → LStr
  strtod : LStr → Option Rat
  posix_fadvise : (fd : Int) → (offset len : BitVec 64) → (advice : Int) → σ → Int × σ

section Model

variable {σ : Type} (S : System σ) (args : List LuaValue)

/-- `posix_fadvise(fd, offset, len, advice)`. -/
def Pposix_fadvise : BindingM σ Call (List LuaValue) := do
  let fd ← checkint S.strtod args 1
  let offset ← checkinteger S.strtod args 2
  let len ← checkinteger S.strtod args 3
  let advice ← checkint S.strtod args 4
  checknargs args 4
  let r ← BindingM.libcall (.posix_fadvise fd offset len advice)
    (S.posix_fadvise fd offset len advice)
  return pushresult S.strerror (← BindingM.errno) (some "posix_fadvise".toList)
    (if r = 0 then 0 else -1)

/-! ## Runs that fail -/

/-- The bindings with a failure of their own. -/
inductive Binding where
  | posix_fadvise
  | connect
  | bind
  | sendto
  | msgctl
  deriving DecidableEq, Repr

/-- What a run returns, or the error it raises. -/
def outcome {κ α : Type} : EStateM.Result Fault (World σ κ) α → Except Fault α
  | .ok a _ => .ok a
  | .error e _ => .error e

/-- What a binding returns, by the value that `errno` has before. -/
def Binding.results (L : Layout fun _ : LuaValue => LuaValue) (H : Heap) (s : σ) (errno : Int) :
    Binding → Except Fault (List LuaValue)
  | .posix_fadvise => outcome ((Pposix_fadvise S args).run ⟨errno, H, s, []⟩)
  | .connect => outcome ((Sockets.Pconnect S.sockets args).run ⟨errno, H, s, []⟩)
  | .bind => outcome ((Sockets.Pbind S.sockets args).run ⟨errno, H, s, []⟩)
  | .sendto => outcome ((Sockets.Psendto S.sockets args).run ⟨errno, H, s, []⟩)
  | .msgctl => outcome ((Messages.Pmsgctl S.messages args L).run ⟨errno, H, s, []⟩)

/-- The address of a socket cannot be parsed. -/
def Unparsed (H : Heap) (index : Nat) : Prop :=
  Sockets.sockaddr_from_lua S.sockets.num S.sockets.presentation H index args = .ok none

/-- Arguments pass the checks, and the binding fails: the call reports an error number, the address
cannot be parsed, or the command is not supported. -/
def Binding.Fails (H : Heap) (s : σ) : Binding → Prop
  | .posix_fadvise => ∃ fd offset len advice, checkint S.strtod args 1 = .ok fd ∧
      checkinteger S.strtod args 2 = .ok offset ∧ checkinteger S.strtod args 3 = .ok len ∧
      checkint S.strtod args 4 = .ok advice ∧ checknargs args 4 = .ok () ∧
      (S.posix_fadvise fd offset len advice s).1 ≠ 0
  | .connect | .bind => ∃ fd, checkint S.sockets.num.strtod args 1 = .ok fd ∧
      checknargs args 2 = .ok () ∧ Unparsed S args H 2
  | .sendto => ∃ fd buf, checkint S.sockets.num.strtod args 1 = .ok fd ∧
      checklstring args S.sockets.num.numberText 2 = .ok buf ∧ checknargs args 3 = .ok () ∧
      Unparsed S args H 3
  | .msgctl => ∃ id cmd, checkint S.messages.num.strtod args 1 = .ok id ∧
      checkint S.messages.num.strtod args 2 = .ok cmd ∧ Messages.Cmd.ofInt cmd = none ∧
      checknargs args 3 = .ok ()

/-- What a failure is reported with does not depend on the `errno` of an earlier one: it is the
same message and the same number, not zero. -/
def Binding.HistoryFree (L : Layout fun _ : LuaValue => LuaValue) (H : Heap) (s : σ)
    (b : Binding) : Prop :=
  ∃ msg errnum, errnum ≠ 0 ∧
    ∀ errno, b.results S args L H s errno = .ok [.nil, .string msg, .integer errnum]

variable {S args} {L : Layout fun _ : LuaValue => LuaValue} {H : Heap} {s : σ}

/-! No step on the way to `pusherror` sets `errno`. -/

/-- `posix_fadvise` reports whatever `errno` was. -/
theorem Binding.results_posix_fadvise (h : Binding.posix_fadvise.Fails S args H s) (errno : Int) :
    Binding.posix_fadvise.results S args L H s errno
      = .ok (pusherror S.strerror errno (some "posix_fadvise".toList)) := by
  obtain ⟨fd, offset, len, advice, h₁, h₂, h₃, h₄, hnargs, hfail⟩ := h
  simp only [results, Pposix_fadvise, EStateM.run_bind, h₁, h₂, h₃, h₄, hnargs,
    BindingM.run_lua_ok, BindingM.run_libcall, BindingM.run_errno, if_neg hfail]
  rfl

/-- So does `connect` of an address that is none. -/
theorem Binding.results_connect (h : Binding.connect.Fails S args H s) (errno : Int) :
    Binding.connect.results S args L H s errno
      = .ok (pusherror S.sockets.strerror errno
        (some "not a valid IPv4 or IPv6 address argument".toList)) := by
  obtain ⟨fd, hfd, hnargs, haddr⟩ := h
  rw [Unparsed] at haddr
  simp only [results, Sockets.Pconnect, EStateM.run_bind, hfd, hnargs, haddr,
    BindingM.run_lua_ok, BindingM.run_read, BindingM.run_lift_ok]
  rfl

/-- So does `bind`. -/
theorem Binding.results_bind (h : Binding.bind.Fails S args H s) (errno : Int) :
    Binding.bind.results S args L H s errno
      = .ok (pusherror S.sockets.strerror errno
        (some "not a valid IPv4 or IPv6 argument".toList)) := by
  obtain ⟨fd, hfd, hnargs, haddr⟩ := h
  rw [Unparsed] at haddr
  simp only [results, Sockets.Pbind, EStateM.run_bind, hfd, hnargs, haddr,
    BindingM.run_lua_ok, BindingM.run_read, BindingM.run_lift_ok]
  rfl

/-- So does `sendto`. -/
theorem Binding.results_sendto (h : Binding.sendto.Fails S args H s) (errno : Int) :
    Binding.sendto.results S args L H s errno
      = .ok (pusherror S.sockets.strerror errno
        (some "not a valid IPv4 or IPv6 argument".toList)) := by
  obtain ⟨fd, buf, hfd, hbuf, hnargs, haddr⟩ := h
  rw [Unparsed] at haddr
  simp only [results, Sockets.Psendto, EStateM.run_bind, hfd, hbuf, hnargs, haddr,
    BindingM.run_lua_ok, BindingM.run_read, BindingM.run_lift_ok]
  rfl

/-- So does `msgctl` with a command it does not know. -/
theorem Binding.results_msgctl (h : Binding.msgctl.Fails S args H s) (errno : Int) :
    Binding.msgctl.results S args L H s errno
      = .ok (pusherror S.messages.strerror errno (some "unsupported cmd value".toList)) := by
  obtain ⟨id, cmd, hid, hcmd, hnone, hnargs⟩ := h
  simp only [results, Messages.Pmsgctl, EStateM.run_bind, hid, hcmd, hnone, hnargs,
    BindingM.run_lua_ok]
  rfl

/-- **A failure is reported with the number that was there before.** -/
theorem Binding.results_of_fails {b : Binding} (h : b.Fails S args H s) :
    ∃ strerror info, ∀ errno,
      b.results S args L H s errno = .ok (pusherror strerror errno (some info)) := by
  cases b with
  | posix_fadvise => exact ⟨_, _, results_posix_fadvise h⟩
  | connect => exact ⟨_, _, results_connect h⟩
  | bind => exact ⟨_, _, results_bind h⟩
  | sendto => exact ⟨_, _, results_sendto h⟩
  | msgctl => exact ⟨_, _, results_msgctl h⟩

end Model

/-- A small instance, in which every call fails with `EBADF` and no address has a meaning. -/
def System.refusing : System Unit where
  sockets := { Sockets.System.failing with presentation := ⟨fun _ _ => [], fun _ _ => none⟩ }
  messages := .quiet
  strerror _ := []
  strtod _ := none
  posix_fadvise _ _ _ _ s := (9, s)

/-- The table `{ family = AF_INET, port = 80, addr = "?" }`. -/
def nowhere : Heap :=
  (Heap.empty.newtable Heap.newestFirst
    [("family", .integer 2), ("port", .integer 80), ("addr", .string ['?'])]).2

/-- The arguments of `posix_fadvise(-1, 0, 0, 0)`. -/
def adviseNone : List LuaValue := [.integer (-1), .integer 0, .integer 0, .integer 0]

/-- **None of these failures is free of history**: after a call that has left zero in `errno` the
number is zero. -/
theorem Binding.not_historyFree {σ : Type} {S : System σ} {args : List LuaValue}
    {L : Layout fun _ : LuaValue => LuaValue} {H : Heap} {s : σ} {b : Binding}
    (h : b.Fails S args H s) : ¬b.HistoryFree S args L H s := by
  rintro ⟨msg, errnum, hne, hsame⟩
  obtain ⟨strerror, info, hresults⟩ := results_of_fails (L := L) h
  have hzero := (hsame 0).symm.trans (hresults 0)
  rw [pusherror] at hzero
  cases hzero
  exact hne rfl

/-- Advice that is refused, and an address that is none. -/
theorem not_historyFree_refusing :
    ¬Binding.posix_fadvise.HistoryFree System.refusing adviseNone Heap.newestFirst .empty () ∧
    ¬Binding.connect.HistoryFree System.refusing [.integer 3, .table 0] Heap.newestFirst
      nowhere () :=
  ⟨Binding.not_historyFree ⟨-1, 0, 0, 0, rfl, rfl, rfl, rfl, rfl, by decide⟩,
    Binding.not_historyFree ⟨3, rfl, rfl, rfl⟩⟩

/-- A report without a text of the system. -/
theorem pusherror_without_text (errno : Int) {info text : String} (h : info ++ ": " = text) :
    pusherror (fun _ => []) errno (some info.toList)
      = [.nil, .string text.toList, .integer (BitVec.ofInt 64 errno)] := by
  rw [pusherror, ← h, String.toList_append, List.append_nil]

/-- `posix_fadvise(-1, 0, 0, 0)`, `connect(3, nowhere)` and `msgctl(5, 99)` report error 13 or none
at all, as it happened before. -/
theorem errno_shows_through :
    ¬Binding.posix_fadvise.HistoryFree System.refusing adviseNone Heap.newestFirst .empty () ∧
    (∀ errno ∈ [0, 13], Binding.posix_fadvise.results System.refusing adviseNone
      Heap.newestFirst .empty () errno
        = .ok [.nil, .string "posix_fadvise: ".toList, .integer (BitVec.ofInt 64 errno)]) ∧
    (∀ errno ∈ [0, 13], Binding.connect.results System.refusing [.integer 3, .table 0]
      Heap.newestFirst nowhere () errno
        = .ok [.nil, .string "not a valid IPv4 or IPv6 address argument: ".toList,
          .integer (BitVec.ofInt 64 errno)]) ∧
    ∀ errno ∈ [0, 13], Binding.msgctl.results System.refusing [.integer 5, .integer 99]
      Heap.newestFirst .empty () errno
        = .ok [.nil, .string "unsupported cmd value: ".toList,
          .integer (BitVec.ofInt 64 errno)] := by
  have hadvise : Binding.posix_fadvise.Fails System.refusing adviseNone .empty () :=
    ⟨-1, 0, 0, 0, rfl, rfl, rfl, rfl, rfl, by decide⟩
  have hconnect : Binding.connect.Fails System.refusing [.integer 3, .table 0] nowhere () :=
    ⟨3, rfl, rfl, rfl⟩
  have hmsgctl : Binding.msgctl.Fails System.refusing [.integer 5, .integer 99] .empty () :=
    ⟨5, 99, rfl, rfl, rfl, rfl⟩
  refine ⟨?_, fun errno _ => ?_, fun errno _ => ?_, fun errno _ => ?_⟩
  · rintro ⟨msg, errnum, hne, hsame⟩
    cases (Binding.results_posix_fadvise hadvise 0).symm.trans (hsame 0)
    exact hne rfl
  · rw [Binding.results_posix_fadvise hadvise]
    exact congrArg Except.ok (pusherror_without_text errno rfl)
  · rw [Binding.results_connect hconnect]
    exact congrArg Except.ok (pusherror_without_text errno rfl)
  · rw [Binding.results_msgctl hmsgctl]
    exact congrArg Except.ok (pusherror_without_text errno rfl)

end LuaPosix.Errno

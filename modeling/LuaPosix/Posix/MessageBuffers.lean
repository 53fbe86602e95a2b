import LuaPosix.Posix.Messages

/-! # Messages and the blocks they are in

`msgsnd` passes the size of the block, which counts the type, as the size of the text: the kernel
reads eight bytes past its end and enqueues them. `msgrcv` allocates the size of the text, which
does not count the type: the kernel may write eight bytes past its end. Nothing goes wrong where
no call is made. -/

namespace LuaPosix.Messages

open LuaPattern (LStr)
open Bytes (Byte Memory read)

/-! ## What the calls get at -/

/-- The type and as much text as the call may read or write lie in the block. -/
def Call.InBounds : Call → Prop
  | .msgsnd _ msg msgsz _ => sizeofLong + msgsz.toNat ≤ msg.size
  | .msgrcv _ msg msgsz _ _ => sizeofLong + msgsz.toNat ≤ msg.size
  | _ => True

/-- A message that is sent has this text. -/
def Call.Sends (text : List Byte) : Call → Prop
  | .msgsnd _ msg msgsz _ => read msg.bytes sizeofLong msgsz.toNat = text
  | _ => True

/-- The bindings that pass messages. -/
inductive Passing where
  | msgsnd
  | msgrcv
  deriving DecidableEq, Repr

section Runs

variable {σ : Type} (S : System σ) (args : List LuaValue)

/-- No call goes beyond its block, and what is sent are the bytes of the string. -/
def Passing.Intact (w : World σ Call) : Passing → Prop
  | .msgsnd => ∀ c ∈ BindingM.made w (Pmsgsnd S args), c.InBounds ∧
      ∀ s, checklstring args S.num.numberText 3 = .ok s → c.Sends (toBytes s)
  | .msgrcv => ∀ c ∈ BindingM.made w (Pmsgrcv S args), c.InBounds

/-- Arguments that pass the checks of `msgsnd`. -/
structure SendArgs where
  msgid : Int
  msgtype : LuaInteger
  msgp : LStr
  msgflg : Int
  hmsgid : checkint S.num.strtod args 1 = .ok msgid
  hmsgtype : checkinteger S.num.strtod args 2 = .ok msgtype
  hmsgp : checklstring args S.num.numberText 3 = .ok msgp
  hmsgflg : optint S.num.strtod args 4 0 = .ok msgflg
  hnargs : checknargs args 4 = .ok ()

/-- Arguments that pass the checks of `msgrcv`. -/
structure ReceiveArgs where
  msgid : Int
  msgsz : LuaInteger
  msgtyp : LuaInteger
  msgflg : Int
  hmsgid : checkint S.num.strtod args 1 = .ok msgid
  hmsgsz : checkinteger S.num.strtod args 2 = .ok msgsz
  hmsgtyp : optinteger S.num.strtod args 3 0 = .ok msgtyp
  hmsgflg : optint S.num.strtod args 4 0 = .ok msgflg
  hnargs : checknargs args 4 = .ok ()

variable {S args}

/-- The size `msgsnd` allocates and passes. -/
def SendArgs.msgsz (A : SendArgs S args) : BitVec 64 := BitVec.ofNat 64 (sizeofLong + A.msgp.length)

/-- The block `msgsnd` passes. -/
def SendArgs.block (A : SendArgs S args) (bytes : Memory) : Block :=
  ⟨A.msgsz.toNat, message bytes A.msgtype (toBytes A.msgp)⟩

variable {w : World σ Call}

/-- With a block, the message is sent. -/
theorem SendArgs.made_of_block (A : SendArgs S args) {bytes : Memory}
    (hblock : (S.lalloc A.msgsz w.sys).1 = .block bytes) : BindingM.made w (Pmsgsnd S args)
      = [.lalloc A.msgsz, .msgsnd A.msgid (A.block bytes) A.msgsz A.msgflg] := by
  refine BindingM.made_eq ?_
  simp only [Pmsgsnd, EStateM.run_bind, A.hmsgid, A.hmsgtype, A.hmsgp, A.hmsgflg, A.hnargs,
    BindingM.run_lua_ok, BindingM.run_lalloc]
  rw [msgsz] at hblock
  simp only [hblock, BindingM.run_syscall, EStateM.run_bind]
  split_ifs <;> exact List.append_assoc _ _ _

/-- Without one, nothing is. -/
theorem SendArgs.made_of_null (A : SendArgs S args)
    (hnull : (S.lalloc A.msgsz w.sys).1.isNull) :
    BindingM.made w (Pmsgsnd S args) = [.lalloc A.msgsz] := by
  refine BindingM.made_eq ?_
  simp only [Pmsgsnd, EStateM.run_bind, A.hmsgid, A.hmsgtype, A.hmsgp, A.hmsgflg, A.hnargs,
    BindingM.run_lua_ok, BindingM.run_lalloc]
  rw [msgsz] at hnull
  cases hbuf : (S.lalloc (BitVec.ofNat 64 (sizeofLong + A.msgp.length)) w.sys).1 with
  | block bytes =>
      rw [hbuf] at hnull
      cases hnull
  | null e => rfl

/-- With a block, a message is asked for. -/
theorem ReceiveArgs.made_of_block (A : ReceiveArgs S args) {bytes : Memory}
    (hblock : (S.lalloc A.msgsz w.sys).1 = .block bytes) : BindingM.made w (Pmsgrcv S args)
      = [.lalloc A.msgsz, .msgrcv A.msgid ⟨A.msgsz.toNat, bytes⟩ A.msgsz A.msgtyp A.msgflg] := by
  refine BindingM.made_eq ?_
  simp only [Pmsgrcv, EStateM.run_bind, A.hmsgid, A.hmsgsz, A.hmsgtyp, A.hmsgflg, A.hnargs,
    BindingM.run_lua_ok, BindingM.run_lalloc, hblock, BindingM.run_syscall]
  -- Nothing is called after the message has come, or not.
  cases (S.msgrcv A.msgid A.msgsz A.msgtyp A.msgflg (S.lalloc A.msgsz w.sys).2).1 with
  | failed e => exact List.append_assoc _ _ _
  | delivered mtype text e =>
      simp only
      split_ifs
      · exact List.append_assoc _ _ _
      · rw [EStateM.run_bind]
        cases lstring (message bytes mtype text) sizeofLong
          (BitVec.ofInt 64 (cint (BitVec.ofNat 64 text.length)) - BitVec.ofNat 64 sizeofLong) with
        | ok s => exact List.append_assoc _ _ _
        | error e => exact List.append_assoc _ _ _

/-- Without one, nothing is. -/
theorem ReceiveArgs.made_of_null (A : ReceiveArgs S args)
    (hnull : (S.lalloc A.msgsz w.sys).1.isNull) :
    BindingM.made w (Pmsgrcv S args) = [.lalloc A.msgsz] := by
  refine BindingM.made_eq ?_
  simp only [Pmsgrcv, EStateM.run_bind, A.hmsgid, A.hmsgsz, A.hmsgtyp, A.hmsgflg, A.hnargs,
    BindingM.run_lua_ok, BindingM.run_lalloc]
  cases hbuf : (S.lalloc A.msgsz w.sys).1 with
  | block bytes =>
      rw [hbuf] at hnull
      cases hnull
  | null e => rfl

/-- The size of the block is passed as that of the text. -/
theorem not_inBounds_snd (msgid : Int) (msgsz : BitVec 64) (bytes : Memory) (msgflg : Int) :
    ¬(Call.msgsnd msgid ⟨msgsz.toNat, bytes⟩ msgsz msgflg).InBounds := by
  show ¬8 + msgsz.toNat ≤ msgsz.toNat
  omega

/-- The size of the text is that of the block. -/
theorem not_inBounds_rcv (msgid : Int) (msgsz msgtyp : BitVec 64) (bytes : Memory)
    (msgflg : Int) : ¬(Call.msgrcv msgid ⟨msgsz.toNat, bytes⟩ msgsz msgtyp msgflg).InBounds := by
  show ¬8 + msgsz.toNat ≤ msgsz.toNat
  omega

/-- No call is made where arguments are refused. -/
theorem forall_made_msgsnd {p : Call → Prop}
    (h : ∀ _ : SendArgs S args, ∀ c ∈ BindingM.made w (Pmsgsnd S args), p c) :
    ∀ c ∈ BindingM.made w (Pmsgsnd S args), p c := by
  have hguard : ∀ c ∈ BindingM.made w (Pmsgsnd S args), Nonempty (SendArgs S args) := by
    refine BindingM.forall_made_lua fun msgid h₁ => BindingM.forall_made_lua fun msgtype h₂ =>
      BindingM.forall_made_lua fun msgp h₃ => BindingM.forall_made_lua fun msgflg h₄ =>
      BindingM.forall_made_lua fun _ h₅ c _ => ⟨⟨msgid, msgtype, msgp, msgflg, h₁, h₂, h₃, h₄, h₅⟩⟩
  intro c hc
  obtain ⟨A⟩ := hguard c hc
  exact h A c hc

/-- A call of `msgrcv` is only made with arguments that pass the checks. -/
theorem forall_made_msgrcv {p : Call → Prop}
    (h : ∀ _ : ReceiveArgs S args, ∀ c ∈ BindingM.made w (Pmsgrcv S args), p c) :
    ∀ c ∈ BindingM.made w (Pmsgrcv S args), p c := by
  have hguard : ∀ c ∈ BindingM.made w (Pmsgrcv S args), Nonempty (ReceiveArgs S args) := by
    refine BindingM.forall_made_lua fun msgid h₁ => BindingM.forall_made_lua fun msgsz h₂ =>
      BindingM.forall_made_lua fun msgtyp h₃ => BindingM.forall_made_lua fun msgflg h₄ =>
      BindingM.forall_made_lua fun _ h₅ c _ => ⟨⟨msgid, msgsz, msgtyp, msgflg, h₁, h₂, h₃, h₄, h₅⟩⟩
  intro c hc
  obtain ⟨A⟩ := hguard c hc
  exact h A c hc

variable (S args)

/-- The allocator has no block for what the binding asks. -/
def Passing.NoBlock (w : World σ Call) : Passing → Prop
  | .msgsnd => ∀ A : SendArgs S args, (S.lalloc A.msgsz w.sys).1.isNull
  | .msgrcv => ∀ A : ReceiveArgs S args, (S.lalloc A.msgsz w.sys).1.isNull

end Runs

/-- **Buffers stay intact if and only if there are none**: every call that is made goes beyond its
block. -/
theorem intact_iff {σ : Type} (S : System σ) (args : List LuaValue) (w : World σ Call)
    (b : Passing) : b.Intact S args w ↔ b.NoBlock S args w := by
  cases b with
  | msgsnd =>
      constructor
      · intro h A
        -- With a block there would be a call, and it is out of bounds.
        cases hbuf : (S.lalloc A.msgsz w.sys).1 with
        | null e => rfl
        | block bytes =>
            have hcall := (h _ (by
              rw [A.made_of_block hbuf]
              exact List.mem_cons_of_mem _ (List.mem_singleton_self _))).1
            exact absurd hcall (not_inBounds_snd _ _ _ _)
      · intro h
        refine forall_made_msgsnd fun A c hc => ?_
        rw [A.made_of_null (h A), List.mem_singleton] at hc
        subst hc
        exact ⟨trivial, fun s _ => trivial⟩
  | msgrcv =>
      constructor
      · intro h A
        cases hbuf : (S.lalloc A.msgsz w.sys).1 with
        | null e => rfl
        | block bytes =>
            have hcall := h _ (by
              rw [A.made_of_block hbuf]
              exact List.mem_cons_of_mem _ (List.mem_singleton_self _))
            exact absurd hcall (not_inBounds_rcv _ _ _ _ _)
      · intro h
        refine forall_made_msgrcv fun A c hc => ?_
        rw [A.made_of_null (h A), List.mem_singleton] at hc
        subst hc
        exact trivial

/-- The arguments of `msgsnd(5, 1, "hi")`. -/
def sendHi {σ : Type} (S : System σ) :
    SendArgs S [.integer 5, .integer 1, .string "hi".toList] :=
  ⟨5, 1, "hi".toList, 0, rfl, rfl, rfl, rfl, rfl⟩

/-- The arguments of `msgrcv(5, msgsz)`. -/
def receiveSize {σ : Type} (S : System σ) (msgsz : LuaInteger) :
    ReceiveArgs S [.integer 5, .integer msgsz] :=
  ⟨5, msgsz, 0, 0, rfl, rfl, rfl, rfl, rfl⟩

/-- `msgsnd(5, 1, "hi")` reads past its block and sends eight bytes more; `msgrcv(5, 2)` may write
past its. -/
theorem messages_overrun :
    ¬Passing.msgsnd.Intact System.quiet [.integer 5, .integer 1, .string "hi".toList] .start ∧
      ¬Passing.msgrcv.Intact System.quiet [.integer 5, .integer 2] .start ∧
      ∃ msg, .msgsnd 5 msg 10 0 ∈ BindingM.made .start
          (Pmsgsnd System.quiet [.integer 5, .integer 1, .string "hi".toList]) ∧
        read msg.bytes sizeofLong 10 = [104, 105, 0, 0, 0, 0, 0, 0, 0, 0] := by
  have hsnd := (sendHi System.quiet).made_of_block (w := .start) rfl
  have hrcv := (receiveSize System.quiet 2).made_of_block (w := .start) rfl
  refine ⟨fun h => ?_, fun h => ?_, (sendHi System.quiet).block fun _ => 0, ?_, by decide⟩
  · have hcall := (h _ (by
      rw [hsnd]
      exact List.mem_cons_of_mem _ (List.mem_singleton_self _))).1
    exact absurd hcall (not_inBounds_snd _ _ _ _)
  · have hcall := h _ (by
      rw [hrcv]
      exact List.mem_cons_of_mem _ (List.mem_singleton_self _))
    exact absurd hcall (not_inBounds_rcv _ _ _ _ _)
  · rw [hsnd]
    exact List.mem_cons_of_mem _ (List.mem_singleton_self _)

end LuaPosix.Messages

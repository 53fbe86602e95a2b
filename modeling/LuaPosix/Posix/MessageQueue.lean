import LuaPosix.Posix.MessageBuffers

/-! # What `msgrcv` returns

A queue as POSIX describes it, and what `msgrcv` makes of the message it gets. The count that
`msgrcv(2)` returns is that of the text; `msgrcv` takes it to count the type as well, and returns
eight bytes too few, or raises an error where there are none to leave out. -/

namespace LuaPosix.Messages

open LuaPattern (LStr)
open Bytes (Byte Memory load read)

/-! ## Queues -/

/-- A message in a queue. -/
structure Message where
  mtype : BitVec 64
  text : List Byte
  deriving DecidableEq, Repr

/-- `MSG_NOERROR` is among the flags. -/
def noerror (msgflg : Int) : Prop := BitVec.ofInt 32 msgflg &&& 4096#32 ≠ 0

/-- `MSG_EXCEPT` is among the flags. -/
def except (msgflg : Int) : Prop := BitVec.ofInt 32 msgflg &&& 8192#32 ≠ 0

/-- Whether long messages are cut can be decided. -/
instance (msgflg : Int) : Decidable (noerror msgflg) := inferInstanceAs (Decidable (_ ≠ _))

/-- Whether types are excluded can be decided. -/
instance (msgflg : Int) : Decidable (except msgflg) := inferInstanceAs (Decidable (_ ≠ _))

/-- The message that is asked for: the first one, the first of a type (or of any other), or the
first of the lowest type up to a bound. -/
def select (q : List Message) (msgtyp msgflg : Int) : Option Message :=
  if msgtyp = 0 then q.head?
  else if 0 < msgtyp then
    q.find? fun m => if except msgflg then m.mtype.toInt ≠ msgtyp else m.mtype.toInt = msgtyp
  else
    let low := q.filter fun m => m.mtype.toInt ≤ -msgtyp
    low.find? fun m => ∀ m' ∈ low, m.mtype.toInt ≤ m'.mtype.toInt

/-- The value of the macro. -/
def E2BIG : Int := 7

/-- The message queues of a system follow POSIX. -/
structure FollowsPosix {σ : Type} (S : System σ) where
  /-- What is in the queues. -/
  queue : σ → Int → List Message
  /-- Memory is another matter. -/
  queue_lalloc : ∀ size s, queue (S.lalloc size s).2 = queue s
  /-- What is sent comes last. -/
  queue_msgsnd : ∀ msgid mtype text msgflg s r e,
    (S.msgsnd msgid mtype text msgflg s).1 = .returned r e →
      queue (S.msgsnd msgid mtype text msgflg s).2 msgid = queue s msgid ++ [⟨mtype, text⟩]
  /-- What is asked for is delivered if it fits, -/
  delivered : ∀ msgid (msgsz msgtyp : BitVec 64) msgflg s m,
    select (queue s msgid) msgtyp.toInt msgflg = some m → 0 ≤ msgsz.toInt →
    m.text.length ≤ msgsz.toNat →
      ∃ e, (S.msgrcv msgid msgsz msgtyp msgflg s).1 = .delivered m.mtype m.text e
  /-- cut with `MSG_NOERROR` if it does not, -/
  cut : ∀ msgid (msgsz msgtyp : BitVec 64) msgflg s m,
    select (queue s msgid) msgtyp.toInt msgflg = some m → 0 ≤ msgsz.toInt →
    msgsz.toNat < m.text.length → noerror msgflg →
      ∃ e, (S.msgrcv msgid msgsz msgtyp msgflg s).1
        = .delivered m.mtype (m.text.take msgsz.toNat) e
  /-- and left in the queue otherwise. -/
  tooBig : ∀ msgid (msgsz msgtyp : BitVec 64) msgflg s m,
    select (queue s msgid) msgtyp.toInt msgflg = some m → 0 ≤ msgsz.toInt →
    msgsz.toNat < m.text.length → ¬noerror msgflg →
      (S.msgrcv msgid msgsz msgtyp msgflg s).1 = .failed E2BIG

/-! ## What comes back -/

section Returned

variable {σ : Type} {S : System σ} {args : List LuaValue} {w w' : World σ Call}

/-- A string that is made is shorter than the count by the size of the type. -/
theorem length_of_lstring {m : Memory} {res : Int} (hres : -2 ^ 31 ≤ res ∧ res < 2 ^ 31) {s : LStr}
    (h : lstring m sizeofLong (BitVec.ofInt 64 res - BitVec.ofNat 64 sizeofLong) = .ok s) :
    (s.length : Int) + 8 = res := by
  have hlen : (BitVec.ofInt 64 res - BitVec.ofNat 64 sizeofLong).toNat
      = ((res - 8) % 2 ^ 64).toNat := by
    rw [BitVec.toNat_sub, BitVec.toNat_ofNat, BitVec.toNat_ofInt, sizeofLong]
    omega
  rw [lstring, hlen] at h
  split_ifs at h with hlt
  cases h
  rw [length_ofBytes, Bytes.length_read]
  omega

/-- The count is at most the length, and an `int`. -/
theorem cint_length (n : Nat) :
    -2 ^ 31 ≤ cint (BitVec.ofNat 64 n) ∧ cint (BitVec.ofNat 64 n) < 2 ^ 31 ∧
      cint (BitVec.ofNat 64 n) ≤ n := by
  rw [cint_eq_bmod _ (by decide), BitVec.toInt_eq_toNat_bmod, Int.bmod_bmod_of_dvd (by decide),
    BitVec.toNat_ofNat, Int.bmod_def]
  omega

/-- **What `msgrcv` returns is eight bytes short.** -/
theorem ReceiveArgs.short_of_run (A : ReceiveArgs S args) {a : LuaInteger} {s : LStr}
    (h : (Pmsgrcv S args).run w = .ok [.integer a, .string s] w') :
    ∃ mtype text e, (S.msgrcv A.msgid A.msgsz A.msgtyp A.msgflg (S.lalloc A.msgsz w.sys).2).1
      = .delivered mtype text e ∧ s.length + 8 ≤ text.length ∧ s.length + 8 < 2 ^ 31 := by
  -- Two values are returned only where there is a block, a message and a string of it.
  simp only [Pmsgrcv, EStateM.run_bind, A.hmsgid, A.hmsgsz, A.hmsgtyp, A.hmsgflg, A.hnargs,
    BindingM.run_lua_ok, BindingM.run_lalloc] at h
  cases hbuf : (S.lalloc A.msgsz w.sys).1 with
  | null e =>
      rw [hbuf] at h
      cases h
  | block bytes =>
      simp only [hbuf, EStateM.run_bind, BindingM.run_syscall] at h
      cases hrcv : (S.msgrcv A.msgid A.msgsz A.msgtyp A.msgflg (S.lalloc A.msgsz w.sys).2).1 with
      | failed e =>
          rw [hrcv] at h
          cases h
      | delivered mtype text e =>
          simp only [hrcv] at h
          refine ⟨mtype, text, e, rfl, ?_⟩
          split_ifs at h
          · cases h
          · rw [EStateM.run_bind] at h
            cases hstr : lstring (message bytes mtype text) sizeofLong
                (BitVec.ofInt 64 (cint (BitVec.ofNat 64 text.length))
                  - BitVec.ofNat 64 sizeofLong) with
            | error e =>
                rw [hstr] at h
                cases h
            | ok s' =>
                rw [hstr] at h
                cases h
                obtain ⟨hge, hlt, hle⟩ := cint_length text.length
                have hlen := length_of_lstring ⟨hge, hlt⟩ hstr
                omega

/-- What is sent is as long as the block. -/
theorem SendArgs.queued_of_run (A : SendArgs S args) (F : FollowsPosix S) {r : LuaInteger}
    (h : (Pmsgsnd S args).run w = .ok [.integer r] w') :
    ∃ m, m.text.length = A.msgsz.toNat ∧
      F.queue w'.sys A.msgid = F.queue w.sys A.msgid ++ [m] := by
  simp only [Pmsgsnd, EStateM.run_bind, A.hmsgid, A.hmsgtype, A.hmsgp, A.hmsgflg, A.hnargs,
    BindingM.run_lua_ok, BindingM.run_lalloc] at h
  rw [msgsz]
  cases hbuf : (S.lalloc (BitVec.ofNat 64 (sizeofLong + A.msgp.length)) w.sys).1 with
  | null e =>
      rw [hbuf] at h
      cases h
  | block bytes =>
      simp only [hbuf, EStateM.run_bind, BindingM.run_syscall] at h
      cases hsnd : (S.msgsnd A.msgid (load 64 (message bytes A.msgtype (toBytes A.msgp)) 0)
          (read (message bytes A.msgtype (toBytes A.msgp)) sizeofLong
            (BitVec.ofNat 64 (sizeofLong + A.msgp.length)).toNat) A.msgflg
          (S.lalloc (BitVec.ofNat 64 (sizeofLong + A.msgp.length)) w.sys).2).1 with
      | failed e =>
          rw [hsnd] at h
          cases h
      | returned r' e =>
          have hqueue := F.queue_msgsnd _ _ _ _ _ _ _ hsnd
          rw [F.queue_lalloc] at hqueue
          rw [hsnd] at h
          split_ifs at h
          · cases h
          · cases h
            exact ⟨_, Bytes.length_read _, hqueue⟩

/-- A size that is not negative, as a natural number. -/
theorem toNat_of_toInt {msgsz : BitVec 64} {n : Nat} (h : msgsz.toInt = n) : msgsz.toNat = n := by
  rw [BitVec.toInt_eq_toNat_cond] at h
  have hlt := msgsz.isLt
  split_ifs at h <;> omega

end Returned

/-! ## A system that follows POSIX -/

/-- `msgrcv(2)` on a queue that does not wait. -/
def Message.receive (q : List Message) (msgsz msgtyp : BitVec 64) (msgflg : Int) :
    Delivered × List Message :=
  match select q msgtyp.toInt msgflg with
  | none => (.failed 42, q)
  | some m =>
      if msgsz.toInt < 0 then (.failed 22, q)
      else if m.text.length ≤ msgsz.toNat ∨ noerror msgflg then
        (.delivered m.mtype (m.text.take msgsz.toNat) 0, q.erase m)
      else (.failed E2BIG, q)

/-- A queue for each identifier, with room for everything. -/
def System.roomy : System (Int → List Message) where
  num := .zero
  strerror _ := []
  lalloc size s := (if size = 0 then .null none else .block fun _ => 0, s)
  msgsnd msgid mtype text _ s :=
    (.returned 0 0, Function.update s msgid (s msgid ++ [⟨mtype, text⟩]))
  msgrcv msgid msgsz msgtyp msgflg s :=
    ((Message.receive (s msgid) msgsz msgtyp msgflg).1,
      Function.update s msgid (Message.receive (s msgid) msgsz msgtyp msgflg).2)
  msgctlRmid _ s := (.failed 22, s)
  msgctlSet _ _ s := (.failed 22, s)
  msgctlStat _ s := ((.failed 22, ⟨0, 0, 0, 0, 0, 0, 0, 0, 0, 0, 0, 0⟩), s)

/-- It follows POSIX. -/
def System.roomy_followsPosix : FollowsPosix System.roomy where
  queue s := s
  queue_lalloc _ _ := rfl
  queue_msgsnd _ _ _ _ _ _ _ _ := Function.update_self _ _ _
  delivered msgid msgsz msgtyp msgflg s m hm hsz hlen := by
    refine ⟨0, ?_⟩
    show (Message.receive (s msgid) msgsz msgtyp msgflg).1 = _
    rw [Message.receive, hm]
    simp only
    rw [if_neg hsz.not_gt, if_pos (.inl hlen), List.take_of_length_le hlen]
  cut msgid msgsz msgtyp msgflg s m hm hsz hlen hflg := by
    refine ⟨0, ?_⟩
    show (Message.receive (s msgid) msgsz msgtyp msgflg).1 = _
    rw [Message.receive, hm]
    simp only
    rw [if_neg hsz.not_gt, if_pos (.inr hflg)]
  tooBig msgid msgsz msgtyp msgflg s m hm hsz hlen hflg := by
    show (Message.receive (s msgid) msgsz msgtyp msgflg).1 = _
    rw [Message.receive, hm]
    simp only
    rw [if_neg hsz.not_gt, if_neg (not_or_intro hlen.not_ge hflg)]

/-! ## Never what is in the queue -/

/-- `msgrcv` returns the type of a message, and as much of its text as was asked for. -/
def Returns {σ : Type} (S : System σ) (args : List LuaValue) (w : World σ Call) (mtype : BitVec 64)
    (text : LStr) : Prop :=
  ∃ w', (Pmsgrcv S args).run w = .ok [.integer mtype, .string text] w'

/-- **What `msgrcv` returns is never what is in the queue**, where it should be: neither a message
that fits, or is to be cut, nor the string that has just been sent. -/
theorem not_returns {σ : Type} (S : System σ) (F : FollowsPosix S) :
    (∀ args w (A : ReceiveArgs S args) m,
      select (F.queue w.sys A.msgid) A.msgtyp.toInt A.msgflg = some m → 0 ≤ A.msgsz.toInt →
      m.text.length ≤ A.msgsz.toNat ∨ noerror A.msgflg →
        ¬Returns S args w m.mtype (ofBytes (m.text.take A.msgsz.toNat))) ∧
    ∀ args args' w w' (A : SendArgs S args) (B : ReceiveArgs S args'),
      F.queue w.sys A.msgid = [] → (Pmsgsnd S args).run w = .ok [.integer 0] w' →
      B.msgid = A.msgid → B.msgsz.toInt = A.msgp.length → B.msgtyp = 0 → B.msgflg = 0 →
        ¬Returns S args' w' A.msgtype A.msgp := by
  constructor
  -- What `msgrcv(2)` delivers is the message, cut to the size; the string is shorter than that.
  · rintro args w A m hm hsz hfits ⟨w', hrun⟩
    obtain ⟨mtype, text, e, hrcv, hshort, -⟩ := A.short_of_run hrun
    rw [length_ofBytes, List.length_take] at hshort
    rw [← F.queue_lalloc A.msgsz] at hm
    by_cases hlen : m.text.length ≤ A.msgsz.toNat
    · obtain ⟨e', hdeliv⟩ := F.delivered _ _ _ _ _ _ hm hsz hlen
      rw [hdeliv] at hrcv
      cases hrcv
      omega
    · obtain ⟨e', hcut⟩ := F.cut _ _ _ _ _ _ hm hsz (Nat.lt_of_not_le hlen)
        (hfits.resolve_left hlen)
      rw [hcut] at hrcv
      cases hrcv
      rw [List.length_take] at hshort
      omega
  · rintro args args' w w' A B hempty hsnd hid hsz htyp hflg ⟨w'', hrun⟩
    -- The message that is sent is the only one in the queue, so it is the one asked for.
    obtain ⟨m, hlen, hqueue⟩ := A.queued_of_run F hsnd
    rw [hempty, List.nil_append] at hqueue
    obtain ⟨mtype, text, e, hrcv, -⟩ := B.short_of_run hrun
    have hselect : select (F.queue (S.lalloc B.msgsz w'.sys).2 B.msgid) B.msgtyp.toInt B.msgflg
        = some m := by
      rw [F.queue_lalloc, hid, hqueue, htyp]
      rfl
    -- The size of the type was sent as well, so the message does not fit.
    have hbig : B.msgsz.toNat < m.text.length := by
      have hlt := B.msgsz.isLt
      rw [hlen, SendArgs.msgsz, BitVec.toNat_ofNat, sizeofLong, toNat_of_toInt hsz]
      have hsz' := hsz
      rw [BitVec.toInt_eq_toNat_cond] at hsz'
      split_ifs at hsz' <;> omega
    have herr := F.tooBig _ _ _ _ _ _ hselect (hsz ▸ Int.natCast_nonneg _) hbig (by
      rw [hflg]
      decide)
    rw [herr] at hrcv
    cases hrcv

/-- One message in each queue. -/
def oneMessage (text : List Byte) : World (Int → List Message) Call :=
  ⟨0, .empty, fun _ => [⟨1, text⟩], []⟩

/-- No messages. -/
def noMessages : World (Int → List Message) Call := ⟨0, .empty, fun _ => [], []⟩

/-- A message of nine bytes, and one of two. -/
theorem not_returns_roomy :
    ¬Returns System.roomy [.integer 5, .integer 10] (oneMessage [1, 2, 3, 4, 5, 6, 7, 8, 9]) 1
      (ofBytes [1, 2, 3, 4, 5, 6, 7, 8, 9]) ∧
    ¬Returns System.roomy [.integer 5, .integer 2]
      (BindingM.worldAfter ((Pmsgsnd System.roomy
        [.integer 5, .integer 1, .string "hi".toList]).run noMessages)) 1 "hi".toList :=
  ⟨(not_returns System.roomy System.roomy_followsPosix).1 _
      (oneMessage [1, 2, 3, 4, 5, 6, 7, 8, 9]) (receiveSize _ 10)
      ⟨1, [1, 2, 3, 4, 5, 6, 7, 8, 9]⟩ rfl (by decide) (.inl (by decide)),
    (not_returns System.roomy System.roomy_followsPosix).2 _ _ noMessages _ (sendHi _)
      (receiveSize _ 2) rfl rfl rfl (by decide) rfl rfl⟩

set_option maxRecDepth 4000 in
/-- `msgrcv(5, 2)` on a message of type 1 with the text `hi` raises an error, on one that
`msgsnd(5, 1, "hi")` has sent it fails with `E2BIG`, and `msgrcv(5, 8)` on one with eight bytes
returns none of them. -/
theorem received_short :
    (¬Returns System.roomy [.integer 5, .integer 2] (oneMessage [104, 105]) 1 "hi".toList ∧
      ∃ w, (Pmsgrcv System.roomy [.integer 5, .integer 2]).run (oneMessage [104, 105])
        = .error (.raises (.error "memory allocation error: block too big")) w) ∧
    (∃ w w', (Pmsgsnd System.roomy [.integer 5, .integer 1, .string "hi".toList]).run noMessages
        = .ok [.integer 0] w ∧ ¬Returns System.roomy [.integer 5, .integer 2] w 1 "hi".toList ∧
      (Pmsgrcv System.roomy [.integer 5, .integer 2]).run w
        = .ok [.nil, .string [], .integer 7] w') ∧
    ∃ w, (Pmsgrcv System.roomy [.integer 5, .integer 8]).run
      (oneMessage [104, 105, 106, 107, 108, 109, 110, 111]) = .ok [.integer 1, .string []] w := by
  refine ⟨⟨?_, _, rfl⟩, ⟨_, _, rfl, ?_, rfl⟩, _, rfl⟩
  · rintro ⟨w, h⟩
    cases h
  · rintro ⟨w, h⟩
    cases h

end LuaPosix.Messages

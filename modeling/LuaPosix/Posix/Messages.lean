import LuaPosix.Lua.Binding

/-! # `msgctl`, `msgsnd` and `msgrcv`

System V message queues. `msgsnd(2)` and `msgrcv(2)` take a pointer to the type of a message, a
`long` that its text follows, and the size of the text alone. What the bindings allocate and what
they pass is told apart here, so that the memory the system calls get at can be compared with the
block they are given. -/

namespace LuaPosix.Messages

open LuaPattern (LStr)
open Bytes (Byte Memory load store read write)
open Traversal (Layout)

/-- `sizeof(long)`. -/
def sizeofLong : Nat := 8

/-- A block from the allocator: its size, and the bytes from its start on, within it and after. -/
structure Block where
  size : Nat
  bytes : Memory

/-- What `tomsqid` fills in of a `struct msqid_ds`. -/
structure Msqid where
  msg_qbytes : BitVec 64
  uid : BitVec 32
  gid : BitVec 32
  mode : Int
  deriving DecidableEq, Repr

/-- What `msgctl(2)` reports in a `struct msqid_ds`. -/
structure MsqidDs where
  msg_qnum : BitVec 64
  msg_qbytes : BitVec 64
  msg_lspid : BitVec 32
  msg_lrpid : BitVec 32
  msg_stime : BitVec 64
  msg_rtime : BitVec 64
  msg_ctime : BitVec 64
  uid : BitVec 32
  gid : BitVec 32
  cuid : BitVec 32
  cgid : BitVec 32
  mode : BitVec 32

/-- What `msgctl` does with a queue. -/
inductive Cmd where
  | IPC_RMID
  | IPC_SET
  | IPC_STAT
  deriving DecidableEq, Repr

/-- The value of the macro. -/
def Cmd.value : Cmd → Int
  | .IPC_RMID => 0
  | .IPC_SET => 1
  | .IPC_STAT => 2

/-- The case `switch (cmd)` goes to, `none` where there is none. -/
def Cmd.ofInt (cmd : Int) : Option Cmd :=
  [Cmd.IPC_RMID, .IPC_SET, .IPC_STAT].find? (·.value = cmd)

/-- The calls of the C library. -/
inductive Call where
  | lalloc (size : BitVec 64)
  | msgsnd (msgid : Int) (msg : Block) (msgsz : BitVec 64) (msgflg : Int)
  | msgrcv (msgid : Int) (msg : Block) (msgsz msgtyp : BitVec 64) (msgflg : Int)
  | msgctlRmid (id : Int)
  | msgctlSet (id : Int) (msqid : Msqid)
  | msgctlStat (id : Int)

/-- What comes of `msgrcv(2)`: an error number, or the type and the text it has written. -/
inductive Delivered where
  | failed (errno : Int)
  | delivered (mtype : BitVec 64) (text : List Byte) (errno : Int)

/-- `errno` after the call. -/
def Delivered.errno : Delivered → Int
  | .failed errno => errno
  | .delivered _ _ errno => errno

/-- What the rest of the system answers, in a state of its own. -/
structure System (σ : Type) where
  num : Numerals
  strerror : Int → LStr
  lalloc : (size : BitVec 64) → σ → Allocated × σ
  /-- The type and the text are what the call reads. -/
  msgsnd : (msgid : Int) → (mtype : BitVec 64) → (text : List Byte) → (msgflg : Int) → σ →
    SysResult 32 × σ
  msgrcv : (msgid : Int) → (msgsz msgtyp : BitVec 64) → (msgflg : Int) → σ → Delivered × σ
  msgctlRmid : (id : Int) → σ → SysResult 32 × σ
  msgctlSet : (id : Int) → Msqid → σ → SysResult 32 × σ
  msgctlStat : (id : Int) → σ → (SysResult 32 × MsqidDs) × σ

section Model

variable {σ : Type} (S : System σ) (args : List LuaValue)

/-! ## Control -/

/-- The fields of a queue that can be set. -/
def Smsqid_fields : List String := ["msg_qbytes", "msg_perm"]

/-- And those of its permissions. -/
def Sipcperm_fields : List String := ["uid", "gid", "mode"]

/-- The fields of a queue's table that `tomsqid` reads, the table of permissions being on the
stack at `subindex`. -/
def msqidFields (H : Heap) (index t subindex : Nat) : CallM Msqid := do
  let msg_qbytes ← H.checkintegerfield index t "msg_qbytes"
  match ← H.checkfieldtype index t "msg_perm" "table" (some "table") with
  | .table perm => do
      let uid ← H.checkintegerfield subindex perm "uid"
      let gid ← H.checkintegerfield subindex perm "gid"
      let mode ← H.checkintfield subindex perm "mode"
      H.checkfieldnames S.num index t Smsqid_fields
      H.checkfieldnames S.num subindex perm Sipcperm_fields
      return ⟨msg_qbytes, uid.setWidth 32, gid.setWidth 32, mode⟩
  | _ => .error .undefined

/-- `tomsqid(L, index, &msqid)`. -/
def tomsqid (index : Nat) (H : Heap) : CallM Msqid := do
  let t ← checktable args index
  msqidFields S H index t (args.length + 1)

section Fields

open Heap (pushintegerfield)

/-- The fields of the table `pushmsqid` makes, but for `msg_perm`. -/
def MsqidDs.fields (msqid : MsqidDs) : List (String × LuaValue) :=
  pushintegerfield "msg_qnum" msqid.msg_qnum ++
  pushintegerfield "msg_qbytes" msqid.msg_qbytes ++
  pushintegerfield "msg_lspid" (msqid.msg_lspid.signExtend 64) ++
  pushintegerfield "msg_lrpid" (msqid.msg_lrpid.signExtend 64) ++
  pushintegerfield "msg_stime" msqid.msg_stime ++
  pushintegerfield "msg_rtime" msqid.msg_rtime ++
  pushintegerfield "msg_ctime" msqid.msg_ctime

/-- The fields of `msg_perm`. -/
def MsqidDs.permFields (msqid : MsqidDs) : List (String × LuaValue) :=
  pushintegerfield "uid" (msqid.uid.setWidth 64) ++
  pushintegerfield "gid" (msqid.gid.setWidth 64) ++
  pushintegerfield "cuid" (msqid.cuid.setWidth 64) ++
  pushintegerfield "cgid" (msqid.cgid.setWidth 64) ++
  pushintegerfield "mode" (msqid.mode.setWidth 64)

end Fields

/-- `pushmsqid(L, &msqid)`. -/
def pushmsqid (L : Layout fun _ : LuaValue => LuaValue) (msqid : MsqidDs) :
    BindingM σ Call LuaValue := do
  let table ← BindingM.newtable L msqid.fields
  let perm ← BindingM.newtable L msqid.permFields
  BindingM.settable L table (Heap.fieldName "msg_perm") perm
  return table

/-- `msgctl(id, cmd, values)`. -/
def Pmsgctl (L : Layout fun _ : LuaValue => LuaValue) : BindingM σ Call (List LuaValue) := do
  let id ← checkint S.num.strtod args 1
  let cmd ← checkint S.num.strtod args 2
  match Cmd.ofInt cmd with
  | some .IPC_RMID => do
      checknargs args 2
      let x ← BindingM.syscall (.msgctlRmid id) SysResult.errno (S.msgctlRmid id)
      return x.push S.strerror (some "msgctl".toList)
  | some .IPC_SET => do
      checknargs args 3
      let msqid ← BindingM.read (tomsqid S args 3)
      let x ← BindingM.syscall (.msgctlSet id msqid) SysResult.errno (S.msgctlSet id msqid)
      return x.push S.strerror (some "msgctl".toList)
  | some .IPC_STAT => do
      checknargs args 2
      let x ← BindingM.syscall (.msgctlStat id) (fun x => x.1.errno) (S.msgctlStat id)
      if cint x.1.value < 0 then
        return pusherror S.strerror (← BindingM.errno) (some "msgctl".toList)
      else do
        let table ← pushmsqid L x.2
        return [table]
  | none => do
      -- `errno` has not been set.
      checknargs args 3
      return pusherror S.strerror (← BindingM.errno) (some "unsupported cmd value".toList)

/-! ## Messages -/

/-- A message in memory: its type, then its text. -/
def message (bytes : Memory) (mtype : BitVec 64) (text : List Byte) : Memory :=
  write (store bytes 0 mtype) sizeofLong text

/-- `msgsnd(id, type, message, flags)`. The block is freed before the outcome is reported. -/
def Pmsgsnd : BindingM σ Call (List LuaValue) := do
  let msgid ← checkint S.num.strtod args 1
  let msgtype ← checkinteger S.num.strtod args 2
  let msgp ← checklstring args S.num.numberText 3
  let msgflg ← optint S.num.strtod args 4 0
  checknargs args 4
  -- The size of the block, which is passed as that of the text as well.
  let msgsz := BitVec.ofNat 64 (sizeofLong + msgp.length)
  match ← BindingM.lalloc (.lalloc msgsz) (S.lalloc msgsz) with
  | .null _ => return pusherror S.strerror (← BindingM.errno) (some "lalloc".toList)
  | .block bytes => do
      let msg : Block := ⟨msgsz.toNat, message bytes msgtype (toBytes msgp)⟩
      let x ← BindingM.syscall (.msgsnd msgid msg msgsz msgflg) SysResult.errno
        (S.msgsnd msgid (load 64 msg.bytes 0) (read msg.bytes sizeofLong msgsz.toNat) msgflg)
      if cint x.value = -1 then return pusherror S.strerror (← BindingM.errno) none
      else return [.integer (BitVec.ofInt 64 (cint x.value))]

/-- `msgrcv(id, size, type, flags)`. The block is freed before the outcome is reported. -/
def Pmsgrcv : BindingM σ Call (List LuaValue) := do
  let msgid ← checkint S.num.strtod args 1
  let msgsz ← checkinteger S.num.strtod args 2
  let msgtyp ← optinteger S.num.strtod args 3 0
  let msgflg ← optint S.num.strtod args 4 0
  checknargs args 4
  match ← BindingM.lalloc (.lalloc msgsz) (S.lalloc msgsz) with
  | .null _ => return pusherror S.strerror (← BindingM.errno) (some "lalloc".toList)
  | .block bytes =>
      let call := Call.msgrcv msgid ⟨msgsz.toNat, bytes⟩ msgsz msgtyp msgflg
      match ← BindingM.syscall call Delivered.errno (S.msgrcv msgid msgsz msgtyp msgflg) with
      | .failed _ => return pusherror S.strerror (← BindingM.errno) none
      | .delivered mtype text _ => do
          let res := cint (BitVec.ofNat 64 text.length)
          if res = -1 then return pusherror S.strerror (← BindingM.errno) none
          else do
            let msg := message bytes mtype text
            -- `res` is an `int`, `sizeof(long)` is not: the difference wraps around.
            let mtext ← lstring msg sizeofLong (BitVec.ofInt 64 res - BitVec.ofNat 64 sizeofLong)
            return [.integer (load 64 msg 0), .string mtext]

end Model

/-- A small instance: blocks of zeros, and no message in any queue. -/
def System.quiet : System Unit where
  num := .zero
  strerror _ := []
  lalloc size s := (if size = 0 then .null none else .block fun _ => 0, s)
  msgsnd _ _ _ _ s := (.returned 0 0, s)
  msgrcv _ _ _ _ s := (.failed 42, s)
  msgctlRmid _ s := (.failed 22, s)
  msgctlSet _ _ s := (.failed 22, s)
  msgctlStat _ s := ((.failed 22, ⟨0, 0, 0, 0, 0, 0, 0, 0, 0, 0, 0, 0⟩), s)

end LuaPosix.Messages

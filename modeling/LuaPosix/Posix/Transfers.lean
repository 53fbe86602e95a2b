import LuaPosix.Lua.Results

/-! # `lseek`, `nice`, `write`, `send` and `sendto`

The bindings whose system calls return an `off_t` or a `ssize_t`, or -1 as a value. Each is
described by the system call it makes, if it makes one, and the values it returns. -/

namespace LuaPosix.Transfers

open LuaPattern (LStr)

/-- What `write(2)` is asked for: `nbytes` bytes from `buf + offset`. -/
structure WriteCall where
  fd : Int
  offset : BitVec 64
  nbytes : BitVec 64
  deriving DecidableEq, Repr

/-- What the rest of the system answers. -/
structure System where
  lseek : (fd : Int) → (offset : BitVec 64) → (whence : Int) → SysResult 64
  nice : (inc : Int) → SysResult 32
  write : WriteCall → SysResult 64
  send : (fd : Int) → (buf : LStr) → SysResult 64
  /-- The address is the argument, encoded. -/
  sendto : (fd : Int) → (buf : LStr) → (sa : List (BitVec 8)) → SysResult 64
  /-- `sockaddr_from_lua` of an argument: an error, no address, or its bytes. -/
  sockaddr_from_lua : LuaValue → LuaM (Option (List (BitVec 8)))
  strerror : Int → LStr
  /-- The value of the macro. -/
  EINVAL : Int
  /-- Numerals with a fraction or an exponent. -/
  strtod : LStr → Option Rat
  /-- The text of a number. -/
  numberText : LuaValue → LStr

/-- The outcome of a binding: its system call, if it made one, and the values it returns. -/
abbrev Reported (w : Nat) := Option (SysResult w) × List LuaValue

section Model

variable (S : System) (args : List LuaValue)

/-- `lseek(fd, offset, whence)`. -/
def Plseek : LuaM (Reported 64) := do
  let fd ← checkint S.strtod args 1
  let offset ← checkinteger S.strtod args 2
  let whence ← checkint S.strtod args 3
  checknargs args 3
  return (some (S.lseek fd offset whence), (S.lseek fd offset whence).push S.strerror none)

/-- `nice(inc)`. -/
def Pnice : LuaM (Reported 32) := do
  let inc ← checkint S.strtod args 1
  checknargs args 1
  return (some (S.nice inc), (S.nice inc).push S.strerror (some "nice".toList))

/-- The text of the error `write` raises itself; `%d` takes an `int`. -/
def writeMessage (invalid_offset : BitVec 64) (buflen : Int) : LStr :=
  ("write: invalid attempt to access offset " ++ toString (cint invalid_offset) ++
    " in a buffer of length " ++ toString buflen).toList

/-- The request `Pwrite` makes of `write(2)`, if any, for a buffer of `buflen` bytes. -/
inductive WriteRequest where
  | nothing
  | call (offset nbytes : BitVec 64)
  | invalid (invalid_offset : BitVec 64)
  deriving DecidableEq, Repr

/-- The arithmetic of `Pwrite`, on 64-bit words: `buflen` is an `int`, and `isnil` says that
`nbytes` is nil. -/
def writeRequest (buflen : Int) (nbytes offset : BitVec 64) (isnil : Bool) : WriteRequest :=
  let nbytes := if offset ≠ 0 ∧ isnil then BitVec.ofInt 64 buflen - offset else nbytes
  if nbytes = 0 then .nothing
  else if 0 ≤ offset.toInt ∧ 0 < nbytes.toInt ∧ (offset + nbytes).toInt ≤ buflen then
    .call offset nbytes
  else if (offset + nbytes).toInt < 0 ∨ buflen < (offset + nbytes).toInt then
    .invalid (offset + nbytes)
  else .invalid offset

/-- What `Pwrite` does about its request: the call of `write(2)` and its outcome, if it is made,
and the values returned. -/
def WriteRequest.answer (fd buflen : Int) :
    WriteRequest → Option (WriteCall × SysResult 64) × List LuaValue
  | .nothing => (none, [.integer 0])
  | .call offset nbytes =>
      (some (⟨fd, offset, nbytes⟩, S.write ⟨fd, offset, nbytes⟩),
        (S.write ⟨fd, offset, nbytes⟩).push S.strerror none)
  | .invalid invalid_offset =>
      (none, [.nil, .string (writeMessage invalid_offset buflen),
        .integer (BitVec.ofInt 64 S.EINVAL)])

/-- `write(fd, buf, nbytes, offset)`. -/
def Pwrite : LuaM (Option (WriteCall × SysResult 64) × List LuaValue) := do
  let fd ← checkint S.strtod args 1
  let buf ← checklstring args S.numberText 2
  let buflen := cint (BitVec.ofNat 64 buf.length)
  let nbytes ← optinteger S.strtod args 3 (BitVec.ofInt 64 buflen)
  let offset ← optinteger S.strtod args 4 0
  checknargs args 4
  return (writeRequest buflen nbytes offset (args[2]? = some .nil)).answer S fd buflen

/-- `send(fd, buf)`. -/
def Psend : LuaM (Reported 64) := do
  let fd ← checkint S.strtod args 1
  let buf ← checklstring args S.numberText 2
  checknargs args 2
  return (some (S.send fd buf), (S.send fd buf).push S.strerror (some "send".toList))

/-- `sendto(fd, buf, sa)`; `errno` is what it was before. -/
def Psendto (errno : Int) : LuaM (Reported 64) := do
  let fd ← checkint S.strtod args 1
  let buf ← checklstring args S.numberText 2
  checknargs args 3
  let sa ← S.sockaddr_from_lua (args[2]?.getD .nil)
  match sa with
  | none =>
      return (none, pusherror S.strerror errno (some "not a valid IPv4 or IPv6 argument".toList))
  | some sa =>
      return (some (S.sendto fd buf sa), (S.sendto fd buf sa).push S.strerror
        (some "sendto".toList))

end Model

end LuaPosix.Transfers

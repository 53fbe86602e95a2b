import LuaPosix.Posix.Sockaddr

/-! # Sockets

The bindings that take the address of a socket from a table (`connect`, `bind` and `sendto`), or
make a table of an address (`getaddrinfo`, `accept`, `recvfrom`, `getsockname` and
`getpeername`). -/

namespace LuaPosix.Sockets

open LuaPattern (LStr)
open Bytes (Byte Memory read write)
open Traversal (Layout)

/-- The hints for `getaddrinfo(3)`. -/
structure Hints where
  ai_family : Int
  ai_socktype : Int
  ai_protocol : Int
  ai_flags : Int
  deriving DecidableEq, Repr

/-- The calls of the C library. An address is the bytes from the pointer on. -/
inductive Call where
  | connect (fd : Int) (sa : List Byte)
  | bind (fd : Int) (sa : List Byte)
  | sendto (fd : Int) (buf : LStr) (sa : List Byte)
  | getaddrinfo (host service : Option LStr) (hints : Hints)
  | accept (fd : Int)
  | lalloc (size : BitVec 64)
  | recvfrom (fd : Int) (count : BitVec 64)
  | getsockname (fd : Int)
  | getpeername (fd : Int)

/-- What comes of a call that is given room for an address: its result, and the address the kernel
has, of which it writes what there is room for. -/
structure Named (w : Nat) where
  result : SysResult w
  addr : List Byte

/-- What comes of `recvfrom(2)`: an error number, or data and the address of the source. -/
inductive Received where
  | failed (errno : Int)
  | received (data addr : List Byte) (errno : Int)

/-- `errno` after the call. -/
def Received.errno : Received → Int
  | .failed errno => errno
  | .received _ _ errno => errno

/-- What the rest of the system answers, in a state of its own. -/
structure System (σ : Type) where
  num : Numerals
  presentation : Presentation
  strerror : Int → LStr
  gai_strerror : Int → LStr
  connect : (fd : Int) → (sa : List Byte) → σ → SysResult 32 × σ
  bind : (fd : Int) → (sa : List Byte) → σ → SysResult 32 × σ
  sendto : (fd : Int) → (buf : LStr) → (sa : List Byte) → σ → SysResult 64 × σ
  /-- An error code, or the list. -/
  getaddrinfo : (host service : Option LStr) → Hints → σ → Except Int (List AddrInfo) × σ
  accept : (fd : Int) → σ → Named 32 × σ
  lalloc : (size : BitVec 64) → σ → Allocated × σ
  recvfrom : (fd : Int) → (count : BitVec 64) → σ → Received × σ
  getsockname : (fd : Int) → σ → Named 32 × σ
  getpeername : (fd : Int) → σ → Named 32 × σ

section Model

variable {σ : Type} (S : System σ) (args : List LuaValue)

/-! ## Addresses from tables -/

/-- `connect(fd, addr)`. -/
def Pconnect : BindingM σ Call (List LuaValue) := do
  let fd ← checkint S.num.strtod args 1
  checknargs args 2
  match ← BindingM.read fun H => sockaddr_from_lua S.num S.presentation H 2 args with
  | none =>
      -- `errno` has not been set.
      return pusherror S.strerror (← BindingM.errno)
        (some "not a valid IPv4 or IPv6 address argument".toList)
  | some (sa, salen) => do
      let sa := read sa 0 salen
      let x ← BindingM.syscall (.connect fd sa) SysResult.errno (S.connect fd sa)
      return x.push S.strerror (some "connect".toList)

/-- `bind(fd, addr)`. -/
def Pbind : BindingM σ Call (List LuaValue) := do
  checknargs args 2
  let fd ← checkint S.num.strtod args 1
  match ← BindingM.read fun H => sockaddr_from_lua S.num S.presentation H 2 args with
  | none =>
      return pusherror S.strerror (← BindingM.errno)
        (some "not a valid IPv4 or IPv6 argument".toList)
  | some (sa, salen) => do
      let sa := read sa 0 salen
      let x ← BindingM.syscall (.bind fd sa) SysResult.errno (S.bind fd sa)
      return x.push S.strerror (some "bind".toList)

/-- `sendto(fd, buffer, destination)`. -/
def Psendto : BindingM σ Call (List LuaValue) := do
  let fd ← checkint S.num.strtod args 1
  let buf ← checklstring args S.num.numberText 2
  checknargs args 3
  match ← BindingM.read fun H => sockaddr_from_lua S.num S.presentation H 3 args with
  | none =>
      return pusherror S.strerror (← BindingM.errno)
        (some "not a valid IPv4 or IPv6 argument".toList)
  | some (sa, salen) => do
      let sa := read sa 0 salen
      let x ← BindingM.syscall (.sendto fd buf sa) SysResult.errno (S.sendto fd buf sa)
      return x.push S.strerror (some "sendto".toList)

/-! ## Names of hosts -/

/-- `Sai_fields`. -/
def Sai_fields : List String := ["family", "socktype", "protocol", "flags"]

/-- The `service` of `getaddrinfo`. -/
def serviceArgument (host : Option LStr) : LuaM (Option LStr) :=
  match argument args 2 with
  | none | some .nil =>
      if host = none then .error (argtypeerror args 2 "integer or string") else .ok none
  | some v =>
      match S.num.tolstring v with
      | some s => .ok (some (cstring s))
      | none => .error (argtypeerror args 2 "integer, nil or string")

/-- The `hints` of `getaddrinfo`. -/
def hintsArgument (H : Heap) : CallM Hints :=
  match argument args 3 with
  | none | some .nil => .ok ⟨0, 0, 0, 0⟩
  | some (.table t) => do
      H.checkfieldnames S.num 3 t Sai_fields
      let family ← H.optintfield 3 t "family" 0
      let socktype ← H.optintfield 3 t "socktype" 0
      let protocol ← H.optintfield 3 t "protocol" 0
      let flags ← H.optintfield 3 t "flags" 0
      return ⟨family, socktype, protocol, flags⟩
  | some _ => .error (.raises (argtypeerror args 3 "nil or table"))

/-- One round of the loop over the list: a table for the entry, at the next place. -/
def pushEntry (L : Layout fun _ : LuaValue => LuaValue) (list : LuaValue) (n : Nat)
    (p : AddrInfo) : BindingM σ Call Nat := do
  let entry ← BindingM.newtable L (p.fields S.presentation)
  BindingM.settable L list (.integer (BitVec.ofNat 64 n)) entry
  return n + 1

/-- `getaddrinfo(host, service, hints)`. -/
def Pgetaddrinfo (L : Layout fun _ : LuaValue => LuaValue) : BindingM σ Call (List LuaValue) := do
  let host ← optstring S.num args 1
  checknargs args 3
  let service ← serviceArgument S args host
  let hints ← BindingM.read (hintsArgument S args)
  match ← BindingM.libcall (.getaddrinfo host service hints) (S.getaddrinfo host service hints) with
  | .error r => return [.nil, .string (S.gai_strerror r), .integer (BitVec.ofInt 64 r)]
  | .ok res => do
      let list ← BindingM.newtable L []
      let _ ← res.foldlM (pushEntry S L list) 1
      return [list]

/-! ## Tables from addresses -/

variable (L : Layout fun _ : LuaValue => LuaValue) (stale : Memory)

/-- The block after the kernel has written an address over what was there. -/
def filled (addr : List Byte) : Memory := write stale 0 (addr.take sizeofStorage)

/-- `pushsockaddrinfo(L, sa.ss_family, &sa)`. -/
def pushAddress (sa : Memory) : BindingM σ Call LuaValue :=
  BindingM.newtable L (addressFields S.presentation sa)

/-- `accept(fd)`; the block for the address is not cleared. -/
def Paccept : BindingM σ Call (List LuaValue) := do
  let fd ← checkint S.num.strtod args 1
  checknargs args 1
  let x ← BindingM.syscall (.accept fd) (fun x => x.result.errno) (S.accept fd)
  let fd_client := cint x.result.value
  if fd_client = -1 then
    return pusherror S.strerror (← BindingM.errno) (some "accept".toList)
  else do
    let address ← pushAddress S L (filled stale x.addr)
    return [.integer (BitVec.ofInt 64 fd_client), address]

/-- `recvfrom(fd, count)`. -/
def Precvfrom : BindingM σ Call (List LuaValue) := do
  let fd ← checkint S.num.strtod args 1
  let count ← checkinteger S.num.strtod args 2
  checknargs args 2
  -- Reset `errno`, in case the allocator does not set it.
  BindingM.seterrno 0
  let buf ← BindingM.lalloc (.lalloc count) (S.lalloc count)
  if buf.isNull ∧ count ≠ 0 then
    return pusherror S.strerror (← BindingM.errno) (some "lalloc".toList)
  else
    match ← BindingM.syscall (.recvfrom fd count) Received.errno (S.recvfrom fd count) with
    | .failed _ => return pusherror S.strerror (← BindingM.errno) none
    | .received data addr _ => do
        let address ← pushAddress S L (filled stale addr)
        return [.string (ofBytes data), address]

/-- What `getsockname` and `getpeername` make of their call. -/
def pushNamed (name : String) (x : Named 32) : BindingM σ Call (List LuaValue) := do
  if cint x.result.value ≠ 0 then
    return pusherror S.strerror (← BindingM.errno) (some name.toList)
  else do
    let address ← pushAddress S L (filled stale x.addr)
    return [address]

/-- `getsockname(fd)`. -/
def Pgetsockname : BindingM σ Call (List LuaValue) := do
  let fd ← checkint S.num.strtod args 1
  checknargs args 1
  let x ← BindingM.syscall (.getsockname fd) (fun x => x.result.errno) (S.getsockname fd)
  pushNamed S L stale "getsockname" x

/-- `getpeername(fd)`. -/
def Pgetpeername : BindingM σ Call (List LuaValue) := do
  let fd ← checkint S.num.strtod args 1
  checknargs args 1
  let x ← BindingM.syscall (.getpeername fd) (fun x => x.result.errno) (S.getpeername fd)
  pushNamed S L stale "getpeername" x

end Model

/-- A small instance, where every call fails with `EBADF`. -/
def System.failing : System Unit where
  num := .zero
  presentation := loopback
  strerror _ := []
  gai_strerror _ := []
  connect _ _ s := (.failed 9, s)
  bind _ _ s := (.failed 9, s)
  sendto _ _ _ s := (.failed 9, s)
  getaddrinfo _ _ _ s := (.error (-2), s)
  accept _ s := (⟨.failed 9, []⟩, s)
  lalloc _ s := (.block fun _ => 0, s)
  recvfrom _ _ s := (.failed 9, s)
  getsockname _ s := (⟨.failed 9, []⟩, s)
  getpeername _ s := (⟨.failed 9, []⟩, s)

end LuaPosix.Sockets

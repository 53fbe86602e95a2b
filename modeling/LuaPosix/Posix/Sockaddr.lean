import LuaPosix.Lua.Binding

/-! # Socket addresses

A socket address is a block of bytes that begins with its address family; the other fields lie
where the structure of the family has them. `pushsockaddrinfo` makes a table of them, and
`sockaddr_from_lua` fills a cleared block from such a table. The families, their numbers and
layouts are those of Linux on a machine with the least significant byte first. -/

namespace LuaPosix.Sockets

open LuaPattern (LStr)
open Bytes (Byte Memory load store read write swap)

/-! ## Families and fields -/

/-- The address families that are told apart. -/
inductive Family where
  | AF_UNIX
  | AF_INET
  | AF_INET6
  | AF_NETLINK
  | AF_PACKET
  deriving DecidableEq, Repr

/-- The value of the macro. -/
def Family.value : Family → Int
  | .AF_UNIX => 1
  | .AF_INET => 2
  | .AF_INET6 => 10
  | .AF_NETLINK => 16
  | .AF_PACKET => 17

/-- The case `switch (family)` goes to, `none` where there is none. -/
def Family.ofInt (family : Int) : Option Family :=
  [Family.AF_UNIX, .AF_INET, .AF_INET6, .AF_NETLINK, .AF_PACKET].find? (·.value = family)

/-- A family is found by its number. -/
@[simp] theorem Family.ofInt_value (f : Family) : Family.ofInt f.value = some f := by
  cases f <;> rfl

/-- The number is that of one family only. -/
theorem Family.ofInt_eq_some_iff {family : Int} {f : Family} :
    Family.ofInt family = some f ↔ family = f.value := by
  refine ⟨fun h => ?_, fun h => h ▸ f.ofInt_value⟩
  have hvalue := List.find?_some h
  exact (of_decide_eq_true hvalue).symm

section Fields

variable (sa : Memory)

/-- `ss_family`, the first field of every structure. -/
def ss_family : BitVec 16 := load 16 sa 0

/-- `sin_port` and `sin6_port`, in network order. -/
def sin_port : BitVec 16 := load 16 sa 2

/-- `sin_addr`. -/
def sin_addr : List Byte := read sa 4 4

/-- `sin6_flowinfo`, in network order. -/
def sin6_flowinfo : BitVec 32 := load 32 sa 4

/-- `sin6_addr`. -/
def sin6_addr : List Byte := read sa 8 16

/-- `sin6_scope_id`. -/
def sin6_scope_id : BitVec 32 := load 32 sa 24

/-- `sun_path`. -/
def sun_path : List Byte := read sa 2 108

/-- `nl_pid`. -/
def nl_pid : BitVec 32 := load 32 sa 4

/-- `nl_groups`. -/
def nl_groups : BitVec 32 := load 32 sa 8

/-- `sll_ifindex`. -/
def sll_ifindex : BitVec 32 := load 32 sa 4

end Fields

/-- `sizeof` the structure of a family; `sun_path` is its last field. -/
def Family.sizeof : Family → Nat
  | .AF_UNIX => 110
  | .AF_INET => 16
  | .AF_INET6 => 28
  | .AF_NETLINK => 12
  | .AF_PACKET => 20

/-- `sizeof(struct sockaddr_storage)`. -/
def sizeofStorage : Nat := 128

/-- `inet_ntop` and `inet_pton`, for `AF_INET` and `AF_INET6`. -/
structure Presentation where
  /-- The buffer, as a C string. -/
  inet_ntop : Family → List Byte → LStr
  /-- The address, where the result is 1. -/
  inet_pton : Family → LStr → Option (List Byte)

/-- `inet_ntop` followed by `inet_pton` is the identity, on addresses of the family's length. -/
structure Presentation.RoundTrip (P : Presentation) : Prop where
  inet : ∀ a : List Byte, a.length = 4 → P.inet_pton .AF_INET (cstring (P.inet_ntop .AF_INET a))
    = some a
  inet6 : ∀ a : List Byte, a.length = 16 →
    P.inet_pton .AF_INET6 (cstring (P.inet_ntop .AF_INET6 a)) = some a

/-! ## From C to Lua -/

section ToLua

open Heap (pushintegerfield pushstringfield pushlstringfield)

variable (P : Presentation)

/-- The part of `sun_path` before its first zero, which `memchr` looks for. -/
def pathUpToZero (sa : Memory) : List Byte := (sun_path sa).takeWhile (· ≠ 0)

/-- The cases of `pushsockaddrinfo`. -/
def familyFields (sa : Memory) : Option Family → List (String × LuaValue)
  | some .AF_INET =>
      pushintegerfield "port" ((swap (sin_port sa)).setWidth 64) ++
      pushstringfield "addr" (some (P.inet_ntop .AF_INET (sin_addr sa)))
  | some .AF_INET6 =>
      pushintegerfield "port" ((swap (sin_port sa)).setWidth 64) ++
      pushstringfield "addr" (some (P.inet_ntop .AF_INET6 (sin6_addr sa))) ++
      pushintegerfield "flowinfo" ((swap (sin6_flowinfo sa)).setWidth 64) ++
      pushintegerfield "scope_id" ((sin6_scope_id sa).setWidth 64)
  | some .AF_UNIX => pushlstringfield "path" (ofBytes (pathUpToZero sa))
  | some .AF_NETLINK =>
      pushintegerfield "pid" ((nl_pid sa).setWidth 64) ++
      pushintegerfield "groups" ((nl_groups sa).setWidth 64)
  | some .AF_PACKET => pushintegerfield "ifindex" ((sll_ifindex sa).signExtend 64)
  | none => []

/-- The fields that `pushsockaddrinfo(L, family, sa)` sets. -/
def pushsockaddrinfo (family : Int) (sa : Memory) : List (String × LuaValue) :=
  pushintegerfield "family" (BitVec.ofInt 64 family) ++ familyFields P sa (Family.ofInt family)

/-- The fields that `pushsockaddrinfo(L, sa.ss_family, &sa)` sets. -/
def addressFields (sa : Memory) : List (String × LuaValue) :=
  pushsockaddrinfo P (ss_family sa).toNat sa

/-- The family is shown in every case. -/
theorem fieldOf_family (family : Int) (sa : Memory) :
    Heap.fieldOf (pushsockaddrinfo P family sa) "family" = .integer (BitVec.ofInt 64 family) := by
  rw [pushsockaddrinfo]
  cases Family.ofInt family with
  | none => rfl
  | some f =>
      cases f with
      | AF_UNIX =>
          rw [familyFields, pushlstringfield]
          split_ifs <;> rfl
      | _ => rfl

/-- An entry of the list `getaddrinfo(3)` returns. -/
structure AddrInfo where
  ai_family : Int
  ai_socktype : Int
  ai_protocol : Int
  ai_addr : Memory
  /-- NULL or a C string. -/
  ai_canonname : Option LStr

/-- The fields that `getaddrinfo` adds to those of the address. -/
def AddrInfo.moreFields (p : AddrInfo) : List (String × LuaValue) :=
  pushintegerfield "socktype" (BitVec.ofInt 64 p.ai_socktype) ++
  pushstringfield "canonname" p.ai_canonname ++
  pushintegerfield "protocol" (BitVec.ofInt 64 p.ai_protocol)

/-- The fields that `getaddrinfo` sets for an entry. -/
def AddrInfo.fields (p : AddrInfo) : List (String × LuaValue) :=
  pushsockaddrinfo P p.ai_family p.ai_addr ++ p.moreFields

end ToLua

/-! ## From Lua to C -/

/-- `Safinet_fields`. -/
def Safinet_fields : List String :=
  [ -- `AF_INET6` only
    "flowinfo", "scope_id",
    -- shared with `AF_INET`
    "family", "port", "addr",
    -- in the tables of `getaddrinfo`
    "socktype", "canonname", "protocol"]

/-- `Safunix_fields`. -/
def Safunix_fields : List String := ["family", "path"]

/-- `Safnetlink_fields`. -/
def Safnetlink_fields : List String := ["family", "pid", "groups"]

/-- `Safpacket_fields`. -/
def Safpacket_fields : List String := ["family", "ifindex"]

/-- `Safinet_fields + 2`. -/
def Safinet4_fields : List String := Safinet_fields.drop 2

/-- `Safinet6_fields`. -/
def Safinet6_fields : List String := Safinet_fields

/-- The list of names for a family. -/
def Family.names : Family → List String
  | .AF_UNIX => Safunix_fields
  | .AF_INET => Safinet4_fields
  | .AF_INET6 => Safinet6_fields
  | .AF_NETLINK => Safnetlink_fields
  | .AF_PACKET => Safpacket_fields

/-- The fields of a family have different names. -/
theorem Family.names_names (f : Family) : Heap.Names f.names := by
  cases f <;> decide

/-! The blocks `sockaddr_from_lua` fills in, cleared by `memset` before. -/

/-- `struct sockaddr_in`. -/
def sockaddr_in (family port : Int) (addr : List Byte) : Memory :=
  let sa := write (fun _ => 0) 4 addr
  let sa := store sa 0 (BitVec.ofInt 16 family)
  store sa 2 (swap (BitVec.ofInt 16 port))

/-- `struct sockaddr_in6`. -/
def sockaddr_in6 (family port : Int) (addr : List Byte) (flowinfo scope_id : BitVec 32) : Memory :=
  let sa := write (fun _ => 0) 8 addr
  let sa := store sa 0 (BitVec.ofInt 16 family)
  let sa := store sa 2 (swap (BitVec.ofInt 16 port))
  let sa := store sa 4 (swap flowinfo)
  store sa 24 scope_id

/-- `struct sockaddr_un`. -/
def sockaddr_un (family : Int) (path : List Byte) : Memory :=
  let sa := write (fun _ => 0) 2 path
  store sa 0 (BitVec.ofInt 16 family)

/-- `struct sockaddr_nl`. -/
def sockaddr_nl (family pid groups : Int) : Memory :=
  let sa := store (fun _ => 0) 0 (BitVec.ofInt 16 family)
  let sa := store sa 4 (BitVec.ofInt 32 pid)
  store sa 8 (BitVec.ofInt 32 groups)

/-- `struct sockaddr_ll`. -/
def sockaddr_ll (family ifindex : Int) : Memory :=
  let sa := store (fun _ => 0) 0 (BitVec.ofInt 16 family)
  store sa 4 (BitVec.ofInt 32 ifindex)

section FromLua

variable (N : Numerals) (P : Presentation) (H : Heap) (index t : Nat)

/-- `sockaddr_from_lua` of a table, with the family it has. What the block and `*addrlen` are if
0 is returned, `none` if -1 is. -/
def sockaddrFields (family : Int) : CallM (Option (Memory × Nat)) :=
  match Family.ofInt family with
  | some .AF_INET => do
      let port ← H.checkintfield index t "port"
      let addr ← H.checkstringfield index t "addr"
      H.checkfieldnames N index t Safinet4_fields
      return (P.inet_pton .AF_INET addr).map fun a =>
        (sockaddr_in family port a, Family.AF_INET.sizeof)
  | some .AF_INET6 => do
      let port ← H.checkintfield index t "port"
      let addr ← H.checkstringfield index t "addr"
      let flowinfo ← H.optintegerfield index t "flowinfo" 0
      let scope_id ← H.optintegerfield index t "scope_id" 0
      H.checkfieldnames N index t Safinet6_fields
      return (P.inet_pton .AF_INET6 addr).map fun a =>
        (sockaddr_in6 family port a (flowinfo.setWidth 32) (scope_id.setWidth 32),
          Family.AF_INET6.sizeof)
  | some .AF_UNIX => do
      let path ← H.checklstringfield index t "path"
      H.checkfieldnames N index t Safunix_fields
      let bufsize := 108
      let pathlen := min path.length bufsize
      return some (sockaddr_un family (toBytes (path.take pathlen)),
        Family.AF_UNIX.sizeof - bufsize + pathlen)
  | some .AF_NETLINK => do
      let pid ← H.checkintfield index t "pid"
      let groups ← H.checkintfield index t "groups"
      H.checkfieldnames N index t Safnetlink_fields
      return some (sockaddr_nl family pid groups, Family.AF_NETLINK.sizeof)
  | some .AF_PACKET => do
      let ifindex ← H.checkintfield index t "ifindex"
      H.checkfieldnames N index t Safpacket_fields
      return some (sockaddr_ll family ifindex, Family.AF_PACKET.sizeof)
  | none => .error (.raises (.argerror index ("unsupported family type " ++ toString family)))

/-- `sockaddr_from_lua(L, index, &sa, &addrlen)`. -/
def sockaddr_from_lua (args : List LuaValue) : CallM (Option (Memory × Nat)) := do
  let t ← checktable args index
  let family ← H.checkintfield index t "family"
  sockaddrFields N P H index t family

end FromLua

/-! ## The fields of the blocks -/

section Blocks

open Bytes (load_store load_store_of_disjoint read_store_of_disjoint read_append read_write
  read_write_of_disjoint)

variable (family port pid groups ifindex : Int) (flowinfo scope_id : BitVec 32)

/-- The family is read back from an `inet` address. -/
theorem ss_family_in (addr : List Byte) :
    ss_family (sockaddr_in family port addr) = BitVec.ofInt 16 family := by
  rw [ss_family, sockaddr_in, load_store_of_disjoint _ _ (by decide) (by decide),
    load_store _ _ (by decide)]

/-- So is its port. -/
theorem sin_port_in (addr : List Byte) :
    sin_port (sockaddr_in family port addr) = swap (BitVec.ofInt 16 port) :=
  load_store _ _ (by decide)

/-- So are its four bytes. -/
theorem sin_addr_in {addr : List Byte} (h : addr.length = 4) :
    sin_addr (sockaddr_in family port addr) = addr := by
  rw [sin_addr, sockaddr_in, read_store_of_disjoint _ _ (by decide),
    read_store_of_disjoint _ _ (by decide), ← h, read_write]

/-- The family is read back from an `inet6` address. -/
theorem ss_family_in6 (addr : List Byte) :
    ss_family (sockaddr_in6 family port addr flowinfo scope_id) = BitVec.ofInt 16 family := by
  rw [ss_family, sockaddr_in6, load_store_of_disjoint _ _ (by decide) (by decide),
    load_store_of_disjoint _ _ (by decide) (by decide),
    load_store_of_disjoint _ _ (by decide) (by decide), load_store _ _ (by decide)]

/-- So is its port. -/
theorem sin_port_in6 (addr : List Byte) :
    sin_port (sockaddr_in6 family port addr flowinfo scope_id) = swap (BitVec.ofInt 16 port) := by
  rw [sin_port, sockaddr_in6, load_store_of_disjoint _ _ (by decide) (by decide),
    load_store_of_disjoint _ _ (by decide) (by decide), load_store _ _ (by decide)]

/-- So is its flow. -/
theorem sin6_flowinfo_in6 (addr : List Byte) :
    sin6_flowinfo (sockaddr_in6 family port addr flowinfo scope_id) = swap flowinfo := by
  rw [sin6_flowinfo, sockaddr_in6, load_store_of_disjoint _ _ (by decide) (by decide),
    load_store _ _ (by decide)]

/-- So is its scope. -/
theorem sin6_scope_id_in6 (addr : List Byte) :
    sin6_scope_id (sockaddr_in6 family port addr flowinfo scope_id) = scope_id :=
  load_store _ _ (by decide)

/-- So are its sixteen bytes. -/
theorem sin6_addr_in6 {addr : List Byte} (h : addr.length = 16) :
    sin6_addr (sockaddr_in6 family port addr flowinfo scope_id) = addr := by
  rw [sin6_addr, sockaddr_in6, read_store_of_disjoint _ _ (by decide),
    read_store_of_disjoint _ _ (by decide), read_store_of_disjoint _ _ (by decide),
    read_store_of_disjoint _ _ (by decide), ← h, read_write]

/-- The family is read back from a `unix` address. -/
theorem ss_family_un (path : List Byte) :
    ss_family (sockaddr_un family path) = BitVec.ofInt 16 family := load_store _ _ (by decide)

/-- The path, and zeros up to the end. -/
theorem sun_path_un {path : List Byte} (h : path.length ≤ 108) :
    sun_path (sockaddr_un family path) = path ++ List.replicate (108 - path.length) 0 := by
  have hsplit : 108 = path.length + (108 - path.length) := by omega
  have hzeros (off n : Nat) : read (fun _ => 0) off n = List.replicate n 0 :=
    List.ofFn_const n 0
  rw [sun_path, sockaddr_un, read_store_of_disjoint _ _ (by decide), hsplit, read_append,
    read_write, read_write_of_disjoint _ (.inr le_rfl), hzeros, Nat.add_sub_cancel_left]

/-- So is its path, as far as the first zero. -/
theorem pathUpToZero_un {path : List Byte} (h : path.length ≤ 108) :
    pathUpToZero (sockaddr_un family path) = path.takeWhile (· ≠ 0) := by
  rw [pathUpToZero, sun_path_un family h, List.takeWhile_append]
  split_ifs with hall
  · have hnone : (List.replicate (108 - path.length) (0 : Byte)).takeWhile (· ≠ 0) = [] := by
      rw [List.takeWhile_replicate]
      rfl
    rw [hnone, List.append_nil, (List.takeWhile_prefix _).eq_of_length hall]
  · rfl

/-- The family is read back from a `netlink` address. -/
theorem ss_family_nl : ss_family (sockaddr_nl family pid groups) = BitVec.ofInt 16 family := by
  rw [ss_family, sockaddr_nl, load_store_of_disjoint _ _ (by decide) (by decide),
    load_store_of_disjoint _ _ (by decide) (by decide), load_store _ _ (by decide)]

/-- So is its pid. -/
theorem nl_pid_nl : nl_pid (sockaddr_nl family pid groups) = BitVec.ofInt 32 pid := by
  rw [nl_pid, sockaddr_nl, load_store_of_disjoint _ _ (by decide) (by decide),
    load_store _ _ (by decide)]

/-- So are its groups. -/
theorem nl_groups_nl : nl_groups (sockaddr_nl family pid groups) = BitVec.ofInt 32 groups :=
  load_store _ _ (by decide)

end Blocks

/-! ## A small instance -/

/-- A presentation of addresses in which `127.0.0.1` has its usual text. -/
def loopback : Presentation where
  inet_ntop _ a := if a = [127, 0, 0, 1] then "127.0.0.1".toList
    else a.map fun b => Char.ofNat (b.toNat + 1)
  inet_pton _ s := if s = "127.0.0.1".toList then some [127, 0, 0, 1]
    else some (s.map fun c => BitVec.ofNat 8 (c.toNat - 1))

/-- The loopback system reads back what it wrote. -/
theorem loopback_trip (f : Family) {a : List Byte} (ha : a.length ≠ 9) :
    loopback.inet_pton f (cstring (loopback.inet_ntop f a)) = some a := by
  by_cases hloop : a = [127, 0, 0, 1]
  · subst hloop
    rfl
  · have hchar (b : Byte) : (Char.ofNat (b.toNat + 1)).toNat = b.toNat + 1 := by
      have := b.isLt
      exact toNat_ofNat (by omega)
    have htext : cstring (loopback.inet_ntop f a) = a.map fun b => Char.ofNat (b.toNat + 1) := by
      have hntop : loopback.inet_ntop f a = a.map fun b => Char.ofNat (b.toNat + 1) :=
        if_neg hloop
      rw [hntop]
      refine List.takeWhile_eq_self_iff.mpr fun c hc => decide_eq_true fun hzero => ?_
      obtain ⟨b, -, rfl⟩ := List.mem_map.mp hc
      have htoNat := congrArg Char.toNat hzero
      rw [hchar] at htoNat
      exact absurd htoNat (Nat.succ_ne_zero _)
    have hne : (a.map fun b => Char.ofNat (b.toNat + 1)) ≠ "127.0.0.1".toList := by
      intro h
      have hlen := congrArg List.length h
      rw [List.length_map] at hlen
      exact ha hlen
    rw [htext]
    show (if _ then _ else _) = _
    rw [if_neg hne, List.map_map]
    refine congrArg some (List.map_id'' (fun b => ?_) a)
    show BitVec.ofNat 8 ((Char.ofNat (b.toNat + 1)).toNat - 1) = b
    rw [hchar, Nat.add_sub_cancel, BitVec.ofNat_toNat, BitVec.setWidth_eq]

/-- So it is one that round trips. -/
theorem loopback_roundTrip : loopback.RoundTrip where
  inet a ha := loopback_trip _ (by omega)
  inet6 a ha := loopback_trip _ (by omega)

end LuaPosix.Sockets

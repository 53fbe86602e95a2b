import LuaPosix.Posix.Sockaddr

/-! # Socket addresses there and back

`sockaddr_from_lua` undoes `pushsockaddrinfo` on the internet and netlink families, also where
`getaddrinfo` has added fields of its own. -/

namespace LuaPosix.Sockets

open LuaPattern (LStr)
open Bytes
open Traversal (Layout)

/-- The tables made of an address. -/
inductive TableOf (P : Presentation) (f : Family) (sa : Memory) : List (String × LuaValue) → Prop
  /-- By `accept`, `recvfrom`, `getsockname` and `getpeername`. -/
  | sockaddr : TableOf P f sa (pushsockaddrinfo P f.value sa)
  /-- By `getaddrinfo`, for the internet families. -/
  | addrinfo (p : AddrInfo) (hf : f = .AF_INET ∨ f = .AF_INET6) (hfamily : p.ai_family = f.value)
      (haddr : p.ai_addr = sa) : TableOf P f sa (p.fields P)

/-- Two addresses agree in the fields of a family. -/
def SameAddress (f : Family) (sa sa' : Memory) : Prop :=
  ss_family sa = ss_family sa' ∧
  match f with
  | .AF_INET => sin_port sa = sin_port sa' ∧ sin_addr sa = sin_addr sa'
  | .AF_INET6 => sin_port sa = sin_port sa' ∧ sin6_addr sa = sin6_addr sa' ∧
      sin6_flowinfo sa = sin6_flowinfo sa' ∧ sin6_scope_id sa = sin6_scope_id sa'
  | .AF_UNIX => sun_path sa = sun_path sa'
  | .AF_NETLINK => nl_pid sa = nl_pid sa' ∧ nl_groups sa = nl_groups sa'
  | .AF_PACKET => sll_ifindex sa = sll_ifindex sa'

/-! ## The fields of a table -/

section Tables

variable {P : Presentation} {f : Family} {sa : Memory} {fields : List (String × LuaValue)}

/-- The names that `getaddrinfo` adds. -/
theorem AddrInfo.name_mem {p : AddrInfo} {field : String × LuaValue} (h : field ∈ p.moreFields) :
    field.1 ∈ ["socktype", "canonname", "protocol"] := by
  rcases List.mem_append.mp h with h | h
  · rcases List.mem_append.mp h with h | h
    · rw [Heap.name_of_mem_pushintegerfield h]
      decide
    · rw [Heap.name_of_mem_pushstringfield h]
      decide
  · rw [Heap.name_of_mem_pushintegerfield h]
    decide

/-- They leave the fields of the address alone. -/
theorem TableOf.fieldOf_eq (h : TableOf P f sa fields) {k : String}
    (hk : k ∉ ["socktype", "canonname", "protocol"]) :
    Heap.fieldOf fields k = Heap.fieldOf (pushsockaddrinfo P f.value sa) k := by
  cases h with
  | sockaddr => rfl
  | addrinfo p hf hfamily haddr =>
      subst haddr
      rw [AddrInfo.fields, hfamily]
      exact Heap.fieldOf_append fun field hfield hname => hk (hname ▸ p.name_mem hfield)

/-- The names of the address are on the family's list. -/
theorem name_mem_names {field : String × LuaValue} (h : field ∈ pushsockaddrinfo P f.value sa) :
    field.1 ∈ f.names := by
  have hname : field.1 ∈ (pushsockaddrinfo P f.value sa).map Prod.fst := List.mem_map_of_mem h
  cases f with
  | AF_UNIX =>
      rcases List.mem_append.mp h with h | h
      · rw [Heap.name_of_mem_pushintegerfield h]
        decide
      · rw [Heap.name_of_mem_pushlstringfield h]
        decide
  | AF_INET => exact (by decide : ["family", "port", "addr"] ⊆ Safinet4_fields) hname
  | AF_INET6 =>
      exact (by decide : ["family", "port", "addr", "flowinfo", "scope_id"] ⊆ Safinet6_fields) hname
  | AF_NETLINK => exact (by decide : ["family", "pid", "groups"] ⊆ Safnetlink_fields) hname
  | AF_PACKET => exact (by decide : ["family", "ifindex"] ⊆ Safpacket_fields) hname

/-- All fields are on the family's list. -/
theorem TableOf.name_mem (h : TableOf P f sa fields) {field : String × LuaValue}
    (hfield : field ∈ fields) : field.1 ∈ f.names := by
  cases h with
  | sockaddr => exact name_mem_names hfield
  | addrinfo p hf hfamily haddr =>
      rw [AddrInfo.fields, hfamily] at hfield
      rcases List.mem_append.mp hfield with hfield | hfield
      · exact name_mem_names hfield
      · have hname := p.name_mem hfield
        rcases hf with rfl | rfl
        · exact (by decide : ["socktype", "canonname", "protocol"] ⊆ Safinet4_fields) hname
        · exact (by decide : ["socktype", "canonname", "protocol"] ⊆ Safinet6_fields) hname

variable {L : Layout fun _ : LuaValue => LuaValue} {H : Heap}

/-- The table has the fields of the address. -/
theorem TableOf.get_eq (h : TableOf P f sa fields) {k : String} {v : LuaValue}
    (hk : k ∉ ["socktype", "canonname", "protocol"])
    (hv : Heap.fieldOf (pushsockaddrinfo P f.value sa) k = v) :
    (H.newtable L fields).2.get (H.newtable L fields).1 (Heap.fieldName k) = v := by
  show (H.newtable L fields).2.get H.size (Heap.fieldName k) = v
  rw [Heap.get_newtable, h.fieldOf_eq hk, hv]

variable (L H) (index : Nat) (k : String)

/-- The checks return what the fields have. -/
theorem TableOf.checkintfield_eq (h : TableOf P f sa fields) {d : LuaInteger}
    (hk : k ∉ ["socktype", "canonname", "protocol"])
    (hv : Heap.fieldOf (pushsockaddrinfo P f.value sa) k = .integer d) :
    (H.newtable L fields).2.checkintfield index (H.newtable L fields).1 k = .ok (toInt d) :=
  Heap.checkintfield_of_get (h.get_eq hk hv)

/-- A string of the table is read back. -/
theorem TableOf.checkstringfield_eq (h : TableOf P f sa fields) {s : LStr}
    (hk : k ∉ ["socktype", "canonname", "protocol"])
    (hv : Heap.fieldOf (pushsockaddrinfo P f.value sa) k = .string s) :
    (H.newtable L fields).2.checkstringfield index (H.newtable L fields).1 k = .ok (cstring s) :=
  Heap.checkstringfield_of_get (h.get_eq hk hv)

/-- So is an integer. -/
theorem TableOf.optintegerfield_eq (h : TableOf P f sa fields) {d : LuaInteger}
    (hk : k ∉ ["socktype", "canonname", "protocol"])
    (hv : Heap.fieldOf (pushsockaddrinfo P f.value sa) k = .integer d) :
    (H.newtable L fields).2.optintegerfield index (H.newtable L fields).1 k 0 = .ok d :=
  Heap.optintegerfield_of_get (h.get_eq hk hv)

variable {L H}

/-- It passes the check of its names. -/
theorem TableOf.checkfieldnames_eq (h : TableOf P f sa fields) (N : Numerals) (index : Nat) :
    (H.newtable L fields).2.checkfieldnames N index (H.newtable L fields).1 f.names = .ok () := by
  refine Heap.checkfieldnames_of_known f.names_names fun key hkey => ?_
  obtain ⟨field, hfield, rfl⟩ := Heap.mem_newtable hkey
  exact ⟨field.1, h.name_mem hfield, rfl⟩

end Tables

/-! ## The addresses rebuilt -/

section Rebuilt

variable {N : Numerals} {P : Presentation} {L : Layout fun _ : LuaValue => LuaValue} {H : Heap}
  {sa : Memory} {fields : List (String × LuaValue)} (index : Nat)

/-- A port passes through a Lua integer and an `int`. -/
theorem port_trip (port : BitVec 16) :
    swap (BitVec.ofInt 16 (toInt ((swap port).setWidth 64))) = port := by
  rw [ofInt_toInt (by decide), setWidth_setWidth_64 (by decide), swap_swap _ (by decide)]

/-- An `inet` address comes back. -/
theorem sockaddrFields_inet (hP : P.RoundTrip)
    (hfam : ss_family sa = BitVec.ofInt 16 Family.AF_INET.value)
    (h : TableOf P .AF_INET sa fields) : ∃ sa',
      sockaddrFields N P (H.newtable L fields).2 index (H.newtable L fields).1 Family.AF_INET.value
        = .ok (some (sa', Family.AF_INET.sizeof)) ∧ SameAddress .AF_INET sa' sa := by
  have hport := h.checkintfield_eq L H index "port" (by decide) rfl
  have haddr := h.checkstringfield_eq L H index "addr" (by decide) rfl
  have hnames : (H.newtable L fields).2.checkfieldnames N index (H.newtable L fields).1
      Safinet4_fields = .ok () := h.checkfieldnames_eq N index
  rw [cstring_cstring] at haddr
  refine ⟨sockaddr_in Family.AF_INET.value (toInt ((swap (sin_port sa)).setWidth 64))
    (sin_addr sa), ?_, ?_, ?_, ?_⟩
  · simp only [sockaddrFields, Family.ofInt_value, hport, haddr, hnames, CallM.ok_bind,
      hP.inet (sin_addr sa) (length_read sa)]
    rfl
  · rw [ss_family_in, hfam]
  · rw [sin_port_in, port_trip]
  · exact sin_addr_in _ _ (length_read sa)

/-- So does an `inet6` address. -/
theorem sockaddrFields_inet6 (hP : P.RoundTrip)
    (hfam : ss_family sa = BitVec.ofInt 16 Family.AF_INET6.value)
    (h : TableOf P .AF_INET6 sa fields) : ∃ sa',
      sockaddrFields N P (H.newtable L fields).2 index (H.newtable L fields).1
          Family.AF_INET6.value
        = .ok (some (sa', Family.AF_INET6.sizeof)) ∧ SameAddress .AF_INET6 sa' sa := by
  have hport := h.checkintfield_eq L H index "port" (by decide) rfl
  have haddr := h.checkstringfield_eq L H index "addr" (by decide) rfl
  have hflow := h.optintegerfield_eq L H index "flowinfo" (by decide) rfl
  have hscope := h.optintegerfield_eq L H index "scope_id" (by decide) rfl
  have hnames : (H.newtable L fields).2.checkfieldnames N index (H.newtable L fields).1
      Safinet6_fields = .ok () := h.checkfieldnames_eq N index
  rw [cstring_cstring] at haddr
  refine ⟨sockaddr_in6 Family.AF_INET6.value (toInt ((swap (sin_port sa)).setWidth 64))
    (sin6_addr sa) (((swap (sin6_flowinfo sa)).setWidth 64).setWidth 32)
    (((sin6_scope_id sa).setWidth 64).setWidth 32), ?_, ?_, ?_, ?_, ?_, ?_⟩
  · simp only [sockaddrFields, Family.ofInt_value, hport, haddr, hflow, hscope, hnames,
      CallM.ok_bind, hP.inet6 (sin6_addr sa) (length_read sa)]
    rfl
  · rw [ss_family_in6, hfam]
  · rw [sin_port_in6, port_trip]
  · exact sin6_addr_in6 _ _ _ _ (length_read sa)
  · rw [sin6_flowinfo_in6, setWidth_setWidth_64 (by decide), swap_swap _ (by decide)]
  · rw [sin6_scope_id_in6, setWidth_setWidth_64 (by decide)]

/-- So does a `netlink` address. -/
theorem sockaddrFields_netlink (hfam : ss_family sa = BitVec.ofInt 16 Family.AF_NETLINK.value)
    (h : TableOf P .AF_NETLINK sa fields) : ∃ sa',
      sockaddrFields N P (H.newtable L fields).2 index (H.newtable L fields).1
          Family.AF_NETLINK.value
        = .ok (some (sa', Family.AF_NETLINK.sizeof)) ∧ SameAddress .AF_NETLINK sa' sa := by
  have hpid := h.checkintfield_eq L H index "pid" (by decide) rfl
  have hgroups := h.checkintfield_eq L H index "groups" (by decide) rfl
  have hnames : (H.newtable L fields).2.checkfieldnames N index (H.newtable L fields).1
      Safnetlink_fields = .ok () := h.checkfieldnames_eq N index
  refine ⟨sockaddr_nl Family.AF_NETLINK.value (toInt ((nl_pid sa).setWidth 64))
    (toInt ((nl_groups sa).setWidth 64)), ?_, ?_, ?_, ?_⟩
  · simp only [sockaddrFields, Family.ofInt_value, hpid, hgroups, hnames, CallM.ok_bind]
    rfl
  · rw [ss_family_nl, hfam]
  · rw [nl_pid_nl, ofInt_toInt (by decide), setWidth_setWidth_64 (by decide)]
  · rw [nl_groups_nl, ofInt_toInt (by decide), setWidth_setWidth_64 (by decide)]

/-- The table's family is read back. -/
theorem checkfamily_eq {f : Family} (h : TableOf P f sa fields) :
    (H.newtable L fields).2.checkintfield index (H.newtable L fields).1 "family" = .ok f.value := by
  rw [Heap.checkintfield_of_get (h.get_eq (by decide) (fieldOf_family P f.value sa))]
  cases f <;> rfl

end Rebuilt

/-- **Internet and netlink addresses survive the trip through Lua**: the table made of an address,
also by `getaddrinfo`, is taken without an error and gives the same address again, with the length
of its structure. -/
theorem sockaddr_from_lua_pushsockaddrinfo (N : Numerals) (P : Presentation) (hP : P.RoundTrip)
    (L : Layout fun _ : LuaValue => LuaValue) (H : Heap) (f : Family)
    (hf : f = .AF_INET ∨ f = .AF_INET6 ∨ f = .AF_NETLINK) (sa : Memory)
    (hsa : ss_family sa = BitVec.ofInt 16 f.value) (fields : List (String × LuaValue))
    (h : TableOf P f sa fields) (args : List LuaValue) (index : Nat)
    (hargs : argument args index = some (.table (H.newtable L fields).1)) :
    ∃ sa', sockaddr_from_lua N P (H.newtable L fields).2 index args = .ok (some (sa', f.sizeof)) ∧
      SameAddress f sa' sa := by
  have hlua : sockaddr_from_lua N P (H.newtable L fields).2 index args
      = sockaddrFields N P (H.newtable L fields).2 index (H.newtable L fields).1 f.value := by
    have htable : checktable args index = .ok (H.newtable L fields).1 := by
      rw [checktable, hargs]
    simp only [sockaddr_from_lua, htable, CallM.lift_ok, checkfamily_eq index h,
      CallM.ok_bind]
  rw [hlua]
  -- The family selects the case that fills the block.
  rcases hf with rfl | rfl | rfl
  · exact sockaddrFields_inet index hP hsa h
  · exact sockaddrFields_inet6 index hP hsa h
  · exact sockaddrFields_netlink index hsa h

/-- `127.0.0.1:80` goes to `connect` as it came. -/
theorem loopback_sockaddr_trip :
    ∃ sa', sockaddr_from_lua .zero loopback
        (Heap.empty.newtable Heap.newestFirst (pushsockaddrinfo loopback Family.AF_INET.value
          (sockaddr_in 2 80 [127, 0, 0, 1]))).2 2 [.integer 3, .table 0]
        = .ok (some (sa', Family.AF_INET.sizeof)) ∧
      SameAddress .AF_INET sa' (sockaddr_in 2 80 [127, 0, 0, 1]) :=
  sockaddr_from_lua_pushsockaddrinfo .zero loopback loopback_roundTrip Heap.newestFirst .empty
    .AF_INET (.inl rfl) _ (ss_family_in _ _ _) _ .sockaddr _ 2 rfl

/-! ## Paths -/

section Paths

variable {N : Numerals} {P : Presentation} {H : Heap} {index t : Nat} {args : List LuaValue}
  {path : List Byte} {sa : Memory} {addrlen : Nat}

/-- The block of a path that there is room for. -/
theorem sockaddr_from_lua_path (hargs : argument args index = some (.table t))
    (hfamily : H.checkintfield index t "family" = .ok Family.AF_UNIX.value)
    (hpath : H.get t (Heap.fieldName "path") = .string (ofBytes path)) (hlen : path.length ≤ 108)
    (h : sockaddr_from_lua N P H index args = .ok (some (sa, addrlen))) :
    sa = sockaddr_un Family.AF_UNIX.value path ∧ addrlen = 2 + path.length := by
  have htable : checktable args index = .ok t := by
    rw [checktable, hargs]
  have hget : H.checklstringfield index t "path" = .ok (ofBytes path) :=
    Heap.checklstringfield_of_get hpath
  simp only [sockaddr_from_lua, htable, CallM.lift_ok, CallM.ok_bind, hfamily, sockaddrFields,
    Family.ofInt_value, hget] at h
  have hmin : min (ofBytes path).length 108 = path.length := by
    rw [length_ofBytes]
    exact Nat.min_eq_left hlen
  -- Other keys are an error, so the address is the one with just these two fields.
  cases hnames : H.checkfieldnames N index t Safunix_fields with
  | error e =>
      rw [hnames] at h
      cases h
  | ok u =>
      rw [hnames, CallM.ok_bind, hmin] at h
      cases h
      rw [List.take_of_length_le (by rw [length_ofBytes]), toBytes_ofBytes]
      exact ⟨rfl, rfl⟩

/-- What is shown of a path. -/
theorem fieldOf_path (hlen : path.length ≤ 108) :
    Heap.fieldOf (addressFields P (sockaddr_un Family.AF_UNIX.value path)) "path"
      = if path.takeWhile (· ≠ 0) = [] then .nil
        else .string (ofBytes (path.takeWhile (· ≠ 0))) := by
  have hfields : addressFields P (sockaddr_un Family.AF_UNIX.value path)
      = Heap.pushintegerfield "family" 1
        ++ Heap.pushlstringfield "path" (ofBytes (path.takeWhile (· ≠ 0))) := by
    rw [addressFields, ss_family_un, ← pathUpToZero_un Family.AF_UNIX.value hlen]
    rfl
  rw [hfields, Heap.pushlstringfield, length_ofBytes]
  cases path.takeWhile (· ≠ 0) <;> rfl

end Paths

/-- **Unix-domain addresses round-trip if and only if the path is not empty and has no zero.** -/
theorem path_trip_iff (N : Numerals) (P : Presentation) (L : Layout fun _ : LuaValue => LuaValue)
    (H H' : Heap) (args : List LuaValue) (index t : Nat)
    (hargs : argument args index = some (.table t))
    (hfamily : H.checkintfield index t "family" = .ok Family.AF_UNIX.value) (path : List Byte)
    (hpath : H.get t (Heap.fieldName "path") = .string (ofBytes path)) (hlen : path.length ≤ 108)
    (sa : Memory) (addrlen : Nat)
    (h : sockaddr_from_lua N P H index args = .ok (some (sa, addrlen))) :
    (H'.newtable L (addressFields P sa)).2.get (H'.newtable L (addressFields P sa)).1
        (Heap.fieldName "path") = .string (ofBytes path) ↔ path ≠ [] ∧ 0 ∉ path := by
  obtain ⟨rfl, -⟩ := sockaddr_from_lua_path hargs hfamily hpath hlen h
  show (H'.newtable L _).2.get H'.size _ = _ ↔ _
  rw [Heap.get_newtable, fieldOf_path hlen]
  have hzero : path.takeWhile (· ≠ 0) = path ↔ 0 ∉ path := by
    rw [List.takeWhile_eq_self_iff]
    exact ⟨fun h hmem => absurd (h 0 hmem) (by decide),
      fun h b hb => decide_eq_true fun hb0 => h (hb0 ▸ hb)⟩
  -- A path that begins with a zero is left out, one with a zero further on is cut.
  split_ifs with hempty
  · refine iff_of_false not_false ?_
    rintro ⟨hne, hnz⟩
    exact hne ((hzero.mpr hnz).symm.trans hempty)
  · rw [LuaValue.string.injEq, ofBytes_injective.eq_iff, hzero]
    refine ⟨fun hnz => ⟨?_, hnz⟩, And.right⟩
    rintro rfl
    exact hempty rfl

/-- The table `{family = AF_UNIX, path = path}`, at place 0. -/
def unixTable (path : List Byte) : Heap :=
  (Heap.empty.newtable Heap.newestFirst
    [("family", .integer 1), ("path", .string (ofBytes path))]).2

/-- The path of the table is the one given. -/
theorem get_unixTable (path : List Byte) :
    (unixTable path).get 0 (Heap.fieldName "path") = .string (ofBytes path) :=
  Heap.get_newtable _ "path"

/-- Its family is `AF_UNIX`. -/
theorem checkfamily_unixTable (path : List Byte) :
    (unixTable path).checkintfield 2 0 "family" = .ok Family.AF_UNIX.value :=
  Heap.checkintfield_of_get (d := 1) (Heap.get_newtable _ "family")

/-- Its address. -/
theorem sockaddr_from_lua_unixTable {path : List Byte} (hlen : path.length ≤ 108) :
    sockaddr_from_lua .zero loopback (unixTable path) 2 [.integer 3, .table 0]
      = .ok (some (sockaddr_un Family.AF_UNIX.value path, 2 + path.length)) := by
  have hnames : (unixTable path).checkfieldnames .zero 2 0 Safunix_fields = .ok () := by
    refine Heap.checkfieldnames_of_known (by decide) fun key hkey => ?_
    obtain ⟨field, hfield, rfl⟩ := Heap.mem_newtable hkey
    rcases List.mem_pair.mp hfield with rfl | rfl
    · exact ⟨"family", by decide, rfl⟩
    · exact ⟨"path", by decide, rfl⟩
  have htable : checktable [.integer 3, .table 0] 2 = .ok 0 := rfl
  have hmin : min (ofBytes path).length 108 = path.length := by
    rw [length_ofBytes]
    exact Nat.min_eq_left hlen
  simp only [sockaddr_from_lua, htable, CallM.lift_ok, CallM.ok_bind, checkfamily_unixTable,
    sockaddrFields, Family.ofInt_value, Heap.checklstringfield_of_get (get_unixTable path), hnames,
    hmin, List.take_of_length_le (Nat.le_of_eq (length_ofBytes path)), toBytes_ofBytes]
  rfl

/-- The path `/tmp/s` comes back. -/
theorem path_trip_tmp :
    (Heap.empty.newtable Heap.newestFirst (addressFields loopback
        (sockaddr_un Family.AF_UNIX.value (toBytes "/tmp/s".toList)))).2.get 0
        (Heap.fieldName "path") = .string (ofBytes (toBytes "/tmp/s".toList)) ↔
      toBytes "/tmp/s".toList ≠ [] ∧ 0 ∉ toBytes "/tmp/s".toList :=
  path_trip_iff .zero loopback Heap.newestFirst (unixTable (toBytes "/tmp/s".toList)) .empty
    [.integer 3, .table 0] 2 0 rfl (checkfamily_unixTable _) (toBytes "/tmp/s".toList)
    (get_unixTable _) (by decide) _ _ (sockaddr_from_lua_unixTable (by decide))

/-- The abstract name `\0mysocket` is bound, and comes back as no path at all. -/
theorem path_trip_abstract :
    ∃ (path : List Byte) (sa : Memory) (addrlen : Nat), path = toBytes "\x00mysocket".toList ∧
      sockaddr_from_lua .zero loopback (unixTable path) 2 [.integer 3, .table 0]
        = .ok (some (sa, addrlen)) ∧
      (Heap.empty.newtable Heap.newestFirst (addressFields loopback sa)).2.get 0
        (Heap.fieldName "path") ≠ .string (ofBytes path) := by
  refine ⟨_, _, _, rfl, sockaddr_from_lua_unixTable (by decide), ?_⟩
  have hget := Heap.get_newtable (L := Heap.newestFirst) (H := .empty) (addressFields loopback
    (sockaddr_un Family.AF_UNIX.value (toBytes "\x00mysocket".toList))) "path"
  rw [fieldOf_path (by decide)] at hget
  intro h
  rw [show Heap.empty.size = 0 from rfl, h] at hget
  exact absurd hget (by decide)

end LuaPosix.Sockets

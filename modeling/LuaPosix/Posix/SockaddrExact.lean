import LuaPosix.Posix.SockaddrTrip

/-! # Numbers and paths in socket addresses

`sockaddr_from_lua` casts the numbers of a table to the types of the C fields and cuts a path to
the room there is for it. A number is kept if and only if it is an integer of the C type, a path
if and only if it fits. -/

namespace LuaPosix.Sockets

open LuaPattern (LStr)
open Bytes (Memory swap read)

/-! ## Casts -/

/-- The number a value is. -/
def numberOf : LuaValue → Option Rat
  | .integer d => some d.toInt
  | .float q => some q
  | _ => none

/-- An integer that a value is, is what `lua_tointeger` reads. -/
theorem toInt_tointeger {v : LuaValue} {n : Int} (h : numberOf v = some (n : Rat))
    (hlo : -2 ^ 63 ≤ n) (hhi : n < 2 ^ 63) : (tointeger v).toInt = n := by
  cases v with
  | integer d => exact Int.cast_injective (Option.some.inj h)
  | float q =>
      obtain rfl := Option.some.inj h
      have hint : LuaValue.floatToInteger (n : Rat) = some (BitVec.ofInt 64 n) := by
        rw [LuaValue.floatToInteger, Rat.num_intCast, Rat.den_intCast, if_pos ⟨rfl, hlo, hhi⟩]
      rw [tointeger, hint, Option.getD_some, BitVec.toInt_ofInt_eq_self (by decide) hlo hhi]
  | _ => cases h

/-- A type of integers in C, with the cast of a Lua integer. -/
structure IntType where
  lo : Int
  hi : Int
  cast : LuaInteger → Int
  lo_le : -2 ^ 63 ≤ lo
  le_hi : hi ≤ 2 ^ 63
  cast_mem : ∀ d, lo ≤ cast d ∧ cast d < hi
  cast_eq : ∀ d, lo ≤ d.toInt → d.toInt < hi → cast d = d.toInt

/-- The value is an integer of the type. -/
def IntType.Fits (C : IntType) (v : LuaValue) : Prop :=
  ∃ n : Int, numberOf v = some (n : Rat) ∧ C.lo ≤ n ∧ n < C.hi

/-- **A cast keeps exactly the integers of its type.** -/
theorem IntType.numberOf_eq_cast_iff (C : IntType) (v : LuaValue) :
    numberOf v = some (C.cast (tointeger v) : Rat) ↔ C.Fits v := by
  constructor
  · intro h
    exact ⟨_, h, C.cast_mem _⟩
  · rintro ⟨n, hn, hlo, hhi⟩
    have htoInt := toInt_tointeger hn (C.lo_le.trans hlo) (hhi.trans_le C.le_hi)
    rw [C.cast_eq _ (htoInt ▸ hlo) (htoInt ▸ hhi), htoInt, hn]

/-- An integer is its number, or that less 2^64 where it is negative. -/
theorem toInt_cases (d : LuaInteger) :
    d.toInt = d.toNat ∧ d.toNat < 2 ^ 63 ∨ d.toInt = d.toNat - 2 ^ 64 ∧ 2 ^ 63 ≤ d.toNat := by
  have := d.isLt
  rw [BitVec.toInt_eq_toNat_cond]
  split_ifs <;> omega

/-- `uint16_t` and `uint32_t`. -/
def IntType.unsigned (n : Nat) (hn : n ≤ 32) : IntType where
  lo := 0
  hi := 2 ^ n
  cast d := (d.setWidth n).toNat
  lo_le := by decide
  le_hi := by
    have hpow : (2 : Int) ^ n ≤ 2 ^ 32 := pow_le_pow_right₀ (by decide) hn
    omega
  cast_mem d := ⟨Int.natCast_nonneg _, by exact_mod_cast (d.setWidth n).isLt⟩
  cast_eq d hlo hhi := by
    obtain ⟨hd, -⟩ | ⟨hd, -⟩ := toInt_cases d
    · rw [hd] at hhi ⊢
      rw [BitVec.toNat_setWidth, Nat.mod_eq_of_lt (by exact_mod_cast hhi)]
    · have := d.isLt
      omega

/-- `int`. -/
def IntType.int : IntType where
  lo := -2 ^ 31
  hi := 2 ^ 31
  cast d := toInt d
  lo_le := by decide
  le_hi := by decide
  cast_mem d := ⟨(d.setWidth 32).le_toInt, (d.setWidth 32).toInt_lt⟩
  cast_eq d hlo hhi := (cint_eq_iff d (by decide)).mpr ⟨hlo, hhi⟩

/-! ## The fields of the blocks -/

/-- A field that holds a number. -/
structure NumberField where
  name : String
  ctype : IntType
  /-- The number it holds. -/
  value : Memory → Int

/-- `port`. -/
def portField : NumberField where
  name := "port"
  ctype := .unsigned 16 (by decide)
  value sa := (swap (sin_port sa)).toNat

/-- `flowinfo`. -/
def flowinfoField : NumberField where
  name := "flowinfo"
  ctype := .unsigned 32 (by decide)
  value sa := (swap (sin6_flowinfo sa)).toNat

/-- `scope_id`. -/
def scope_idField : NumberField where
  name := "scope_id"
  ctype := .unsigned 32 (by decide)
  value sa := (sin6_scope_id sa).toNat

/-- `pid`. -/
def pidField : NumberField where
  name := "pid"
  ctype := .unsigned 32 (by decide)
  value sa := (nl_pid sa).toNat

/-- `groups`. -/
def groupsField : NumberField where
  name := "groups"
  ctype := .unsigned 32 (by decide)
  value sa := (nl_groups sa).toNat

/-- `ifindex`. -/
def ifindexField : NumberField where
  name := "ifindex"
  ctype := .int
  value sa := (sll_ifindex sa).toInt

/-- The numbers in the address of a family. -/
def Family.numbers : Family → List NumberField
  | .AF_UNIX => []
  | .AF_INET => [portField]
  | .AF_INET6 => [portField, flowinfoField, scope_idField]
  | .AF_NETLINK => [pidField, groupsField]
  | .AF_PACKET => [ifindexField]

/-- The value of a field, 0 where there is none. -/
def given (H : Heap) (t : Nat) (name : String) : LuaValue :=
  if H.get t (Heap.fieldName name) = .nil then .integer 0 else H.get t (Heap.fieldName name)

section Checks

variable {H : Heap} {index t : Nat} {k : String}

/-- What a successful check of a type says. -/
theorem checkfieldtype_eq_ok {expect_type : String} {expected : Option String} {v : LuaValue}
    (h : H.checkfieldtype index t k expect_type expected = .ok v) :
    v = H.get t (Heap.fieldName k) ∧ LuaValue.typename (some v) = expect_type := by
  unfold Heap.checkfieldtype at h
  simp only at h
  split_ifs at h with htype
  cases h
  exact ⟨rfl, htype⟩

/-- What has the type of a string is one. -/
theorem exists_string {v : LuaValue} (h : LuaValue.typename (some v) = "string") :
    ∃ s, v = .string s := by
  cases v with
  | string s => exact ⟨s, rfl⟩
  | _ => simp [LuaValue.typename] at h

/-- A field that is an integer was given. -/
theorem checkintegerfield_eq_ok {d : LuaInteger} (h : H.checkintegerfield index t k = .ok d) :
    d = tointeger (given H t k) := by
  rw [Heap.checkintegerfield, map_eq_pure_bind] at h
  obtain ⟨v, hv, hd⟩ := bind_eq_ok.mp h
  obtain ⟨rfl, htype⟩ := checkfieldtype_eq_ok hv
  have hne : H.get t (Heap.fieldName k) ≠ .nil := by
    intro hnil
    rw [hnil] at htype
    exact absurd htype (by decide)
  rw [given, if_neg hne]
  exact (Except.ok.inj hd).symm

/-- As an `int` it is narrowed. -/
theorem checkintfield_eq_ok {n : Int} (h : H.checkintfield index t k = .ok n) :
    n = toInt (tointeger (given H t k)) := by
  rw [Heap.checkintfield, map_eq_pure_bind] at h
  obtain ⟨d, hd, hn⟩ := bind_eq_ok.mp h
  rw [← checkintegerfield_eq_ok hd]
  exact (Except.ok.inj hn).symm

/-- One that is missing is 0. -/
theorem optintegerfield_eq_ok {d : LuaInteger} (h : H.optintegerfield index t k 0 = .ok d) :
    d = tointeger (given H t k) := by
  rw [Heap.optintegerfield] at h
  split_ifs at h with hnil
  · rw [given, if_pos hnil]
    exact (Except.ok.inj h).symm
  · exact checkintegerfield_eq_ok h

/-- The path is the string that was given. -/
theorem checklstringfield_eq_ok {path : LStr} (h : H.checklstringfield index t k = .ok path) :
    H.get t (Heap.fieldName k) = .string path := by
  obtain ⟨v, hv, hpath⟩ := bind_eq_ok.mp h
  obtain ⟨rfl, htype⟩ := checkfieldtype_eq_ok hv
  obtain ⟨s, hs⟩ := exists_string htype
  rw [hs] at hpath ⊢
  rw [← Except.ok.inj hpath]

/-- The table is the argument. -/
theorem checktable_eq_ok {args : List LuaValue}
    (h : (liftM (checktable args index) : CallM Nat) = .ok t) :
    argument args index = some (.table t) := by
  have htable : checktable args index = .ok t := by
    cases hcheck : checktable args index with
    | error e =>
        rw [hcheck] at h
        cases h
    | ok u =>
        rw [hcheck] at h
        cases h
        rfl
  rw [checktable] at htable
  split at htable
  · rename_i u hargs
    cases htable
    exact hargs
  · cases htable
  · cases htable

end Checks

/-! ## Exact numbers -/

section Numbers

variable {N : Numerals} {P : Presentation} {H : Heap} {index t : Nat} {sa : Memory} {addrlen : Nat}

/-- The index is read back from a `packet` address. -/
theorem sll_ifindex_ll (family ifindex : Int) :
    sll_ifindex (sockaddr_ll family ifindex) = BitVec.ofInt 32 ifindex :=
  Bytes.load_store _ _ (by decide)

/-- A port is cast to `int` and then to 16 bits. -/
theorem swap_swap_port (d : LuaInteger) :
    swap (swap (BitVec.ofInt 16 (toInt d))) = d.setWidth 16 := by
  rw [Bytes.swap_swap _ (by decide), ofInt_toInt (by decide)]

/-- The numbers of an `inet` address are those given, cast. -/
theorem numbers_inet
    (h : sockaddrFields N P H index t Family.AF_INET.value = .ok (some (sa, addrlen))) :
    ∀ F ∈ Family.AF_INET.numbers, F.value sa = F.ctype.cast (tointeger (given H t F.name)) := by
  rw [sockaddrFields, Family.ofInt_value] at h
  obtain ⟨port, hport, h⟩ := bind_eq_ok.mp h
  obtain ⟨addr, -, h⟩ := bind_eq_ok.mp h
  obtain ⟨-, -, h⟩ := bind_eq_ok.mp h
  obtain ⟨a, -, hsa⟩ := Option.map_eq_some_iff.mp (Except.ok.inj h)
  cases hsa
  obtain rfl := checkintfield_eq_ok hport
  intro F hF
  rw [List.mem_singleton.mp hF]
  show ((swap (sin_port _)).toNat : Int)
    = (((tointeger (given H t "port")).setWidth 16).toNat : Int)
  rw [sin_port_in, swap_swap_port]

/-- So are those of an `inet6` address. -/
theorem numbers_inet6
    (h : sockaddrFields N P H index t Family.AF_INET6.value = .ok (some (sa, addrlen))) :
    ∀ F ∈ Family.AF_INET6.numbers, F.value sa = F.ctype.cast (tointeger (given H t F.name)) := by
  rw [sockaddrFields, Family.ofInt_value] at h
  obtain ⟨port, hport, h⟩ := bind_eq_ok.mp h
  obtain ⟨addr, -, h⟩ := bind_eq_ok.mp h
  obtain ⟨flowinfo, hflow, h⟩ := bind_eq_ok.mp h
  obtain ⟨scope_id, hscope, h⟩ := bind_eq_ok.mp h
  obtain ⟨-, -, h⟩ := bind_eq_ok.mp h
  obtain ⟨a, -, hsa⟩ := Option.map_eq_some_iff.mp (Except.ok.inj h)
  cases hsa
  obtain rfl := checkintfield_eq_ok hport
  obtain rfl := optintegerfield_eq_ok hflow
  obtain rfl := optintegerfield_eq_ok hscope
  intro F hF
  rcases List.mem_cons.mp hF with rfl | hF
  · show ((swap (sin_port _)).toNat : Int) = (((tointeger _).setWidth 16).toNat : Int)
    rw [sin_port_in6, swap_swap_port]
    rfl
  · rcases List.mem_pair.mp hF with rfl | rfl
    · show ((swap (sin6_flowinfo _)).toNat : Int) = (((tointeger _).setWidth 32).toNat : Int)
      rw [sin6_flowinfo_in6, Bytes.swap_swap _ (by decide)]
      rfl
    · show ((sin6_scope_id _).toNat : Int) = (((tointeger _).setWidth 32).toNat : Int)
      rw [sin6_scope_id_in6]
      rfl

/-- So are those of a `netlink` address. -/
theorem numbers_netlink
    (h : sockaddrFields N P H index t Family.AF_NETLINK.value = .ok (some (sa, addrlen))) :
    ∀ F ∈ Family.AF_NETLINK.numbers, F.value sa = F.ctype.cast (tointeger (given H t F.name)) := by
  rw [sockaddrFields, Family.ofInt_value] at h
  obtain ⟨pid, hpid, h⟩ := bind_eq_ok.mp h
  obtain ⟨groups, hgroups, h⟩ := bind_eq_ok.mp h
  obtain ⟨-, -, h⟩ := bind_eq_ok.mp h
  cases h
  obtain rfl := checkintfield_eq_ok hpid
  obtain rfl := checkintfield_eq_ok hgroups
  intro F hF
  rcases List.mem_pair.mp hF with rfl | rfl
  · show ((nl_pid _).toNat : Int) = (((tointeger _).setWidth 32).toNat : Int)
    rw [nl_pid_nl, ofInt_toInt (by decide)]
    rfl
  · show ((nl_groups _).toNat : Int) = (((tointeger _).setWidth 32).toNat : Int)
    rw [nl_groups_nl, ofInt_toInt (by decide)]
    rfl

/-- So is that of a `packet` address. -/
theorem numbers_packet
    (h : sockaddrFields N P H index t Family.AF_PACKET.value = .ok (some (sa, addrlen))) :
    ∀ F ∈ Family.AF_PACKET.numbers, F.value sa = F.ctype.cast (tointeger (given H t F.name)) := by
  rw [sockaddrFields, Family.ofInt_value] at h
  obtain ⟨ifindex, hifindex, h⟩ := bind_eq_ok.mp h
  obtain ⟨-, -, h⟩ := bind_eq_ok.mp h
  cases h
  obtain rfl := checkintfield_eq_ok hifindex
  intro F hF
  rw [List.mem_singleton.mp hF]
  show (sll_ifindex _).toInt = toInt (tointeger (given H t "ifindex"))
  rw [sll_ifindex_ll, ofInt_toInt (by decide)]
  rfl

/-- The block holds the numbers of the table, cast to the types of the fields. -/
theorem value_eq_cast {f : Family}
    (h : sockaddrFields N P H index t f.value = .ok (some (sa, addrlen))) :
    ∀ F ∈ f.numbers, F.value sa = F.ctype.cast (tointeger (given H t F.name)) := by
  cases f with
  | AF_UNIX => exact fun F hF => absurd hF List.not_mem_nil
  | AF_INET => exact numbers_inet h
  | AF_INET6 => exact numbers_inet6 h
  | AF_NETLINK => exact numbers_netlink h
  | AF_PACKET => exact numbers_packet h

end Numbers

/-! ## Exact addresses -/

section Addresses

variable {N : Numerals} {P : Presentation} {H : Heap} {index t : Nat} {args : List LuaValue}
  {f : Family} {sa : Memory} {addrlen : Nat}

/-- Each character is one byte. -/
theorem toBytes_length (s : LStr) : (toBytes s).length = s.length := List.length_map _

/-- The path is cut to the room there is for it. -/
theorem path_inet
    (h : sockaddrFields N P H index t Family.AF_UNIX.value = .ok (some (sa, addrlen))) :
    ∃ path, H.get t (Heap.fieldName "path") = .string path ∧
      addrlen = 2 + min path.length 108 ∧
      read sa 2 (addrlen - 2) = toBytes (path.take 108) := by
  rw [sockaddrFields, Family.ofInt_value] at h
  obtain ⟨path, hpath, h⟩ := bind_eq_ok.mp h
  obtain ⟨-, -, h⟩ := bind_eq_ok.mp h
  cases h
  refine ⟨path, checklstringfield_eq_ok hpath, rfl, ?_⟩
  have htake : path.take (min path.length 108) = path.take 108 := by
    rw [List.take_eq_take_iff]
    omega
  have hlen : min path.length 108 = (toBytes (path.take 108)).length := by
    rw [toBytes_length, List.length_take, Nat.min_comm]
  show read (sockaddr_un _ _) 2 (2 + min path.length 108 - 2) = _
  rw [Nat.add_sub_cancel_left, htake, hlen, sockaddr_un,
    Bytes.read_store_of_disjoint _ _ (.inr (by decide)), Bytes.read_write]

/-- The address has the numbers and the path of the table. -/
structure Exact (H : Heap) (t : Nat) (f : Family) (sa : Memory) (addrlen : Nat) : Prop where
  number : ∀ F ∈ f.numbers, numberOf (given H t F.name) = some (F.value sa : Rat)
  path : f = .AF_UNIX → ∀ path, H.get t (Heap.fieldName "path") = .string path →
    read sa 2 (addrlen - 2) = toBytes path

/-- The numbers are integers of the C types, and there is room for the path. -/
structure Fits (H : Heap) (t : Nat) (f : Family) : Prop where
  number : ∀ F ∈ f.numbers, F.ctype.Fits (given H t F.name)
  path : f = .AF_UNIX → ∀ path, H.get t (Heap.fieldName "path") = .string path →
    path.length ≤ 108

/-- What fits is kept, field by field, and the path is cut to 108 bytes. -/
structure Encoded (H : Heap) (t : Nat) (f : Family) (sa : Memory) (addrlen : Nat) : Prop where
  number : ∀ F ∈ f.numbers, (numberOf (given H t F.name) = some (F.value sa : Rat) ↔
    F.ctype.Fits (given H t F.name))
  path : f = .AF_UNIX → ∃ path, H.get t (Heap.fieldName "path") = .string path ∧
    read sa 2 (addrlen - 2) = toBytes (path.take 108)

/-- The cut leaves exactly the paths of at most 108 bytes alone. -/
theorem toBytes_take_eq_iff (path : LStr) :
    toBytes (path.take 108) = toBytes path ↔ path.length ≤ 108 := by
  constructor
  · intro h
    have hlen := congrArg List.length h
    rw [toBytes_length, toBytes_length, List.length_take] at hlen
    omega
  · intro h
    rw [List.take_of_length_le h]

/-- What was encoded is exact where everything given fits. -/
theorem Encoded.exact_iff_fits (h : Encoded H t f sa addrlen) :
    Exact H t f sa addrlen ↔ Fits H t f := by
  constructor
  · intro hexact
    refine ⟨fun F hF => (h.number F hF).mp (hexact.number F hF), fun hf path hpath => ?_⟩
    obtain ⟨path', hpath', hread⟩ := h.path hf
    obtain rfl : path' = path := LuaValue.string.inj (hpath'.symm.trans hpath)
    exact (toBytes_take_eq_iff path').mp (hread.symm.trans (hexact.path hf path' hpath))
  · intro hfits
    refine ⟨fun F hF => (h.number F hF).mpr (hfits.number F hF), fun hf path hpath => ?_⟩
    obtain ⟨path', hpath', hread⟩ := h.path hf
    obtain rfl : path' = path := LuaValue.string.inj (hpath'.symm.trans hpath)
    rw [hread, toBytes_take_eq_iff]
    exact hfits.path hf path' hpath

/-- What the fields make of the table is encoded from it. -/
theorem encoded_of_fields
    (h : sockaddrFields N P H index t f.value = .ok (some (sa, addrlen))) :
    Encoded H t f sa addrlen := by
  refine ⟨fun F hF => ?_, ?_⟩
  · rw [value_eq_cast h F hF]
    exact F.ctype.numberOf_eq_cast_iff _
  · rintro rfl
    obtain ⟨path, hpath, -, hread⟩ := path_inet h
    exact ⟨path, hpath, hread⟩

/-- **What `sockaddr_from_lua` makes of a table**, in every family: a number is kept if and only if
it is an integer of the type of its field, and the path is cut to 108 bytes. The address is exact
if and only if all of it fits. -/
theorem sockaddr_exact_iff
    (h : sockaddr_from_lua N P H index args = .ok (some (sa, addrlen))) :
    ∃ t f, argument args index = some (.table t) ∧
      H.checkintfield index t "family" = .ok f.value ∧ Encoded H t f sa addrlen ∧
      (Exact H t f sa addrlen ↔ Fits H t f) := by
  obtain ⟨t, ht, h⟩ := bind_eq_ok.mp h
  obtain ⟨family, hfamily, h⟩ := bind_eq_ok.mp h
  have hargs := checktable_eq_ok ht
  cases hf : Family.ofInt family with
  | none =>
      rw [sockaddrFields, hf] at h
      cases h
  | some f =>
      obtain rfl := Family.ofInt_eq_some_iff.mp hf
      have hencoded := encoded_of_fields h
      exact ⟨t, f, hargs, hfamily, hencoded, hencoded.exact_iff_fits⟩

end Addresses

/-! ## Instances -/

/-- The table `{family = AF_INET, port = port, addr = "127.0.0.1"}`, at place 0. -/
def inetTable (port : LuaValue) : Heap :=
  (Heap.empty.newtable Heap.newestFirst
    [("family", .integer 2), ("port", port), ("addr", .string "127.0.0.1".toList)]).2

/-- Port 80 on `127.0.0.1` is encoded exactly. -/
theorem sockaddr_exact_inet80 :
    ∃ t f, argument [.integer 3, .table 0] 2 = some (.table t) ∧
      (inetTable (.integer 80)).checkintfield 2 t "family" = .ok f.value ∧
      Encoded (inetTable (.integer 80)) t f (sockaddr_in 2 80 [127, 0, 0, 1]) 16 ∧
      (Exact (inetTable (.integer 80)) t f (sockaddr_in 2 80 [127, 0, 0, 1]) 16 ↔
        Fits (inetTable (.integer 80)) t f) :=
  sockaddr_exact_iff (N := .zero) (P := loopback) rfl

/-- A path of 109 bytes is cut, and the port 65616 becomes the port 80. -/
theorem path_cut_port_wrapped :
    (∃ sa addrlen, sockaddr_from_lua .zero loopback (unixTable (List.replicate 109 97)) 2
        [.integer 3, .table 0] = .ok (some (sa, addrlen)) ∧
      ¬Exact (unixTable (List.replicate 109 97)) 0 .AF_UNIX sa addrlen) ∧
    sockaddr_from_lua .zero loopback (inetTable (.integer 65616)) 2 [.integer 3, .table 0]
      = .ok (some (sockaddr_in 2 65616 [127, 0, 0, 1], 16)) ∧
    portField.value (sockaddr_in 2 65616 [127, 0, 0, 1]) = 80 ∧
    ¬Exact (inetTable (.integer 65616)) 0 .AF_INET (sockaddr_in 2 65616 [127, 0, 0, 1]) 16 := by
  have hvalue : portField.value (sockaddr_in 2 65616 [127, 0, 0, 1]) = 80 := by
    show ((swap (sin_port _)).toNat : Int) = 80
    rw [sin_port_in, Bytes.swap_swap _ (by decide)]
    rfl
  refine ⟨⟨_, _, rfl, fun h => ?_⟩, rfl, hvalue, fun h => ?_⟩
  · have hpath := h.path rfl _ (get_unixTable (List.replicate 109 97))
    have hlen := congrArg List.length hpath
    rw [Bytes.length_read] at hlen
    exact absurd hlen (by decide)
  · have hport := h.number portField (List.mem_singleton_self _)
    have hgiven : given (inetTable (.integer 65616)) 0 portField.name = .integer 65616 := rfl
    rw [hvalue, hgiven] at hport
    exact absurd (Int.cast_injective (Option.some.inj hport)) (by decide)

end LuaPosix.Sockets

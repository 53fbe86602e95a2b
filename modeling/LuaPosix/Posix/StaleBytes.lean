import LuaPosix.Posix.Sockets

/-! # Addresses and the bytes they are written over

`accept`, `recvfrom`, `getsockname` and `getpeername` make a table of a block that the kernel has
written the address of a socket into. How many bytes it has written they do not look at: where
the fields of the family reach further, the table shows what was there before. -/

namespace LuaPosix.Sockets

open LuaPattern (LStr)
open Bytes
open Traversal (Layout)

/-! ## What a table shows of an address -/

/-- The family of a block, if it is told apart. -/
def familyOf (sa : Memory) : Option Family := Family.ofInt (ss_family sa).toNat

/-- The bytes after the family that the fields of a family take up. -/
def Family.span : Family → Nat × Nat
  | .AF_UNIX => (2, 110)
  | .AF_INET => (2, 8)
  | .AF_INET6 => (2, 28)
  | .AF_NETLINK => (4, 12)
  | .AF_PACKET => (4, 8)

/-- Two blocks of a family agree in what a table shows. -/
def SameSpan (sa sa' : Memory) : Option Family → Prop
  | some .AF_UNIX => pathUpToZero sa = pathUpToZero sa'
  | some f => Agree sa sa' f.span.1 f.span.2
  | none => True

/-- Two blocks agree in all that a table shows. -/
def SameShown (sa sa' : Memory) : Prop :=
  ss_family sa = ss_family sa' ∧ SameSpan sa sa' (familyOf sa)

section Shown

variable {P : Presentation} {sa sa' : Memory}

/-- Widening to 64 bits loses nothing. -/
theorem setWidth_64_inj {n : Nat} (hn : n ≤ 64) {u v : BitVec n} :
    u.setWidth 64 = v.setWidth 64 ↔ u = v := by
  refine ⟨fun h => ?_, congrArg _⟩
  rw [← setWidth_setWidth_64 hn u, h, setWidth_setWidth_64 hn v]

/-- A number that is shown tells its bytes. -/
theorem number_shown_iff {n : Nat} (hdvd : 8 ∣ n) (hn : n ≤ 64) (off : Nat) :
    LuaValue.integer ((load n sa off).setWidth 64) = .integer ((load n sa' off).setWidth 64)
      ↔ Agree sa sa' off (off + n / 8) := by
  rw [LuaValue.integer.injEq, setWidth_64_inj hn, load_eq_load_iff_agree hdvd]

/-- Also one in network order. -/
theorem swapped_shown_iff {n : Nat} (hdvd : 8 ∣ n) (hn : n ≤ 64) (off : Nat) :
    LuaValue.integer ((swap (load n sa off)).setWidth 64)
        = .integer ((swap (load n sa' off)).setWidth 64)
      ↔ Agree sa sa' off (off + n / 8) := by
  rw [LuaValue.integer.injEq, setWidth_64_inj hn, swap_inj hdvd, load_eq_load_iff_agree hdvd]

/-- And a signed one. -/
theorem signed_shown_iff (off : Nat) :
    LuaValue.integer ((load 32 sa off).signExtend 64)
        = .integer ((load 32 sa' off).signExtend 64)
      ↔ Agree sa sa' off (off + 4) := by
  rw [LuaValue.integer.injEq, signExtend_64_inj (by decide),
    load_eq_load_iff_agree (by decide : 8 ∣ 32)]

/-- The text of an address tells it. -/
theorem text_shown_iff {f : Family} {n : Nat}
    (hP : ∀ a : List Byte, a.length = n → P.inet_pton f (cstring (P.inet_ntop f a)) = some a)
    (off : Nat) :
    LuaValue.string (cstring (P.inet_ntop f (read sa off n)))
        = .string (cstring (P.inet_ntop f (read sa' off n)))
      ↔ Agree sa sa' off (off + n) := by
  rw [LuaValue.string.injEq, ← read_eq_read_iff_agree]
  refine ⟨fun h => ?_, fun h => h ▸ rfl⟩
  have hsome := hP (read sa off n) (length_read sa)
  rw [h, hP (read sa' off n) (length_read sa')] at hsome
  exact (Option.some.inj hsome).symm

/-- A path is shown, or nothing where it is empty. -/
theorem path_shown_iff (d : LuaInteger) {p p' : List Byte} :
    Heap.fieldOf (Heap.pushintegerfield "family" d ++ Heap.pushlstringfield "path" (ofBytes p))
        "path"
      = Heap.fieldOf (Heap.pushintegerfield "family" d
          ++ Heap.pushlstringfield "path" (ofBytes p')) "path"
      ↔ p = p' := by
  have hfield (q : List Byte) : Heap.fieldOf (Heap.pushintegerfield "family" d
      ++ Heap.pushlstringfield "path" (ofBytes q)) "path"
        = if q = [] then .nil else .string (ofBytes q) := by
    rw [Heap.pushlstringfield, length_ofBytes]
    cases q <;> rfl
  rw [hfield, hfield]
  split_ifs with hp hp' hp'
  · exact iff_of_true rfl (hp.trans hp'.symm)
  · exact iff_of_false not_false fun h => hp' (h.symm.trans hp)
  · exact iff_of_false not_false fun h => hp (h.trans hp')
  · rw [LuaValue.string.injEq, ofBytes_injective.eq_iff]

/-- The family is shown. -/
theorem ss_family_eq_of_fields
    (h : ∀ k, Heap.fieldOf (addressFields P sa) k = Heap.fieldOf (addressFields P sa') k) :
    ss_family sa = ss_family sa' := by
  have hfamily := h "family"
  rw [addressFields, addressFields, fieldOf_family, fieldOf_family, LuaValue.integer.injEq,
    BitVec.ofInt_natCast, BitVec.ofInt_natCast, BitVec.ofNat_toNat, BitVec.ofNat_toNat] at hfamily
  exact (setWidth_64_inj (by decide)).mp hfamily

/-- What a table shows after its family, family by family. -/
theorem sameFields_iff_of_family (hP : P.RoundTrip) (d : LuaInteger) (f : Option Family) :
    (∀ k, Heap.fieldOf (Heap.pushintegerfield "family" d ++ familyFields P sa f) k
        = Heap.fieldOf (Heap.pushintegerfield "family" d ++ familyFields P sa' f) k)
      ↔ SameSpan sa sa' f := by
  cases f with
  | none => exact iff_of_true (fun k => rfl) trivial
  | some f =>
      cases f with
      -- A path is compared as a whole, the other fields by the bytes they lie in.
      | AF_UNIX =>
          refine ⟨fun h => (path_shown_iff d).mp (h "path"), fun h k => ?_⟩
          rw [familyFields, familyFields, h]
      | AF_INET =>
          show _ ↔ Agree sa sa' 2 8
          rw [← agree_append (by decide : 2 ≤ 4) (by decide)]
          constructor
          · intro h
            exact ⟨(swapped_shown_iff (by decide) (by decide) 2).mp (h "port"),
              (text_shown_iff hP.inet 4).mp (h "addr")⟩
          · rintro ⟨hport, haddr⟩ k
            have hport : sin_port sa = sin_port sa' :=
              (load_eq_load_iff_agree (by decide)).mpr hport
            have haddr : sin_addr sa = sin_addr sa' := read_eq_read_iff_agree.mpr haddr
            rw [familyFields, familyFields, hport, haddr]
      | AF_INET6 =>
          show _ ↔ Agree sa sa' 2 28
          rw [← agree_append (by decide : 2 ≤ 4) (by decide),
            ← agree_append (by decide : 4 ≤ 8) (by decide),
            ← agree_append (by decide : 8 ≤ 24) (by decide)]
          constructor
          · intro h
            exact ⟨(swapped_shown_iff (by decide) (by decide) 2).mp (h "port"),
              (swapped_shown_iff (by decide) (by decide) 4).mp (h "flowinfo"),
              (text_shown_iff hP.inet6 8).mp (h "addr"),
              (number_shown_iff (by decide) (by decide) 24).mp (h "scope_id")⟩
          · rintro ⟨hport, hflow, haddr, hscope⟩ k
            have hport : sin_port sa = sin_port sa' :=
              (load_eq_load_iff_agree (by decide)).mpr hport
            have hflow : sin6_flowinfo sa = sin6_flowinfo sa' :=
              (load_eq_load_iff_agree (by decide)).mpr hflow
            have haddr : sin6_addr sa = sin6_addr sa' := read_eq_read_iff_agree.mpr haddr
            have hscope : sin6_scope_id sa = sin6_scope_id sa' :=
              (load_eq_load_iff_agree (by decide)).mpr hscope
            rw [familyFields, familyFields, hport, hflow, haddr, hscope]
      | AF_NETLINK =>
          show _ ↔ Agree sa sa' 4 12
          rw [← agree_append (by decide : 4 ≤ 8) (by decide)]
          constructor
          · intro h
            exact ⟨(number_shown_iff (by decide) (by decide) 4).mp (h "pid"),
              (number_shown_iff (by decide) (by decide) 8).mp (h "groups")⟩
          · rintro ⟨hpid, hgroups⟩ k
            have hpid : nl_pid sa = nl_pid sa' := (load_eq_load_iff_agree (by decide)).mpr hpid
            have hgroups : nl_groups sa = nl_groups sa' :=
              (load_eq_load_iff_agree (by decide)).mpr hgroups
            rw [familyFields, familyFields, hpid, hgroups]
      | AF_PACKET =>
          show _ ↔ Agree sa sa' 4 8
          refine ⟨fun h => (signed_shown_iff 4).mp (h "ifindex"), fun h k => ?_⟩
          have hifindex : sll_ifindex sa = sll_ifindex sa' :=
            (load_eq_load_iff_agree (by decide)).mpr h
          rw [familyFields, familyFields, hifindex]

/-- **Two tables have the same fields if and only if the blocks agree in what is shown.** -/
theorem sameFields_iff (hP : P.RoundTrip) :
    (∀ k, Heap.fieldOf (addressFields P sa) k = Heap.fieldOf (addressFields P sa') k)
      ↔ SameShown sa sa' := by
  have hfamily (hfam : ss_family sa = ss_family sa') :
      (∀ k, Heap.fieldOf (addressFields P sa) k = Heap.fieldOf (addressFields P sa') k)
        ↔ SameSpan sa sa' (familyOf sa) := by
    rw [addressFields, addressFields, pushsockaddrinfo, pushsockaddrinfo, ← hfam]
    exact sameFields_iff_of_family hP _ (familyOf sa)
  constructor
  · intro h
    have hfam := ss_family_eq_of_fields h
    exact ⟨hfam, (hfamily hfam).mp h⟩
  · rintro ⟨hfam, h⟩
    exact (hfamily hfam).mpr h

end Shown

/-! ## What the kernel has written -/

/-- An address tells all that is shown of it: its family, and the fields of the family or, of a
path, all up to a zero. -/
def Determined (addr : List Byte) : Prop :=
  2 ≤ addr.length ∧
  match familyOf (filled (fun _ => 0) addr) with
  | some .AF_UNIX => 110 ≤ addr.length ∨ 0 ∈ addr.drop 2
  | some f => f.span.2 ≤ addr.length
  | none => True

section Written

variable {stale stale' : Memory} {addr : List Byte}

/-- The bytes that a family reads lie in the buffer. -/
theorem Family.span_le (f : Family) : f.span.1 < f.span.2 ∧ f.span.2 ≤ 110 := by
  cases f <;> decide

/-- What the kernel has written. -/
theorem filled_of_lt {i : Nat} (h : i < addr.length) (hi : i < sizeofStorage) :
    filled stale addr i = addr[i] := by
  have hlen : i < (addr.take sizeofStorage).length := by
    rw [List.length_take]
    omega
  have hwrite : filled stale addr (0 + i) = (addr.take sizeofStorage)[i] := write_of_lt stale hlen
  rwa [Nat.zero_add, List.getElem_take] at hwrite

/-- What was there before. -/
theorem filled_of_ge {i : Nat} (h : addr.length ≤ i) : filled stale addr i = stale i := by
  refine write_of_notMem stale (.inr ?_)
  rw [List.length_take]
  omega

/-- What the kernel filled in does not depend on what was there before. -/
theorem agree_filled {a b : Nat} (h : b ≤ addr.length) (hb : b ≤ sizeofStorage) :
    Agree (filled stale addr) (filled stale' addr) a b := by
  intro i _ hi
  rw [filled_of_lt (by omega) (by omega), filled_of_lt (by omega) (by omega)]

/-- Beyond what is written anything can be. -/
theorem not_agree_filled {a b : Nat} (hab : a < b) (h : addr.length < b) :
    ¬Agree (filled (fun _ => 0) addr) (filled (fun _ => 1) addr) a b := by
  intro hagree
  have hlast := hagree (b - 1) (by omega) (by omega)
  rw [filled_of_ge (by omega), filled_of_ge (by omega)] at hlast
  exact absurd hlast (by decide)

/-- The path, where the address ends within it. -/
theorem sun_path_filled (h : 2 ≤ addr.length) (h' : addr.length ≤ 110) :
    sun_path (filled stale addr)
      = addr.drop 2 ++ Bytes.read stale addr.length (110 - addr.length) := by
  have hsplit : (108 : Nat) = (addr.length - 2) + (110 - addr.length) := by omega
  rw [sun_path, hsplit, read_append]
  refine congrArg₂ _ ?_ ?_
  · refine List.ext_getElem (by rw [length_read, List.length_drop]) fun i hi _ => ?_
    rw [length_read] at hi
    have hstorage : 2 + i < sizeofStorage := by
      show 2 + i < 128
      omega
    rw [getElem_read, filled_of_lt (by omega) hstorage, List.getElem_drop]
  · rw [Nat.add_sub_cancel' h]
    exact (read_eq_read_iff _ _).mpr fun i _ => filled_of_ge (Nat.le_add_right _ i)

/-- A path shows nothing of the bytes before if and only if it fills its room or has a zero. -/
theorem samePath_filled_iff (h : 2 ≤ addr.length) :
    (∀ stale stale', pathUpToZero (filled stale addr) = pathUpToZero (filled stale' addr)) ↔
      110 ≤ addr.length ∨ 0 ∈ addr.drop 2 := by
  constructor
  · intro hsame
    by_contra hcon
    rw [not_or, Nat.not_le] at hcon
    obtain ⟨hlt, hzero⟩ := hcon
    -- The path ends with the first zero of what was there before.
    have hpath (stale : Memory) : pathUpToZero (filled stale addr) = addr.drop 2 ++
        (Bytes.read stale addr.length (110 - addr.length)).takeWhile (· ≠ 0) := by
      rw [pathUpToZero, sun_path_filled h (by omega), List.takeWhile_append_of_pos]
      intro b hb
      exact decide_eq_true fun hb0 => hzero (hb0 ▸ hb)
    have h01 := hsame (fun _ => 0) (fun _ => 1)
    rw [hpath, hpath, List.append_cancel_left_eq] at h01
    obtain ⟨n, hn⟩ : ∃ n, 110 - addr.length = n + 1 := ⟨109 - addr.length, by omega⟩
    rw [hn, Bytes.read, Bytes.read, List.ofFn_succ, List.ofFn_succ] at h01
    exact absurd h01 (by simp)
  · intro hor stale stale'
    by_cases hfull : 110 ≤ addr.length
    · have hsun : sun_path (filled stale addr) = sun_path (filled stale' addr) :=
        read_eq_read_iff_agree.mpr (agree_filled hfull (by decide))
      rw [pathUpToZero, pathUpToZero, hsun]
    · have hzero := hor.resolve_left hfull
      have hshort : ((addr.drop 2).takeWhile (· ≠ 0)).length ≠ (addr.drop 2).length := by
        intro hlen
        have hall := List.takeWhile_eq_self_iff.mp
          ((List.takeWhile_prefix _).eq_of_length hlen) 0 hzero
        exact absurd hall (by decide)
      rw [pathUpToZero, pathUpToZero, sun_path_filled h (by omega), sun_path_filled h (by omega),
        List.takeWhile_append, List.takeWhile_append, if_neg hshort, if_neg hshort]

/-- The family, once it is written. -/
theorem ss_family_filled_eq (h : 2 ≤ addr.length) (stale stale' : Memory) :
    ss_family (filled stale addr) = ss_family (filled stale' addr) :=
  (load_eq_load_iff_agree (by decide)).mpr (agree_filled h (by decide))

/-- **The bytes before do not show if and only if the address tells all.** -/
theorem sameShown_filled_iff :
    (∀ stale stale', SameShown (filled stale addr) (filled stale' addr)) ↔ Determined addr := by
  constructor
  · intro h
    have h01 := h (fun _ => 0) (fun _ => 1)
    have hlen : 2 ≤ addr.length := Nat.not_lt.mp fun hlt =>
      not_agree_filled (by decide) hlt ((load_eq_load_iff_agree (by decide)).mp h01.1)
    refine ⟨hlen, ?_⟩
    have hspan := h01.2
    cases hf : familyOf (filled (fun _ => 0) addr) with
    | none => trivial
    | some f =>
        rw [hf] at hspan
        cases f with
        | AF_UNIX =>
            -- Two contents are not enough to tell where a path ends: all of them are used.
            refine (samePath_filled_iff hlen).mp fun stale stale' => ?_
            have hpath := (h stale stale').2
            rw [familyOf, ss_family_filled_eq hlen stale (fun _ => 0), ← familyOf, hf] at hpath
            exact hpath
        | _ => exact Nat.not_lt.mp fun hlt => not_agree_filled (Family.span_le _).1 hlt hspan
  · rintro ⟨hlen, hdet⟩ stale stale'
    refine ⟨ss_family_filled_eq hlen stale stale', ?_⟩
    rw [familyOf, ss_family_filled_eq hlen stale (fun _ => 0), ← familyOf]
    cases hf : familyOf (filled (fun _ => 0) addr) with
    | none => trivial
    | some f =>
        rw [hf] at hdet
        cases f with
        | AF_UNIX => exact (samePath_filled_iff hlen).mpr hdet stale stale'
        | _ => exact agree_filled hdet (by decide)

end Written

/-! ## The bindings -/

/-- The bindings that return an address. -/
inductive Asking where
  | accept
  | recvfrom
  | getsockname
  | getpeername
  deriving DecidableEq, Repr

section Bindings

variable {σ : Type} (S : System σ) (args : List LuaValue)

/-- The binding, over what was in the block before. -/
def Asking.binding (L : Layout fun _ : LuaValue => LuaValue) (stale : Memory) :
    Asking → BindingM σ Call (List LuaValue)
  | .accept => Paccept S args L stale
  | .recvfrom => Precvfrom S args L stale
  | .getsockname => Pgetsockname S args L stale
  | .getpeername => Pgetpeername S args L stale

/-- The call of a binding is made and succeeds, and the kernel gives an address. -/
inductive Asking.Gives (w : World σ Call) : Asking → List Byte → Prop
  | accept {fd : Int} (hfd : checkint S.num.strtod args 1 = .ok fd)
      (hnargs : checknargs args 1 = .ok ())
      (hresult : cint (S.accept fd w.sys).1.result.value ≠ -1) :
      Gives w .accept (S.accept fd w.sys).1.addr
  | recvfrom {fd : Int} {count : LuaInteger} {data addr : List Byte} {errno : Int}
      (hfd : checkint S.num.strtod args 1 = .ok fd)
      (hcount : checkinteger S.num.strtod args 2 = .ok count)
      (hnargs : checknargs args 2 = .ok ())
      (hbuf : ¬((S.lalloc count w.sys).1.isNull ∧ count ≠ 0))
      (hresult : (S.recvfrom fd count (S.lalloc count w.sys).2).1 = .received data addr errno) :
      Gives w .recvfrom addr
  | getsockname {fd : Int} (hfd : checkint S.num.strtod args 1 = .ok fd)
      (hnargs : checknargs args 1 = .ok ())
      (hresult : cint (S.getsockname fd w.sys).1.result.value = 0) :
      Gives w .getsockname (S.getsockname fd w.sys).1.addr
  | getpeername {fd : Int} (hfd : checkint S.num.strtod args 1 = .ok fd)
      (hnargs : checknargs args 1 = .ok ())
      (hresult : cint (S.getpeername fd w.sys).1.result.value = 0) :
      Gives w .getpeername (S.getpeername fd w.sys).1.addr

variable {S args} {L : Layout fun _ : LuaValue => LuaValue} {w : World σ Call}

/-- A named address is pushed as its fields. -/
theorem run_pushNamed {x : Named 32} (stale : Memory) (name : String)
    (h : cint x.result.value = 0) : (pushNamed S L stale name x).run w
      = .ok [.table w.heap.size] { w with
          heap := (w.heap.newtable L (addressFields S.presentation (filled stale x.addr))).2 } := by
  rw [pushNamed, if_neg (not_not.mpr h)]
  rfl

/-- A failure does not look at the buffer. -/
theorem run_pushNamed_congr {x : Named 32} (stale stale' : Memory) (name : String)
    (h : cint x.result.value ≠ 0) :
    (pushNamed S L stale name x).run w = (pushNamed S L stale' name x).run w := by
  rw [pushNamed, pushNamed, if_pos h, if_pos h]

/-- Where an address is given, the block is all that the bytes before enter into. -/
theorem Asking.run_of_gives {b : Asking} {addr : List Byte} (h : b.Gives S args w addr) :
    ∃ (vs : List LuaValue) (w' : World σ Call), ∀ stale, (b.binding S args L stale).run w
      = .ok (vs ++ [.table w'.heap.size]) { w' with
          heap := (w'.heap.newtable L (addressFields S.presentation (filled stale addr))).2 } := by
  -- The block is read last of all, for the table.
  cases h with
  | @accept fd hfd hnargs hresult =>
      refine ⟨[.integer (BitVec.ofInt 64 (cint (S.accept fd w.sys).1.result.value))],
        { w with
          errno := (S.accept fd w.sys).1.result.errno
          sys := (S.accept fd w.sys).2
          calls := w.calls ++ [.accept fd] }, fun stale => ?_⟩
      simp only [binding, Paccept, EStateM.run_bind, hfd, hnargs, BindingM.run_lua_ok,
        BindingM.run_syscall, if_neg hresult, pushAddress, BindingM.run_newtable,
        BindingM.run_pure]
      rfl
  | @recvfrom fd count data addr errno hfd hcount hnargs hbuf hresult =>
      refine ⟨[.string (ofBytes data)], { w with
          errno := errno
          sys := (S.recvfrom fd count (S.lalloc count w.sys).2).2
          calls := w.calls ++ [.lalloc count] ++ [.recvfrom fd count] }, fun stale => ?_⟩
      simp only [binding, Precvfrom, EStateM.run_bind, hfd, hcount, hnargs, BindingM.run_lua_ok,
        BindingM.run_seterrno, BindingM.run_lalloc, if_neg hbuf, BindingM.run_syscall, hresult,
        pushAddress, BindingM.run_newtable, BindingM.run_pure]
      rfl
  | @getsockname fd hfd hnargs hresult =>
      refine ⟨[], { w with
          errno := (S.getsockname fd w.sys).1.result.errno
          sys := (S.getsockname fd w.sys).2
          calls := w.calls ++ [.getsockname fd] }, fun stale => ?_⟩
      simp only [binding, Pgetsockname, EStateM.run_bind, hfd, hnargs, BindingM.run_lua_ok,
        BindingM.run_syscall]
      rw [run_pushNamed stale "getsockname" hresult]
      rfl
  | @getpeername fd hfd hnargs hresult =>
      refine ⟨[], { w with
          errno := (S.getpeername fd w.sys).1.result.errno
          sys := (S.getpeername fd w.sys).2
          calls := w.calls ++ [.getpeername fd] }, fun stale => ?_⟩
      simp only [binding, Pgetpeername, EStateM.run_bind, hfd, hnargs, BindingM.run_lua_ok,
        BindingM.run_syscall]
      rw [run_pushNamed stale "getpeername" hresult]
      rfl

/-- Where none is given, they do not matter. -/
theorem Asking.run_of_not_gives {b : Asking} (h : ∀ addr, ¬b.Gives S args w addr)
    (stale stale' : Memory) :
    (b.binding S args L stale).run w = (b.binding S args L stale').run w := by
  cases b with
  | accept =>
      refine BindingM.run_lua_congr _ fun fd hfd => BindingM.run_lua_congr _ fun _ hnargs => ?_
      have hresult : cint (S.accept fd w.sys).1.result.value = -1 :=
        not_not.mp fun hne => h _ (.accept hfd hnargs hne)
      simp only [EStateM.run_bind, BindingM.run_syscall, if_pos hresult]
  | recvfrom =>
      refine BindingM.run_lua_congr _ fun fd hfd => BindingM.run_lua_congr _ fun count hcount =>
        BindingM.run_lua_congr _ fun _ hnargs => ?_
      simp only [EStateM.run_bind, BindingM.run_seterrno, BindingM.run_lalloc]
      by_cases hbuf : (S.lalloc count w.sys).1.isNull ∧ count ≠ 0
      · simp only [if_pos hbuf]
      · simp only [if_neg hbuf, EStateM.run_bind, BindingM.run_syscall]
        cases hresult : (S.recvfrom fd count (S.lalloc count w.sys).2).1 with
        | failed errno => rfl
        | received data addr errno =>
            exact absurd (.recvfrom hfd hcount hnargs hbuf hresult) (h addr)
  | getsockname =>
      refine BindingM.run_lua_congr _ fun fd hfd => BindingM.run_lua_congr _ fun _ hnargs => ?_
      have hresult : cint (S.getsockname fd w.sys).1.result.value ≠ 0 :=
        fun hzero => h _ (.getsockname hfd hnargs hzero)
      rw [EStateM.run_bind, EStateM.run_bind, BindingM.run_syscall]
      exact run_pushNamed_congr stale stale' "getsockname" hresult
  | getpeername =>
      refine BindingM.run_lua_congr _ fun fd hfd => BindingM.run_lua_congr _ fun _ hnargs => ?_
      have hresult : cint (S.getpeername fd w.sys).1.result.value ≠ 0 :=
        fun hzero => h _ (.getpeername hfd hnargs hzero)
      rw [EStateM.run_bind, EStateM.run_bind, BindingM.run_syscall]
      exact run_pushNamed_congr stale stale' "getpeername" hresult

/-- Where an address is given, the tables are equal if and only if it tells all. -/
theorem Asking.sameTables_iff_of_gives (hP : S.presentation.RoundTrip) {b : Asking}
    {addr : List Byte} (h : b.Gives S args w addr) :
    (∀ stale stale', BindingM.SameTables ((b.binding S args L stale).run w)
      ((b.binding S args L stale').run w)) ↔ Determined addr := by
  obtain ⟨vs, w', hrun⟩ := Asking.run_of_gives (L := L) h
  rw [← sameShown_filled_iff]
  refine forall_congr' fun stale => forall_congr' fun stale' => ?_
  rw [hrun, hrun, ← sameFields_iff hP, ← Heap.get_newtable_eq_iff (L := L) (H := w'.heap)]
  exact and_iff_right rfl

end Bindings

/-- **Returned addresses depend only on what the kernel wrote, if and only if the address it gave
tells all that the table shows.** -/
theorem sameTables_iff {σ : Type} (S : System σ) (hP : S.presentation.RoundTrip)
    (L : Layout fun _ : LuaValue => LuaValue) (args : List LuaValue) (w : World σ Call)
    (b : Asking) : (∀ stale stale', BindingM.SameTables ((b.binding S args L stale).run w)
      ((b.binding S args L stale').run w)) ↔ ∀ addr, b.Gives S args w addr → Determined addr := by
  refine ⟨fun h addr ha => (Asking.sameTables_iff_of_gives hP ha).mp h, fun h => ?_⟩
  by_cases hgives : ∃ addr, b.Gives S args w addr
  · obtain ⟨addr, ha⟩ := hgives
    exact (Asking.sameTables_iff_of_gives hP ha).mpr (h addr ha)
  -- Nothing is shown where the call fails or is not made.
  · intro stale stale'
    rw [Asking.run_of_not_gives (fun addr ha => hgives ⟨addr, ha⟩) stale stale']
    exact .refl _

/-- A system in which a socket has a name. -/
def named (addr : List Byte) : System Unit :=
  { System.failing with getsockname := fun _ s => (⟨.returned 0 0, addr⟩, s) }

/-- The Unix socket `s`. -/
theorem sameTables_named :
    (∀ stale stale', BindingM.SameTables
        ((Asking.getsockname.binding (named [1, 0, 115, 0]) [.integer 3] Heap.newestFirst
          stale).run .start)
        ((Asking.getsockname.binding (named [1, 0, 115, 0]) [.integer 3] Heap.newestFirst
          stale').run .start)) ↔
      ∀ addr, Asking.getsockname.Gives (named [1, 0, 115, 0]) [.integer 3] .start addr →
        Determined addr :=
  sameTables_iff (named _) loopback_roundTrip Heap.newestFirst [.integer 3] .start .getsockname

/-- The name of an unnamed Unix socket is its family alone: the path shown is what was on the
stack. -/
theorem unnamed_shows_stale :
    ¬∀ stale stale', BindingM.SameTables
      ((Asking.getsockname.binding (named [1, 0]) [.integer 3] Heap.newestFirst stale).run .start)
      ((Asking.getsockname.binding (named [1, 0]) [.integer 3] Heap.newestFirst stale').run
        .start) := by
  have hgives : Asking.getsockname.Gives (named [1, 0]) [.integer 3] .start [1, 0] :=
    .getsockname rfl rfl rfl
  rw [Asking.sameTables_iff_of_gives loopback_roundTrip hgives]
  rintro ⟨-, h⟩
  have hunix : familyOf (filled (fun _ => 0) [1, 0]) = some .AF_UNIX := by decide
  rw [hunix] at h
  exact absurd h (by decide)

end LuaPosix.Sockets

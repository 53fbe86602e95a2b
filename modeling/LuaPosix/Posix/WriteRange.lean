import LuaPosix.Posix.ExactResults

/-! # The range `write` asks for

`write` compares three integers: the length of the buffer cut to an `int`, and two 64-bit words
that are added and subtracted modulo 2^64. The comparison is the one of the integers themselves
unless the length does not fit an `int`, or offset and count add up to 2^63. -/

namespace LuaPosix.Transfers

open LuaPattern (LStr)

variable {S : System}

/-! ## Arguments -/

/-- An optional integer argument: nil or none, or an integer it converts to. -/
def OptInteger (strtod : LStr → Option Rat) (args : List LuaValue) (narg : Nat)
    (d : Option LuaInteger) : Prop :=
  match d with
  | none => isnoneornil args narg = true
  | some d => isnoneornil args narg = false ∧
      expectinteger strtod args narg "integer or nil" = .ok d

/-- An optional integer is the one given or the default. -/
theorem OptInteger.optinteger {strtod : LStr → Option Rat} {args : List LuaValue} {narg : Nat}
    {d : Option LuaInteger} (h : OptInteger strtod args narg d) (dflt : LuaInteger) :
    optinteger strtod args narg dflt = .ok (d.getD dflt) := by
  cases d with
  | none => exact if_pos h
  | some d =>
      obtain ⟨hnil, hd⟩ := h
      rw [LuaPosix.optinteger, hnil, if_neg (by decide), hd, Option.getD_some]

/-- The arguments of a call of `write`. -/
structure WriteArgs (S : System) (args : List LuaValue) (fd : Int) (buf : LStr)
    (nbytes offset : Option LuaInteger) : Prop where
  fd : checkint S.strtod args 1 = .ok fd
  buf : checklstring args S.numberText 2 = .ok buf
  nbytes : OptInteger S.strtod args 3 nbytes
  offset : OptInteger S.strtod args 4 offset
  nargs : args.length ≤ 4

/-- `buflen`: the length of a buffer as an `int`. -/
def intLength (len : Nat) : Int := cint (BitVec.ofNat 64 len)

/-- The count `Pwrite` goes on with. -/
def effectiveNbytes (buflen : Int) (nbytes : Option LuaInteger) (offset : LuaInteger) :
    LuaInteger := nbytes.getD (BitVec.ofInt 64 buflen - offset)

/-- An offset other than 0 is only given after a count or nil. -/
theorem WriteArgs.isnil {args : List LuaValue} {fd : Int} {buf : LStr}
    {nbytes offset : Option LuaInteger} (h : WriteArgs S args fd buf nbytes offset)
    (hoffset : offset.getD 0 ≠ 0) : args[2]? = some .nil ↔ nbytes = none := by
  have hlen : 3 < args.length := by
    by_contra hlen
    have hnone : args[4 - 1]? = none := List.getElem?_eq_none (by omega)
    cases offset with
    | none => exact hoffset rfl
    | some d =>
        obtain ⟨hnil, -⟩ := h.offset
        rw [isnoneornil, hnone] at hnil
        cases hnil
  have harg : args[3 - 1]? = some args[2] := List.getElem?_eq_getElem (by omega)
  have hnbytes := h.nbytes
  rw [show args[2]? = some args[2] from harg]
  cases nbytes with
  | none =>
      have hnil : isnoneornil args 3 = true := hnbytes
      rw [isnoneornil, harg] at hnil
      refine ⟨fun _ => rfl, fun _ => congrArg _ ?_⟩
      cases hv : args[2] with
      | nil => rfl
      | _ =>
          rw [hv] at hnil
          cases hnil
  | some d =>
      refine ⟨fun hv => ?_, fun h => (nomatch h)⟩
      obtain ⟨hnil, -⟩ := hnbytes
      rw [isnoneornil, harg, hv] at hnil
      cases hnil

/-- The arithmetic of `Pwrite` on the count it goes on with. -/
theorem writeRequest_effective (buflen : Int) (nbytes : Option LuaInteger) (offset : LuaInteger)
    {isnil : Bool} (h : offset ≠ 0 → (isnil = true ↔ nbytes = none)) :
    writeRequest buflen (nbytes.getD (BitVec.ofInt 64 buflen)) offset isnil
      = writeRequest buflen (effectiveNbytes buflen nbytes offset) offset false := by
  have heffective : (if offset ≠ 0 ∧ isnil = true then BitVec.ofInt 64 buflen - offset
      else nbytes.getD (BitVec.ofInt 64 buflen)) = effectiveNbytes buflen nbytes offset := by
    rw [effectiveNbytes]
    by_cases hoffset : offset = 0
    · have hzero : BitVec.ofInt 64 buflen - 0 = BitVec.ofInt 64 buflen := BitVec.sub_zero _
      rw [if_neg (fun h => h.1 hoffset), hoffset, hzero]
    · cases nbytes with
      | none => rw [if_pos ⟨hoffset, (h hoffset).mpr rfl⟩, Option.getD_none]
      | some d =>
          have hnot : ¬ (offset ≠ 0 ∧ isnil = true) := fun hand => nomatch (h hoffset).mp hand.2
          rw [if_neg hnot, Option.getD_some, Option.getD_some]
  rw [writeRequest, writeRequest, heffective]
  simp only [Bool.false_eq_true, and_false, if_false]

/-- `Pwrite` by its request. -/
theorem WriteArgs.Pwrite_eq {args : List LuaValue} {fd : Int} {buf : LStr}
    {nbytes offset : Option LuaInteger} (h : WriteArgs S args fd buf nbytes offset) :
    Pwrite S args = .ok ((writeRequest (intLength buf.length)
      (effectiveNbytes (intLength buf.length) nbytes (offset.getD 0)) (offset.getD 0)
      false).answer S fd (intLength buf.length)) := by
  have hnargs : checknargs args 4 = .ok () := if_pos h.nargs
  have hisnil : offset.getD 0 ≠ 0 → (decide (args[2]? = some .nil) = true ↔ nbytes = none) := by
    intro hoffset
    rw [decide_eq_true_iff]
    exact h.isnil hoffset
  have hrequest := writeRequest_effective (intLength buf.length) nbytes (offset.getD 0) hisnil
  rw [← hrequest, Pwrite, h.fd, intLength]
  show (checklstring args S.numberText 2 >>= _) = _
  rw [h.buf]
  show (optinteger S.strtod args 3 _ >>= _) = _
  rw [h.nbytes.optinteger]
  show (optinteger S.strtod args 4 0 >>= _) = _
  rw [h.offset.optinteger]
  show (checknargs args 4 >>= _) = _
  rw [hnargs]
  rfl

/-! ## The contract -/

/-- The offset a call asks for, 0 by default. -/
def askedOffset (offset : Option LuaInteger) : Int := (offset.getD 0).toInt

/-- The count a call asks for: by default the rest of the buffer after the offset. -/
def askedNbytes (len : Nat) (nbytes offset : Option LuaInteger) : Int :=
  match nbytes with
  | some n => n.toInt
  | none => len - askedOffset offset

/-- **The contract**: `write(2)` is called for exactly the range asked for, inside the buffer; or
nothing is written, and the result is 0 where nothing was asked for, else an error `EINVAL`. -/
def WriteContract (S : System) (len : Nat) (nbytes offset : Option LuaInteger)
    (out : Option (WriteCall × SysResult 64) × List LuaValue) : Prop :=
  match out.1 with
  | some (call, _) => call.offset.toInt = askedOffset offset ∧
      call.nbytes.toInt = askedNbytes len nbytes offset ∧
      0 ≤ call.offset.toInt ∧ 0 < call.nbytes.toInt ∧
      call.offset.toInt + call.nbytes.toInt ≤ len
  | none => (askedNbytes len nbytes offset = 0 ∧ out.2 = [.integer 0]) ∨
      (askedNbytes len nbytes offset ≠ 0 ∧
        ∃ message, out.2 = [.nil, .string message, .integer (BitVec.ofInt 64 S.EINVAL)])

/-- The arguments for which the words compare as the integers do. With a count given, offset and
count do not add up to 2^63 or more, unless the sum modulo 2^64 is still beyond the length. With
none given, the length fits an `int`, or the request is rightly refused anyway. -/
def NoWraparound (len : Nat) (nbytes : Option LuaInteger) (offset : Int) : Prop :=
  match nbytes with
  | some n => ¬ (0 ≤ offset ∧ 0 < n.toInt ∧ 2 ^ 63 ≤ offset + n.toInt ∧
      offset + n.toInt - 2 ^ 64 ≤ intLength len)
  | none => len < 2 ^ 31 ∨ (offset ≠ intLength len ∧ offset ≠ len ∧
      (offset < 0 ∨ (intLength len < offset ∧ -2 ^ 63 ≤ intLength len - offset)))

/-- What a request amounts to, as integers. -/
theorem writeRequest_cases (buflen : Int) (n o : BitVec 64) :
    (n = 0 ∧ writeRequest buflen n o false = .nothing) ∨
    (n ≠ 0 ∧ 0 ≤ o.toInt ∧ 0 < n.toInt ∧ (o + n).toInt ≤ buflen ∧
      writeRequest buflen n o false = .call o n) ∨
    (n ≠ 0 ∧ ¬ (0 ≤ o.toInt ∧ 0 < n.toInt ∧ (o + n).toInt ≤ buflen) ∧
      ∃ i, writeRequest buflen n o false = .invalid i) := by
  rw [writeRequest]
  simp only [Bool.false_eq_true, and_false, if_false]
  split_ifs with hzero hcall hsum
  · exact .inl ⟨hzero, rfl⟩
  · exact .inr (.inl ⟨hzero, hcall.1, hcall.2.1, hcall.2.2, rfl⟩)
  · exact .inr (.inr ⟨hzero, hcall, _, rfl⟩)
  · exact .inr (.inr ⟨hzero, hcall, _, rfl⟩)

/-! ## Words and integers -/

/-- An integer modulo 2^64, in the signed range. -/
theorem exists_bmod_eq (x : Int) :
    ∃ k, x.bmod (2 ^ 64) = x - 2 ^ 64 * k ∧ -2 ^ 63 ≤ x.bmod (2 ^ 64) ∧
      x.bmod (2 ^ 64) < 2 ^ 63 := by
  have hle := Int.le_bmod (x := x) (m := 2 ^ 64) (by decide)
  have hlt := Int.bmod_lt (x := x) (m := 2 ^ 64) (by decide)
  exact ⟨_, Int.bmod_eq_self_sub_mul_bdiv x (2 ^ 64), by omega, by omega⟩

/-- The length as an `int` is an `int`, at most the length, and only then the length where that
fits. -/
theorem intLength_spec {len : Nat} (hlen : len < 2 ^ 63) :
    -2 ^ 31 ≤ intLength len ∧ intLength len < 2 ^ 31 ∧ intLength len ≤ len ∧
      (len < 2 ^ 31 → intLength len = len) := by
  have htoNat : (BitVec.ofNat 64 len).toNat = len := by
    rw [BitVec.toNat_ofNat, Nat.mod_eq_of_lt (by omega)]
  have htoInt : (BitVec.ofNat 64 len).toInt = len := by
    rw [BitVec.toInt_eq_toNat_of_lt (by omega), htoNat]
  have heq : intLength len = (len : Int).bmod (2 ^ 32) := by
    rw [intLength, cint_eq_bmod _ (by decide), htoInt]
  have hle := Int.le_bmod (x := len) (m := 2 ^ 32) (by decide)
  have hlt := Int.bmod_lt (x := len) (m := 2 ^ 32) (by decide)
  have hsub := Int.bmod_eq_self_sub_mul_bdiv len (2 ^ 32)
  rw [heq]
  refine ⟨by omega, by omega, by omega, by omega⟩

/-- A number is 0 with its sign as without. -/
theorem toInt_eq_zero_iff (n : BitVec 64) : n.toInt = 0 ↔ n = 0 := by
  rw [← BitVec.toInt_inj]
  rfl

/-- The rest of a buffer of `buflen` bytes after `o`, on words. -/
theorem exists_toInt_rest {buflen : Int} (h : -2 ^ 31 ≤ buflen ∧ buflen < 2 ^ 31)
    (o : BitVec 64) :
    ∃ k, (BitVec.ofInt 64 buflen - o).toInt = buflen - o.toInt - 2 ^ 64 * k ∧
      (o + (BitVec.ofInt 64 buflen - o)).toInt = buflen := by
  have htoInt : (BitVec.ofInt 64 buflen).toInt = buflen :=
    BitVec.toInt_ofInt_eq_self (by decide) (by omega) (by omega)
  obtain ⟨k, hk, -⟩ := exists_bmod_eq (buflen - o.toInt)
  refine ⟨k, by rw [BitVec.toInt_sub, htoInt, hk], ?_⟩
  rw [show o + (BitVec.ofInt 64 buflen - o) = BitVec.ofInt 64 buflen by bv_omega, htoInt]

/-! ## When the contract holds -/

section Contract

variable {len : Nat} {nbytes offset : Option LuaInteger} {fd buflen : Int}

/-- Writing nothing is right where nothing was asked for. -/
theorem writeContract_nothing :
    WriteContract S len nbytes offset (WriteRequest.nothing.answer S fd buflen) ↔
      askedNbytes len nbytes offset = 0 :=
  ⟨fun h => h.elim And.left fun ⟨_, _, h⟩ => (nomatch h), fun h => .inl ⟨h, rfl⟩⟩

/-- Refusing is right where something was. -/
theorem writeContract_invalid (i : BitVec 64) :
    WriteContract S len nbytes offset ((WriteRequest.invalid i).answer S fd buflen) ↔
      askedNbytes len nbytes offset ≠ 0 :=
  ⟨fun h => h.elim (fun ⟨_, h⟩ => (nomatch h)) And.left, fun h => .inr ⟨h, _, rfl⟩⟩

/-- A call is right where it asks for the range that was asked for. -/
theorem writeContract_call {n o : BitVec 64} (hn : 0 < n.toInt) (ho : 0 ≤ o.toInt) :
    WriteContract S len nbytes offset ((WriteRequest.call o n).answer S fd buflen) ↔
      o.toInt = askedOffset offset ∧ n.toInt = askedNbytes len nbytes offset ∧
        o.toInt + n.toInt ≤ len :=
  ⟨fun h => ⟨h.1, h.2.1, h.2.2.2.2⟩, fun h => ⟨h.1, h.2.1, ho, hn, h.2.2⟩⟩

end Contract

section Decides

variable {len : Nat} (hlen : len < 2 ^ 63) (offset : Option LuaInteger) (fd : Int)

include hlen

/-- A call with a count. -/
theorem writeContract_some_iff (d : LuaInteger) :
    WriteContract S len (some d) offset
        ((writeRequest (intLength len) d (offset.getD 0) false).answer S fd (intLength len)) ↔
      NoWraparound len (some d) (askedOffset offset) := by
  obtain ⟨-, hlt, hle, -⟩ := intLength_spec hlen
  have hasked : askedNbytes len (some d) offset = d.toInt := rfl
  have hoffset : askedOffset offset = (offset.getD 0).toInt := rfl
  obtain ⟨k, hk, hk', hk''⟩ := exists_bmod_eq ((offset.getD 0).toInt + d.toInt)
  have hsum : ((offset.getD 0) + d).toInt = _ := BitVec.toInt_add _ _
  rw [← hsum] at hk hk' hk''
  have hd := d.toInt_lt
  have ho := (offset.getD 0).toInt_lt
  rw [NoWraparound, hoffset]
  obtain ⟨hzero, hrequest⟩ | ⟨-, hpos, hcount, hguard, hrequest⟩ | ⟨hne, hrefused, i, hrequest⟩ :=
    writeRequest_cases (intLength len) d (offset.getD 0)
  · rw [hrequest, writeContract_nothing, hasked, toInt_eq_zero_iff]
    refine ⟨fun _ h => ?_, fun _ => hzero⟩
    have := (toInt_eq_zero_iff d).mpr hzero
    omega
  · -- The sum passed the guard: it is the sum of the integers, or that less 2^64.
    rw [hrequest, writeContract_call hcount hpos, hasked]
    refine ⟨fun h => by omega, fun h => ⟨rfl, rfl, by omega⟩⟩
  · rw [hrequest, writeContract_invalid, hasked, Ne, toInt_eq_zero_iff]
    refine ⟨fun _ h => hrefused ⟨h.1, h.2.1, by omega⟩, fun _ => hne⟩

/-- A call without a count. -/
theorem writeContract_none_iff :
    WriteContract S len none offset
        ((writeRequest (intLength len) (BitVec.ofInt 64 (intLength len) - offset.getD 0)
          (offset.getD 0) false).answer S fd (intLength len)) ↔
      NoWraparound len none (askedOffset offset) := by
  obtain ⟨hge, hlt, hle, hfits⟩ := intLength_spec hlen
  have hasked : askedNbytes len none offset = len - (offset.getD 0).toInt := rfl
  have hoffset : askedOffset offset = (offset.getD 0).toInt := rfl
  obtain ⟨k, hk, hsum⟩ := exists_toInt_rest ⟨hge, hlt⟩ (offset.getD 0)
  have ho := (offset.getD 0).toInt_lt
  have ho' := (offset.getD 0).le_toInt
  have hn := (BitVec.ofInt 64 (intLength len) - offset.getD 0).toInt_lt
  have hn' := (BitVec.ofInt 64 (intLength len) - offset.getD 0).le_toInt
  have hzero := toInt_eq_zero_iff (BitVec.ofInt 64 (intLength len) - offset.getD 0)
  rw [NoWraparound, hoffset]
  obtain ⟨hnone, hrequest⟩ | ⟨-, hpos, hcount, -, hrequest⟩ | ⟨hne, hrefused, i, hrequest⟩ :=
    writeRequest_cases (intLength len) (BitVec.ofInt 64 (intLength len) - offset.getD 0)
      (offset.getD 0)
  · rw [hrequest, writeContract_nothing, hasked]
    have := hzero.mpr hnone
    omega
  · -- The count is that of the buffer only if the length fits an `int`.
    rw [hrequest, writeContract_call hcount hpos, hasked, hoffset]
    omega
  · rw [hrequest, writeContract_invalid, hasked]
    have := mt hzero.mp hne
    rw [hsum] at hrefused
    omega

end Decides

/-- **`write(2)` is only asked for bytes inside the buffer**, those asked for, exactly if the
words do not wrap around; otherwise nothing is written. Lua strings are shorter than 2^63. -/
theorem write_contract_iff {args : List LuaValue} {fd : Int} {buf : LStr}
    {nbytes offset : Option LuaInteger} (h : WriteArgs S args fd buf nbytes offset)
    (hlen : buf.length < 2 ^ 63) :
    ∃ out, Pwrite S args = .ok out ∧
      (WriteContract S buf.length nbytes offset out ↔
        NoWraparound buf.length nbytes (askedOffset offset)) := by
  refine ⟨_, h.Pwrite_eq, ?_⟩
  cases nbytes with
  | none => exact writeContract_none_iff hlen offset fd
  | some d => exact writeContract_some_iff hlen offset fd d

/-! ## Instances -/

/-- Four bytes from the fourth on. -/
theorem write_contract_4_4 :
    ∃ out, Pwrite obligingSystem [.integer 3, .string "0123456789".toList, .integer 4, .integer 4]
        = .ok out ∧
      (WriteContract obligingSystem 10 (some 4) (some 4) out ↔ NoWraparound 10 (some 4) 4) := by
  have hargs : WriteArgs obligingSystem
      [.integer 3, .string "0123456789".toList, .integer 4, .integer 4] 3 "0123456789".toList
      (some 4) (some 4) := ⟨rfl, rfl, ⟨rfl, rfl⟩, ⟨rfl, rfl⟩, by decide⟩
  exact write_contract_iff hargs (by decide)

/-- One byte past the start of a one-byte buffer, all of memory is asked for. -/
theorem write_wraps_around :
    Pwrite obligingSystem [.integer 3, .string ['x'], .integer 0x7FFFFFFFFFFFFFFF, .integer 1]
      = .ok (some (⟨3, 1, 0x7FFFFFFFFFFFFFFF⟩, .returned 0x7FFFFFFFFFFFFFFF 0),
          (SysResult.returned (0x7FFFFFFFFFFFFFFF#64) 0).push obligingSystem.strerror none) ∧
    ¬ WriteContract obligingSystem 1 (some 0x7FFFFFFFFFFFFFFF) (some 1)
      (some (⟨3, 1, 0x7FFFFFFFFFFFFFFF⟩, .returned 0x7FFFFFFFFFFFFFFF 0),
        (SysResult.returned (0x7FFFFFFFFFFFFFFF#64) 0).push obligingSystem.strerror none) := by
  refine ⟨rfl, fun h => ?_⟩
  have hrange := h.2.2.2.2
  exact absurd hrange (by decide)

end LuaPosix.Transfers

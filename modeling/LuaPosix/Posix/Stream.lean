import LuaPosix.Posix.Reading
import LuaPosix.Posix.WriteRange

/-! # Bytes through a pipe

Programs write to one end of a pipe, or of a pair of sockets, and read from the other, in any order
and from any number of processes, each call moving as many bytes as the system likes. What the
writers are told that they have sent is what the readers get, in order, together with what is still
on its way; only a reader that has no memory for a string loses the bytes it had taken. -/

namespace LuaPosix.Stream

open LuaPattern (LStr)
open Bytes (Byte Memory)
open Reading (Answers Input Call Returned Kept Comes Pread Precv Pgetcwd)
open Transfers (System WriteCall Pwrite Psend WriteArgs WriteContract NoWraparound OptInteger
  askedOffset intLength effectiveNbytes)

/-- The pipe and the programs around it. All but the first two fields are history. -/
structure Relay where
  world : World Input Call
  /-- The end to write to is open. -/
  writable : Bool
  /-- What the results of writers say that has been sent. -/
  sent : List Byte
  /-- The strings that readers have got. -/
  received : List Byte
  /-- How many bytes readers have taken that raised an error. -/
  lost : Nat
  /-- The blocks of the calls that raised an error. -/
  kept : List Nat

/-- What happens next: calls, each with what the system answers it; those of `write` with the memory
that the buffer lies in, from address 0 on. -/
inductive Label where
  | write (S : System) (args : List LuaValue) (m : Memory)
  | send (S : System) (args : List LuaValue)
  /-- The last end to write to is closed. -/
  | close
  | read (A : Answers) (args : List LuaValue)
  | recv (A : Answers) (args : List LuaValue)
  | getcwd (A : Answers) (ERANGE _POSIX_PATH_MAX : Int) (args : List LuaValue)

/-! ## Writers -/

/-- How many bytes a call has moved. -/
def count : SysResult 64 → Nat
  | .failed _ => 0
  | .returned n _ => n.toNat

/-- What a call of `write` has moved: bytes of the memory. -/
def moved (m : Memory) : Option (WriteCall × SysResult 64) → List Byte
  | some (call, x) => Bytes.read m call.offset.toNat (count x)
  | none => []

/-- What a call of `send` has moved. -/
def movedOf (buf : LuaM LStr) : Option (SysResult 64) → List Byte
  | some x => (toBytes (buf.toOption.getD [])).take (count x)
  | none => []

/-- What a program makes of a result: so many bytes of its string have been sent, from the offset
that it gave. -/
def told (S : System) (args vs : List LuaValue) : List Byte :=
  match checklstring args S.numberText 2, optinteger S.strtod args 4 0, vs with
  | .ok buf, .ok offset, [.integer n] => ((toBytes buf).drop offset.toInt.toNat).take n.toInt.toNat
  | _, _, _ => []

namespace Relay

/-- Bytes are moved to the pipe, and the writer is told. -/
def writing (s : Relay) (data said : List Byte) : Relay :=
  { s with
    world := { s.world with sys := { s.world.sys with stream := s.world.sys.stream ++ data } }
    sent := s.sent ++ said }

/-- The bytes of the strings among the results. -/
def bytesOf : List LuaValue → List Byte
  | [.string b] => toBytes b
  | _ => []

/-- A reader has returned or raised an error. -/
def reading (s : Relay) : EStateM.Result Fault (World Input Call) (List LuaValue) → Relay
  | .ok vs w => { s with world := w, received := s.received ++ bytesOf vs }
  | .error _ w => { s with
      world := w
      lost := s.lost + (s.world.sys.stream.length - w.sys.stream.length)
      kept := List.range' s.world.sys.blocks.made (w.sys.blocks.made - s.world.sys.blocks.made)
        ++ s.kept }

/-- A call that does not read from the pipe has returned or raised an error. -/
def passing (s : Relay) : EStateM.Result Fault (World Input Call) (List LuaValue) → Relay
  | .ok _ w => { s with world := w }
  | .error e w => s.reading (.error e w)

end Relay

section Machine

variable (N : Numerals) (strerror : Int → LStr)

/-- The next state. A call is one step: calls do not overlap, as those of several programs may where
more than `PIPE_BUF` bytes are moved. -/
def Relay.next (s : Relay) : Label → Option Relay
  | .write S args m =>
      if s.writable then
        match Pwrite S args with
        | .ok (made, vs) => some (s.writing (moved m made) (told S args vs))
        | .error _ => some s
      else none
  | .send S args =>
      if s.writable then
        match Psend S args with
        | .ok (made, vs) => some (s.writing (movedOf (checklstring args S.numberText 2) made)
            (told S args vs))
        | .error _ => some s
      else none
  | .close => some { s with writable := false }
  | .read A args => some (s.reading ((Pread N strerror A args).run s.world))
  | .recv A args => some (s.reading ((Precv N strerror A args).run s.world))
  | .getcwd A ERANGE _POSIX_PATH_MAX args =>
      some (s.passing ((Pgetcwd strerror A ERANGE _POSIX_PATH_MAX args).run s.world))

/-- An empty pipe, before any call. -/
structure Relay.Start (s : Relay) : Prop where
  sys : s.world.sys = ⟨[], .empty⟩
  sent : s.sent = []
  received : s.received = []
  lost : s.lost = 0
  kept : s.kept = []

/-- The machine. -/
def machine : Machine Relay Label := ⟨Relay.Start, Relay.next N strerror⟩

end Machine

/-! ## The system -/

/-- At most so many bytes are moved, fewer than an `int` counts. -/
def Moves (x : SysResult 64) (count : Int) : Prop :=
  match x with
  | .failed _ => True
  | .returned n _ => 0 ≤ n.toInt ∧ n.toInt ≤ count ∧ n.toInt < 2 ^ 31

/-- A reader that asks for some bytes gets some; or there are none left, and nobody who could write
more. -/
def Gives (s : Relay) (A : Answers) : Prop :=
  ∀ count n e, count ≠ 0 → A.input count = .ok (n, e) →
    n.val = 0 ∨ s.world.sys.stream = [] → s.world.sys.stream = [] ∧ s.writable = false

/-- What the system does, and what is asked of the arguments of `write`: the words it compares do
not wrap around. -/
def Allowed (s : Relay) : Label → Prop
  | .write S args m =>
      (∀ fd buf nbytes offset, WriteArgs S args fd buf nbytes offset →
        buf.length < 2 ^ 63 ∧ NoWraparound buf.length nbytes (askedOffset offset) ∧
          Bytes.read m 0 buf.length = toBytes buf) ∧
      ∀ call x vs, Pwrite S args = .ok (some (call, x), vs) → Moves x call.nbytes.toInt
  | .send S args => ∀ buf x vs, checklstring args S.numberText 2 = .ok buf →
      Psend S args = .ok (some x, vs) → Moves x buf.length
  | .close => True
  | .read A _ | .recv A _ => Gives s A
  | .getcwd A _ _ _ => ∀ path, A.getcwd = .ok path → 0 ∉ path

/-! ## What writers are told -/

section Writers

variable {S : System} {args : List LuaValue} {m : Memory}

/-- An argument that is read is one. -/
theorem exists_optInteger {narg : Nat} {dflt d : LuaInteger}
    (h : optinteger S.strtod args narg dflt = .ok d) :
    ∃ o, OptInteger S.strtod args narg o := by
  rw [optinteger] at h
  by_cases hnil : isnoneornil args narg = true
  · exact ⟨none, hnil⟩
  · rw [if_neg hnil] at h
    exact ⟨some d, Bool.eq_false_iff.mpr hnil, h⟩

/-- A call that returns has passed its checks. -/
theorem exists_writeArgs {out : Option (WriteCall × SysResult 64) × List LuaValue}
    (h : Pwrite S args = .ok out) :
    ∃ fd buf nbytes offset, WriteArgs S args fd buf nbytes offset := by
  rw [Pwrite] at h
  obtain ⟨fd, hfd, h⟩ := bind_eq_ok.mp h
  obtain ⟨buf, hbuf, h⟩ := bind_eq_ok.mp h
  obtain ⟨nbytes, hnbytes, h⟩ := bind_eq_ok.mp h
  obtain ⟨offset, hoffset, h⟩ := bind_eq_ok.mp h
  obtain ⟨_, hnargs, -⟩ := bind_eq_ok.mp h
  obtain ⟨n, hn⟩ := exists_optInteger hnbytes
  obtain ⟨o, ho⟩ := exists_optInteger hoffset
  have hle : args.length ≤ 4 := by
    by_contra hgt
    rw [checknargs, if_neg hgt] at hnargs
    cases hnargs
  exact ⟨fd, buf, n, o, hfd, hbuf, hn, ho, hle⟩

/-- A part of a block. -/
theorem read_part (m : Memory) {a b len : Nat} (h : a + b ≤ len) :
    ((Bytes.read m 0 len).drop a).take b = Bytes.read m a b := by
  obtain ⟨k, rfl⟩ := Nat.exists_eq_add_of_le h
  have hsplit : Bytes.read m 0 (a + b + k)
      = Bytes.read m 0 a ++ (Bytes.read m a b ++ Bytes.read m (a + b) k) := by
    rw [Nat.add_assoc, Bytes.read_append, Bytes.read_append, Nat.zero_add]
  rw [hsplit, List.drop_left' (Bytes.length_read m), List.take_left' (Bytes.length_read m)]

variable {buf : LStr} {offset : LuaInteger}

/-- A number of bytes that is not negative is the same without the sign. -/
theorem toNat_toInt {n : BitVec 64} (h : 0 ≤ n.toInt) : n.toInt.toNat = n.toNat := by
  have hcond := n.toInt_eq_toNat_cond
  split_ifs at hcond <;> omega

/-- The bytes that a call moves are among those it was asked for. -/
theorem Moves.count_le {x : SysResult 64} {asked : Int} (h : Moves x asked) (hasked : 0 ≤ asked) :
    count x ≤ asked.toNat := by
  cases x with
  | failed errno => exact Nat.zero_le _
  | returned n errno =>
      obtain ⟨hpos, hle, -⟩ := h
      have hnat := toNat_toInt hpos
      show n.toNat ≤ asked.toNat
      omega

/-- What a writer is told by an integer. -/
theorem told_integer (hbuf : checklstring args S.numberText 2 = .ok buf)
    (hoffset : optinteger S.strtod args 4 0 = .ok offset) (n : LuaInteger) :
    told S args [.integer n]
      = ((toBytes buf).drop offset.toInt.toNat).take n.toInt.toNat := by
  simp only [told, hbuf, hoffset]

/-- An error says that nothing has been sent. -/
theorem told_pusherror (strerror : Int → LStr) (errno : Int) (info : Option LStr) :
    told S args (pusherror strerror errno info) = [] := by
  unfold told
  split
  · rename_i h
    cases h
  · rfl

/-- The result of a call that moves bytes. -/
theorem told_push (hbuf : checklstring args S.numberText 2 = .ok buf)
    (hoffset : optinteger S.strtod args 4 0 = .ok offset) {x : SysResult 64} {asked : Int}
    (hmoves : Moves x asked) (strerror : Int → LStr) (info : Option LStr) :
    told S args (x.push strerror info)
      = ((toBytes buf).drop offset.toInt.toNat).take (count x) := by
  cases x with
  | failed errno =>
      rw [SysResult.push, SysResult.cint_failed (by decide), pushresult, if_pos rfl,
        told_pusherror]
      exact List.take_zero.symm
  | returned n errno =>
      obtain ⟨hpos, -, hlt⟩ := hmoves
      have hexact := (SysResult.exact_push_iff (by decide) (by decide) strerror info
        (.returned n errno)).mpr ⟨by omega, hlt, by omega⟩
      rw [SysResult.Exact] at hexact
      rw [hexact, told_integer hbuf hoffset, BitVec.ofInt_toInt, toNat_toInt hpos]
      rfl

/-- **`write` tells what it has moved.** -/
theorem told_of_write {made : Option (WriteCall × SysResult 64)} {vs : List LuaValue}
    {s : Relay} (h : Allowed s (.write S args m)) (hrun : Pwrite S args = .ok (made, vs)) :
    moved m made = told S args vs := by
  obtain ⟨fd, buf, nbytes, offset, hargs⟩ := exists_writeArgs hrun
  obtain ⟨hlen, hwrap, hm⟩ := h.1 fd buf nbytes offset hargs
  have hoffset := hargs.offset.optinteger 0
  obtain ⟨out, hout, hcontract⟩ := Transfers.write_contract_iff hargs hlen
  obtain rfl : (made, vs) = out := Except.ok.inj (hrun.symm.trans hout)
  have hrange := hcontract.mpr hwrap
  have hanswer := Except.ok.inj (hrun.symm.trans hargs.Pwrite_eq)
  cases hrequest : Transfers.writeRequest (intLength buf.length)
      (effectiveNbytes (intLength buf.length) nbytes (offset.getD 0)) (offset.getD 0) false with
  | nothing =>
      rw [hrequest] at hanswer
      cases hanswer
      rw [told_integer hargs.buf hoffset]
      rfl
  | invalid i =>
      rw [hrequest] at hanswer
      cases hanswer
      exact (told_pusherror (fun _ => _) S.EINVAL none).symm
  | call o n =>
      rw [hrequest] at hanswer
      cases hanswer
      obtain ⟨ho, -, hpos, hnpos, hle⟩ := hrange
      have hasked : o.toInt = (offset.getD 0).toInt := ho
      have hmoves := h.2 _ _ _ hrun
      have hopos : 0 ≤ o.toInt := hpos
      have hend : o.toInt + n.toInt ≤ buf.length := hle
      have hnato := toNat_toInt hopos
      have hn : 0 < n.toInt := hnpos
      have hcount : count (S.write ⟨fd, o, n⟩) ≤ n.toInt.toNat := hmoves.count_le hn.le
      have hinside : o.toNat + count (S.write ⟨fd, o, n⟩) ≤ buf.length := by omega
      rw [told_push hargs.buf hoffset hmoves, ← hasked, hnato, ← hm, read_part m hinside]
      rfl

/-- **`send` tells what it has moved.** -/
theorem told_of_send {made : Option (SysResult 64)} {vs : List LuaValue} {s : Relay}
    (h : Allowed s (.send S args)) (hrun : Psend S args = .ok (made, vs)) :
    movedOf (checklstring args S.numberText 2) made = told S args vs := by
  have hreturn := hrun
  rw [Psend] at hreturn
  obtain ⟨fd, -, hreturn⟩ := bind_eq_ok.mp hreturn
  obtain ⟨buf, hbuf, hreturn⟩ := bind_eq_ok.mp hreturn
  obtain ⟨_, hnargs, hreturn⟩ := bind_eq_ok.mp hreturn
  have hlen : args.length ≤ 2 := by
    by_contra hgt
    rw [checknargs, if_neg hgt] at hnargs
    cases hnargs
  -- there is no fourth argument
  have hoffset : optinteger S.strtod args 4 0 = .ok 0 := by
    have hnone : args[4 - 1]? = none := List.getElem?_eq_none (by omega)
    rw [optinteger, isnoneornil, hnone]
    rfl
  cases hreturn
  have hmoves := h buf _ _ hbuf hrun
  rw [told_push hbuf hoffset hmoves, hbuf]
  rfl

end Writers

/-! ## The invariant -/

/-- **The invariant**: in order and nothing twice, every byte that is sent is received, on its way
or lost; and the blocks that are kept are those of calls that raised an error. -/
structure Relay.Inv (s : Relay) : Prop where
  order : (s.received ++ s.world.sys.stream).Sublist s.sent
  count : s.sent.length = s.received.length + s.world.sys.stream.length + s.lost
  sound : s.world.sys.blocks.Sound
  unmisused : s.world.sys.blocks.misused = false
  kept : ∀ id, s.world.sys.blocks.live id ≠ none ↔ id ∈ s.kept

/-- The invariant holds at the start. -/
theorem inv_start {s : Relay} (h : s.Start) : s.Inv := by
  obtain ⟨⟨errno, heap, sys, calls⟩, writable, sent, received, lost, kept⟩ := s
  obtain ⟨hsys, hsent, hreceived, hlost, hkept⟩ := h
  cases hsys
  cases hsent
  cases hreceived
  cases hlost
  cases hkept
  exact ⟨List.Sublist.refl _, rfl, Pool.sound_empty, rfl,
    fun id => iff_of_false (fun h => h rfl) List.not_mem_nil⟩

section Steps

variable {s : Relay}

/-- What is moved is told. -/
theorem Relay.Inv.writing (h : s.Inv) (data : List Byte) : (s.writing data data).Inv where
  order := by
    show (s.received ++ (s.world.sys.stream ++ data)).Sublist (s.sent ++ data)
    rw [← List.append_assoc]
    exact h.order.append_right data
  count := by
    show (s.sent ++ data).length = s.received.length + (s.world.sys.stream ++ data).length + s.lost
    have hcount := h.count
    simp only [List.length_append]
    omega
  sound := h.sound
  unmisused := h.unmisused
  kept := h.kept

/-- What a reader gets is taken from the pipe. -/
theorem Relay.Inv.returns (h : s.Inv) {vs : List LuaValue} {w : World Input Call}
    (hstream : s.world.sys.stream = Relay.bytesOf vs ++ w.sys.stream)
    (hblocks : Returned s.world.sys.blocks w.sys.blocks) :
    (s.reading (.ok vs w)).Inv := by
  obtain ⟨hsound, hmisused, hlive⟩ := hblocks.live h.sound h.unmisused
  have hcount := h.count
  rw [hstream, List.length_append] at hcount
  refine ⟨?_, ?_, hsound, hmisused, fun id => ?_⟩
  · show (s.received ++ Relay.bytesOf vs ++ w.sys.stream).Sublist s.sent
    rw [List.append_assoc, ← hstream]
    exact h.order
  · show s.sent.length = (s.received ++ Relay.bytesOf vs).length + w.sys.stream.length + s.lost
    rw [List.length_append]
    omega
  · show w.sys.blocks.live id ≠ none ↔ id ∈ s.kept
    rw [hlive]
    exact h.kept id

/-- What a reader has taken that raises an error is lost, and so is its block. -/
theorem Relay.Inv.raises (h : s.Inv) {err : Fault} {w : World Input Call} {n : Nat}
    (hstream : w.sys.stream = s.world.sys.stream.drop n)
    (hblocks : Kept s.world.sys.blocks w.sys.blocks) : (s.reading (.error err w)).Inv := by
  obtain ⟨hsound, hmisused, hlive⟩ := hblocks.live h.sound h.unmisused
  have hcount := h.count
  refine ⟨?_, ?_, hsound, hmisused, fun id => ?_⟩
  · show (s.received ++ w.sys.stream).Sublist s.sent
    rw [hstream]
    exact ((List.drop_sublist n _).append_left s.received).trans h.order
  · show s.sent.length = s.received.length + w.sys.stream.length +
      (s.lost + (s.world.sys.stream.length - w.sys.stream.length))
    have hle : w.sys.stream.length ≤ s.world.sys.stream.length := by
      rw [hstream]
      exact (List.drop_sublist n _).length_le
    omega
  · show w.sys.blocks.live id ≠ none ↔
      id ∈ List.range' s.world.sys.blocks.made _ ++ s.kept
    rw [hlive, List.mem_append, h.kept]

/-- **Readers keep the invariant.** -/
theorem Relay.Inv.reading (h : s.Inv) {strerror : Int → LStr} {A : Answers} {count : BitVec 64}
    {r : EStateM.Result Fault (World Input Call) (List LuaValue)}
    (hr : Comes strerror A count s.world r) : (s.reading r).Inv := by
  cases hr with
  | noBlock e hsys =>
      refine h.returns ?_ (.inl (congrArg Input.blocks hsys))
      rw [hsys]
      rfl
  | failed e hstream hblocks => exact h.returns hstream.symm hblocks
  | gives hinput hstream hblocks =>
      refine h.returns ?_ hblocks
      rw [hstream, Relay.bytesOf, toBytes_ofBytes, List.take_append_drop]
  | drops err hmemory hinput hstream hblocks => exact h.raises hstream hblocks

/-- A call that reads nothing from the pipe. -/
theorem Relay.Inv.passing (h : s.Inv) {vs : List LuaValue} {w : World Input Call}
    (hstream : w.sys.stream = s.world.sys.stream)
    (hblocks : Returned s.world.sys.blocks w.sys.blocks) : (s.passing (.ok vs w)).Inv := by
  have hnone : (s.reading (.ok [] w)).Inv := h.returns hstream.symm hblocks
  have hreceived : s.received ++ Relay.bytesOf [] = s.received := List.append_nil _
  rw [Relay.reading, hreceived] at hnone
  exact hnone

/-- An error before anything has happened. -/
theorem Relay.Inv.refused (h : s.Inv) (err : Fault) : (s.reading (.error err s.world)).Inv :=
  h.raises (n := 0) rfl (.inl rfl)

variable (N : Numerals) (strerror : Int → LStr) (A : Answers) (args : List LuaValue)

/-- A call of `read` or `recv`. -/
theorem Relay.Inv.readWith (h : s.Inv) (call : Int → BitVec 64 → Call) :
    (s.reading ((Reading.readWith N strerror A call args).run s.world)).Inv := by
  obtain ⟨e, hrun⟩ | ⟨count, -, hcomes⟩ :=
    Reading.run_readWith strerror A N args call h.sound.live_made
  · rw [hrun]
    exact h.refused _
  · exact h.reading hcomes

/-- A call of `getcwd`. -/
theorem Relay.Inv.getcwd (h : s.Inv) (ERANGE _POSIX_PATH_MAX : Int)
    (hpath : ∀ path, A.getcwd = .ok path → 0 ∉ path) :
    (s.passing ((Pgetcwd strerror A ERANGE _POSIX_PATH_MAX args).run s.world)).Inv := by
  obtain ⟨vs, w, hrun, hstream, hblocks, -⟩ | ⟨err, w, hrun, hsame | ⟨-, hstream, hblocks⟩⟩ :=
    Reading.run_Pgetcwd strerror args hpath h.sound.live_made
  · rw [hrun]
    exact h.passing hstream hblocks
  · have hraises : (s.reading (.error err w)).Inv :=
      h.raises (n := 0) (congrArg Input.stream hsame) (.inl (congrArg Input.blocks hsame))
    rw [hrun]
    exact hraises
  · have hraises : (s.reading (.error err w)).Inv := h.raises (n := 0) hstream hblocks
    rw [hrun]
    exact hraises

end Steps

section Runs

variable {N : Numerals} {strerror : Int → LStr} {s s' : Relay} {l : Label}

/-- **Every step keeps the invariant.** -/
theorem inv_next (h : s.Inv) (ha : Allowed s l) (hs : s.next N strerror l = some s') : s'.Inv := by
  cases l with
  | write S args m =>
      simp only [Relay.next] at hs
      split_ifs at hs
      cases hrun : Pwrite S args with
      | error e =>
          rw [hrun] at hs
          cases hs
          exact h
      | ok r =>
          rw [hrun] at hs
          cases hs
          rw [told_of_write ha hrun]
          exact h.writing _
  | send S args =>
      simp only [Relay.next] at hs
      split_ifs at hs
      cases hrun : Psend S args with
      | error e =>
          rw [hrun] at hs
          cases hs
          exact h
      | ok r =>
          rw [hrun] at hs
          cases hs
          rw [told_of_send ha hrun]
          exact h.writing _
  | close =>
      cases hs
      exact ⟨h.order, h.count, h.sound, h.unmisused, h.kept⟩
  | read A args =>
      cases hs
      exact h.readWith N strerror A args .read
  | recv A args =>
      cases hs
      exact h.readWith N strerror A args .recv
  | getcwd A ERANGE _POSIX_PATH_MAX args =>
      cases hs
      exact h.getcwd strerror A args ERANGE _POSIX_PATH_MAX ha

/-- The invariant of runs. -/
theorem inv_of_reachable (h : (machine N strerror).Reachable Allowed s) : s.Inv :=
  h.invariant (fun _ => inv_start) fun _ _ _ hinv ha hs => inv_next hinv ha hs

/-- An empty string from a reader that asked for bytes ends the stream. -/
theorem ended_of_empty {A : Answers} {args : List LuaValue} {w : World Input Call}
    (hs : s.Inv) (call : Int → BitVec 64 → Call) (ha : Gives s A)
    (hcount : checkinteger N.strtod args 2 ≠ .ok 0)
    (hrun : (Reading.readWith N strerror A call args).run s.world = .ok [.string []] w) :
    s.world.sys.stream = [] ∧ s.writable = false := by
  obtain ⟨e, herror⟩ | ⟨count, hasked, hcomes⟩ :=
    Reading.run_readWith strerror A N args call hs.sound.live_made
  · rw [hrun] at herror
    cases herror
  · have hne : count ≠ 0 := fun hzero => hcount (hzero ▸ hasked)
    rw [hrun] at hcomes
    generalize hvs : [LuaValue.string []] = vs at hcomes
    cases hcomes with
    | noBlock e hsys => cases hvs
    | failed e hstream hblocks => cases hvs
    | @gives _ n e hinput hstream hblocks =>
        have hempty : ofBytes (s.world.sys.stream.take (min n.val count.toNat)) = [] := by
          simpa using hvs.symm
        have htake := List.map_eq_nil_iff.mp hempty
        refine ha count n e hne hinput ?_
        rcases List.take_eq_nil_iff.mp htake with hzero | hnil
        · have hpos : count.toNat ≠ 0 := fun h => hne (BitVec.eq_of_toNat_eq h)
          left
          omega
        · exact .inr hnil

/-- **What is sent is received**, in any order of the calls: the strings that readers have got and
the bytes still on their way are those that the writers have been told of, in order, exactly if no
reader has lost any; and a reader that asks for bytes and gets none has come to the end. -/
theorem stream_intact (h : (machine N strerror).Reachable Allowed s) :
    (s.received ++ s.world.sys.stream).Sublist s.sent ∧
    (s.received ++ s.world.sys.stream = s.sent ↔ s.lost = 0) ∧
    ∀ A args w, Gives s A → checkinteger N.strtod args 2 ≠ .ok 0 →
      (Pread N strerror A args).run s.world = .ok [.string []] w ∨
        (Precv N strerror A args).run s.world = .ok [.string []] w →
      s.writable = false ∧ (s.received = s.sent ↔ s.lost = 0) := by
  have hinv := inv_of_reachable h
  have hcount := hinv.count
  have hlost : s.received ++ s.world.sys.stream = s.sent ↔ s.lost = 0 := by
    constructor
    · intro heq
      have hlength := congrArg List.length heq
      rw [List.length_append] at hlength
      omega
    · intro hzero
      refine hinv.order.eq_of_length ?_
      rw [List.length_append]
      omega
  refine ⟨hinv.order, hlost, fun A args w ha hasked hrun => ?_⟩
  obtain ⟨hnil, hclosed⟩ : s.world.sys.stream = [] ∧ s.writable = false := by
    rcases hrun with hrun | hrun
    · exact ended_of_empty hinv .read ha hasked hrun
    · exact ended_of_empty hinv .recv ha hasked hrun
  rw [hnil, List.append_nil] at hlost
  exact ⟨hclosed, hlost⟩

/-! ## Blocks -/

/-- There is memory for a string. -/
def Label.HasMemory : Label → Prop
  | .read A _ | .recv A _ | .getcwd A _ _ _ => A.memory = true
  | _ => True

/-- Since `s₀` nothing has been lost and no block kept. -/
def Relay.Whole (s₀ s : Relay) : Prop := s.lost = s₀.lost ∧ s.kept = s₀.kept

variable {s₀ : Relay}

/-- An error that leaves the world alone. -/
theorem Relay.Whole.reading_error (h : s₀.Whole s) (err : Fault) {w : World Input Call}
    (hsys : w.sys = s.world.sys) : s₀.Whole (s.reading (.error err w)) := by
  obtain ⟨hlost, hkept⟩ := h
  simp [Relay.Whole, Relay.reading, hsys, hlost, hkept]

/-- With memory, a reader loses nothing. -/
theorem Relay.Whole.reading (h : s₀.Whole s) {A : Answers} {count : BitVec 64}
    {r : EStateM.Result Fault (World Input Call) (List LuaValue)} (hmemory : A.memory = true)
    (hr : Comes strerror A count s.world r) : s₀.Whole (s.reading r) := by
  cases hr with
  | drops err hno hinput hstream hblocks =>
      rw [hmemory] at hno
      cases hno
  | _ => exact h

/-- Reading, by whichever call, keeps the stream whole. -/
theorem Relay.Whole.readWith (h : s₀.Whole s) (hs : s.Inv) {A : Answers} (args : List LuaValue)
    (call : Int → BitVec 64 → Call) (hmemory : A.memory = true) :
    s₀.Whole (s.reading ((Reading.readWith N strerror A call args).run s.world)) := by
  obtain ⟨e, hrun⟩ | ⟨count, -, hcomes⟩ :=
    Reading.run_readWith strerror A N args call hs.sound.live_made
  · rw [hrun]
    exact h.reading_error _ rfl
  · exact h.reading hmemory hcomes

/-- **With memory, no step loses anything.** -/
theorem whole_next (h : s₀.Whole s) (hs : s.Inv) (ha : Allowed s l) (hmemory : l.HasMemory)
    (hnext : s.next N strerror l = some s') : s₀.Whole s' := by
  cases l with
  | write S args m =>
      simp only [Relay.next] at hnext
      split_ifs at hnext
      split at hnext <;> cases hnext <;> exact h
  | send S args =>
      simp only [Relay.next] at hnext
      split_ifs at hnext
      split at hnext <;> cases hnext <;> exact h
  | close =>
      cases hnext
      exact h
  | read A args =>
      cases hnext
      exact h.readWith hs args .read hmemory
  | recv A args =>
      cases hnext
      exact h.readWith hs args .recv hmemory
  | getcwd A ERANGE _POSIX_PATH_MAX args =>
      cases hnext
      obtain ⟨vs, w, hrun, -⟩ | ⟨err, w, hrun, hsame | ⟨hno, -⟩⟩ :=
        Reading.run_Pgetcwd strerror args ha hs.sound.live_made
      · rw [hrun]
        exact h
      · rw [hrun]
        exact h.reading_error err hsame
      · rw [show A.memory = true from hmemory] at hno
        cases hno

/-- **Blocks are used while they are there and given back once**, in any order of the calls; those
that stay are the blocks of calls that raised an error, and none while there is memory for the
strings, when nothing is lost either. For the message of a call that failed there is always
memory. -/
theorem blocks_returned (h : (machine N strerror).Reachable Allowed s) :
    s.world.sys.blocks.misused = false ∧ s.world.sys.blocks.released.Nodup ∧
    (∀ id < s.world.sys.blocks.made, id ∉ s.world.sys.blocks.released ↔ id ∈ s.kept) ∧
    ∀ ls s', (machine N strerror).run s ls = some s' →
      (machine N strerror).Meets (fun s l => Allowed s l ∧ l.HasMemory) s ls →
      s'.lost = s.lost ∧ s'.kept = s.kept := by
  have hinv := inv_of_reachable h
  refine ⟨hinv.unmisused, hinv.sound.once, fun id hid => ?_, fun ls s' hrun hmeets => ?_⟩
  · rw [← hinv.kept, hinv.sound.live_iff]
    exact (and_iff_right hid).symm
  · have hstep : ∀ t l t', (t.Inv ∧ s.Whole t) → (Allowed t l ∧ l.HasMemory) →
        (machine N strerror).next t l = some t' → t'.Inv ∧ s.Whole t' :=
      fun t l t' ht hl hnext => ⟨inv_next ht.1 hl.1 hnext, whole_next ht.2 ht.1 hl.1 hl.2 hnext⟩
    exact (Machine.invariant_of_meets hstep ⟨hinv, rfl, rfl⟩ hmeets hrun).2

end Runs

/-! ## A run -/

/-- Ten bytes to be written. -/
def digits : LStr := "0123456789".toList

/-- Where the digits lie in memory. -/
def digitsAt : Memory := fun a => (toBytes digits)[a]?.getD 0

/-- An empty pipe. -/
def emptyPipe : Relay := ⟨⟨0, .empty, ⟨[], .empty⟩, []⟩, true, [], [], 0, []⟩

/-- Four of the digits are written. -/
def writeFour : Label :=
  .write Transfers.obligingSystem [.integer 3, .string digits, .integer 4, .integer 4] digitsAt

/-- Two of them are read. -/
def readTwo (memory : Bool) : Label :=
  .read ⟨.block fun _ => 0, fun _ => .ok (2, 0), .failed 0, .error 0, memory, id⟩
    [.integer 3, .integer 2]

/-- The write of four of them is allowed. -/
theorem allowed_writeFour (s : Relay) : Allowed s writeFour := by
  refine ⟨fun fd buf nbytes offset h => ?_, fun call x vs h => ?_⟩
  · obtain rfl : digits = buf := Except.ok.inj h.buf
    have hlen : digits.length = 10 := rfl
    refine ⟨by decide, ?_, by decide⟩
    have hnbytes := h.nbytes
    have hoffset := h.offset.optinteger 0
    have hfour : offset.getD 0 = 4 := (Except.ok.inj hoffset).symm
    cases nbytes with
    | none => cases hnbytes
    | some n =>
        obtain rfl : 4 = n := Except.ok.inj hnbytes.2
        rw [hlen, askedOffset, hfour]
        exact fun h => absurd h.2.2.1 (by decide)
  · have hrun : Pwrite Transfers.obligingSystem
        [.integer 3, .string digits, .integer 4, .integer 4]
          = .ok (some (⟨3, 4, 4⟩, .returned 4 0), [.integer 4]) := by decide
    cases hrun.symm.trans h
    exact ⟨by decide, by decide, by decide⟩

/-- What the run of these calls reaches is reachable. -/
theorem reachable_of_run (memory : Bool) {s : Relay}
    (hrun : (machine .zero fun _ => []).run emptyPipe [writeFour, readTwo memory] = some s) :
    (machine .zero fun _ => []).Reachable Allowed s := by
  have hstart : (machine .zero fun _ => []).init emptyPipe := ⟨rfl, rfl, rfl, rfl, rfl⟩
  obtain ⟨s₁, hwrite, hrun⟩ := Machine.run_cons.mp hrun
  obtain ⟨s₂, hread, hend⟩ := Machine.run_cons.mp hrun
  cases hend
  refine ((Machine.Reachable.init hstart).step (allowed_writeFour _) hwrite).step ?_ hread
  cases hwrite
  intro count n e hcount hinput hzero
  obtain ⟨rfl, -⟩ := Prod.mk.inj (Except.ok.inj hinput)
  -- two bytes are given, of four
  rcases hzero with hzero | hnil
  · cases hzero
  · cases hnil

/-- Two of the four bytes are on their way, and none is lost. -/
theorem stream_intact_digits :
    ∃ s, (machine .zero fun _ => []).run emptyPipe [writeFour, readTwo true] = some s ∧
      ofBytes s.received = "45".toList ∧ ofBytes s.world.sys.stream = "67".toList ∧
      (s.received ++ s.world.sys.stream = s.sent ↔ s.lost = 0) :=
  ⟨_, rfl, rfl, rfl, (stream_intact (reachable_of_run true rfl)).2.1⟩

/-- A reader without memory for its string keeps its block. -/
theorem blocks_returned_digits :
    ∃ s, (machine .zero fun _ => []).run emptyPipe [writeFour, readTwo false] = some s ∧
      s.lost = 2 ∧ s.kept = [0] ∧
      (∀ id < s.world.sys.blocks.made, id ∉ s.world.sys.blocks.released ↔ id ∈ s.kept) :=
  ⟨_, rfl, rfl, rfl, (blocks_returned (reachable_of_run false rfl)).2.2.1⟩

end LuaPosix.Stream

import LuaPosix.Lib.Machine
import LuaPosix.Lib.Pool
import LuaPosix.Lua.Binding

/-! # Blocks that the interpreter does not know

`read`, `recv` and `getcwd` take a block from the allocator of the interpreter, let the system fill
it, make a string of it and give the block back. Where the interpreter has no memory for the string
it raises an error, and nobody gives the block back. -/

namespace LuaPosix.Reading

open LuaPattern (LStr)
open Bytes (Byte Memory)

/-- The calls of the allocator and the C library. -/
inductive Call where
  | lalloc (size : BitVec 64)
  | free (buf : Option Nat)
  | read (fd : Int) (count : BitVec 64)
  | recv (fd : Int) (count : BitVec 64)
  | pathconf
  | getcwd (size : BitVec 64)

/-- The bytes that wait to be read, and the blocks that have been taken from the allocator. -/
structure Input where
  stream : List Byte
  blocks : Pool Memory

/-- What runs on them. -/
abbrev InputM := BindingM Input Call

/-- What a call gets from outside. -/
structure Answers where
  lalloc : Allocated
  /-- How much there is for a request of so many bytes, as an `ssize_t`, and `errno`; or an error
  number. -/
  input : BitVec 64 → Except Int (Fin (2 ^ 63) × Int)
  /-- The limit of the working directory. -/
  pathconf : SysResult 64
  /-- The working directory, or an error number. -/
  getcwd : Except Int (List Byte)
  /-- There is memory for the string. -/
  memory : Bool
  /-- `errno` after a block has been given back. -/
  free : Int → Int

/-! ## Pointers to blocks -/

/-- The system writes where a pointer points. -/
def fill (buf : Option Nat) (data : List Byte) (P : Pool Memory) : Pool Memory :=
  match buf with
  | some id => (P.use id () fun m => ((), Bytes.write m 0 data)).2
  | none => { P with misused := P.misused || !data.isEmpty }

/-- What is there, and the pool after it has been looked at. -/
def contents (buf : Option Nat) (len : Nat) (P : Pool Memory) : List Byte × Pool Memory :=
  match buf with
  | some id => P.use id [] fun m => (Bytes.read m 0 len, m)
  | none => ([], { P with misused := P.misused || decide (len ≠ 0) })

/-- `lua_free` of the buffer, if there is one. -/
def giveBack (buf : Option Nat) (P : Pool Memory) : Pool Memory :=
  match buf with
  | some id => P.release id
  | none => P

section Model

variable (N : Numerals) (strerror : Int → LStr) (A : Answers)

/-- `lalloc(ud, NULL, 0, size)`, which gives no block of no bytes. -/
def lalloc (size : BitVec 64) : InputM (Option Nat) := fun w =>
  match A.lalloc with
  | .block m =>
      if size = 0 then .ok none { w with calls := w.calls ++ [.lalloc size] }
      else .ok (some w.sys.blocks.made) { w with
        sys := { w.sys with blocks := (w.sys.blocks.make m).2 }
        calls := w.calls ++ [.lalloc size] }
  | .null e => .ok none { w with errno := e.getD w.errno, calls := w.calls ++ [.lalloc size] }

/-- `lalloc(ud, buf, size, 0)`. -/
def free (buf : Option Nat) : InputM Unit := fun w =>
  .ok () { w with
    errno := A.free w.errno
    sys := { w.sys with blocks := giveBack buf w.sys.blocks }
    calls := w.calls ++ [.free buf] }

/-- `lua_pushlstring(L, buf, len)`, or `lua_pushstring(L, buf)` of what `cut` leaves. -/
def pushlstring (buf : Option Nat) (len : Nat) (cut : LStr → LStr) : InputM LuaValue := fun w =>
  let c := contents buf len w.sys.blocks
  let w' := { w with sys := { w.sys with blocks := c.2 } }
  if A.memory then .ok (.string (cut (ofBytes c.1))) w'
  else .error (.raises (.error "not enough memory")) w'

/-- Make the string, give the block back, and return the string. -/
def returnString (buf : Option Nat) (len : Nat) (cut : LStr → LStr) : InputM (List LuaValue) := do
  let s ← pushlstring A buf len cut
  free A buf
  return [s]

/-- `read(fd, buf, count)`, or `recv(fd, buf, count, 0)`. -/
def receive (call : Call) (buf : Option Nat) (count : BitVec 64) : InputM (SysResult 64) := fun w =>
  match A.input count with
  | .error e => .ok (.failed e) { w with errno := e, calls := w.calls ++ [call] }
  | .ok (n, e) =>
      let data := w.sys.stream.take (min n.val count.toNat)
      .ok (.returned (BitVec.ofNat 64 data.length) e) { w with
        errno := e
        sys := ⟨w.sys.stream.drop (min n.val count.toNat), fill buf data w.sys.blocks⟩
        calls := w.calls ++ [call] }

/-- `Pread` and `Precv` after their checks. -/
def readBlock (call : Call) (count : BitVec 64) : InputM (List LuaValue) := do
  -- Reset `errno`, in case the allocator does not set it.
  BindingM.seterrno 0
  let buf ← lalloc A count
  if buf = none ∧ count ≠ 0 then
    return pusherror strerror (← BindingM.errno) (some "lalloc".toList)
  else
    let ret ← receive A call buf count
    if ret.value.toInt < 0 then
      free A buf
      return pusherror strerror (← BindingM.errno) none
    else returnString A buf ret.value.toNat id

/-- What `Pread` and `Precv` do, which call the system by `call`. -/
def readWith (call : Int → BitVec 64 → Call) (args : List LuaValue) : InputM (List LuaValue) := do
  let fd ← checkint N.strtod args 1
  let count ← checkinteger N.strtod args 2
  checknargs args 2
  readBlock strerror A (call fd count) count

/-- `read(fd, count)`. -/
def Pread : List LuaValue → InputM (List LuaValue) := readWith N strerror A .read

/-- `recv(fd, count)`. -/
def Precv : List LuaValue → InputM (List LuaValue) := readWith N strerror A .recv

/-- `pathconf(".", _PC_PATH_MAX)`. -/
def pathMax : InputM (BitVec 64) := fun w =>
  .ok A.pathconf.value { w with errno := A.pathconf.errno, calls := w.calls ++ [.pathconf] }

/-- `getcwd(b, size)`: whether it gives the path. -/
def getcwd (ERANGE : Int) (buf : Option Nat) (size : BitVec 64) : InputM Bool := fun w =>
  let w' := { w with calls := w.calls ++ [Call.getcwd size] }
  match A.getcwd with
  | .error e => .ok false { w' with errno := e }
  | .ok path =>
      let data := path ++ [0]
      if data.length ≤ size.toNat then
        .ok true { w' with sys := { w.sys with blocks := fill buf data w.sys.blocks } }
      else .ok false { w' with errno := ERANGE }

/-- `getcwd()`. -/
def Pgetcwd (ERANGE _POSIX_PATH_MAX : Int) (args : List LuaValue) : InputM (List LuaValue) := do
  let size ← pathMax A
  checknargs args 0
  let size := if size = -1 then BitVec.ofInt 64 _POSIX_PATH_MAX else size
  let b ← lalloc A (size + 1)
  if b = none then return pusherror strerror (← BindingM.errno) (some "lalloc".toList)
  else
    if ← getcwd A ERANGE b size then returnString A b size.toNat cstring
    else
      free A b
      return pusherror strerror (← BindingM.errno) (some ".".toList)

end Model

/-! ## What a call comes to -/

section Comes

variable {P P' : Pool Memory} {m : Memory} {data : List Byte} {buf : Option Nat}

/-- No block, or one that has been given back. -/
def Returned (P P' : Pool Memory) : Prop :=
  P' = P ∨ P' = { P with made := P.made + 1, released := P.made :: P.released }

/-- No block, or one that has been kept. -/
def Kept (P P' : Pool Memory) : Prop := P' = P ∨ ∃ m, P' = (P.make m).2

/-- The pools while a block is in use: nothing but the block has been added, or there is none. -/
def InUse (P : Pool Memory) (buf : Option Nat) (P' : Pool Memory) : Prop :=
  match buf with
  | some id => id = P.made ∧ ∃ m, P' = (P.make m).2
  | none => P' = P

/-- The system may write to the block. -/
theorem InUse.fill (h : InUse P buf P') (hdata : buf = none → data = []) :
    InUse P buf (fill buf data P') := by
  cases buf with
  | none =>
      obtain rfl : P' = P := h
      obtain rfl := hdata rfl
      simp [Reading.fill, InUse]
  | some id =>
      obtain ⟨rfl, m, rfl⟩ := h
      exact ⟨rfl, _, congrArg Prod.snd (Pool.use_made ..)⟩

/-- To look at a block leaves it as it is. -/
theorem InUse.contents {len : Nat} (h : InUse P buf P') (hlen : buf = none → len = 0) :
    (contents buf len P').2 = P' := by
  cases buf with
  | none => simp [Reading.contents, hlen rfl]
  | some id =>
      obtain ⟨rfl, m, rfl⟩ := h
      exact congrArg Prod.snd (Pool.use_made ..)

/-- What has been written is there. -/
theorem InUse.contents_fill (h : InUse P buf P') (hdata : buf = none → data = []) :
    (Reading.contents buf data.length (Reading.fill buf data P')).1 = data := by
  cases buf with
  | none => rw [hdata rfl, Reading.contents]
  | some id =>
      obtain ⟨rfl, m, rfl⟩ := h
      rw [Reading.fill, Pool.use_made, Reading.contents, Pool.use_made]
      show Bytes.read (Bytes.write m 0 data) 0 data.length = data
      exact Bytes.read_write m

/-- A block that has been in use can be given back. -/
theorem InUse.giveBack (h : InUse P buf P') (hP : P.live P.made = none) :
    Returned P (giveBack buf P') := by
  cases buf with
  | none => exact .inl h
  | some id =>
      obtain ⟨rfl, m, rfl⟩ := h
      exact .inr (Pool.release_made hP m)

/-- A block in use was kept. -/
theorem InUse.kept (h : InUse P buf P') : Kept P P' := by
  cases buf with
  | none => exact .inl h
  | some id => exact .inr h.2

variable {strerror : Int → LStr} {A : Answers} {w : World Input Call} {cut : LStr → LStr}

/-- What the allocator gives. -/
theorem run_lalloc (A : Answers) (size : BitVec 64) (w : World Input Call) : ∃ buf w₁,
    (lalloc A size).run w = .ok buf w₁ ∧ InUse w.sys.blocks buf w₁.sys.blocks ∧
      w₁.sys.stream = w.sys.stream ∧ (buf = none → w₁.sys = w.sys) ∧ (size = 0 → buf = none) := by
  have hunfold : (lalloc A size).run w = lalloc A size w := rfl
  rw [hunfold, lalloc]
  cases A.lalloc with
  | null e =>
      exact ⟨none, { w with errno := e.getD w.errno, calls := w.calls ++ [.lalloc size] }, rfl, rfl,
        rfl, fun _ => rfl, fun _ => rfl⟩
  | block m =>
      by_cases hsize : size = 0
      · exact ⟨none, { w with calls := w.calls ++ [.lalloc size] }, if_pos hsize, rfl, rfl,
          fun _ => rfl, fun _ => rfl⟩
      · exact ⟨some w.sys.blocks.made, { w with
            sys := { w.sys with blocks := (w.sys.blocks.make m).2 }
            calls := w.calls ++ [.lalloc size] }, if_neg hsize, ⟨rfl, m, rfl⟩, rfl, nofun,
          fun h => absurd h hsize⟩

variable (A cut) in
/-- The string of a block: its block is given back; or there is no memory for it, and the block is
kept. -/
theorem run_returnString {len : Nat} (hP : P.live P.made = none)
    (huse : InUse P buf w.sys.blocks) (hlen : buf = none → len = 0) :
    (∃ w', (returnString A buf len cut).run w
        = .ok [.string (cut (ofBytes (contents buf len w.sys.blocks).1))] w' ∧
      w'.sys.stream = w.sys.stream ∧ Returned P w'.sys.blocks) ∨
    ∃ err w', (returnString A buf len cut).run w = .error err w' ∧ A.memory = false ∧
      w'.sys.stream = w.sys.stream ∧ Kept P w'.sys.blocks := by
  have hcontents := huse.contents hlen
  have hrun : (pushlstring A buf len cut).run w =
      let w' := { w with sys := { w.sys with blocks := w.sys.blocks } }
      if A.memory then .ok (.string (cut (ofBytes (contents buf len w.sys.blocks).1))) w'
      else .error (.raises (.error "not enough memory")) w' := by
    show pushlstring A buf len cut w = _
    rw [pushlstring, hcontents]
  cases hmemory : A.memory with
  | false =>
      refine .inr ⟨.raises (.error "not enough memory"), w, ?_, rfl, rfl, huse.kept⟩
      rw [returnString, EStateM.run_bind, hrun, hmemory]
      rfl
  | true =>
      rw [hmemory] at hrun
      refine .inl ⟨{ w with
          errno := A.free w.errno
          sys := { w.sys with blocks := giveBack buf w.sys.blocks }
          calls := w.calls ++ [.free buf] }, ?_, rfl, huse.giveBack hP⟩
      rw [returnString, BindingM.run_bind_of_ok hrun]
      rfl

/-- **What a call of `read` or `recv` comes to** after its checks: nothing but the string takes
bytes from the stream, and only an error keeps the block. -/
inductive Comes (strerror : Int → LStr) (A : Answers) (count : BitVec 64) (w : World Input Call) :
    EStateM.Result Fault (World Input Call) (List LuaValue) → Prop
  | noBlock {w' : World Input Call} (e : Int) (hsys : w'.sys = w.sys) :
      Comes strerror A count w (.ok (pusherror strerror e (some "lalloc".toList)) w')
  | failed {w' : World Input Call} (e : Int) (hstream : w'.sys.stream = w.sys.stream)
      (hblocks : Returned w.sys.blocks w'.sys.blocks) :
      Comes strerror A count w (.ok (pusherror strerror e none) w')
  | gives {w' : World Input Call} {n : Fin (2 ^ 63)} {e : Int} (hinput : A.input count = .ok (n, e))
      (hstream : w'.sys.stream = w.sys.stream.drop (min n.val count.toNat))
      (hblocks : Returned w.sys.blocks w'.sys.blocks) :
      Comes strerror A count w
        (.ok [.string (ofBytes (w.sys.stream.take (min n.val count.toNat)))] w')
  | drops {w' : World Input Call} {n : Fin (2 ^ 63)} {e : Int} (err : Fault)
      (hmemory : A.memory = false) (hinput : A.input count = .ok (n, e))
      (hstream : w'.sys.stream = w.sys.stream.drop (min n.val count.toNat))
      (hblocks : Kept w.sys.blocks w'.sys.blocks) :
      Comes strerror A count w (.error err w')

/-- A length below 2^63 is the same with the sign and without. -/
theorem toInt_ofNat_of_lt {n : Nat} (h : n < 2 ^ 63) :
    (BitVec.ofNat 64 n).toInt = n ∧ (BitVec.ofNat 64 n).toNat = n := by
  have hnat : (BitVec.ofNat 64 n).toNat = n := by
    rw [BitVec.toNat_ofNat, Nat.mod_eq_of_lt (by omega)]
  refine ⟨?_, hnat⟩
  rw [BitVec.toInt_eq_toNat_of_lt (by omega), hnat]

/-- The system gives what there is. -/
theorem comes_readBlock (call : Call) (count : BitVec 64)
    (hP : w.sys.blocks.live w.sys.blocks.made = none) :
    Comes strerror A count w ((readBlock strerror A call count).run w) := by
  obtain ⟨buf, w₁, hlalloc, huse, hstream, hnone, -⟩ := run_lalloc A count { w with errno := 0 }
  rw [readBlock, BindingM.run_bind_of_ok (BindingM.run_seterrno w 0),
    BindingM.run_bind_of_ok hlalloc]
  by_cases hnull : buf = none ∧ count ≠ 0
  · rw [if_pos hnull]
    exact .noBlock _ (hnone hnull.1)
  · rw [if_neg hnull]
    have hcount : buf = none → count = 0 := fun hbuf => by_contra fun h => hnull ⟨hbuf, h⟩
    have hunfold : (receive A call buf count).run w₁ = receive A call buf count w₁ := rfl
    rw [receive] at hunfold
    cases hinput : A.input count with
    | error e =>
        rw [hinput] at hunfold
        have hneg : (SysResult.failed (w := 64) e).value.toInt < 0 := by
          show (-1#64).toInt < 0
          decide
        rw [BindingM.run_bind_of_ok hunfold, if_pos hneg]
        exact .failed _ hstream (huse.giveBack hP)
    | ok r =>
        obtain ⟨n, e⟩ := r
        rw [hinput] at hunfold
        have hlt : (w₁.sys.stream.take (min n.val count.toNat)).length < 2 ^ 63 := by
          have hle := List.length_take_le (min n.val count.toNat) w₁.sys.stream
          have hn := n.isLt
          omega
        obtain ⟨hint, hnat⟩ := toInt_ofNat_of_lt hlt
        have hdata : buf = none → w₁.sys.stream.take (min n.val count.toNat) = [] := by
          intro hbuf
          rw [hcount hbuf]
          simp
        have hlen : buf = none → (w₁.sys.stream.take (min n.val count.toNat)).length = 0 :=
          fun hbuf => by rw [hdata hbuf, List.length_nil]
        have hpos :
            ¬(BitVec.ofNat 64 (w₁.sys.stream.take (min n.val count.toNat)).length).toInt < 0 := by
          omega
        rw [BindingM.run_bind_of_ok hunfold, SysResult.value, if_neg hpos, hnat]
        have hbytes := huse.contents_fill hdata
        let w₂ : World Input Call := { w₁ with
          errno := e
          sys := ⟨w₁.sys.stream.drop (min n.val count.toNat),
            fill buf (w₁.sys.stream.take (min n.val count.toNat)) w₁.sys.blocks⟩
          calls := w₁.calls ++ [call] }
        have huse₂ : InUse w.sys.blocks buf w₂.sys.blocks := huse.fill hdata
        have hdrop : w₂.sys.stream = w.sys.stream.drop (min n.val count.toNat) :=
          congrArg (List.drop _) hstream
        obtain ⟨w', hrun, hsame, hblocks⟩ | ⟨err, w', hrun, hmemory, hsame, hblocks⟩ :=
          run_returnString A id hP huse₂ hlen
        · rw [hrun, hbytes, hstream]
          exact .gives hinput (hsame.trans hdrop) hblocks
        · rw [hrun]
          exact .drops err hmemory hinput (hsame.trans hdrop) hblocks

variable (strerror A) in
/-- A call of `read` or `recv` raises an argument error before anything has happened, or passes its
checks. -/
theorem run_readWith (N : Numerals) (args : List LuaValue) (call : Int → BitVec 64 → Call)
    (hP : w.sys.blocks.live w.sys.blocks.made = none) :
    (∃ e, (readWith N strerror A call args).run w = .error (.raises e) w) ∨
    ∃ count, checkinteger N.strtod args 2 = .ok count ∧
      Comes strerror A count w ((readWith N strerror A call args).run w) := by
  rw [readWith]
  cases checkint N.strtod args 1 with
  | error e => exact .inl ⟨e, rfl⟩
  | ok fd =>
      cases checkinteger N.strtod args 2 with
      | error e => exact .inl ⟨e, rfl⟩
      | ok count =>
          cases hnargs : checknargs args 2 with
          | error e => exact .inl ⟨e, rfl⟩
          | ok _ => exact .inr ⟨count, rfl, comes_readBlock (call fd count) count hP⟩

/-! ## The working directory -/

/-- What is behind a C string in memory does not belong to it. -/
theorem cstring_ofBytes {path : List Byte} (hpath : 0 ∉ path) (rest : List Byte) :
    cstring (ofBytes (path ++ 0 :: rest)) = ofBytes path := by
  have hne : ∀ c ∈ ofBytes path, decide (c ≠ Char.ofNat 0) = true := by
    intro c hc
    obtain ⟨b, hb, rfl⟩ := List.mem_map.mp hc
    refine decide_eq_true fun hzero => hpath ?_
    have hnat := congrArg Char.toNat hzero
    rw [toNat_ofNat_byte] at hnat
    have hb0 : b = 0 := BitVec.eq_of_toNat_eq hnat
    exact hb0 ▸ hb
  have hsplit : ofBytes (path ++ 0 :: rest) = ofBytes path ++ Char.ofNat 0 :: ofBytes rest :=
    List.map_append
  rw [hsplit, cstring, List.takeWhile_append_of_pos hne, List.takeWhile_cons_of_neg (by decide),
    List.append_nil]

/-- The string of a block with a C string in it. -/
theorem InUse.cstring_fill {path : List Byte} {size : Nat} {id : Nat} (h : InUse P (some id) P')
    (hpath : 0 ∉ path) (hsize : (path ++ [0]).length ≤ size) :
    cstring (ofBytes (Reading.contents (some id) size
      (Reading.fill (some id) (path ++ [0]) P')).1) = ofBytes path := by
  obtain ⟨rfl, m, rfl⟩ := h
  obtain ⟨k, rfl⟩ := Nat.exists_eq_add_of_le hsize
  rw [Reading.fill, Pool.use_made, Reading.contents, Pool.use_made]
  show cstring (ofBytes (Bytes.read (Bytes.write m 0 (path ++ [0])) 0 _)) = _
  rw [Bytes.read_append, Bytes.read_write, List.append_assoc]
  exact cstring_ofBytes hpath _

/-- The system writes the path to the block, or there is an error. -/
theorem run_getcwd (A : Answers) (ERANGE : Int) (buf : Option Nat) (size : BitVec 64)
    (w : World Input Call) :
    (∃ path w', A.getcwd = .ok path ∧ (path ++ [0]).length ≤ size.toNat ∧
      (getcwd A ERANGE buf size).run w = .ok true w' ∧
      w'.sys = { w.sys with blocks := fill buf (path ++ [0]) w.sys.blocks }) ∨
    ∃ w', (getcwd A ERANGE buf size).run w = .ok false w' ∧ w'.sys = w.sys := by
  have hunfold : (getcwd A ERANGE buf size).run w = getcwd A ERANGE buf size w := rfl
  rw [hunfold, getcwd]
  cases A.getcwd with
  | error e =>
      exact .inr ⟨{ w with errno := e, calls := w.calls ++ [.getcwd size] }, rfl, rfl⟩
  | ok path =>
      by_cases hfits : (path ++ [0]).length ≤ size.toNat
      · exact .inl ⟨path, { w with
            sys := { w.sys with blocks := fill buf (path ++ [0]) w.sys.blocks }
            calls := w.calls ++ [.getcwd size] }, rfl, hfits, if_pos hfits, rfl⟩
      · exact .inr ⟨{ w with errno := ERANGE, calls := w.calls ++ [.getcwd size] },
          if_neg hfits, rfl⟩

variable (strerror) in
/-- **What a call of `getcwd` comes to**: the working directory or an error. Only where there is no
memory for the string the block is kept. -/
theorem run_Pgetcwd {ERANGE _POSIX_PATH_MAX : Int} (args : List LuaValue)
    (hpath : ∀ path, A.getcwd = .ok path → 0 ∉ path)
    (hP : w.sys.blocks.live w.sys.blocks.made = none) :
    (∃ vs w', (Pgetcwd strerror A ERANGE _POSIX_PATH_MAX args).run w = .ok vs w' ∧
      w'.sys.stream = w.sys.stream ∧ Returned w.sys.blocks w'.sys.blocks ∧
      ((∃ path, A.getcwd = .ok path ∧ vs = [.string (ofBytes path)]) ∨
        ∃ e info, vs = pusherror strerror e (some info))) ∨
    ∃ err w', (Pgetcwd strerror A ERANGE _POSIX_PATH_MAX args).run w = .error err w' ∧
      (w'.sys = w.sys ∨ A.memory = false ∧ w'.sys.stream = w.sys.stream ∧
        Kept w.sys.blocks w'.sys.blocks) := by
  rw [Pgetcwd]
  let w₀ : World Input Call :=
    { w with errno := A.pathconf.errno, calls := w.calls ++ [.pathconf] }
  have hmax : (pathMax A).run w = .ok A.pathconf.value w₀ := rfl
  rw [BindingM.run_bind_of_ok hmax]
  cases hnargs : checknargs args 0 with
  | error e => exact .inr ⟨_, w₀, rfl, .inl rfl⟩
  | ok _ =>
      let size := if A.pathconf.value = -1 then BitVec.ofInt 64 _POSIX_PATH_MAX
        else A.pathconf.value
      obtain ⟨b, w₁, hlalloc, huse, hstream, hnone, -⟩ := run_lalloc A (size + 1) w₀
      show (∃ vs w', ((lalloc A (size + 1)) >>= _).run w₀ = _ ∧ _) ∨
        ∃ err w', ((lalloc A (size + 1)) >>= _).run w₀ = _ ∧ _
      rw [BindingM.run_bind_of_ok hlalloc]
      cases b with
      | none =>
          rw [if_pos rfl]
          exact .inl ⟨_, w₁, rfl, hstream, .inl huse, .inr ⟨_, _, rfl⟩⟩
      | some id =>
          rw [if_neg nofun]
          obtain ⟨path, w₂, hcwd, hfits, hgetcwd, hsys⟩ | ⟨w₂, hgetcwd, hsys⟩ :=
            run_getcwd A ERANGE (some id) size w₁
          · rw [BindingM.run_bind_of_ok hgetcwd, if_pos rfl]
            have hstring := huse.cstring_fill (hpath path hcwd) hfits
            have huse₂ : InUse w.sys.blocks (some id) w₂.sys.blocks := by
              rw [hsys]
              exact huse.fill nofun
            have hstream₂ : w₂.sys.stream = w.sys.stream := by rw [hsys, hstream]
            obtain ⟨w', hrun, hsame, hblocks⟩ | ⟨err, w', hrun, hmemory, hsame, hblocks⟩ :=
              run_returnString A cstring hP huse₂ nofun
            · rw [hsys, hstring] at hrun
              exact .inl ⟨_, w', hrun, hsame.trans hstream₂, hblocks, .inl ⟨path, hcwd, rfl⟩⟩
            · exact .inr ⟨err, w', hrun, .inr ⟨hmemory, hsame.trans hstream₂, hblocks⟩⟩
          · rw [BindingM.run_bind_of_ok hgetcwd, if_neg Bool.false_ne_true]
            have huse₂ : InUse w.sys.blocks (some id) w₂.sys.blocks := by
              rw [hsys]
              exact huse
            have hstream₂ : w₂.sys.stream = w.sys.stream := by rw [hsys, hstream]
            exact .inl ⟨_, _, rfl, hstream₂, huse₂.giveBack hP, .inr ⟨_, _, rfl⟩⟩

/-! ## Pools after calls -/

/-- The pool of a call that has given its block back. -/
theorem Returned.live (h : Returned P P') (hP : P.Sound)
    (hmisused : P.misused = false) : P'.Sound ∧ P'.misused = false ∧ P'.live = P.live := by
  rcases h with rfl | rfl
  · exact ⟨hP, hmisused, rfl⟩
  · refine ⟨?_, hmisused, rfl⟩
    rw [← Pool.release_made hP.live_made fun _ => 0]
    exact (hP.make _).release P.made

/-- And of one that has not. -/
theorem Kept.live (h : Kept P P') (hP : P.Sound)
    (hmisused : P.misused = false) : P'.Sound ∧ P'.misused = false ∧
      ∀ id, P'.live id ≠ none ↔ id ∈ List.range' P.made (P'.made - P.made) ∨ P.live id ≠ none := by
  rcases h with rfl | ⟨m, rfl⟩
  · refine ⟨hP, hmisused, fun id => ?_⟩
    simp
  · refine ⟨hP.make m, hmisused, fun id => ?_⟩
    show Function.update P.live P.made (some m) id ≠ none ↔
      id ∈ List.range' P.made (P.made + 1 - P.made) ∨ P.live id ≠ none
    rw [Nat.add_sub_cancel_left, List.range'_one, List.mem_singleton]
    by_cases hid : id = P.made
    · rw [hid, Function.update_self]
      exact iff_of_true (Option.some_ne_none m) (.inl rfl)
    · rw [Function.update_of_ne hid, or_iff_right hid]

end Comes

end LuaPosix.Reading

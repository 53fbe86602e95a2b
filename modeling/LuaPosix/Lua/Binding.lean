import LuaPosix.Lib.Bytes
import LuaPosix.Lua.Fields
import LuaPosix.Lua.Results
import Mathlib.Data.List.TakeWhile

/-! # Bindings

What a C function of the module does besides reading its arguments: it reads and makes tables,
calls the C library, and reads and sets `errno`. A run that raises an error still has the world it
stopped in, so that what was called before the error can be told. -/

namespace LuaPosix

open LuaPattern (LStr)
open Traversal (Layout)
open Bytes (Byte Memory)

/-! ## Strings and their bytes -/

/-- The string with the given bytes. -/
def ofBytes (bs : List Byte) : LStr := bs.map fun b => Char.ofNat b.toNat

/-- The bytes of a string. -/
def toBytes (s : LStr) : List Byte := s.map fun c => BitVec.ofNat 8 c.toNat

/-- A number below the surrogates is the code of its character. -/
theorem toNat_ofNat {n : Nat} (h : n < 55296) : (Char.ofNat n).toNat = n := by
  have hvalid : n.isValidChar := .inl h
  rw [Char.ofNat, dif_pos hvalid]
  rfl

/-- A byte is the code of its character. -/
theorem toNat_ofNat_byte (b : Byte) : (Char.ofNat b.toNat).toNat = b.toNat :=
  toNat_ofNat (b.isLt.trans (by decide))

/-- Bytes come back from their string. -/
@[simp] theorem toBytes_ofBytes (bs : List Byte) : toBytes (ofBytes bs) = bs := by
  rw [toBytes, ofBytes, List.map_map]
  refine List.map_id'' (fun b => ?_) bs
  show BitVec.ofNat 8 (Char.ofNat b.toNat).toNat = b
  rw [toNat_ofNat_byte, BitVec.ofNat_toNat, BitVec.setWidth_eq]

/-- Different bytes make different strings. -/
theorem ofBytes_injective : Function.Injective ofBytes :=
  Function.LeftInverse.injective toBytes_ofBytes

/-- A string of bytes has as many characters. -/
@[simp] theorem length_ofBytes (bs : List Byte) : (ofBytes bs).length = bs.length :=
  List.length_map _

/-- Behind a zero there is nothing left to cut off. -/
theorem cstring_cstring (s : LStr) : cstring (cstring s) = cstring s := List.takeWhile_idem

/-- A string without a zero is a C string as it is. -/
theorem cstring_eq_self {s : LStr} (h : Char.ofNat 0 ∉ s) : cstring s = s := by
  rw [cstring, List.takeWhile_eq_self_iff]
  intro c hc
  exact decide_eq_true fun hzero => h (hzero ▸ hc)

/-- There is no zero in a C string. -/
theorem zero_notMem_cstring (s : LStr) : Char.ofNat 0 ∉ cstring s := by
  intro h
  rw [cstring] at h
  exact absurd (List.mem_takeWhile_imp h) (by simp)

/-- `lua_pushlstring` of so many bytes in memory. The interpreter makes no string as long as
`MAX_SIZE`, `LUA_MAXINTEGER`. -/
def lstring (m : Memory) (off : Nat) (len : BitVec 64) : CallM LStr :=
  if len.toNat < 2 ^ 63 - 1 then .ok (ofBytes (Bytes.read m off len.toNat))
  else .error (.raises (.error "memory allocation error: block too big"))

/-! ## Integers of C -/

/-- A field that takes at most 32 bits of a Lua integer takes its low ones. -/
theorem ofInt_toInt {n : Nat} (hn : n ≤ 32) (d : LuaInteger) :
    BitVec.ofInt n (toInt d) = d.setWidth n := by
  show (d.setWidth 32).signExtend n = d.setWidth n
  rw [BitVec.signExtend_eq_setWidth_of_le _ hn, BitVec.setWidth_setWidth_of_le _ hn]

/-- What is widened is cut back to itself. -/
theorem setWidth_setWidth_64 {n : Nat} (hn : n ≤ 64) (v : BitVec n) :
    (v.setWidth 64).setWidth n = v := by
  rw [BitVec.setWidth_setWidth_of_le _ hn, BitVec.setWidth_eq]

/-- What is widened with its sign is cut back to itself. -/
theorem setWidth_signExtend_64 {n : Nat} (hn : n ≤ 64) (v : BitVec n) :
    (v.signExtend 64).setWidth n = v := by
  ext i hi
  rw [BitVec.getElem_setWidth, BitVec.getLsbD_signExtend, if_pos hi, BitVec.getLsbD_eq_getElem hi,
    decide_eq_true (by omega), Bool.true_and]

/-- Widening with the sign loses nothing. -/
theorem signExtend_64_inj {n : Nat} (hn : n ≤ 64) {u v : BitVec n} :
    u.signExtend 64 = v.signExtend 64 ↔ u = v := by
  refine ⟨fun h => ?_, congrArg _⟩
  rw [← setWidth_signExtend_64 hn u, h, setWidth_signExtend_64 hn v]

/-- A word that is shown as a Lua integer comes back from it. -/
theorem ofInt_toInt_setWidth {n : Nat} (hn : n ≤ 32) (v : BitVec n) :
    BitVec.ofInt n (toInt (v.setWidth 64)) = v := by
  rw [ofInt_toInt hn, setWidth_setWidth_64 (by omega)]

/-- So does one with a sign. -/
theorem ofInt_toInt_signExtend {n : Nat} (hn : n ≤ 32) (v : BitVec n) :
    BitVec.ofInt n (toInt (v.signExtend 64)) = v := by
  rw [ofInt_toInt hn, setWidth_signExtend_64 (by omega)]

/-! ## Arguments -/

/-- `optstring(L, narg, NULL)`, as a C string. -/
def optstring (N : Numerals) (args : List LuaValue) (narg : Nat) : LuaM (Option LStr) :=
  if isnoneornil args narg then .ok none
  else match (argument args narg).bind N.tolstring with
    | some s => .ok (some (cstring s))
    | none => .error (argtypeerror args narg "nil or string")

/-! ## Worlds -/

/-- The world a binding runs in. -/
structure World (σ κ : Type) where
  errno : Int
  heap : Heap
  /-- The rest of the system. -/
  sys : σ
  /-- The calls made of the C library so far. -/
  calls : List κ

/-- Without tables, before any call. -/
def World.start {κ : Type} : World Unit κ := ⟨0, .empty, (), []⟩

/-- What runs in a world. -/
abbrev BindingM (σ κ : Type) := EStateM Fault (World σ κ)

/-- Calls that do nothing but go wrong or return leave the world alone. -/
instance {σ κ : Type} : MonadLift CallM (BindingM σ κ) where
  monadLift x := fun w => match x with
    | .ok a => .ok a w
    | .error e => .error e w

/-- What the allocator of the interpreter gives. -/
inductive Allocated where
  /-- A block, with what it and the memory after it contain. -/
  | block (bytes : Memory)
  /-- NULL, and what `errno` is set to, if it is. -/
  | null (errno : Option Int)

/-- The pointer is NULL. -/
def Allocated.isNull : Allocated → Bool
  | .block _ => false
  | .null _ => true

/-- `errno` after the allocation. -/
def Allocated.errno (before : Int) : Allocated → Int
  | .block _ => before
  | .null e => e.getD before

namespace BindingM

variable {σ κ α : Type}

/-- Look something up in the tables. -/
def read (f : Heap → CallM α) : BindingM σ κ α := do
  let w ← get
  f w.heap

/-- The global `errno`. -/
def errno : BindingM σ κ Int := do return (← get).errno

/-- A call of the C library that leaves `errno` alone. -/
def libcall (call : κ) (f : σ → α × σ) : BindingM σ κ α := fun w =>
  .ok (f w.sys).1 { w with sys := (f w.sys).2, calls := w.calls ++ [call] }

/-- A call after which `errno` is as its outcome says. -/
def syscall (call : κ) (errno : α → Int) (f : σ → α × σ) : BindingM σ κ α := fun w =>
  .ok (f w.sys).1 { w with
    errno := errno (f w.sys).1, sys := (f w.sys).2, calls := w.calls ++ [call] }

/-- `errno = e`. -/
def seterrno (e : Int) : BindingM σ κ Unit := fun w => .ok () { w with errno := e }

/-- `lalloc(ud, NULL, 0, size)`. -/
def lalloc (call : κ) (f : σ → Allocated × σ) : BindingM σ κ Allocated := do
  let buf ← libcall call f
  match buf with
  | .null (some e) => seterrno e
  | _ => pure ()
  return buf

/-- `lua_settable`. -/
def settable (L : Layout fun _ : LuaValue => LuaValue) (table k v : LuaValue) :
    BindingM σ κ Unit := fun w =>
  match table with
  | .table t => .ok () { w with heap := w.heap.set L t k v }
  | _ => .error (Heap.indexError table) w

/-- `lua_newtable`, and a field for each name. -/
def newtable (L : Layout fun _ : LuaValue => LuaValue) (fields : List (String × LuaValue)) :
    BindingM σ κ LuaValue := fun w =>
  .ok (.table (w.heap.newtable L fields).1) { w with heap := (w.heap.newtable L fields).2 }

/-! ## Runs -/

/-- Two outcomes are the same values, and tables with the same entries; or the same error. -/
def SameTables : EStateM.Result Fault (World σ κ) (List LuaValue) →
    EStateM.Result Fault (World σ κ) (List LuaValue) → Prop
  | .ok vs w, .ok vs' w' => vs = vs' ∧ ∀ t k, w.heap.get t k = w'.heap.get t k
  | .error e _, .error e' _ => e = e'
  | _, _ => False

/-- A result has the same tables as itself. -/
theorem SameTables.refl (r : EStateM.Result Fault (World σ κ) (List LuaValue)) :
    SameTables r r := by
  cases r with
  | ok vs w => exact ⟨rfl, fun t k => rfl⟩
  | error e w => exact rfl

variable (w : World σ κ)

/-- A value without a heap. -/
@[simp] theorem run_lift_ok (a : α) :
    (liftM (Except.ok a : CallM α) : BindingM σ κ α).run w = .ok a w := rfl

/-- An error without a heap. -/
@[simp] theorem run_lift_error (e : Fault) :
    (liftM (Except.error e : CallM α) : BindingM σ κ α).run w = .error e w := rfl

/-- A value of the Lua interface. -/
@[simp] theorem run_lua_ok (a : α) :
    (liftM (Except.ok a : LuaM α) : BindingM σ κ α).run w = .ok a w := rfl

/-- An error of the Lua interface is raised. -/
@[simp] theorem run_lua_error (e : LuaError) :
    (liftM (Except.error e : LuaM α) : BindingM σ κ α).run w = .error (.raises e) w := rfl

/-- Reading the heap changes nothing. -/
@[simp] theorem run_read (f : Heap → CallM α) :
    (read f : BindingM σ κ α).run w = (liftM (f w.heap) : BindingM σ κ α).run w := rfl

/-- A system call sets `errno` and is written down. -/
@[simp] theorem run_syscall (call : κ) (errno : α → Int) (f : σ → α × σ) :
    (syscall call errno f : BindingM σ κ α).run w = .ok (f w.sys).1 { w with
      errno := errno (f w.sys).1, sys := (f w.sys).2, calls := w.calls ++ [call] } := rfl

/-- A call of the C library that leaves `errno` alone is written down. -/
@[simp] theorem run_libcall (call : κ) (f : σ → α × σ) :
    (libcall call f : BindingM σ κ α).run w
      = .ok (f w.sys).1 { w with sys := (f w.sys).2, calls := w.calls ++ [call] } := rfl

/-- An allocation sets `errno` as the allocator does. -/
@[simp] theorem run_lalloc (call : κ) (f : σ → Allocated × σ) :
    (lalloc call f : BindingM σ κ Allocated).run w = .ok (f w.sys).1 { w with
      errno := (f w.sys).1.errno w.errno, sys := (f w.sys).2, calls := w.calls ++ [call] } := by
  simp only [lalloc, EStateM.run_bind, run_libcall]
  cases hbuf : (f w.sys).1 with
  | block bytes => rfl
  | null e =>
      cases e <;> rfl

/-- An assignment to `errno`. -/
@[simp] theorem run_seterrno (e : Int) :
    (seterrno e : BindingM σ κ Unit).run w = .ok () { w with errno := e } := rfl

/-- A new table is the next one of the heap. -/
@[simp] theorem run_newtable (L : Layout fun _ : LuaValue => LuaValue)
    (fields : List (String × LuaValue)) : (newtable L fields : BindingM σ κ LuaValue).run w
      = .ok (.table w.heap.size) { w with heap := (w.heap.newtable L fields).2 } := rfl

/-- A loop of assignments. -/
theorem run_forM_settable {ι : Type} (L : Layout fun _ : LuaValue => LuaValue) (l : List ι)
    (t : Nat) (key val : ι → LuaValue) :
    (l.forM fun i => settable L (.table t) (key i) (val i) : BindingM σ κ PUnit).run w
      = .ok () { w with heap := l.foldl (fun H i => H.set L t (key i) (val i)) w.heap } := by
  induction l generalizing w with
  | nil => rfl
  | cons i l ih =>
      rw [List.forM_eq_forM, List.forM_cons, EStateM.run_bind]
      exact ih _

/-- A value changes nothing. -/
@[simp] theorem run_pure (a : α) : (pure a : BindingM σ κ α).run w = .ok a w := rfl

/-- `errno` is read as it is. -/
@[simp] theorem run_errno : (errno : BindingM σ κ Int).run w = .ok w.errno w := rfl

variable {w} in
/-- One step of a run. -/
theorem run_bind_of_ok {β : Type} {x : BindingM σ κ α} {f : α → BindingM σ κ β} {a : α}
    {w' : World σ κ} (h : x.run w = .ok a w') : (x >>= f).run w = (f a).run w' := by
  rw [EStateM.run_bind, h]

/-- A run that succeeds, from the first step on. -/
theorem run_bind_eq_ok {β : Type} {x : BindingM σ κ α} {f : α → BindingM σ κ β} {b : β}
    {w w' : World σ κ} (h : (x >>= f).run w = .ok b w') :
    ∃ a w₁, x.run w = .ok a w₁ ∧ (f a).run w₁ = .ok b w' := by
  rw [EStateM.run_bind] at h
  cases hx : x.run w with
  | error e w₁ =>
      rw [hx] at h
      cases h
  | ok a w₁ =>
      rw [hx] at h
      exact ⟨a, w₁, rfl, h⟩

/-- The world in which a run ends. -/
def worldAfter : EStateM.Result Fault (World σ κ) α → World σ κ
  | .ok _ w => w
  | .error _ w => w

/-- The calls that a run makes. -/
def made (x : BindingM σ κ α) : List κ := (worldAfter (x.run w)).calls.drop w.calls.length

variable {w}

/-- The calls that are made are those that are added. -/
theorem made_eq {x : BindingM σ κ α} {l : List κ}
    (h : (worldAfter (x.run w)).calls = w.calls ++ l) : made w x = l := by
  rw [made, h, List.drop_left]

/-- What a run calls after a check. -/
theorem forall_made_lua {β : Type} {x : LuaM α} {f : α → BindingM σ κ β} {p : κ → Prop}
    (h : ∀ a, x = .ok a → ∀ c ∈ made w (f a), p c) :
    ∀ c ∈ made w ((liftM x : BindingM σ κ α) >>= f), p c := by
  cases x with
  | error e =>
      have hmade : made w ((liftM (Except.error e : LuaM α) : BindingM σ κ α) >>= f) = [] :=
        made_eq (List.append_nil _).symm
      rw [hmade]
      exact fun c hc => absurd hc List.not_mem_nil
  | ok a => exact h a rfl

variable (w)

/-- Two runs that begin with the same check differ only in what follows where it succeeds. -/
theorem run_lua_congr {α β : Type} {x : LuaM α} {f f' : α → BindingM σ κ β}
    (h : ∀ a, x = .ok a → (f a).run w = (f' a).run w) :
    ((liftM x : BindingM σ κ α) >>= f).run w = ((liftM x : BindingM σ κ α) >>= f').run w := by
  cases x with
  | error e => rfl
  | ok a => exact h a rfl

end BindingM

end LuaPosix

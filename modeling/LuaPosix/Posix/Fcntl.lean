import LuaPosix.Lua.Binding

/-! # `fcntl`

For the commands on locks the third argument is a table, from which a `struct flock` is filled
before the call and to which it is written back afterwards, whatever the command and the outcome.
The field `l_pid` is written back but never filled. -/

namespace LuaPosix.Fcntl

open LuaPattern (LStr)
open Traversal (Layout)
open Heap (fieldName)

/-- Get a lock. -/
def F_GETLK : Int := 5

/-- Set a lock, if it can be had. -/
def F_SETLK : Int := 6

/-- Set a lock, waiting for it. -/
def F_SETLKW : Int := 7

/-- `struct flock`. -/
structure Flock where
  l_type : BitVec 16
  l_whence : BitVec 16
  l_start : BitVec 64
  l_len : BitVec 64
  l_pid : BitVec 32
  deriving DecidableEq, Repr

/-- The calls of the C library. -/
inductive Call where
  | flock (fd cmd : Int) (lockinfo : Flock)
  | fcntl (fd cmd arg : Int)
  deriving DecidableEq

/-- What the rest of the system answers, in a state of its own. -/
structure System (σ : Type) where
  num : Numerals
  strerror : Int → LStr
  /-- What is in `lockinfo.l_pid` before it is assigned to. -/
  l_pid : σ → BitVec 32
  /-- `fcntl(fd, cmd, &lockinfo)`, with what is in `lockinfo` afterwards. -/
  flock : (fd cmd : Int) → Flock → σ → (SysResult 32 × Flock) × σ
  fcntl : (fd cmd arg : Int) → σ → SysResult 32 × σ

section Model

variable {σ : Type} (S : System σ) (L : Layout fun _ : LuaValue => LuaValue) (args : List LuaValue)

/-- `lua_getfield(L, 3, k)` and `lua_tointeger(L, -1)`. -/
def integerfield (H : Heap) (t : Nat) (k : String) : LuaInteger :=
  ((H.get t (fieldName k)).tointegerx S.num.strtod).getD 0

/-- The `struct flock` that is passed. -/
def lockinfo (H : Heap) (t : Nat) (sys : σ) : Flock where
  l_type := (integerfield S H t "l_type").setWidth 16
  l_whence := (integerfield S H t "l_whence").setWidth 16
  l_start := integerfield S H t "l_start"
  l_len := integerfield S H t "l_len"
  l_pid := S.l_pid sys

/-- `lua_pushinteger(L, i)` and `lua_setfield(L, 3, k)`. -/
def setintegerfield (t : Nat) (k : String) (i : LuaInteger) : BindingM σ Call Unit :=
  BindingM.settable L (.table t) (fieldName k) (.integer i)

/-- `Pfcntl`. -/
def Pfcntl : BindingM σ Call (List LuaValue) := do
  let fd ← checkint S.num.strtod args 1
  let cmd ← checkint S.num.strtod args 2
  checknargs args 3
  if cmd = F_SETLK ∨ cmd = F_SETLKW ∨ cmd = F_GETLK then
    let t ← checktable args 3
    let w ← get
    let lock := lockinfo S w.heap t w.sys
    let x ← BindingM.syscall (.flock fd cmd lock) (fun x => x.1.errno) (S.flock fd cmd lock)
    setintegerfield L t "l_type" (x.2.l_type.signExtend 64)
    setintegerfield L t "l_whence" (x.2.l_whence.signExtend 64)
    setintegerfield L t "l_start" x.2.l_start
    setintegerfield L t "l_len" x.2.l_len
    setintegerfield L t "l_pid" (x.2.l_pid.signExtend 64)
    return x.1.push S.strerror (some "fcntl".toList)
  else
    let arg ← optint S.num.strtod args 3 0
    let x ← BindingM.syscall (.fcntl fd cmd arg) SysResult.errno (S.fcntl fd cmd arg)
    return x.push S.strerror (some "fcntl".toList)

end Model

/-! ## What is written back -/

section Locks

variable {σ : Type} {S : System σ} {L : Layout fun _ : LuaValue => LuaValue}
  {args : List LuaValue} {w : World σ Call} {H : Heap} {t : Nat} {fd cmd : Int}

/-- The fields that are written back, in their order. -/
def Flock.fields (lock : Flock) : List (String × LuaInteger) :=
  [("l_type", lock.l_type.signExtend 64), ("l_whence", lock.l_whence.signExtend 64),
    ("l_start", lock.l_start), ("l_len", lock.l_len), ("l_pid", lock.l_pid.signExtend 64)]

/-- A table with integers assigned to some of its fields. -/
def setfields (L : Layout fun _ : LuaValue => LuaValue) (t : Nat) (H : Heap)
    (fields : List (String × LuaInteger)) : Heap :=
  fields.foldl (fun H f => H.set L t (fieldName f.1) (.integer f.2)) H

/-- A field that is set has its value. -/
theorem get_setfields {fields : List (String × LuaInteger)} (h : (fields.map Prod.fst).Nodup)
    {f : String × LuaInteger} (hf : f ∈ fields) :
    (setfields L t H fields).get t (fieldName f.1) = .integer f.2 := by
  refine Heap.get_foldl_set (fun g hg hname => ?_) (.inl hf)
  rw [List.inj_on_of_nodup_map h hg hf (Heap.fieldName_injective hname)]

/-- Arguments of a command on locks. -/
structure LockArgs (S : System σ) (args : List LuaValue) (fd cmd : Int) (t : Nat) : Prop where
  fdArg : checkint S.num.strtod args 1 = .ok fd
  cmdArg : checkint S.num.strtod args 2 = .ok cmd
  nargs : args.length ≤ 3
  table : argument args 3 = some (.table t)
  lock : cmd = F_SETLK ∨ cmd = F_SETLKW ∨ cmd = F_GETLK

/-- The outcome of the call. -/
def outcome (S : System σ) (w : World σ Call) (fd cmd : Int) (t : Nat) : SysResult 32 × Flock :=
  (S.flock fd cmd (lockinfo S w.heap t w.sys) w.sys).1

/-- **Every command on locks writes back** what is in the structure after the call. -/
theorem run_Pfcntl (h : LockArgs S args fd cmd t) : ∃ w', (Pfcntl S L args).run w
      = .ok ((outcome S w fd cmd t).1.push S.strerror (some "fcntl".toList)) w' ∧
    w'.heap = setfields L t w.heap (outcome S w fd cmd t).2.fields := by
  have hnargs : checknargs args 3 = .ok () := if_pos h.nargs
  have htable : checktable args 3 = .ok t := by
    rw [checktable, h.table]
  rw [Pfcntl, h.fdArg, h.cmdArg, hnargs, htable]
  simp only [EStateM.run_bind, BindingM.run_lua_ok]
  rw [if_pos h.lock]
  exact ⟨_, rfl, rfl⟩

/-! ## Locks that are left alone -/

/-- An integer of so many bits, or no field. -/
def Fits (bits : Nat) (v : LuaValue) : Prop :=
  v = .nil ∨ ∃ d : LuaInteger, v = .integer d ∧ (d.setWidth bits).signExtend 64 = d

/-- A table whose fields are integers that fit `struct flock`. -/
structure LockTable (H : Heap) (t : Nat) : Prop where
  l_type : Fits 16 (H.get t (fieldName "l_type"))
  l_whence : Fits 16 (H.get t (fieldName "l_whence"))
  l_start : Fits 64 (H.get t (fieldName "l_start"))
  l_len : Fits 64 (H.get t (fieldName "l_len"))
  l_pid : Fits 32 (H.get t (fieldName "l_pid"))

/-- A field is as it was, or has the default in place of nothing. -/
def Kept (before after : LuaValue) : Prop :=
  after = before ∨ before = .nil ∧ after = .integer 0

/-- A value is kept as an integer if it is this integer, or nil and the integer is 0. -/
theorem kept_integer_iff {v : LuaValue} {i : LuaInteger} :
    Kept v (.integer i) ↔ v = .integer i ∨ v = .nil ∧ i = 0 := by
  rw [Kept, LuaValue.integer.injEq, eq_comm]

/-- The fields of a lock are left alone. -/
def LeavesLock (H H' : Heap) (t : Nat) : Prop :=
  ∀ k ∈ ["l_type", "l_whence", "l_start", "l_len", "l_pid"],
    Kept (H.get t (fieldName k)) (H'.get t (fieldName k))

/-- The system writes the structure only where `F_GETLK` succeeds. -/
def System.WritesOnGetlk (S : System σ) : Prop :=
  ∀ fd cmd lock sys, cmd ≠ F_GETLK ∨ (S.flock fd cmd lock sys).1.1.value = -1 →
    (S.flock fd cmd lock sys).1.2 = lock

/-- The lock is left as it was if each of its fields was. -/
theorem leavesLock_setfields_iff {lock : Flock} : LeavesLock H (setfields L t H lock.fields) t ↔
    ∀ f ∈ lock.fields, Kept (H.get t (fieldName f.1)) (.integer f.2) := by
  have hnodup : (lock.fields.map Prod.fst).Nodup := by
    show ["l_type", "l_whence", "l_start", "l_len", "l_pid"].Nodup
    decide
  constructor
  · intro h f hf
    rw [← get_setfields hnodup hf]
    exact h f.1 (List.mem_map_of_mem hf)
  · intro h k hk
    obtain ⟨f, hf, rfl⟩ : ∃ f ∈ lock.fields, f.1 = k := List.mem_map.mp hk
    rw [get_setfields hnodup hf]
    exact h f hf

/-- A field that fits is written back as it was read. -/
theorem kept_integerfield {k : String} {bits : Nat} (h : Fits bits (H.get t (fieldName k))) :
    Kept (H.get t (fieldName k))
      (.integer (((integerfield S H t k).setWidth bits).signExtend 64)) := by
  rw [integerfield]
  rcases h with hnil | ⟨d, hd, hfits⟩
  · rw [hnil]
    refine .inr ⟨rfl, ?_⟩
    show LuaValue.integer (((0#64).setWidth bits).signExtend 64) = _
    rw [BitVec.setWidth_zero, BitVec.signExtend, BitVec.toInt_zero]
    rfl
  · rw [hd]
    exact .inl (congrArg _ hfits)

/-- **A command on locks leaves the lock table alone if and only if** `l_pid` already is what
happens to be in the structure, unless `F_GETLK` succeeds. -/
theorem leavesLock_iff (h : LockArgs S args fd cmd t) (hwrites : S.WritesOnGetlk)
    (hfits : LockTable w.heap t)
    (hcase : cmd ≠ F_GETLK ∨ (outcome S w fd cmd t).1.value = -1) :
    ∃ results w', (Pfcntl S L args).run w = .ok results w' ∧
      (LeavesLock w.heap w'.heap t ↔
        w.heap.get t (fieldName "l_pid") = .integer ((S.l_pid w.sys).signExtend 64) ∨
        w.heap.get t (fieldName "l_pid") = .nil ∧ (S.l_pid w.sys).signExtend 64 = 0) := by
  obtain ⟨w', hrun, hheap⟩ := run_Pfcntl (L := L) (w := w) h
  have hlock : (outcome S w fd cmd t).2 = lockinfo S w.heap t w.sys := hwrites _ _ _ _ hcase
  refine ⟨_, w', hrun, ?_⟩
  rw [hheap, hlock, leavesLock_setfields_iff, ← kept_integer_iff]
  constructor
  · intro hkept
    have hmem : ("l_pid", (S.l_pid w.sys).signExtend 64) ∈ (lockinfo S w.heap t w.sys).fields :=
      List.mem_of_getElem? (i := 4) rfl
    exact hkept _ hmem
  · intro hpid
    -- The other four fields were filled from the table.
    have hstart := kept_integerfield (S := S) hfits.l_start
    have hlen := kept_integerfield (S := S) hfits.l_len
    rw [BitVec.setWidth_eq, BitVec.signExtend_eq] at hstart hlen
    rw [Flock.fields, List.forall_mem_cons, List.forall_mem_cons, List.forall_mem_cons,
      List.forall_mem_cons, List.forall_mem_singleton]
    exact ⟨kept_integerfield hfits.l_type, kept_integerfield hfits.l_whence, hstart, hlen, hpid⟩

end Locks

/-- A small instance: locks are granted, and there is a 7 where `l_pid` is. -/
def System.granting : System Unit where
  num := .zero
  strerror _ := []
  l_pid _ := 7
  flock _ _ lock s := ((.returned 0 0, lock), s)
  fcntl _ _ _ s := (.returned 0 0, s)

/-- A table `{ l_type = F_WRLCK }`. -/
def writeLock : World Unit Call :=
  ⟨0, (Heap.empty.newtable Heap.newestFirst [("l_type", .integer 1)]).2, (), []⟩

/-- `fcntl(3, F_SETLK, { l_type = F_WRLCK })`. -/
def lockArgs : List LuaValue := [.integer 3, .integer 6, .table 0]

/-- The arguments name the table of a lock. -/
theorem lockArgs_lockArgs : LockArgs System.granting lockArgs 3 6 0 :=
  ⟨rfl, rfl, by decide, rfl, .inl rfl⟩

/-- A lock for writing, which the system grants. -/
theorem leavesLock_writeLock :
    ∃ results w', (Pfcntl System.granting Heap.newestFirst lockArgs).run writeLock
        = .ok results w' ∧
      (LeavesLock writeLock.heap w'.heap 0 ↔
        writeLock.heap.get 0 (fieldName "l_pid")
            = .integer ((System.granting.l_pid writeLock.sys).signExtend 64) ∨
        writeLock.heap.get 0 (fieldName "l_pid") = .nil ∧
          (System.granting.l_pid writeLock.sys).signExtend 64 = 0) :=
  leavesLock_iff lockArgs_lockArgs (fun _ _ _ _ _ => rfl)
    ⟨.inr ⟨1, rfl, by decide⟩, .inl rfl, .inl rfl, .inl rfl, .inl rfl⟩ (.inl (by decide))

/-- A lock that was set has an owner that nobody gave it. -/
theorem owner_from_nowhere :
    ∃ results w', (Pfcntl System.granting Heap.newestFirst lockArgs).run writeLock
        = .ok results w' ∧
      writeLock.heap.get 0 (fieldName "l_pid") = .nil ∧
      w'.heap.get 0 (fieldName "l_pid") = .integer 7 ∧ ¬LeavesLock writeLock.heap w'.heap 0 := by
  have hafter : (setfields Heap.newestFirst 0 writeLock.heap
      (outcome System.granting writeLock 3 6 0).2.fields).get 0 (fieldName "l_pid")
      = .integer 7 := rfl
  obtain ⟨w', hrun, hheap⟩ := run_Pfcntl (L := Heap.newestFirst) (w := writeLock)
    lockArgs_lockArgs
  rw [← hheap] at hafter
  refine ⟨_, w', hrun, rfl, hafter, fun hleaves => ?_⟩
  have hkept := hleaves "l_pid" (by decide)
  rw [hafter] at hkept
  rcases hkept with hkept | ⟨-, hkept⟩ <;> cases hkept

end LuaPosix.Fcntl

import LuaPosix.Lib.Pool
import LuaPosix.Lua.Binding
import LuaPosix.Lua.Sequence

/-! # `dir` and `files`

`dir` reads a directory stream to its end and closes it; `files` leaves that to an iterator, which
keeps its stream in a block of memory and closes it at the end, or else when the block is
collected. What a directory holds when it is opened is a parameter; a `readdir` that fails is one
that has come to the end, as the functions see it. -/

namespace LuaPosix.Dirent

open LuaPattern (LStr)
open Traversal (Layout)

/-- The calls of the C library. -/
inductive DirCall where
  | opendir (path : LStr)
  | readdir (d : Nat)
  | closedir (d : Nat)
  deriving DecidableEq

/-- The directory streams, each with the names still to come, and the blocks of the iterators, each
with its stream or NULL. -/
structure Dirs where
  streams : Pool (List LStr)
  blocks : List (Option Nat)

/-- What `opendir` comes to for a path: the names to come, or an error number. -/
abbrev Opens := LStr → Except Int (List LStr)

/-- What runs on them. -/
abbrev DirM := BindingM Dirs DirCall

/-! ## The C library -/

/-- `opendir(path)`, none for NULL. -/
def opendir (O : Opens) (path : LStr) : DirM (Option Nat) := fun w =>
  match O path with
  | .error e => .ok none { w with errno := e, calls := w.calls ++ [.opendir path] }
  | .ok names => .ok (some w.sys.streams.made) { w with
      sys := { w.sys with streams := (w.sys.streams.make names).2 }
      calls := w.calls ++ [.opendir path] }

/-- The next name of a stream. -/
def nextName : List LStr → Option LStr × List LStr
  | [] => (none, [])
  | name :: names => (some name, names)

/-- `readdir(d)`. -/
def readdir (d : Nat) : DirM (Option LStr) :=
  BindingM.libcall (.readdir d) fun s =>
    ((s.streams.use d none nextName).1, { s with streams := (s.streams.use d none nextName).2 })

/-- `closedir(d)`; nobody looks at its result. -/
def closedir (d : Nat) : DirM Unit :=
  BindingM.libcall (.closedir d) fun s => ((), { s with streams := s.streams.release d })

/-- The block at a number. -/
def Dirs.block (s : Dirs) (u : Nat) : Option Nat := s.blocks[u]?.join

/-- `lua_newuserdata`, with a first value. -/
def newblock (v : Option Nat) : DirM Nat := fun w =>
  .ok w.sys.blocks.length { w with sys := { w.sys with blocks := w.sys.blocks ++ [v] } }

/-- `*p = v`. -/
def setblock (u : Nat) (v : Option Nat) : DirM Unit := fun w =>
  .ok () { w with sys := { w.sys with blocks := w.sys.blocks.set u v } }

section Model

variable (N : Numerals) (strerror : Int → LStr) (L : Layout fun _ : LuaValue => LuaValue)

/-- `optstring(L, 1, ".")`, and the check of the number of arguments. -/
def checkpath (args : List LuaValue) : LuaM LStr := do
  let path ← optstring N args 1
  checknargs args 1
  return path.getD ".".toList

/-- The argument error for a path that cannot be opened. -/
def openError {α : Type} (path : LStr) : DirM α := do
  let e ← BindingM.errno
  throw (.raises (.argerror 1 (String.ofList (path ++ ": ".toList ++ strerror e))))

/-- The loop of `Pdir` for at most so many rounds, from the `i`-th name on. -/
def fill (t : LuaValue) (d : Nat) : (fuel : Nat) → (i : Nat) → DirM Unit
  | 0, _ => throw .unfinished
  | fuel + 1, i => do
      match ← readdir d with
      | none => pure ()
      | some name =>
          BindingM.settable L t (position i) (.string (cstring name))
          fill t d fuel (i + 1)

/-- The loop of `Pdir`: it ends with the stream. -/
def fillAll (t : LuaValue) (d : Nat) : DirM Unit := do
  let w ← get
  fill L t d (((w.sys.streams.live d).getD []).length + 1) 1

/-- `dir(path)`. -/
def Pdir (O : Opens) (args : List LuaValue) : DirM (List LuaValue) := do
  let path ← checkpath N args
  match ← opendir O path with
  | none => openError strerror path
  | some d =>
      let t ← BindingM.newtable L []
      fillAll L t d
      closedir d
      return [t]

/-- The iterator of `files`, over its block. -/
def aux_files (u : Nat) : DirM (List LuaValue) := do
  let w ← get
  match w.sys.block u with
  | none => return []
  | some d =>
      match ← readdir d with
      | none =>
          closedir d
          setblock u none
          return []
      | some name => return [.string (cstring name)]

/-- The finalizer of a block. It leaves the pointer as it is. -/
def dir_gc (u : Nat) : DirM Unit := do
  let w ← get
  match w.sys.block u with
  | none => return ()
  | some d => closedir d

/-- `files(path)`: the block of the iterator that is returned. -/
def Pfiles (O : Opens) (args : List LuaValue) : DirM Nat := do
  let path ← checkpath N args
  let u ← newblock none
  let d ← opendir O path
  setblock u d
  match d with
  | none => openError strerror path
  | some _ => return u

end Model

/-! ## Runs -/

section Runs

variable {N : Numerals} {strerror : Int → LStr} {L : Layout fun _ : LuaValue => LuaValue}
  {O : Opens} {w : World Dirs DirCall} {args : List LuaValue} {path : LStr} {names : List LStr}
  {d u : Nat}

/-- The names, as values. -/
def nameValues (names : List LStr) : List LuaValue := names.map fun name => .string (cstring name)

/-- A name is not nil. -/
theorem nil_notMem_nameValues : .nil ∉ nameValues names := by
  intro hmem
  obtain ⟨name, -, h⟩ := List.mem_map.mp hmem
  cases h

/-- The streams, one of which is about to give these names. -/
def Dirs.at (s : Dirs) (d : Nat) (names : List LStr) : Dirs :=
  { s with streams := { s.streams with
    live := Function.update s.streams.live d (some names) } }

/-- Of two places the later one counts. -/
theorem Dirs.at_at (s : Dirs) (names' : List LStr) :
    (s.at d names).at d names' = s.at d names' := by
  rw [Dirs.at, Dirs.at, Dirs.at, Function.update_idem]

/-- A stream at a place is open, with the names from there on. -/
theorem Dirs.live_at (s : Dirs) : (s.at d names).streams.live d = some names :=
  Function.update_self _ _ _

/-- A name of a stream that is open. -/
theorem run_readdir (h : w.sys.streams.live d = some names) :
    (readdir d).run w = .ok names.head? { w with
      sys := w.sys.at d names.tail, calls := w.calls ++ [.readdir d] } := by
  rw [readdir, BindingM.run_libcall, Pool.use_of_live h]
  cases names <;> rfl

/-- **The loop of `Pdir`** assigns the names in order, and leaves the stream at its end. -/
theorem run_fill (t : Nat) {fuel : Nat} (i : Nat) (h : w.sys.streams.live d = some names)
    (hfuel : names.length < fuel) :
    (fill L (.table t) d fuel i).run w = .ok () { w with
      heap := ((nameValues names).zipIdx i).foldl
        (fun H p => H.set L t (position p.2) p.1) w.heap
      sys := w.sys.at d []
      calls := w.calls ++ List.replicate (names.length + 1) (.readdir d) } := by
  induction names generalizing w fuel i with
  | nil =>
      obtain ⟨fuel, rfl⟩ := Nat.exists_eq_add_one.mpr (Nat.zero_lt_of_lt hfuel)
      rw [fill, BindingM.run_bind_of_ok (run_readdir h)]
      rfl
  | cons name names ih =>
      obtain ⟨fuel, rfl⟩ := Nat.exists_eq_add_one.mpr (Nat.zero_lt_of_lt hfuel)
      rw [fill, BindingM.run_bind_of_ok (run_readdir h)]
      have hset : ∀ w : World Dirs DirCall, (BindingM.settable L (.table t) (position i)
          (.string (cstring name)) : DirM Unit).run w = .ok () { w with
            heap := w.heap.set L t (position i) (.string (cstring name)) } := fun _ => rfl
      simp only [List.head?_cons, List.tail_cons]
      rw [BindingM.run_bind_of_ok (hset _), ih (i + 1) (w.sys.live_at) (by simpa using hfuel)]
      simp only [Dirs.at_at, List.append_assoc, List.singleton_append]
      rfl

/-- A directory is read to its end into a table. -/
theorem run_fillAll (t : Nat) (h : w.sys.streams.live d = some names) :
    (fillAll L (.table t) d).run w = .ok () { w with
      heap := ((nameValues names).zipIdx 1).foldl
        (fun H p => H.set L t (position p.2) p.1) w.heap
      sys := w.sys.at d []
      calls := w.calls ++ List.replicate (names.length + 1) (.readdir d) } := by
  have hget : (get : DirM (World Dirs DirCall)).run w = .ok w w := rfl
  rw [fillAll, BindingM.run_bind_of_ok hget, h]
  exact run_fill t 1 h (Nat.lt_succ_self _)

/-- The table of the names is the one of a list. -/
theorem foldl_nameValues (H : Heap) : ((nameValues names).zipIdx 1).foldl
    (fun H' p => H'.set L H.size (position p.2) p.1) H.createtable.2
      = (H.pack L (nameValues names)).2 := by
  have hall : ((nameValues names).zipIdx 1).filter (fun p => p.1 ≠ .nil)
      = (nameValues names).zipIdx 1 := by
    refine List.filter_eq_self.mpr fun p hp => decide_eq_true ?_
    rintro hp1
    exact nil_notMem_nameValues (hp1 ▸ List.fst_mem_of_mem_zipIdx hp)
  rw [Heap.pack, hall]

/-- Opening, reading and closing a stream leaves the open ones as they were. -/
def Dirs.listed (s : Dirs) : Dirs :=
  { s with streams := { s.streams with
    made := s.streams.made + 1, released := s.streams.made :: s.streams.released } }

/-- A stream read to its end is given back as one that was opened and closed. -/
theorem release_at_nil (s : Dirs) (h : s.streams.Sound) (names : List LStr) :
    { s with streams := (({ s with streams := (s.streams.make names).2 } : Dirs).at
      s.streams.made []).streams.release s.streams.made } = s.listed := by
  rw [Pool.release_of_live (Dirs.live_at _)]
  show ({ s with streams := { s.streams with
      live := Function.update (Function.update (Function.update s.streams.live s.streams.made
        (some names)) s.streams.made (some [])) s.streams.made none
      made := s.streams.made + 1
      released := s.streams.made :: s.streams.released } } : Dirs) = s.listed
  rw [Function.update_idem, Function.update_idem, ← h.live_made, Function.update_eq_self]
  rfl

/-- Opened and closed, the streams are as sound as before. -/
theorem Dirs.sound_listed {s : Dirs} (h : s.streams.Sound) : s.listed.streams.Sound := by
  have hmade : (s.streams.make []).2.live s.streams.made = some [] := Function.update_self _ _ _
  have hrelease := (h.make []).release s.streams.made
  rw [Pool.release_of_live hmade] at hrelease
  have hlive : Function.update (s.streams.make []).2.live s.streams.made none = s.streams.live := by
    show Function.update (Function.update _ _ _) _ _ = _
    rw [Function.update_idem, ← h.live_made, Function.update_eq_self]
  rw [hlive] at hrelease
  exact hrelease

/-- **`dir`** returns a table of the names in the order `readdir` gives them, and leaves no stream
open. -/
theorem run_Pdir (hsound : w.sys.streams.Sound) (hpath : checkpath N args = .ok path)
    (hopen : O path = .ok names) :
    (Pdir N strerror L O args).run w = .ok [.table w.heap.size] { w with
      heap := (w.heap.pack L (nameValues names)).2
      sys := w.sys.listed
      calls := w.calls ++ .opendir path :: List.replicate (names.length + 1)
        (.readdir w.sys.streams.made) ++ [.closedir w.sys.streams.made] } := by
  have hopendir : (opendir O path).run w = .ok (some w.sys.streams.made) { w with
      sys := { w.sys with streams := (w.sys.streams.make names).2 }
      calls := w.calls ++ [.opendir path] } := by
    show opendir O path w = _
    rw [opendir, hopen]
  rw [Pdir, hpath, BindingM.run_bind_of_ok (BindingM.run_lua_ok w path),
    BindingM.run_bind_of_ok hopendir]
  simp only []
  have hlive : (w.sys.streams.make names).2.live w.sys.streams.made = some names :=
    Function.update_self _ _ _
  rw [BindingM.run_bind_of_ok (BindingM.run_newtable _ L []),
    BindingM.run_bind_of_ok (run_fillAll w.heap.size hlive)]
  have hclosedir : ∀ (d : Nat) (w : World Dirs DirCall), (closedir d).run w = .ok () { w with
      sys := { w.sys with streams := w.sys.streams.release d }
      calls := w.calls ++ [.closedir d] } := fun _ _ => rfl
  rw [BindingM.run_bind_of_ok (hclosedir _ _), BindingM.run_pure, ← foldl_nameValues,
    ← release_at_nil w.sys hsound names]
  simp only [List.append_assoc, List.cons_append]
  rfl

variable (N strerror L O args) in
/-- A call of `dir` that goes wrong has opened nothing. -/
theorem sys_Pdir (hsound : w.sys.streams.Sound) :
    (BindingM.worldAfter ((Pdir N strerror L O args).run w)).sys = w.sys ∨
      (BindingM.worldAfter ((Pdir N strerror L O args).run w)).sys = w.sys.listed := by
  cases hpath : checkpath N args with
  | error e =>
      rw [Pdir, hpath]
      exact .inl rfl
  | ok path =>
      cases hopen : O path with
      | ok names =>
          rw [run_Pdir hsound hpath hopen]
          exact .inr rfl
      | error e =>
          have hopendir : (opendir O path).run w = .ok none { w with
              errno := e, calls := w.calls ++ [.opendir path] } := by
            show opendir O path w = _
            rw [opendir, hopen]
          rw [Pdir, hpath, BindingM.run_bind_of_ok (BindingM.run_lua_ok w path),
            BindingM.run_bind_of_ok hopendir]
          exact .inl rfl

/-- The streams and blocks after `files` has opened a stream. -/
def Dirs.opened (s : Dirs) (names : List LStr) : Dirs :=
  ⟨(s.streams.make names).2, s.blocks ++ [some s.streams.made]⟩

/-- The block that a failed call of `files` leaves. -/
def Dirs.failed (s : Dirs) : Dirs := { s with blocks := s.blocks ++ [none] }

variable (N strerror O args) in
/-- **`files`** returns an iterator over a new block with a new stream, or raises. -/
theorem run_Pfiles_cases (w : World Dirs DirCall) :
    (∃ e, (Pfiles N strerror O args).run w = .error e w) ∨
    (∃ e w', (Pfiles N strerror O args).run w = .error e w' ∧ w'.sys = w.sys.failed) ∨
    ∃ names w', (Pfiles N strerror O args).run w = .ok w.sys.blocks.length w' ∧
      w'.sys = w.sys.opened names := by
  have hset : ∀ v v' : Option Nat, (w.sys.blocks ++ [v]).set w.sys.blocks.length v'
      = w.sys.blocks ++ [v'] := fun v v' => by
    rw [List.set_append_right _ _ le_rfl, Nat.sub_self]
    rfl
  have hblock : ∀ w : World Dirs DirCall, (newblock none).run w = .ok w.sys.blocks.length { w with
      sys := { w.sys with blocks := w.sys.blocks ++ [none] } } := fun _ => rfl
  cases hpath : checkpath N args with
  | error e =>
      rw [Pfiles, hpath]
      exact .inl ⟨_, rfl⟩
  | ok path =>
      refine .inr ?_
      rw [Pfiles, hpath, BindingM.run_bind_of_ok (BindingM.run_lua_ok w path),
        BindingM.run_bind_of_ok (hblock w)]
      cases hopen : O path with
      | error e =>
          have hopendir : ∀ w, (opendir O path).run w = .ok none { w with
              errno := e, calls := w.calls ++ [.opendir path] } := fun w => by
            show opendir O path w = _
            rw [opendir, hopen]
          rw [BindingM.run_bind_of_ok (hopendir _)]
          exact .inl ⟨_, _, rfl, congrArg (Dirs.mk _) (hset _ _)⟩
      | ok names =>
          have hopendir : ∀ w, (opendir O path).run w = .ok (some w.sys.streams.made) { w with
              sys := { w.sys with streams := (w.sys.streams.make names).2 }
              calls := w.calls ++ [.opendir path] } := fun w => by
            show opendir O path w = _
            rw [opendir, hopen]
          rw [BindingM.run_bind_of_ok (hopendir _)]
          exact .inr ⟨names, _, rfl, congrArg (Dirs.mk _) (hset _ _)⟩

/-- The iterator at its end, or past it. -/
theorem run_aux_files_null (h : w.sys.block u = none) : (aux_files u).run w = .ok [] w := by
  have hget : (get : DirM (World Dirs DirCall)).run w = .ok w w := rfl
  rw [aux_files, BindingM.run_bind_of_ok hget, h]
  rfl

/-- **The iterator** gives the next name, or closes the stream and forgets it. -/
theorem run_aux_files (h : w.sys.block u = some d) (hlive : w.sys.streams.live d = some names) :
    (aux_files u).run w = .ok (nameValues names.head?.toList) (match names with
      | [] => { w with
          sys := ⟨(w.sys.at d []).streams.release d, w.sys.blocks.set u none⟩
          calls := w.calls ++ [.readdir d, .closedir d] }
      | _ :: names => { w with sys := w.sys.at d names, calls := w.calls ++ [.readdir d] }) := by
  have hget : (get : DirM (World Dirs DirCall)).run w = .ok w w := rfl
  rw [aux_files, BindingM.run_bind_of_ok hget, h]
  simp only []
  rw [BindingM.run_bind_of_ok (run_readdir hlive)]
  cases names with
  | cons name names => rfl
  | nil =>
      simp only [List.head?_nil, Option.toList_none]
      have hcalls : w.calls ++ [.readdir d] ++ [.closedir d]
          = w.calls ++ [.readdir d, .closedir d] :=
        List.append_assoc _ _ _
      rw [← hcalls]
      rfl

/-- An iterator whose stream is not open goes wrong. -/
theorem run_aux_files_dead (h : w.sys.block u = some d) (hlive : w.sys.streams.live d = none) :
    (aux_files u).run w = .ok [] { w with
      sys := ⟨{ w.sys.streams with misused := true }, w.sys.blocks.set u none⟩
      calls := w.calls ++ [.readdir d, .closedir d] } := by
  have hget : (get : DirM (World Dirs DirCall)).run w = .ok w w := rfl
  have hread : (readdir d).run w = .ok none { w with
      sys := { w.sys with streams := { w.sys.streams with misused := true } }
      calls := w.calls ++ [.readdir d] } := by
    rw [readdir, BindingM.run_libcall, Pool.use_of_not_live hlive]
  have hclose : (closedir d).run { w with
      sys := { w.sys with streams := { w.sys.streams with misused := true } }
      calls := w.calls ++ [.readdir d] } = .ok () { w with
        sys := { w.sys with streams := { w.sys.streams with misused := true } }
        calls := w.calls ++ [.readdir d, .closedir d] } := by
    have hrelease : ({ w.sys.streams with misused := true } : Pool (List LStr)).release d
        = { w.sys.streams with misused := true } := Pool.release_of_not_live hlive
    rw [closedir, BindingM.run_libcall]
    simp only [hrelease, List.append_assoc, List.singleton_append]
  rw [aux_files, BindingM.run_bind_of_ok hget, h]
  simp only []
  rw [BindingM.run_bind_of_ok hread]
  simp only []
  rw [BindingM.run_bind_of_ok hclose]
  rfl

/-- The finalizer closes the stream that the block has, if any. -/
theorem sys_dir_gc (u : Nat) (w : World Dirs DirCall) :
    (BindingM.worldAfter ((dir_gc u).run w)).sys = match w.sys.block u with
      | none => w.sys
      | some d => { w.sys with streams := w.sys.streams.release d } := by
  have hget : (get : DirM (World Dirs DirCall)).run w = .ok w w := rfl
  rw [dir_gc, BindingM.run_bind_of_ok hget]
  cases w.sys.block u <;> rfl

end Runs

end LuaPosix.Dirent

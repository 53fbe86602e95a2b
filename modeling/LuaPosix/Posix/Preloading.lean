import LuaPosix.Lua.Expressions
import LuaPosix.Lib.LuaPatternMatching

/-! # The tables of `posix`

The module `posix` copies the fields of its submodules into its own table, next to the functions it
has there itself; then those of `posix.deprecated` and `posix.compat` take their places. In the end
the submodules' own tables are put under their names. Where a function had that name, its table is
called in its place. -/

namespace LuaPosix.Preloading

open LuaPattern (LStr)
open Traversal (Layout)
open Heap (fieldName)

/-! ## What is put together -/

/-- The submodules, in order. -/
def names : List String :=
  ["ctype", "dirent", "errno", "fcntl", "fnmatch", "glob", "grp",
    "libgen", "poll", "pwd", "sched", "signal", "stdio", "stdlib", "sys.msg",
    "sys.resource", "sys.socket", "sys.stat", "sys.statvfs", "sys.time",
    "sys.times", "sys.utsname", "sys.wait", "syslog", "termio", "time",
    "unistd", "utime"]

/-- No submodule is listed twice. -/
theorem nodup_names : names.Nodup := by decide

/-- The tables there are when `posix` puts its own together. Each module has made one of its own. -/
structure Loaded where
  heap : Heap
  /-- The table of `posix` itself, with its functions. -/
  M : Nat
  /-- `require('posix.' .. name)`. -/
  submodule : String → Nat
  /-- `require 'posix.deprecated'`. -/
  deprecated : Nat
  /-- `require 'posix.compat'`. -/
  compat : Nat
  /-- `require 'posix.version'`. -/
  version : LStr
  nodup : (M :: deprecated :: compat :: names.map submodule).Nodup
  allocated : ∀ t ∈ M :: deprecated :: compat :: names.map submodule, t < heap.size
  /-- No field is nil. -/
  present : ∀ t ∈ M :: deprecated :: compat :: names.map submodule,
    ∀ e ∈ (heap.tables t).entries, e.2 ≠ .nil

/-- Tables, some of which have a metatable with `__call`: the function that this calls. -/
structure State where
  heap : Heap
  __call : Nat → Option LuaValue

/-! ## The loops -/

section Model

variable (N : Numerals) (L : Layout fun _ : LuaValue => LuaValue) (X : Loaded)

/-- `'posix namespace clash: ' .. name .. '.' .. k`. -/
def clashMessage (name : String) (k : LuaValue) : CallM String :=
  match N.tolstring k with
  | some s => .ok ("posix namespace clash: " ++ name ++ "." ++ String.ofList s)
  | none => .error (.raises (.error
      ("attempt to concatenate a " ++ LuaValue.typename (some k) ++ " value")))

/-- A key that is copied from a submodule. -/
def Copied (k : LuaValue) : Prop := k ≠ fieldName "version" ∧ k ≠ fieldName "glob"

/-- Whether a key is copied can be decided. -/
instance : DecidablePred Copied := fun _ => inferInstanceAs (Decidable (_ ∧ _))

/-- The round of the first loop for a field. The message is made before it is known to be needed. -/
def copyField (name : String) (H : Heap) (k v : LuaValue) : CallM Heap :=
  if Copied k then do
    let message ← clashMessage N name k
    if H.get X.M k = .nil then return H.set L X.M k v
    else .error (.raises (.error message))
  else return H

/-- The round of the first loop for a submodule. -/
def copySubmodule (H : Heap) (name : String) : CallM Heap :=
  let t := X.submodule name
  Heap.whileNext t id (copyField N L X name) ((H.tables t).entries.length + 1) H

/-- `for k, v in next, t do rawset(M, k, v) end`. -/
def inject (t : Nat) (H : Heap) : CallM Heap :=
  Heap.whileNext t id (fun H k v => .ok (H.set L X.M k v)) ((H.tables t).entries.length + 1) H

/-- `match(name, '^sys%.(.*)$')`. -/
def sysname (name : String) : Option LStr :=
  (LuaPattern.luaMatch name.toList "^sys%.(.*)$".toList).bind List.head?

/-- The round of the last loop for a submodule. -/
def preload (systable : Nat) (s : State) (name : String) : State :=
  let t := X.submodule name
  let fn := s.heap.get X.M (fieldName name)
  let s := if fn.truthy then { s with __call := Function.update s.__call t (some fn) } else s
  match sysname name with
  | some sysname => { s with heap := s.heap.set L systable (.string sysname) (.table t) }
  | none => { s with heap := s.heap.set L X.M (fieldName name) (.table t) }

/-- The end of `init.lua`. -/
def init : CallM State := do
  let H ← names.foldlM (copySubmodule N L X) X.heap
  let H ← inject L X X.deprecated H
  let H ← inject L X X.compat H
  let (systable, H) := H.createtable
  let s := names.foldl (preload L X systable) ⟨H, fun _ => none⟩
  let H := s.heap.set L X.M (fieldName "sys") (.table systable)
  return { s with heap := H.set L X.M (fieldName "version") (.string X.version) }

end Model

/-- A call of a value, given how functions are called and how deep calls may nest. The function in a
metatable is given the table as well, and drops it. -/
def call {β : Type} (s : State) (invoke : LuaValue → List LuaValue → CallM β) :
    (depth : Nat) → LuaValue → List LuaValue → CallM β
  | 0, _, _ => .error .unfinished
  | depth + 1, f, args =>
      let notCallable : CallM β := .error (.raises (.error
        ("attempt to call a " ++ LuaValue.typename (some f) ++ " value")))
      match f with
      | .function _ | .sigHandlerWrap _ _ => invoke f args
      | .table t =>
          match s.__call t with
          | some fn => call s invoke depth fn ((f :: args).drop 1)
          | none => notCallable
      | _ => notCallable

/-! ## Names of submodules -/

section Names

variable {name : String} {s S rest : LStr} {caps : List LuaPattern.Cap}

/-- The items of `^sys%.(.*)$`. -/
def sysItems : List LuaPattern.Item :=
  [.single (.lit 's'), .single (.lit 'y'), .single (.lit 's'), .single (.esc '.'), .openCap,
    .star .any, .closeCap, .eos]

/-- The system name is the first result of the match. -/
theorem sysname_eq : sysname name = ((LuaPattern.matchItems sysItems name.toList []).map
    fun r => LuaPattern.results name.toList r.1 r.2).bind List.head? := by
  have hparse : LuaPattern.parse "^sys%.(.*)$".toList = some ⟨true, sysItems⟩ := rfl
  rw [sysname, LuaPattern.luaMatch, hparse]
  exact congrArg (Option.bind · List.head?) (LuaPattern.search_anchored rfl _)

/-- A match spells `sys.`, and captures what follows. -/
theorem caps_of_matchItems (h : LuaPattern.matchItems sysItems s [] = some (rest, caps)) :
    ∃ S, s = "sys.".toList ++ S ∧ caps = [.closed S] := by
  obtain ⟨c₁, t₁, rfl, h₁, c₂, t₂, rfl, h₂, c₃, t₃, rfl, h₃, c₄, t₄, rfl, h₄, w, t, rfl, -, rfl,
    -, rfl⟩ := LuaPattern.derives_of_matchItems h
  obtain rfl := eq_of_beq h₁
  obtain rfl := eq_of_beq h₂
  obtain rfl := eq_of_beq h₃
  obtain rfl := eq_of_beq h₄
  exact ⟨w, by simp, LuaPattern.closeCapture_opened w [] []⟩

/-- What begins with `sys.` matches. -/
theorem matchItems_sys (S : LStr) :
    (LuaPattern.matchItems sysItems ("sys.".toList ++ S) []).isSome := by
  rw [LuaPattern.matchItems_isSome_iff]
  exact ⟨_, _, 's', _, rfl, rfl, 'y', _, rfl, rfl, 's', _, rfl, rfl, '.', _, rfl, rfl, S, [],
    (List.append_nil S).symm, fun _ _ => rfl, rfl, rfl, rfl⟩

/-- It is what stands after the dot. -/
theorem sysname_eq_some_iff : sysname name = some S ↔ name.toList = "sys.".toList ++ S := by
  rw [sysname_eq]
  constructor
  · intro h
    cases hmatch : LuaPattern.matchItems sysItems name.toList [] with
    | none =>
        rw [hmatch] at h
        cases h
    | some r =>
        rw [hmatch] at h
        obtain ⟨S', hname, hcaps⟩ := caps_of_matchItems hmatch
        simp only [Option.map_some, hcaps] at h
        cases h
        exact hname
  · intro hname
    obtain ⟨r, hmatch⟩ := Option.isSome_iff_exists.mp (matchItems_sys S)
    obtain ⟨S', hname', hcaps⟩ := caps_of_matchItems hmatch
    have hS : S' = S := (List.append_cancel_left hname').symm
    rw [hname, hmatch]
    simp only [Option.map_some, hcaps, hS]
    rfl

end Names

/-! ## Copying the submodules -/

/-- An entry of a table. -/
abbrev Entry := Sigma fun _ : LuaValue => LuaValue

section Copying

variable (N : Numerals) (L : Layout fun _ : LuaValue => LuaValue) (X : Loaded)

/-- The entries that are copied from a submodule. -/
def copiedEntries (name : String) : List Entry :=
  (X.heap.tables (X.submodule name)).entries.filter fun e => Copied e.1

/-- The tables after the entries of a submodule have been copied. -/
def copied (H : Heap) (name : String) : Heap :=
  (copiedEntries X name).foldl (fun H e => H.set L X.M e.1 e.2) H

/-- The entries can be copied: their keys can be put into a message, and are new. -/
def Fits (H : Heap) (name : String) : Prop :=
  ∀ e ∈ copiedEntries X name, (N.tolstring e.1).isSome ∧ H.get X.M e.1 = .nil

/-- No key is copied from both. -/
def NoClash (a b : String) : Prop :=
  ∀ e ∈ copiedEntries X a, ∀ e' ∈ copiedEntries X b, e.1 ≠ e'.1

variable {N L X} {H H' : Heap} {name : String} {k : LuaValue}

/-- A submodule that is listed has its table among those loaded. -/
theorem submodule_mem (h : name ∈ names) :
    X.submodule name ∈ X.deprecated :: X.compat :: names.map X.submodule :=
  List.mem_cons_of_mem _ (List.mem_cons_of_mem _ (List.mem_map_of_mem h))

/-- None of them is the module's own table. -/
theorem submodule_ne_M (h : name ∈ names) : X.submodule name ≠ X.M := by
  intro heq
  exact (List.nodup_cons.mp X.nodup).1 (heq ▸ submodule_mem h)

/-- No key is copied twice from one table. -/
theorem nodupKeys_copiedEntries : (copiedEntries X name).NodupKeys :=
  (X.heap.tables (X.submodule name)).nodupKeys.sublist List.filter_sublist

/-- One entry is copied. -/
theorem copyField_eq_ok_iff {v : LuaValue} (h : Copied k) : copyField N L X name H k v = .ok H' ↔
    ((N.tolstring k).isSome ∧ H.get X.M k = .nil) ∧ H' = H.set L X.M k v := by
  rw [copyField, if_pos h, bind_eq_ok, clashMessage]
  cases N.tolstring k with
  | none =>
      constructor
      · rintro ⟨message, hmessage, -⟩
        cases hmessage
      · rintro ⟨⟨hnone, -⟩, -⟩
        cases hnone
  | some s =>
      constructor
      · rintro ⟨message, -, h⟩
        split_ifs at h with hnil
        · exact ⟨⟨rfl, hnil⟩, (Except.ok.inj h).symm⟩
      · rintro ⟨⟨-, hnil⟩, rfl⟩
        exact ⟨_, rfl, if_pos hnil⟩

/-- The loop over the entries of a submodule. -/
theorem foldlM_copyField_eq_ok_iff {l : List Entry} (h : l.NodupKeys) :
    l.foldlM (fun H e => copyField N L X name H e.1 e.2) H = .ok H' ↔
      (∀ e ∈ l.filter fun e => Copied e.1, (N.tolstring e.1).isSome ∧ H.get X.M e.1 = .nil) ∧
      H' = (l.filter fun e => Copied e.1).foldl (fun H e => H.set L X.M e.1 e.2) H := by
  induction l generalizing H with
  | nil =>
      constructor
      · intro hrun
        exact ⟨fun e he => absurd he List.not_mem_nil, (Except.ok.inj hrun).symm⟩
      · rintro ⟨-, rfl⟩
        rfl
  | cons e l ih =>
      obtain ⟨hnotMem, hl⟩ := List.nodupKeys_cons.mp h
      rw [List.foldlM_cons]
      by_cases hcopied : Copied e.1
      · -- the later keys are not the one just set
        have hlater : ∀ e' ∈ l.filter fun e => Copied e.1,
            (H.set L X.M e.1 e.2).get X.M e'.1 = H.get X.M e'.1 := by
          intro e' he'
          refine Heap.get_set_of_ne _ _ fun heq => hnotMem ?_
          exact heq ▸ List.mem_keys_of_mem (List.mem_of_mem_filter he')
        rw [List.filter_cons_of_pos (by simpa using hcopied), List.forall_mem_cons, bind_eq_ok]
        constructor
        · rintro ⟨H₁, hfirst, hrest⟩
          obtain ⟨hkey, rfl⟩ := (copyField_eq_ok_iff hcopied).mp hfirst
          obtain ⟨hkeys, hH'⟩ := (ih hl).mp hrest
          refine ⟨⟨hkey, fun e' he' => ?_⟩, hH'⟩
          rw [← hlater e' he']
          exact hkeys e' he'
        · rintro ⟨⟨hkey, hkeys⟩, hH'⟩
          refine ⟨_, (copyField_eq_ok_iff hcopied).mpr ⟨hkey, rfl⟩, (ih hl).mpr ⟨?_, hH'⟩⟩
          intro e' he'
          rw [hlater e' he']
          exact hkeys e' he'
      · rw [copyField, if_neg hcopied, List.filter_cons_of_neg (by simpa using hcopied)]
        exact ih hl

/-- Copying changes the module's own table only. -/
theorem tables_copied (H : Heap) {t : Nat} (h : t ≠ X.M) :
    (copied L X H name).tables t = H.tables t := Heap.tables_foldl_set_of_ne h

/-- **A submodule is copied**, or the copying fails. -/
theorem copySubmodule_eq_ok_iff (hname : name ∈ names)
    (hH : H.tables (X.submodule name) = X.heap.tables (X.submodule name)) :
    copySubmodule N L X H name = .ok H' ↔ Fits N X H name ∧ H' = copied L X H name := by
  have hloop : copySubmodule N L X H name
      = (X.heap.tables (X.submodule name)).entries.foldlM
        (fun H e => copyField N L X name H e.1 e.2) H := by
    rw [copySubmodule, ← hH]
    refine Heap.whileNext_eq_foldlM ?_ (Nat.lt_succ_self _)
    intro l₁ l₂ H₁ hl hrun
    have hnodup : l₁.NodupKeys := by
      refine List.NodupKeys.sublist ?_ (H.tables (X.submodule name)).nodupKeys
      rw [← hl]
      exact List.sublist_append_left l₁ l₂
    obtain ⟨-, rfl⟩ := (foldlM_copyField_eq_ok_iff hnodup).mp hrun
    exact Heap.tables_foldl_set_of_ne (submodule_ne_M hname)
  rw [hloop, foldlM_copyField_eq_ok_iff (X.heap.tables (X.submodule name)).nodupKeys]
  rfl

/-- There the copied entries come before what was there. -/
theorem get_copied (H : Heap) (k : LuaValue) : (copied L X H name).get X.M k
    = ((copiedEntries X name).dlookup k).getD (H.get X.M k) :=
  Heap.get_foldl_entries nodupKeys_copiedEntries k

/-- No `nil` is copied. -/
theorem present_copiedEntries (hname : name ∈ names) {e : Entry}
    (he : e ∈ copiedEntries X name) : e.2 ≠ .nil := by
  refine X.present (X.submodule name) ?_ e (List.mem_of_mem_filter he)
  exact List.mem_cons_of_mem _ (submodule_mem hname)

/-- A key is free after a submodule was copied if it was before, and is not copied. -/
theorem get_copied_eq_nil_iff (hname : name ∈ names) (H : Heap) (k : LuaValue) :
    (copied L X H name).get X.M k = .nil ↔
      H.get X.M k = .nil ∧ ∀ e ∈ copiedEntries X name, e.1 ≠ k := by
  rw [get_copied]
  cases hlookup : (copiedEntries X name).dlookup k with
  | none =>
      have hnotMem := List.dlookup_eq_none.mp hlookup
      refine ⟨fun h => ⟨h, fun e he hk => hnotMem ?_⟩, And.left⟩
      exact hk ▸ List.mem_keys_of_mem he
  | some v =>
      have hmem : (⟨k, v⟩ : Entry) ∈ copiedEntries X name := List.of_mem_dlookup hlookup
      constructor
      · intro hnil
        exact absurd hnil (present_copiedEntries hname hmem)
      · rintro ⟨-, hnot⟩
        exact absurd rfl (hnot _ hmem)

/-- A submodule fits after another where it did and the two do not clash. -/
theorem fits_copied_iff {a b : String} (ha : a ∈ names) :
    Fits N X (copied L X H a) b ↔ Fits N X H b ∧ NoClash X a b := by
  constructor
  · intro h
    refine ⟨fun e he => ⟨(h e he).1, ?_⟩, fun e he e' he' => ?_⟩
    · exact ((get_copied_eq_nil_iff ha H e.1).mp (h e he).2).1
    · exact ((get_copied_eq_nil_iff ha H e'.1).mp (h e' he').2).2 e he
  · rintro ⟨hfits, hclash⟩ e he
    refine ⟨(hfits e he).1, (get_copied_eq_nil_iff ha H e.1).mpr ⟨(hfits e he).2, ?_⟩⟩
    exact fun e' he' => hclash e' he' e he

/-- **The first loop** comes to its end exactly if every submodule fits and no two clash. -/
theorem foldlM_copySubmodule_eq_ok_iff {ns : List String} (hns : ∀ n ∈ ns, n ∈ names)
    (hH : ∀ n ∈ names, H.tables (X.submodule n) = X.heap.tables (X.submodule n)) :
    ns.foldlM (copySubmodule N L X) H = .ok H' ↔
      ((∀ n ∈ ns, Fits N X H n) ∧ ns.Pairwise (NoClash X)) ∧ H' = ns.foldl (copied L X) H := by
  induction ns generalizing H with
  | nil =>
      constructor
      · intro hrun
        exact ⟨⟨fun n hn => absurd hn List.not_mem_nil, .nil⟩, (Except.ok.inj hrun).symm⟩
      · rintro ⟨-, rfl⟩
        rfl
  | cons n ns ih =>
      obtain ⟨hn, hns⟩ := List.forall_mem_cons.mp hns
      have htables : ∀ m ∈ names,
          (copied L X H n).tables (X.submodule m) = X.heap.tables (X.submodule m) := fun m hm =>
        (tables_copied H (submodule_ne_M hm)).trans (hH m hm)
      rw [List.foldlM_cons, bind_eq_ok, List.forall_mem_cons, List.pairwise_cons, List.foldl_cons]
      constructor
      · rintro ⟨H₁, hfirst, hrest⟩
        obtain ⟨hfits, rfl⟩ := (copySubmodule_eq_ok_iff hn (hH n hn)).mp hfirst
        obtain ⟨⟨hlater, hpairwise⟩, hH'⟩ := (ih hns htables).mp hrest
        have hboth := fun m hm => (fits_copied_iff hn).mp (hlater m hm)
        exact ⟨⟨⟨hfits, fun m hm => (hboth m hm).1⟩, fun m hm => (hboth m hm).2, hpairwise⟩, hH'⟩
      · rintro ⟨⟨⟨hfits, hlater⟩, hclash, hpairwise⟩, hH'⟩
        refine ⟨_, (copySubmodule_eq_ok_iff hn (hH n hn)).mpr ⟨hfits, rfl⟩,
          (ih hns htables).mpr ⟨⟨fun m hm => ?_, hpairwise⟩, hH'⟩⟩
        exact (fits_copied_iff hn).mpr ⟨hlater m hm, hclash m hm⟩

/-- A key that no submodule has is as it was. -/
theorem get_foldl_copied_of_none {ns : List String}
    (h : ∀ n ∈ ns, (copiedEntries X n).dlookup k = none) (H : Heap) :
    (ns.foldl (copied L X) H).get X.M k = H.get X.M k := by
  induction ns generalizing H with
  | nil => rfl
  | cons n ns ih =>
      obtain ⟨hn, hns⟩ := List.forall_mem_cons.mp h
      rw [List.foldl_cons, ih hns, get_copied, hn, Option.getD_none]

/-- A key of a submodule has its value. -/
theorem get_foldl_copied_of_some {ns : List String} (hclash : ns.Pairwise (NoClash X))
    (hname : name ∈ ns) {v : LuaValue} (h : (copiedEntries X name).dlookup k = some v) (H : Heap) :
    (ns.foldl (copied L X) H).get X.M k = v := by
  induction ns generalizing H with
  | nil => exact absurd hname List.not_mem_nil
  | cons n ns ih =>
      obtain ⟨hn, hpairwise⟩ := List.pairwise_cons.mp hclash
      rw [List.foldl_cons]
      rcases List.mem_cons.mp hname with rfl | hmem
      · -- the submodules after it do not have the key
        have hnone : ∀ m ∈ ns, (copiedEntries X m).dlookup k = none := by
          intro m hm
          refine List.dlookup_eq_none.mpr fun hkey => ?_
          obtain ⟨e, he, hek⟩ := List.mem_map.mp hkey
          exact hn m hm _ (List.of_mem_dlookup h) e he hek.symm
        rw [get_foldl_copied_of_none hnone, get_copied, h, Option.getD_some]
      · exact ih hpairwise hmem _

/-- Copying all of them changes the module's own table only. -/
theorem tables_foldl_copied (ns : List String) (H : Heap) {t : Nat} (h : t ≠ X.M) :
    (ns.foldl (copied L X) H).tables t = H.tables t := by
  induction ns generalizing H with
  | nil => rfl
  | cons n ns ih => rw [List.foldl_cons, ih, tables_copied H h]

/-- It makes no table. -/
theorem size_foldl_copied (ns : List String) (H : Heap) :
    (ns.foldl (copied L X) H).size = H.size := by
  induction ns generalizing H with
  | nil => rfl
  | cons n ns ih => rw [List.foldl_cons, ih, copied, Heap.size_foldl_set]

end Copying

/-! ## The legacy functions take their places -/

section Merging

/-- The value that precedence selects for a key. -/
inductive Selects (X : Loaded) (k : LuaValue) : LuaValue → Prop where
  | compat {v : LuaValue} (h : (X.heap.tables X.compat).lookup k = some v) : Selects X k v
  | deprecated {v : LuaValue} (hcompat : (X.heap.tables X.compat).lookup k = none)
      (h : (X.heap.tables X.deprecated).lookup k = some v) : Selects X k v
  | submodule {v : LuaValue} {name : String}
      (hcompat : (X.heap.tables X.compat).lookup k = none)
      (hdeprecated : (X.heap.tables X.deprecated).lookup k = none)
      (hname : name ∈ names) (hcopied : Copied k)
      (h : (X.heap.tables (X.submodule name)).lookup k = some v) : Selects X k v
  /-- A function of `posix` itself, nil where there is none. -/
  | builtin (hcompat : (X.heap.tables X.compat).lookup k = none)
      (hdeprecated : (X.heap.tables X.deprecated).lookup k = none)
      (hnot : ∀ name ∈ names, Copied k → (X.heap.tables (X.submodule name)).lookup k = none) :
      Selects X k (X.heap.get X.M k)

/-- The keys of the submodules and of `posix` itself do not clash, and can be put into messages. -/
def Clear (N : Numerals) (X : Loaded) : Prop :=
  (∀ name ∈ names, Fits N X X.heap name) ∧ names.Pairwise (NoClash X)

variable (N : Numerals) (L : Layout fun _ : LuaValue => LuaValue) (X : Loaded)

/-- The tables after the entries of another have been put into that of `posix`. -/
def injected (t : Nat) (H : Heap) : Heap :=
  (X.heap.tables t).entries.foldl (fun H e => H.set L X.M e.1 e.2) H

/-- The tables after the first three loops. -/
def merged : Heap :=
  injected L X X.compat (injected L X X.deprecated (names.foldl (copied L X) X.heap))

variable {N L X} {H H' : Heap} {name : String} {k : LuaValue} {t : Nat}

/-- The table of the deprecated functions is another one. -/
theorem deprecated_ne_M : X.deprecated ≠ X.M := by
  intro heq
  exact (List.nodup_cons.mp X.nodup).1 (heq ▸ List.mem_cons_self)

/-- So is the one of `compat`. -/
theorem compat_ne_M : X.compat ≠ X.M := by
  intro heq
  exact (List.nodup_cons.mp X.nodup).1 (heq ▸ List.mem_cons_of_mem _ List.mem_cons_self)

/-- The loop of an injection. -/
theorem inject_eq (ht : t ≠ X.M) (hH : H.tables t = X.heap.tables t) :
    inject L X t H = .ok (injected L X t H) := by
  have hfold : ∀ (l : List Entry) (H : Heap),
      l.foldlM (fun H e => (.ok (H.set L X.M e.1 e.2) : CallM Heap)) H
        = .ok (l.foldl (fun H e => H.set L X.M e.1 e.2) H) := by
    intro l
    induction l with
    | nil => exact fun H => rfl
    | cons e l ih => exact fun H => ih _
  rw [inject, injected, ← hH, Heap.whileNext_eq_foldlM ?_ (Nat.lt_succ_self _)]
  · exact hfold _ _
  · intro l₁ l₂ H₁ _ hrun
    rw [hfold] at hrun
    cases hrun
    exact Heap.tables_foldl_set_of_ne ht

/-- The injected entries come before what was there. -/
theorem get_injected (H : Heap) (k : LuaValue) : (injected L X t H).get X.M k
    = ((X.heap.tables t).lookup k).getD (H.get X.M k) :=
  Heap.get_foldl_entries (X.heap.tables t).nodupKeys k

/-- Injecting changes the module's own table only. -/
theorem tables_injected (H : Heap) {t' : Nat} (h : t' ≠ X.M) :
    (injected L X t H).tables t' = H.tables t' := Heap.tables_foldl_set_of_ne h

/-- What was merged leaves the other tables as they were. -/
theorem tables_merged (h : t ≠ X.M) : (merged L X).tables t = X.heap.tables t := by
  rw [merged, tables_injected _ h, tables_injected _ h, tables_foldl_copied _ _ h]

/-- It makes no table either. -/
theorem size_merged : (merged L X).size = X.heap.size := by
  rw [merged, injected, Heap.size_foldl_set, injected, Heap.size_foldl_set, size_foldl_copied]

/-- A copied entry is one of the submodule's table whose key is copied. -/
theorem dlookup_copiedEntries_eq_some_iff {v : LuaValue} :
    (copiedEntries X name).dlookup k = some v ↔
      Copied k ∧ (X.heap.tables (X.submodule name)).lookup k = some v := by
  rw [AList.lookup, ← Option.mem_def, ← Option.mem_def,
    List.mem_dlookup_iff nodupKeys_copiedEntries,
    List.mem_dlookup_iff (X.heap.tables (X.submodule name)).nodupKeys, copiedEntries,
    List.mem_filter, decide_eq_true_iff]
  exact And.comm

/-- **Precedence**: what the table of `posix` has after the three loops. -/
theorem selects_merged (hclear : names.Pairwise (NoClash X)) (k : LuaValue) :
    Selects X k ((merged L X).get X.M k) := by
  rw [merged, get_injected, get_injected]
  cases hcompat : (X.heap.tables X.compat).lookup k with
  | some v => exact .compat hcompat
  | none =>
      cases hdeprecated : (X.heap.tables X.deprecated).lookup k with
      | some v => exact .deprecated hcompat hdeprecated
      | none =>
          rw [Option.getD_none, Option.getD_none]
          by_cases hsome : ∃ name ∈ names, ∃ v, (copiedEntries X name).dlookup k = some v
          · obtain ⟨name, hname, v, hv⟩ := hsome
            rw [get_foldl_copied_of_some hclear hname hv]
            obtain ⟨hcopied, hlookup⟩ := dlookup_copiedEntries_eq_some_iff.mp hv
            exact .submodule hcompat hdeprecated hname hcopied hlookup
          · have hnone : ∀ name ∈ names, (copiedEntries X name).dlookup k = none := by
              intro name hname
              refine Option.eq_none_iff_forall_ne_some.mpr fun v hv => ?_
              exact hsome ⟨name, hname, v, hv⟩
            rw [get_foldl_copied_of_none hnone]
            refine .builtin hcompat hdeprecated fun name hname hcopied => ?_
            refine Option.eq_none_iff_forall_ne_some.mpr fun v hv => ?_
            exact hsome ⟨name, hname, v, dlookup_copiedEntries_eq_some_iff.mpr ⟨hcopied, hv⟩⟩

end Merging

end LuaPosix.Preloading

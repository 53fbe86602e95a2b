import LuaPosix.Posix.Selection

/-! # `pathconf`

The limits of a path. The legacy function reads all those it has names for into a table, and
selects from it. Its path may be left out: a first argument that is the name of a limit is taken
for one. -/

namespace LuaPosix.Pathconf

open LuaPattern (LStr)
open Traversal (Layout)
open Heap (fieldName fieldOf)
open Deprecated (names Room doselection checkselection field FieldMap Pointwise)

/-- The call of the C library. -/
inductive Call where
  | pathconf (path : LStr) (name : Int)
  deriving DecidableEq, Repr

/-- What the rest of the system answers, in a state of its own. -/
structure System (σ : Type) where
  num : Numerals
  pathconf : (path : LStr) → (name : Int) → σ → SysResult 64 × σ

/-- `PC_LINK_MAX`. -/
def PC_LINK_MAX : LuaInteger := 0

/-- `PC_MAX_CANON`. -/
def PC_MAX_CANON : LuaInteger := 1

/-- `PC_MAX_INPUT`. -/
def PC_MAX_INPUT : LuaInteger := 2

/-- `PC_NAME_MAX`. -/
def PC_NAME_MAX : LuaInteger := 3

/-- `PC_PATH_MAX`. -/
def PC_PATH_MAX : LuaInteger := 4

/-- `PC_PIPE_BUF`. -/
def PC_PIPE_BUF : LuaInteger := 5

/-- `PC_CHOWN_RESTRICTED`. -/
def PC_CHOWN_RESTRICTED : LuaInteger := 6

/-- `PC_NO_TRUNC`. -/
def PC_NO_TRUNC : LuaInteger := 7

/-- `PC_VDISABLE`. -/
def PC_VDISABLE : LuaInteger := 8

/-- The names of limits. -/
def Spathconf : List (String × LuaInteger) :=
  [("CHOWN_RESTRICTED", PC_CHOWN_RESTRICTED), ("LINK_MAX", PC_LINK_MAX),
    ("MAX_CANON", PC_MAX_CANON), ("MAX_INPUT", PC_MAX_INPUT), ("NAME_MAX", PC_NAME_MAX),
    ("NO_TRUNC", PC_NO_TRUNC), ("PATH_MAX", PC_PATH_MAX), ("PIPE_BUF", PC_PIPE_BUF),
    ("VDISABLE", PC_VDISABLE)]

/-- An order in which `next` visits the table of these names. -/
abbrev Order := { l : List (String × LuaInteger) // l.Perm Spathconf }

/-- `path ~= nil and Spathconf[path] ~= nil`. -/
def isKey : LuaValue → Bool
  | .string s => (Spathconf.lookup (String.ofList s)).isSome
  | _ => false

section Model

variable {σ : Type} (S : System σ) (Λ : Length) (L : Layout fun _ : LuaValue => LuaValue)
  (room : Room) (order : Order) (args : List LuaValue)

/-- `pathconf(path, key)` of `posix.unistd`. -/
def Ppathconf : BindingM σ Call (List LuaValue) := do
  let path ← liftM (cstring <$> checklstring args S.num.numberText 1)
  checknargs args 2
  let name ← checkint S.num.strtod args 2
  let x ← BindingM.syscall (.pathconf path name) SysResult.errno (S.pathconf path name)
  return [.integer x.value]

/-- `map[k] = pathconf(path or '.', v)`. -/
def readLimit (path : LuaValue) (map : Nat) (f : String × LuaInteger) : BindingM σ Call PUnit := do
  let results ← Ppathconf S [path.or (.string ['.']), .integer f.2]
  BindingM.settable L (.table map) (fieldName f.1) (first results)

/-- `path, argt = '.', {path, ...}` if the first argument is a name: the path from there on. -/
def pathArgument : BindingM σ Call LuaValue :=
  if isKey (first args) then do
    let _ ← BindingM.pack L (first args :: args.tail)
    return .string ['.']
  else return first args

/-- Legacy `pathconf(path, ...)`. Its `argt` is not used again. -/
def pathconf : BindingM σ Call (List LuaValue) := do
  let _ ← BindingM.pack L args.tail
  let map ← BindingM.pack L []
  let path ← pathArgument L args
  order.1.forM (readLimit S L path map)
  let fields ← BindingM.pack L args.tail
  BindingM.read fun H => doselection S.num Λ H room "pathconf" 1 fields map

/-- The checks of arguments. -/
def checkArguments : BindingM σ Call Unit :=
  if isKey (first args) then do
    let fields ← BindingM.pack L (first args :: args.tail)
    BindingM.read fun H => checkselection Λ H "pathconf" 1 fields
  else do
    -- what it returns is not used
    let _ ← liftM (Deprecated.optstring "pathconf" 1 (first args) ['.'])
    let fields ← BindingM.pack L args.tail
    BindingM.read fun H => checkselection Λ H "pathconf" 2 fields

/-- Legacy `pathconf(path, ...)`, where arguments are checked. -/
def pathconfChecked : BindingM σ Call (List LuaValue) := do
  checkArguments Λ L args
  pathconf S Λ L room order args

end Model

/-! ## The limits of a path -/

/-- What the system answers for the names of a list, one after the other. -/
def limits {σ : Type} (S : System σ) (path : LStr) :
    List (String × LuaInteger) → σ → List (String × LuaValue)
  | [], _ => []
  | f :: l, s =>
      (f.1, .integer (S.pathconf path (toInt f.2) s).1.value) ::
        limits S path l (S.pathconf path (toInt f.2) s).2

/-- A table of these fields, and no others. -/
structure ShowsAll (H : Heap) (map : Nat) (fields : List (String × LuaValue)) : Prop where
  get : ∀ f ∈ fields, H.get map (fieldName f.1) = f.2
  key : ∀ k ∈ H.tables map, ∃ f ∈ fields, k = fieldName f.1

section Limits

variable {σ : Type} {S : System σ} {L : Layout fun _ : LuaValue => LuaValue}
  {path : LStr} {l : List (String × LuaInteger)} {s : σ} {H : Heap} {map : Nat}

/-- The fields of the map are named as the limits are. -/
theorem names_limits : (limits S path l s).map Prod.fst = l.map Prod.fst := by
  induction l generalizing s with
  | nil => rfl
  | cons f l ih => exact congrArg (f.1 :: ·) ih

/-- Each of them is an integer. -/
theorem integer_of_mem_limits {f : String × LuaValue} (h : f ∈ limits S path l s) :
    ∃ d, f.2 = .integer d := by
  induction l generalizing s with
  | nil => exact absurd h List.not_mem_nil
  | cons g l ih =>
      rcases List.mem_cons.mp h with rfl | h
      · exact ⟨_, rfl⟩
      · exact ih h

/-- The world after the round for a name. -/
def afterLimit (S : System σ) (L : Layout fun _ : LuaValue => LuaValue) (path : LStr) (map : Nat)
    (f : String × LuaInteger) (w : World σ Call) : World σ Call where
  errno := (S.pathconf path (toInt f.2) w.sys).1.errno
  heap := w.heap.set L map (fieldName f.1)
    (.integer (S.pathconf path (toInt f.2) w.sys).1.value)
  sys := (S.pathconf path (toInt f.2) w.sys).2
  calls := w.calls ++ [.pathconf path (toInt f.2)]

/-- One round of the loop stores one limit in the map. -/
theorem run_readLimit {v : LuaValue} {w : World σ Call} (hv : v.or (.string ['.']) = .string path)
    (f : String × LuaInteger) : (readLimit S L v map f).run w
      = .ok () (afterLimit S L (cstring path) map f w) := by
  rw [readLimit, hv]
  rfl

variable (S L l map) in
/-- The loop calls the system for every name, and puts its answers in the table. -/
theorem run_readLimits {v : LuaValue} {w : World σ Call}
    (hv : v.or (.string ['.']) = .string path) :
    ∃ w', (l.forM (readLimit S L v map)).run w = .ok () w' ∧
      w'.heap = (limits S (cstring path) l w.sys).foldl
        (fun H f => H.set L map (fieldName f.1) f.2) w.heap ∧
      w'.calls = w.calls ++ l.map fun f => .pathconf (cstring path) (toInt f.2) := by
  induction l generalizing w with
  | nil => exact ⟨w, rfl, rfl, (List.append_nil _).symm⟩
  | cons f l ih =>
      obtain ⟨w', hrun, hheap, hcalls⟩ := ih (w := afterLimit S L (cstring path) map f w)
      refine ⟨w', ?_, hheap, by rw [hcalls, afterLimit, List.append_assoc]; rfl⟩
      rw [List.forM_eq_forM, List.forM_cons, BindingM.run_bind_of_ok (run_readLimit hv f)]
      exact hrun

/-- The table shows them. -/
theorem showsAll_limits (hnodup : (l.map Prod.fst).Nodup) (hempty : H.tables map = ∅) :
    ShowsAll ((limits S path l s).foldl (fun H f => H.set L map (fieldName f.1) f.2) H) map
      (limits S path l s) where
  get f hf := by
    refine Heap.get_foldl_set (fun g hg hname => ?_) (.inl hf)
    have hfirst : ((limits S path l s).map Prod.fst).Nodup := by rwa [names_limits]
    rw [List.inj_on_of_nodup_map hfirst hg hf (Heap.fieldName_injective hname)]
  key k hk := by
    rcases Heap.mem_foldl_set hk with hmem | hmem
    · rw [hempty] at hmem
      exact absurd hmem (AList.notMem_empty k)
    · exact hmem

/-- A table of limits has no false values. -/
theorem ShowsAll.fieldMap {fields : List (String × LuaValue)} (h : ShowsAll H map fields)
    (hint : ∀ f ∈ fields, ∃ d, f.2 = .integer d) : FieldMap H map := by
  intro k hk
  have hlookup := Heap.lookup_of_get hk LuaValue.noConfusion
  obtain ⟨f, hf, rfl⟩ := h.key k (AList.lookup_isSome.mp (Option.isSome_of_eq_some hlookup))
  obtain ⟨d, hd⟩ := hint f hf
  have hget := h.get f hf
  rw [hk, hd] at hget
  cases hget

end Limits

/-! ## Runs -/

section Runs

variable {σ : Type} {S : System σ} {Λ : Length} {L : Layout fun _ : LuaValue => LuaValue}
  {room : Room} {order : Order} {args : List LuaValue} {w : World σ Call} {path : LStr}

/-- The path that `pathconf` looks at. -/
def pathValue (args : List LuaValue) : LuaValue :=
  if isKey (first args) then .string ['.'] else first args

/-- Tables that were there are left alone. -/
def Extends (H H' : Heap) : Prop := H.size ≤ H'.size ∧ ∀ t < H.size, H'.tables t = H.tables t

/-- A heap that extends an extension extends the first. -/
theorem Extends.trans {H H' H'' : Heap} (h : Extends H H') (h' : Extends H' H'') :
    Extends H H'' :=
  ⟨Nat.le_trans h.1 h'.1, fun t ht => (h'.2 t (Nat.lt_of_lt_of_le ht h.1)).trans (h.2 t ht)⟩

/-- A pack only adds a table. -/
theorem extends_pack {H : Heap} {vs : List LuaValue} : Extends H (H.pack L vs).2 := by
  refine ⟨?_, fun t ht => Heap.tables_pack_of_ne (Nat.ne_of_lt ht)⟩
  rw [Heap.size_pack]
  exact Nat.le_succ _

variable (L args w) in
/-- Reading the path only adds tables. -/
theorem run_pathArgument : ∃ H', (pathArgument L args).run w
    = .ok (pathValue args) { w with heap := H' } ∧ Extends w.heap H' := by
  rw [pathArgument, pathValue]
  split_ifs with hkey
  · exact ⟨_, rfl, extends_pack⟩
  · exact ⟨_, rfl, Nat.le_refl _, fun t ht => rfl⟩

variable (S Λ L room order) in
/-- **A run of `pathconf`** reads the limits and selects from them. -/
theorem run_pathconf (hpath : (pathValue args).or (.string ['.']) = .string path)
    (hargs : Indexable args.tail) (hnil : .nil ∉ args.tail) :
    ∃ w' map fields, (pathconf S Λ L room order args).run w
        = (liftM (doselection S.num Λ w'.heap room "pathconf" 1 fields map) :
            BindingM σ Call (List LuaValue)).run w' ∧
      w'.calls = w.calls ++ order.1.map (fun f => .pathconf (cstring path) (toInt f.2)) ∧
      ShowsAll w'.heap map (limits S (cstring path) order.1 w.sys) ∧
      w'.heap.Holds fields args.tail ∧ Extends w.heap w'.heap := by
  have hnodup : (order.1.map Prod.fst).Nodup :=
    (order.2.map Prod.fst).nodup_iff.mpr (by decide)
  let H₁ := (w.heap.pack L args.tail).2
  let H₂ := (H₁.pack L []).2
  have hempty₂ : H₂.tables H₁.size = ∅ := Function.update_self _ _ _
  have hsize₁ : H₁.size = w.heap.size + 1 := Heap.size_pack
  have hsize₂ : H₂.size = H₁.size + 1 := Heap.size_pack
  have hlt : H₁.size < H₂.size := Nat.lt_of_lt_of_eq (Nat.lt_succ_self _) hsize₂.symm
  obtain ⟨H₃, hargument, hextends₃⟩ := run_pathArgument L args { w with heap := H₂ }
  have hempty₃ : H₃.tables H₁.size = ∅ := (hextends₃.2 _ hlt).trans hempty₂
  obtain ⟨w₄, hloop, hheap₄, hcalls₄⟩ :=
    run_readLimits S L order.1 H₁.size (w := { w with heap := H₃ }) hpath
  have hshows₄ : ShowsAll w₄.heap H₁.size (limits S (cstring path) order.1 w.sys) := by
    rw [hheap₄]
    exact showsAll_limits hnodup hempty₃
  have hsize₄ : w₄.heap.size = H₃.size := by
    rw [hheap₄, Heap.size_foldl_set]
  have hextends₄ : Extends w.heap w₄.heap := by
    have hextends : Extends w.heap H₃ := (extends_pack.trans extends_pack).trans hextends₃
    refine ⟨by rw [hsize₄]; exact hextends.1, fun t ht => ?_⟩
    have hne : t ≠ H₁.size := by omega
    rw [hheap₄, Heap.tables_foldl_set_of_ne hne]
    exact hextends.2 t ht
  have hmap : H₁.size ≠ w₄.heap.size := by
    have hle : H₂.size ≤ H₃.size := hextends₃.1
    omega
  refine ⟨{ w₄ with heap := (w₄.heap.pack L args.tail).2 }, H₁.size, w₄.heap.size, ?_, hcalls₄,
    ⟨fun f hf => ?_, fun k hk => ?_⟩, Heap.holds_pack hargs hnil,
    hextends₄.trans extends_pack⟩
  · rw [pathconf, BindingM.run_bind_of_ok (BindingM.run_pack w L args.tail),
      BindingM.run_bind_of_ok (BindingM.run_pack _ L []), BindingM.run_bind_of_ok hargument,
      BindingM.run_bind_of_ok hloop, BindingM.run_bind_of_ok (BindingM.run_pack w₄ L args.tail)]
    rfl
  · rw [Heap.get_pack_of_ne hmap]
    exact hshows₄.get f hf
  · rw [Heap.tables_pack_of_ne hmap] at hk
    exact hshows₄.key k hk

end Runs

/-! ## Calling forms -/

/-- An argument that may be left out. -/
def optional : Option LStr → LuaValue
  | none => .nil
  | some p => .string p

/-- How the names of limits are passed: one by one or in a table, after a path that may be left out;
or without a path. -/
inductive Form where
  | separate (path : Option LStr)
  | listed (path : Option LStr) (t : Nat)
  | bare

namespace Form

/-- The arguments of a call. -/
def args (ks : List LStr) : Form → List LuaValue
  | separate path => optional path :: names ks
  | listed path t => [optional path, .table t]
  | bare => names ks

/-- The path whose limits are asked for. -/
def path : Form → LStr
  | separate path | listed path _ => path.getD ['.']
  | bare => ['.']

/-- A table of the names, where they are in a table. -/
def Valid (H : Heap) (ks : List LStr) : Form → Prop
  | separate _ | bare => True
  | listed _ t => t < H.size ∧ H.Holds t (names ks)

end Form

/-- The limits of these names are returned in their order, or a table of all limits for no
names. -/
def Selects {σ : Type} (S : System σ) (order : Order) (path : LStr) (ks : List LStr)
    (w : World σ Call) (x : BindingM σ Call (List LuaValue)) : Prop :=
  ∃ results w', x.run w = .ok results w' ∧
    w'.calls = w.calls ++ order.1.map (fun f => .pathconf (cstring path) (toInt f.2)) ∧
    (ks = [] → ∃ map, results = [.table map] ∧
      ShowsAll w'.heap map (limits S (cstring path) order.1 w.sys)) ∧
    (ks ≠ [] → results = ks.map fun k =>
      fieldOf (limits S (cstring path) order.1 w.sys) (String.ofList k))

section Forms

variable {σ : Type} {S : System σ} {Λ : Length} {L : Layout fun _ : LuaValue => LuaValue}
  {room : Room} {order : Order} {args : List LuaValue} {w : World σ Call} {path : LStr}
  {ks : List LStr} {k : LStr} {H : Heap} {map : Nat} {s : σ} {form : Form} {o : Option LStr}

variable (S order path s)

/-- A name has a limit, which is an integer. -/
theorem exists_limit (hk : isKey (.string k) = true) :
    ∃ f ∈ limits S path order.1 s, f.1 = String.ofList k := by
  have hmem : String.ofList k ∈ Spathconf.map Prod.fst := by
    obtain ⟨f, hf, hname⟩ := List.lookup_isSome_iff.mp hk
    exact List.mem_map.mpr ⟨f, hf, (beq_iff_eq.mp hname).symm⟩
  have horder : String.ofList k ∈ (limits S path order.1 s).map Prod.fst := by
    rw [names_limits]
    exact (order.2.map Prod.fst).mem_iff.mpr hmem
  exact List.mem_map.mp horder

/-- No limit is stored twice. -/
theorem nodup_limits : ((limits S path order.1 s).map Prod.fst).Nodup := by
  rw [names_limits]
  exact (order.2.map Prod.fst).nodup_iff.mpr (by decide)

/-- A limit that the map has is an integer. -/
theorem fieldOf_limits (hk : isKey (.string k) = true) :
    ∃ d, fieldOf (limits S path order.1 s) (String.ofList k) = .integer d := by
  obtain ⟨f, hf, hname⟩ := exists_limit S order path s hk
  rw [← hname, Heap.fieldOf_of_mem (nodup_limits S order path s) hf]
  exact integer_of_mem_limits hf

variable {S order path s}

/-- The field of a name in a table that shows the limits. -/
theorem field_limits (h : ShowsAll H map (limits S path order.1 s))
    (hk : isKey (.string k) = true) :
    field H map k = fieldOf (limits S path order.1 s) (String.ofList k) := by
  obtain ⟨f, hf, hname⟩ := exists_limit S order path s hk
  have hfield : LuaValue.string k = fieldName f.1 := by
    rw [fieldName, hname, String.toList_ofList]
  rw [field, hfield, h.get f hf, ← hname,
    Heap.fieldOf_of_mem (nodup_limits S order path s) hf]

/-- Names after the first argument, one by one or in a table. -/
def Names (H : Heap) (ks : List LStr) (vs : List LuaValue) : Prop :=
  vs = names ks ∨ ∃ t < H.size, H.Holds t (names ks) ∧ vs = [.table t]

/-- **Names after the first argument** are the ones selected. -/
theorem selects_tail (hpath : (pathValue args).or (.string ['.']) = .string path)
    (htail : Names w.heap ks args.tail) (hroom : ks.length ≤ room)
    (hknown : ∀ k ∈ ks, isKey (.string k) = true) :
    Selects S order path ks w (pathconf S Λ L room order args) := by
  have hargs : Indexable args.tail ∧ .nil ∉ args.tail := by
    rcases htail with hnames | ⟨t, -, -, htable⟩
    · rw [hnames]
      exact ⟨Deprecated.indexable_names hroom, Deprecated.nil_notMem_names⟩
    · rw [htable]
      exact ⟨indexable_singleton _, Deprecated.nil_notMem_table⟩
  obtain ⟨w', map, fields, hrun, hcalls, hshows, hholds, hextends⟩ :=
    run_pathconf S Λ L room order hpath hargs.1 hargs.2
  have hmap : FieldMap w'.heap map := hshows.fieldMap fun f hf => integer_of_mem_limits hf
  have hpointwise : Pointwise w'.heap "pathconf" 1 map ks
      (doselection S.num Λ w'.heap room "pathconf" 1 fields map) := by
    rcases htail with hnames | ⟨t, ht, hlist, htable⟩
    · rw [hnames] at hholds
      exact Deprecated.doselection_of_names hmap hroom
        (Deprecated.namesTable_of_names hholds) hholds
    · rw [htable] at hholds
      have hlist' : w'.heap.Holds t (names ks) := by
        rwa [Heap.Holds, hextends.2 t ht]
      exact Deprecated.doselection_of_names hmap hroom
        (Deprecated.namesTable_of_table hholds) hlist'
  rw [Selects, hrun]
  by_cases hnil : ks = []
  · refine ⟨_, w', by rw [hpointwise.all hnil]; rfl, hcalls, fun _ => ⟨map, rfl, hshows⟩,
      fun hne => absurd hnil hne⟩
  · have hfields : ∀ k ∈ ks, field w'.heap map k ≠ .nil := by
      intro k hk hfield
      obtain ⟨d, hd⟩ := fieldOf_limits S order (cstring path) w.sys (hknown k hk)
      rw [field_limits hshows (hknown k hk), hd] at hfield
      cases hfield
    refine ⟨_, w', by rw [hpointwise.values hnil hfields]; rfl, hcalls,
      fun h => absurd h hnil, fun _ => ?_⟩
    exact List.map_congr_left fun k hk => field_limits hshows (hknown k hk)

/-- What is selected tells how many names there are. -/
theorem Selects.not_cons {x : BindingM σ Call (List LuaValue)} (h : Selects S order path ks w x)
    (hk : isKey (.string k) = true) {path' : LStr} : ¬Selects S order path' (k :: ks) w x := by
  rintro ⟨results', w'', hrun', -, -, hresults'⟩
  obtain ⟨results, w', hrun, -, hall, hresults⟩ := h
  have hsame : results = results' := by
    rw [hrun] at hrun'
    cases hrun'
    rfl
  rw [hresults' (List.cons_ne_nil k ks)] at hsame
  by_cases hnil : ks = []
  · obtain ⟨map, htable, -⟩ := hall hnil
    obtain ⟨d, hd⟩ := fieldOf_limits S order (cstring path') w.sys hk
    rw [htable, hnil, List.map_singleton, hd] at hsame
    cases hsame
  · have hlength := congrArg List.length hsame
    rw [hresults hnil, List.length_map, List.length_map, List.length_cons] at hlength
    omega

/-- An argument left out is the default path. -/
theorem optional_or : (optional o).or (.string ['.']) = .string (o.getD ['.']) := by
  cases o with
  | none => rfl
  | some p => rfl

/-- A name of a limit is no path that stands for the working directory. -/
theorem cstring_ne_dot (h : isKey (.string k) = true) : cstring k ≠ ['.'] := by
  have hall : ∀ f ∈ Spathconf, cstring f.1.toList ≠ ['.'] := by decide
  obtain ⟨f, hf, hname⟩ := List.lookup_isSome_iff.mp h
  have hk : k = f.1.toList := by
    rw [← beq_iff_eq.mp hname, String.toList_ofList]
  rw [hk]
  exact hall f hf

/-- **A name in place of the path** has the limits of the working directory read, not those of the
path. -/
theorem not_selects_of_key (hkey : isKey (first args) = true) (hargs : Indexable args.tail)
    (hnil : .nil ∉ args.tail) (hne : cstring path ≠ ['.']) :
    ¬Selects S order path ks w (pathconf S Λ L room order args) := by
  have hdot : (pathValue args).or (.string ['.']) = .string ['.'] := by
    rw [pathValue, hkey]
    rfl
  obtain ⟨w', map, fields, hrun, hcalls, -⟩ :=
    run_pathconf S Λ L room order hdot hargs hnil
  rintro ⟨results, w'', hselects, hcalls', -⟩
  rw [hrun] at hselects
  have hworld : w'' = w' := by
    cases hdo : doselection S.num Λ w'.heap room "pathconf" 1 fields map with
    | error e =>
        rw [hdo] at hselects
        cases hselects
    | ok r =>
        rw [hdo] at hselects
        cases hselects
        rfl
  rw [hworld, hcalls] at hcalls'
  have hmap := List.append_cancel_left hcalls'
  obtain ⟨f, hf⟩ : ∃ f, f ∈ order.1 :=
    ⟨("LINK_MAX", PC_LINK_MAX), order.2.mem_iff.mpr (by decide)⟩
  have hcall := List.map_inj_left.mp hmap f hf
  exact hne (Call.pathconf.inj hcall).1.symm

/-- The path of the separate form is the first argument. -/
theorem pathValue_cons (h : isKey (optional o) = false) (vs : List LuaValue) :
    (pathValue (optional o :: vs)).or (.string ['.']) = .string (o.getD ['.']) := by
  rw [pathValue, first_cons, h]
  exact optional_or

/-- **Without checks**, the limits are selected if and only if the first argument names none. -/
theorem pathconf_selects_iff (hvalid : form.Valid w.heap ks) (hroom : ks.length ≤ room)
    (hknown : ∀ k ∈ ks, isKey (.string k) = true) :
    Selects S order form.path ks w (pathconf S Λ L room order (form.args ks)) ↔
      isKey (first (form.args ks)) = false := by
  have hne (o : Option LStr) (ho : isKey (optional o) = true) : cstring (o.getD ['.']) ≠ ['.'] := by
    cases o with
    | none => cases ho
    | some p => exact cstring_ne_dot ho
  cases form with
  | separate o =>
      cases ho : isKey (optional o) with
      | false => exact iff_of_true (selects_tail (pathValue_cons ho _) (.inl rfl) hroom hknown) ho
      | true =>
          refine iff_of_false (not_selects_of_key ho (Deprecated.indexable_names hroom)
            Deprecated.nil_notMem_names (hne o ho)) ?_
          exact ne_false_of_eq_true ho
  | listed o t =>
      cases ho : isKey (optional o) with
      | false =>
          exact iff_of_true (selects_tail (pathValue_cons ho _)
            (.inr ⟨t, hvalid.1, hvalid.2, rfl⟩) hroom hknown) ho
      | true =>
          refine iff_of_false (not_selects_of_key ho (indexable_singleton _)
            Deprecated.nil_notMem_table (hne o ho)) ?_
          exact ne_false_of_eq_true ho
  | bare =>
      cases ks with
      | nil => exact iff_of_true (selects_tail rfl (.inl rfl) hroom hknown) rfl
      | cons k ks =>
          obtain ⟨hk, hks⟩ := List.forall_mem_cons.mp hknown
          have hdot : (pathValue (names (k :: ks))).or (.string ['.']) = .string ['.'] := by
            have hfirst : first (names (k :: ks)) = .string k := rfl
            rw [pathValue, hfirst, hk]
            rfl
          -- The first name is lost.
          have htail : Selects S order ['.'] ks w
              (pathconf S Λ L room order (Form.args (k :: ks) .bare)) :=
            selects_tail hdot (.inl rfl) (Nat.le_of_succ_le hroom) hks
          exact iff_of_false (htail.not_cons hk) (ne_false_of_eq_true hk)

/-! ## Checked arguments -/

/-- The checks pass where those of the path and of the selection do. -/
theorem run_checkArguments_of_path {path : LStr} (hkey : isKey (first args) = false)
    (hpath : Deprecated.optstring "pathconf" 1 (first args) ['.'] = .ok path)
    (hcheck : checkselection Λ (w.heap.pack L args.tail).2 "pathconf" 2 w.heap.size = .ok ()) :
    (checkArguments Λ L args).run w
      = .ok () { w with heap := (w.heap.pack L args.tail).2 } := by
  rw [checkArguments, hkey, hpath]
  show (liftM (checkselection Λ (w.heap.pack L args.tail).2 "pathconf" 2 w.heap.size) :
    BindingM σ Call Unit).run { w with heap := (w.heap.pack L args.tail).2 } = _
  rw [hcheck]
  rfl

/-- A path that is missing is the current directory. -/
theorem optstring_optional :
    Deprecated.optstring "pathconf" 1 (optional o) ['.'] = .ok (o.getD ['.']) := by
  cases o with
  | none => rfl
  | some p => rfl

/-- **The checks refuse no path**, and leave the tables alone. -/
theorem run_checkArguments (hroom : ks.length ≤ room)
    (hfirst : isKey (first (form.args ks)) = false) :
    ∃ H', (checkArguments Λ L (form.args ks)).run w = .ok () { w with heap := H' } ∧
      Extends w.heap H' := by
  have hnames (ks' : List LStr) (hle : ks'.length ≤ room) :
      checkselection Λ (w.heap.pack L (names ks')).2 "pathconf" 2 w.heap.size = .ok () :=
    Deprecated.checkselection_of_names hle
      (Heap.holds_pack (Deprecated.indexable_names hle) Deprecated.nil_notMem_names)
  cases form with
  | separate o =>
      exact ⟨_, run_checkArguments_of_path hfirst optstring_optional (hnames ks hroom),
        extends_pack⟩
  | listed o t =>
      have htable : (w.heap.pack L [.table t]).2.Holds w.heap.size [.table t] :=
        Heap.holds_pack (indexable_singleton _) Deprecated.nil_notMem_table
      exact ⟨_, run_checkArguments_of_path hfirst optstring_optional
        (Deprecated.checkselection_of_table htable), extends_pack⟩
  | bare =>
      cases ks with
      | nil => exact ⟨_, run_checkArguments_of_path rfl rfl (hnames [] hroom), extends_pack⟩
      | cons k ks =>
          exact ⟨_, run_checkArguments_of_path hfirst rfl (hnames ks (Nat.le_of_succ_le hroom)),
            extends_pack⟩

variable (Λ L args w) in
/-- They refuse the arguments, or make a table. -/
theorem checkArguments_cases :
    (∃ e w', (checkArguments Λ L args).run w = .error e w') ∨
    ∃ H', (checkArguments Λ L args).run w = .ok () { w with heap := H' } ∧
      Extends w.heap H' := by
  have hread (vs : List LuaValue) (argi : Nat) :
      (∃ e w', (do
        let fields ← BindingM.pack L vs
        BindingM.read fun H => checkselection Λ H "pathconf" argi fields :
          BindingM σ Call Unit).run w = .error e w') ∨
      ∃ H', (do
        let fields ← BindingM.pack L vs
        BindingM.read fun H => checkselection Λ H "pathconf" argi fields :
          BindingM σ Call Unit).run w = .ok () { w with heap := H' } ∧ Extends w.heap H' := by
    rw [BindingM.run_bind_of_ok (BindingM.run_pack w L vs), BindingM.run_read]
    cases checkselection Λ (w.heap.pack L vs).2 "pathconf" argi w.heap.size with
    | error e => exact .inl ⟨e, _, rfl⟩
    | ok a => exact .inr ⟨_, rfl, extends_pack⟩
  rw [checkArguments]
  split_ifs
  · exact hread _ 1
  · cases Deprecated.optstring "pathconf" 1 (first args) ['.'] with
    | error e => exact .inl ⟨e, w, rfl⟩
    | ok a => exact hread args.tail 2

/-- More tables make a calling form no less valid. -/
theorem Form.Valid.extends (hvalid : form.Valid H ks) {H' : Heap} (h : Extends H H') :
    form.Valid H' ks := by
  cases form with
  | separate o => trivial
  | listed o t =>
      refine ⟨Nat.lt_of_lt_of_le hvalid.1 h.1, ?_⟩
      rw [Heap.Holds, h.2 t hvalid.1]
      exact hvalid.2
  | bare => trivial

/-- **With checks**, too. -/
theorem pathconfChecked_selects_iff (hvalid : form.Valid w.heap ks) (hroom : ks.length ≤ room)
    (hknown : ∀ k ∈ ks, isKey (.string k) = true) :
    Selects S order form.path ks w (pathconfChecked S Λ L room order (form.args ks)) ↔
      isKey (first (form.args ks)) = false := by
  have hafter {H' : Heap} (hextends : Extends w.heap H')
      (hcheck : (checkArguments Λ L (form.args ks)).run w = .ok () { w with heap := H' }) :
      Selects S order form.path ks w (pathconfChecked S Λ L room order (form.args ks)) ↔
        isKey (first (form.args ks)) = false := by
    rw [Selects, pathconfChecked, BindingM.run_bind_of_ok hcheck]
    exact pathconf_selects_iff (w := { w with heap := H' }) (hvalid.extends hextends) hroom hknown
  cases hfirst : isKey (first (form.args ks)) with
  | false =>
      obtain ⟨H', hcheck, hextends⟩ :=
        run_checkArguments (Λ := Λ) (L := L) (w := w) hroom hfirst
      rw [hafter hextends hcheck, hfirst]
  | true =>
      rcases checkArguments_cases Λ L (form.args ks) w
        with ⟨e, w', hcheck⟩ | ⟨H', hcheck, hextends⟩
      · refine iff_of_false ?_ Bool.noConfusion
        rintro ⟨results, w'', hrun, -⟩
        rw [pathconfChecked, EStateM.run_bind, hcheck] at hrun
        cases hrun
      · rw [hafter hextends hcheck, hfirst]

/-- **`pathconf` selects the requested limits if and only if** its first argument is not the name of
a limit. -/
theorem pathconf_selects (form : Form) (hvalid : form.Valid w.heap ks) (hroom : ks.length ≤ room)
    (hknown : ∀ k ∈ ks, isKey (.string k) = true) :
    (Selects S order form.path ks w (pathconf S Λ L room order (form.args ks)) ↔
      isKey (first (form.args ks)) = false) ∧
    (Selects S order form.path ks w (pathconfChecked S Λ L room order (form.args ks)) ↔
      isKey (first (form.args ks)) = false) :=
  ⟨pathconf_selects_iff hvalid hroom hknown, pathconfChecked_selects_iff hvalid hroom hknown⟩

end Forms

/-! ## A small instance -/

/-- A system that answers for each name with its number. -/
def System.numbered : System Unit where
  num := .zero
  pathconf _ name s := (.returned (BitVec.ofInt 64 name) 0, s)

/-- The order in which the names are listed. -/
def Order.listed : Order := ⟨Spathconf, .refl _⟩

/-- `"NAME_MAX"` and `"PIPE_BUF"`. -/
def twoNames : List LStr := ["NAME_MAX".toList, "PIPE_BUF".toList]

/-- The two names of limits of `tmp` are selected, with the checks and without. -/
theorem pathconf_selects_tmp :
    (Selects .numbered .listed ['t', 'm', 'p'] twoNames .start
        (pathconf .numbered .last Heap.newestFirst 250 .listed
          ((Form.separate (some ['t', 'm', 'p'])).args twoNames)) ↔
      isKey (first ((Form.separate (some ['t', 'm', 'p'])).args twoNames)) = false) ∧
    (Selects .numbered .listed ['t', 'm', 'p'] twoNames .start
        (pathconfChecked .numbered .last Heap.newestFirst 250 .listed
          ((Form.separate (some ['t', 'm', 'p'])).args twoNames)) ↔
      isKey (first ((Form.separate (some ['t', 'm', 'p'])).args twoNames)) = false) :=
  pathconf_selects (.separate (some ['t', 'm', 'p'])) trivial (by decide) (by decide)

/-- Without a path the first name is lost: one value is returned for two names. -/
theorem first_name_lost :
    (∃ w', (pathconf .numbered .last Heap.newestFirst 250 .listed (names twoNames)).run .start
      = .ok [.integer 5] w') ∧
    ¬Selects .numbered .listed ['.'] twoNames .start
      (pathconf .numbered .last Heap.newestFirst 250 .listed (names twoNames)) := by
  have hdot : (pathValue (names twoNames)).or (.string ['.']) = .string ['.'] := by decide
  have htail : Selects .numbered .listed ['.'] ["PIPE_BUF".toList] .start
      (pathconf .numbered .last Heap.newestFirst 250 .listed (names twoNames)) :=
    selects_tail hdot (.inl rfl) (by decide) (by decide)
  refine ⟨?_, htail.not_cons (by decide)⟩
  obtain ⟨results, w', hrun, -, -, hresults⟩ := htail
  have hvalue : ["PIPE_BUF".toList].map (fun k => fieldOf
      (limits .numbered (cstring ['.']) Order.listed.1 ()) (String.ofList k)) = [.integer 5] := by
    decide
  exact ⟨w', by rw [hrun, hresults (List.cons_ne_nil _ _), ← hvalue]⟩

end LuaPosix.Pathconf

import LuaPosix.Base.Mode
import LuaPosix.Lua.Expressions
import LuaPosix.Lua.Sequence

/-! # Fields by name in `posix.deprecated`

A legacy function with a table of fields to return hands it to `doselection`, with the names its
caller asked for: they are arguments of their own, or listed in a table. `checkselection` checks
them beforehand where arguments are checked. -/

namespace LuaPosix.Deprecated

open LuaPattern (LStr)

/-! ## Checks of arguments -/

section Arguments

variable {α : Type} (name : String) (i : Nat)

/-- `argtypeerror(name, i, expect, actual)`. -/
def argtypeerror (expect : String) (actual : LuaValue) : CallM α :=
  let got := match actual with
    | .nil => "no value"
    | v => LuaValue.typename (some v)
  .error (.raises (argerror name i (some (expect ++ " expected, got " ++ got))))

/-- `checkstring(name, i, actual)`. -/
def checkstring (actual : LuaValue) : CallM Unit :=
  match actual with
  | .string _ => .ok ()
  | v => argtypeerror name i "string" v

/-- `optstring(name, i, actual, def)`. -/
def optstring (actual : LuaValue) (dflt : LStr) : CallM LStr :=
  match actual with
  | .nil => .ok dflt
  | .string s => .ok s
  | v => argtypeerror name i "nil or string" v

/-- `toomanyargerror(name, expected, got)`. -/
def toomanyargerror (expected got : Nat) : CallM α :=
  .error (.raises (argerror name (expected + 1) (some ("no more than " ++ toString expected ++
    " argument" ++ (if expected = 1 then "" else "s") ++ " expected, got " ++ toString got))))

end Arguments

/-! ## Selections -/

section Model

variable (N : Numerals) (Λ : Length) (H : Heap)

/-- `"invalid option '" .. v .. "'"`. -/
def invalidOption (v : LuaValue) : CallM String :=
  match N.tolstring v with
  | some s => .ok ("invalid option '" ++ String.ofList s ++ "'")
  | none => .error (.raises (.error
      ("attempt to concatenate a " ++ LuaValue.typename (some v) ++ " value")))

/-- How many values there is room for on the stack of Lua. -/
abbrev Room := Fin (2 ^ 63)

/-- `unpack(r)`. -/
def unpack (room : Room) (r : List LuaValue) : CallM (List LuaValue) :=
  if r.length ≤ room then .ok r else .error (.raises (.error "too many results to unpack"))

/-- `checkselection(fname, argi, fields)`. -/
def checkselection (fname : String) (argi fields : Nat) : CallM Unit := do
  let n := Λ.len (H.tables fields)
  match H.get fields (position 1) with
  | .table _ => if 1 < n then toomanyargerror fname argi (n + argi - 1)
  | .nil | .string _ => pure ()
  | field1 => argtypeerror fname argi "nil, string or table" field1
  (List.range' 2 (n - 1)).forM fun i =>
    checkstring fname (i + argi - 1) (H.get fields (position i))

/-- The table of the names: the only argument, if that is a table. -/
def namesTable (fields : Nat) : Nat :=
  match H.get fields (position 1) with
  | .table t => if Λ.len (H.tables fields) = 1 then t else fields
  | _ => fields

/-- `next(t)`, as a condition. -/
def nonempty (t : Nat) : Bool :=
  match (H.tables t).entries with
  | [] => false
  | e :: _ => e.1.truthy

/-- The round of `doselection` for a name. -/
def selectField (name : String) (argoffset fields map i : Nat) : CallM LuaValue :=
  let v := H.get fields (position i)
  let value := H.get map v.key
  if value.truthy then return value
  else do
    let extramsg ← invalidOption N v
    .error (.raises (argerror name (i + argoffset) (some extramsg)))

/-- `doselection(name, argoffset, fields, map)`. -/
def doselection (room : Room) (name : String) (argoffset fields map : Nat) :
    CallM (List LuaValue) :=
  let fields := namesTable Λ H fields
  if nonempty H fields then do
    let r ← (List.range (Λ.len (H.tables fields))).mapM fun i =>
      selectField N H name argoffset fields map (i + 1)
    unpack room r
  else return [.table map]

end Model

/-! ## Lists of names -/

/-- A list of names, as values. -/
def names (ks : List LStr) : List LuaValue := ks.map .string

/-- A map without false values. -/
def FieldMap (H : Heap) (map : Nat) : Prop := ∀ k, H.get map k ≠ .boolean false

/-- The field of a name, nil if there is none. -/
def field (H : Heap) (map : Nat) (k : LStr) : LuaValue := H.get map (.string k)

/-- **Pointwise lookup**: the whole map for no names, the fields of names that all have one, else
the error for the first name that has none. -/
structure Pointwise (H : Heap) (name : String) (argoffset map : Nat) (ks : List LStr)
    (r : CallM (List LuaValue)) : Prop where
  all : ks = [] → r = .ok [.table map]
  values : ks ≠ [] → (∀ k ∈ ks, field H map k ≠ .nil) → r = .ok (ks.map (field H map))
  unknown : ∀ (i : Nat) k, ks[i]? = some k → field H map k = .nil →
    (∀ j < i, ∀ k', ks[j]? = some k' → field H map k' ≠ .nil) →
    r = .error (.raises (argerror name (i + 1 + argoffset)
      (some ("invalid option '" ++ String.ofList k ++ "'"))))

section Lists

variable {N : Numerals} {Λ : Length} {H : Heap} {room : Room} {name : String}
  {argoffset argi map fields t i : Nat} {ks : List LStr} {k : LStr}

/-- The names are strings, so none is `nil`. -/
theorem nil_notMem_names : .nil ∉ names ks := by
  intro hmem
  obtain ⟨k, -, hk⟩ := List.mem_map.mp hmem
  cases hk

/-- They can be indexed where there is room. -/
theorem indexable_names (hroom : ks.length ≤ room) : Indexable (names ks) := by
  rw [Indexable, names, List.length_map]
  exact Nat.lt_of_le_of_lt hroom room.isLt

/-- The name at a position is the key there. -/
theorem getElem?_names (h : ks[i]? = some k) : (names ks)[i]? = some (.string k) := by
  rw [names, List.getElem?_map, h]
  rfl

/-- A table that holds the names has their number as its length. -/
theorem len_of_names (hroom : ks.length ≤ room) (h : H.Holds t (names ks)) :
    Λ.len (H.tables t) = ks.length := by
  rw [Heap.len_of_holds Λ (indexable_names hroom) nil_notMem_names h, names, List.length_map]

/-- Any two outcomes of a pointwise lookup are the same. -/
theorem Pointwise.unique {r r' : CallM (List LuaValue)}
    (h : Pointwise H name argoffset map ks r) (h' : Pointwise H name argoffset map ks r') :
    r = r' := by
  classical
  by_cases hnil : ks = []
  · rw [h.all hnil, h'.all hnil]
  · by_cases hall : ∀ k ∈ ks, field H map k ≠ .nil
    · rw [h.values hnil hall, h'.values hnil hall]
    · -- There is a first name without a field.
      have hex : ∃ (i : Nat) (k : LStr), ks[i]? = some k ∧ field H map k = .nil := by
        push Not at hall
        obtain ⟨k, hk, hfield⟩ := hall
        obtain ⟨i, hi⟩ := List.mem_iff_getElem?.mp hk
        exact ⟨i, k, hi, hfield⟩
      obtain ⟨k, hk, hfield⟩ := Nat.find_spec hex
      have hfirst : ∀ j < Nat.find hex, ∀ k', ks[j]? = some k' → field H map k' ≠ .nil :=
        fun j hj k' hk' hfield' => Nat.find_min hex hj ⟨k', hk', hfield'⟩
      rw [h.unknown _ k hk hfield hfirst, h'.unknown _ k hk hfield hfirst]

/-! ### One round -/

/-- What is not `false` counts as true unless it is `nil`. -/
theorem truthy_iff_ne_nil {v : LuaValue} (h : v ≠ .boolean false) :
    v.truthy = true ↔ v ≠ .nil := by
  cases v with
  | boolean b =>
      cases b with
      | false => exact absurd rfl h
      | true => simp [LuaValue.truthy]
  | _ => simp [LuaValue.truthy]

/-- A name that has a field. -/
theorem selectField_of_known (hmap : FieldMap H map) (h : H.Holds t (names ks))
    (hk : ks[i]? = some k) (hfield : field H map k ≠ .nil) :
    selectField N H name argoffset t map (i + 1) = .ok (field H map k) := by
  have htruthy : (H.get map (.string k)).truthy = true :=
    (truthy_iff_ne_nil (hmap _)).mpr hfield
  rw [selectField, h.get (getElem?_names hk)]
  exact if_pos htruthy

/-- A name that has none. -/
theorem selectField_of_unknown (h : H.Holds t (names ks)) (hk : ks[i]? = some k)
    (hfield : field H map k = .nil) :
    selectField N H name argoffset t map (i + 1)
      = .error (.raises (argerror name (i + 1 + argoffset)
        (some ("invalid option '" ++ String.ofList k ++ "'")))) := by
  have hnil : H.get map (.string k) = .nil := hfield
  rw [selectField, h.get (getElem?_names hk)]
  show (if (H.get map (.string k)).truthy then _ else _) = _
  rw [hnil]
  rfl

/-! ### Which table has the names -/

/-- A table of the names is the one that is selected from. -/
theorem namesTable_of_names (h : H.Holds fields (names ks)) :
    namesTable Λ H fields = fields := by
  rw [namesTable, h.get_first]
  cases ks with
  | nil => rfl
  | cons k ks => rfl

/-- A table in place of the names is not `nil`. -/
theorem nil_notMem_table : .nil ∉ [LuaValue.table t] := by simp

/-- A table of one table. -/
theorem len_of_table (h : H.Holds fields [.table t]) : Λ.len (H.tables fields) = 1 :=
  Heap.len_of_holds Λ (indexable_singleton _) nil_notMem_table h

/-- It is the one that is selected from. -/
theorem namesTable_of_table (h : H.Holds fields [.table t]) : namesTable Λ H fields = t := by
  rw [namesTable, h.get_first]
  exact if_pos (len_of_table h)

/-- Only a table of no names is empty. -/
theorem nonempty_iff {vs : List LuaValue} (h : H.Holds t vs) :
    nonempty H t = true ↔ vs ≠ [] := by
  have hempty := h.entries_eq_nil_iff
  rw [nonempty]
  cases hentries : (H.tables t).entries with
  | nil => simp [hempty.mp hentries]
  | cons e es =>
      have hmem : e.1 ∈ H.tables t := by
        rw [AList.mem_keys, AList.keys, hentries]
        exact List.mem_cons_self
      obtain ⟨i, -, hkey⟩ := h.key e.1 hmem
      have hne : vs ≠ [] := fun hvs => by
        rw [hempty.mpr hvs] at hentries
        cases hentries
      simp [hkey, position, LuaValue.truthy, hne]

/-- **The selection from a table of names** is pointwise. -/
theorem doselection_of_names (hmap : FieldMap H map) (hroom : ks.length ≤ room)
    (htable : namesTable Λ H fields = t) (h : H.Holds t (names ks)) :
    Pointwise H name argoffset map ks (doselection N Λ H room name argoffset fields map) := by
  have hlen : Λ.len (H.tables t) = ks.length := len_of_names hroom h
  have hdo : ks ≠ [] → doselection N Λ H room name argoffset fields map = (do
      let r ← (List.range ks.length).mapM fun i =>
        selectField N H name argoffset t map (i + 1)
      unpack room r) := by
    intro hne
    have hnonempty : nonempty H t = true := (nonempty_iff h).mpr fun hnames =>
      hne (List.map_eq_nil_iff.mp hnames)
    rw [doselection, htable, hlen]
    exact if_pos hnonempty
  refine ⟨fun hnil => ?_, fun hne hall => ?_, fun i k hk hfield hfirst => ?_⟩
  · subst hnil
    have hempty : nonempty H t = false :=
      Bool.eq_false_iff.mpr fun hne => (nonempty_iff h).mp hne rfl
    rw [doselection, htable, hempty]
    rfl
  · have hround : ∀ i ∈ List.range ks.length, selectField N H name argoffset t map (i + 1)
        = .ok (((ks.map (field H map))[i]?).getD .nil) := by
      intro i hi
      have hk := List.getElem?_eq_getElem (List.mem_range.mp hi)
      rw [selectField_of_known hmap h hk (hall _ (List.getElem_mem _)), List.getElem?_map, hk]
      rfl
    have hvalues : (List.range ks.length).map (fun i => ((ks.map (field H map))[i]?).getD .nil)
        = ks.map (field H map) := by
      refine List.ext_getElem (by simp) fun i hi hi' => ?_
      rw [List.getElem_map, List.getElem_range, List.getElem?_eq_getElem hi']
      rfl
    have hunpack : (ks.map (field H map)).length ≤ room := by rwa [List.length_map]
    rw [hdo hne, CallM.mapM_of_ok hround, hvalues]
    exact if_pos hunpack
  · have hi : i < ks.length := (List.getElem?_eq_some_iff.mp hk).1
    have hne : ks ≠ [] := List.ne_nil_of_length_pos (Nat.zero_lt_of_lt hi)
    have hround : ∀ j < i, (selectField N H name argoffset t map (j + 1)).Succeeds := by
      intro j hj
      have hk' := List.getElem?_eq_getElem (Nat.lt_trans hj hi)
      exact ⟨_, selectField_of_known hmap h hk' (hfirst j hj _ hk')⟩
    rw [hdo hne, CallM.mapM_range_of_error hi hround (selectField_of_unknown h hk hfield)]
    rfl

/-! ### The check beforehand -/

/-- The names pass the check. -/
theorem checkselection_of_names {fname : String} (hroom : ks.length ≤ room)
    (h : H.Holds fields (names ks)) : checkselection Λ H fname argi fields = .ok () := by
  have hlen : Λ.len (H.tables fields) = ks.length := len_of_names hroom h
  have hloop : (List.range' 2 (ks.length - 1)).forM (fun i =>
      checkstring fname (i + argi - 1) (H.get fields (position i))) = .ok () := by
    refine CallM.forM_of_ok fun i hi => ?_
    obtain ⟨hle, hlt⟩ := List.mem_range'_1.mp hi
    have hk := List.getElem?_eq_getElem (l := ks) (i := i - 1) (by omega)
    have hget := h.get (getElem?_names hk)
    rw [Nat.sub_add_cancel (by omega)] at hget
    rw [hget]
    rfl
  rw [checkselection, hlen, h.get_first]
  cases ks with
  | nil => exact hloop
  | cons k ks => exact hloop

/-- So does a table of them. -/
theorem checkselection_of_table {fname : String} (h : H.Holds fields [.table t]) :
    checkselection Λ H fname argi fields = .ok () := by
  rw [checkselection, len_of_table h, h.get_first]
  rfl

/-- **Field selection is pointwise lookup**, whether the names are arguments of their own or listed
in a table, and passes the check. The names fit on the stack, as arguments do. -/
theorem selection_pointwise {fname : String} {fields' : Nat} (hmap : FieldMap H map)
    (hroom : ks.length ≤ room) (hseparate : H.Holds fields (names ks))
    (htable : H.Holds fields' [.table t]) (hlist : H.Holds t (names ks)) :
    Pointwise H name argoffset map ks (doselection N Λ H room name argoffset fields map) ∧
    doselection N Λ H room name argoffset fields' map
      = doselection N Λ H room name argoffset fields map ∧
    checkselection Λ H fname argi fields = .ok () ∧
    checkselection Λ H fname argi fields' = .ok () := by
  have hpointwise : Pointwise H name argoffset map ks
      (doselection N Λ H room name argoffset fields map) :=
    doselection_of_names hmap hroom (namesTable_of_names hseparate) hseparate
  have hpointwise' : Pointwise H name argoffset map ks
      (doselection N Λ H room name argoffset fields' map) :=
    doselection_of_names hmap hroom (namesTable_of_table htable) hlist
  exact ⟨hpointwise, hpointwise'.unique hpointwise, checkselection_of_names hroom hseparate,
    checkselection_of_table htable⟩

end Lists

/-! ## A small instance -/

/-- A map without `false` may be selected from. -/
theorem fieldMap_of_entries {H : Heap} {map : Nat}
    (h : ∀ e ∈ (H.tables map).entries, e.2 ≠ .boolean false) : FieldMap H map := by
  intro k hk
  have hlookup := Heap.lookup_of_get hk LuaValue.noConfusion
  exact h ⟨k, _⟩ (AList.mem_lookup_iff.mp hlookup) rfl

/-- The names `"pid"` and `"uid"`. -/
def idNames : List LStr := ["pid".toList, "uid".toList]

/-- The map `{ pid = 7, uid = 0 }`. -/
def idMap : Heap :=
  (Heap.empty.newtable Heap.newestFirst [("pid", .integer 7), ("uid", .integer 0)]).2

/-- With `{ "pid", "uid" }`. -/
def idList : Heap := (idMap.pack Heap.newestFirst (names idNames)).2

/-- With `{ { "pid", "uid" } }`. -/
def idHeap : Heap := (idList.pack Heap.newestFirst [.table 1]).2

/-- The ids of a process are selected, in both forms. -/
theorem selection_pointwise_ids :
    Pointwise idHeap "getpid" 0 0 idNames
      (doselection .zero .last idHeap 250 "getpid" 0 1 0) ∧
    doselection .zero .last idHeap 250 "getpid" 0 2 0
      = doselection .zero .last idHeap 250 "getpid" 0 1 0 ∧
    checkselection .last idHeap "getpid" 1 1 = .ok () ∧
    checkselection .last idHeap "getpid" 1 2 = .ok () := by
  have hlist : idHeap.Holds 1 (names idNames) := by
    have hidList : idList.Holds 1 (names idNames) :=
      Heap.holds_pack (by decide) nil_notMem_names
    have htables : idHeap.tables 1 = idList.tables 1 := Heap.tables_pack_of_ne (by decide)
    rwa [Heap.Holds, htables]
  refine selection_pointwise (fieldMap_of_entries (by decide)) (by decide) hlist ?_ hlist
  exact Heap.holds_pack (by decide) (by decide)

end LuaPosix.Deprecated

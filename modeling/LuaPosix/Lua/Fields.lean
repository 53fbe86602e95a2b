import LuaPosix.Lua.Heap

/-! # Tables of named fields

How the C functions read the fields of a table argument, check the names of all its keys, and
make tables of fields. `checkfieldnames` compares names with `strcmp`, so what it accepts are the
strings that agree with a name up to their first zero. -/

namespace LuaPosix

open LuaPattern (LStr)
open Traversal (Layout)

/-- How numbers and texts are converted into each other. -/
structure Numerals where
  /-- Numerals with a fraction or an exponent. -/
  strtod : LStr → Option Rat
  /-- The text of a number. -/
  numberText : LuaValue → LStr
  /-- It has digits, signs and a point, `e` for the exponent, `inf` and `nan`. -/
  letter_mem : ∀ v, ∀ c ∈ numberText v, c.isAlpha → c ∈ ['a', 'e', 'f', 'i', 'n']

/-- `lua_tolstring`, for which a string or number is needed. -/
def Numerals.tolstring (N : Numerals) (v : LuaValue) : Option LStr :=
  match v with
  | .string s => some s
  | .integer _ | .float _ | .nonfinite => some (N.numberText v)
  | _ => none

/-- A text is the value itself, or that of a number. -/
theorem Numerals.tolstring_eq_some {N : Numerals} {v : LuaValue} {s : LStr}
    (h : N.tolstring v = some s) : v = .string s ∨ s = N.numberText v := by
  cases v with
  | string s' => exact .inl (congrArg _ (Option.some.inj h))
  | integer i => exact .inr (Option.some.inj h).symm
  | float q => exact .inr (Option.some.inj h).symm
  | nonfinite => exact .inr (Option.some.inj h).symm
  | _ => cases h

/-! ## Checks -/

/-- The checks of the arguments are among the calls that may go wrong. -/
instance : MonadLift LuaM CallM where
  monadLift x := x.mapError .raises

namespace CallM

variable {α β : Type}

/-- A value of the Lua interface is one here. -/
@[simp] theorem lift_ok (a : α) : (liftM (Except.ok a : LuaM α) : CallM α) = .ok a := rfl

/-- An error of the Lua interface is raised here. -/
@[simp] theorem lift_error (e : LuaError) :
    (liftM (Except.error e : LuaM α) : CallM α) = .error (.raises e) := rfl

/-- A call that returns. -/
def Succeeds (x : CallM α) : Prop := ∃ a, x = .ok a

/-- A call that raises an argument error. -/
def RaisesArg (x : CallM α) : Prop := ∃ narg msg, x = .error (.raises (.argerror narg msg))

/-- An argument error is one. -/
theorem raisesArg_argerror (narg : Nat) (msg : String) :
    RaisesArg (.error (.raises (.argerror narg msg)) : CallM α) := ⟨narg, msg, rfl⟩

/-- One step of a sequence of calls. -/
theorem bind_of_ok {x : CallM α} {f : α → CallM β} {a : α} {r : CallM β} (hx : x = .ok a)
    (hf : f a = r) : x >>= f = r := by
  rw [hx]
  exact hf

/-- A call that checks a condition: it returns if the condition holds, and raises an argument error
otherwise. -/
def Checks (x : CallM α) (p : Prop) : Prop := p ∧ x.Succeeds ∨ ¬p ∧ x.RaisesArg

section Checks

variable {x : CallM α} {p q : Prop}

/-- A check succeeds where its condition holds. -/
theorem Checks.succeeds (h : x.Checks p) (hp : p) : x.Succeeds := by
  rcases h with ⟨-, h⟩ | ⟨hnot, -⟩
  · exact h
  · exact absurd hp hnot

/-- Where it does not, the check raises an argument error. -/
theorem Checks.raisesArg (h : x.Checks p) (hp : ¬p) : x.RaisesArg := by
  rcases h with ⟨h, -⟩ | ⟨-, h⟩
  · exact absurd h hp
  · exact h

/-- The same condition in other words. -/
theorem Checks.congr (h : x.Checks p) (hpq : p ↔ q) : x.Checks q := by
  rcases h with ⟨hp, hs⟩ | ⟨hp, hr⟩
  · exact .inl ⟨hpq.mp hp, hs⟩
  · exact .inr ⟨fun hq => hp (hpq.mpr hq), hr⟩

/-- What checks nothing succeeds. -/
theorem checks_ok (a : α) : Checks (.ok a) True := .inl ⟨trivial, a, rfl⟩

/-- One check after the other. -/
theorem Checks.bind {f : α → CallM β} (hx : x.Checks p) (hf : ∀ a, (f a).Checks q) :
    (x >>= f).Checks (p ∧ q) := by
  rcases hx with ⟨hp, a, rfl⟩ | ⟨hp, narg, msg, rfl⟩
  · rcases hf a with ⟨hq, hs⟩ | ⟨hq, hr⟩
    · exact .inl ⟨⟨hp, hq⟩, hs⟩
    · exact .inr ⟨fun h => hq h.2, hr⟩
  · exact .inr ⟨fun h => hp h.1, narg, msg, rfl⟩

/-- What is made of the value makes no difference to the check. -/
theorem Checks.map (h : x.Checks p) (f : α → β) : (f <$> x).Checks p := by
  rcases h with ⟨hp, a, rfl⟩ | ⟨hp, narg, msg, rfl⟩
  · exact .inl ⟨hp, f a, rfl⟩
  · exact .inr ⟨hp, narg, msg, rfl⟩

end Checks

end CallM

/-- The argument at an index, if there is one. -/
def argument (args : List LuaValue) (narg : Nat) : Option LuaValue := args[narg - 1]?

/-- `luaL_checktype(L, index, LUA_TTABLE)`. -/
def checktable (args : List LuaValue) (index : Nat) : LuaM Nat :=
  match argument args index with
  | some (.table t) => .ok t
  | some (.lightuserdata _) => .error (.argerror index "table expected, got light userdata")
  | _ => .error (argtypeerror args index "table")

/-- `lua_tointeger` of a number. -/
def tointeger : LuaValue → LuaInteger
  | .integer i => i
  | .float q => (LuaValue.floatToInteger q).getD 0
  | _ => 0

namespace Heap

/-! ## Reading fields -/

section Checks

variable (N : Numerals) (H : Heap) (index t : Nat) (k : String)

/-- `checkfieldtype(L, index, k, expect_type, expected)`: the field it leaves on the stack. -/
def checkfieldtype (expect_type : String) (expected : Option String) : CallM LuaValue :=
  let field := H.get t (fieldName k)
  let got_type := LuaValue.typename (some field)
  if got_type = expect_type then .ok field
  else .error (.raises (.argerror index (expected.getD expect_type ++ " expected for field '" ++ k
    ++ "', got " ++ if got_type = "nil" then "no value" else got_type)))

/-- `checkintegerfield(L, index, k)`. -/
def checkintegerfield : CallM LuaInteger :=
  tointeger <$> H.checkfieldtype index t k "number" (some "integer")

/-- `checkintfield(L, index, k)`. -/
def checkintfield : CallM Int := toInt <$> H.checkintegerfield index t k

/-- `checklstringfield(L, index, k, &len)`. -/
def checklstringfield : CallM LStr := do
  match ← H.checkfieldtype index t k "string" none with
  | .string s => return s
  | _ => return []

/-- `checkstringfield(L, index, k)`. -/
def checkstringfield : CallM LStr := cstring <$> H.checklstringfield index t k

/-- `optintegerfield(L, index, k, def)`. -/
def optintegerfield (dflt : LuaInteger) : CallM LuaInteger :=
  if H.get t (fieldName k) = .nil then .ok dflt else H.checkintegerfield index t k

/-- `optintfield(L, index, k, def)`. -/
def optintfield (dflt : LuaInteger) : CallM Int := toInt <$> H.optintegerfield index t k dflt

/-- `optstringfield(L, index, k, NULL)`. -/
def optstringfield : CallM (Option LStr) :=
  if H.get t (fieldName k) = .nil then .ok none else some <$> H.checkstringfield index t k

/-! ## Checking names -/

/-- The error for a name that is not listed. -/
def invalidFieldName (s : LStr) : Fault :=
  .raises (.argerror index ("invalid field name '" ++ String.ofList (cstring s) ++ "'"))

/-- `checkismember(L, index, n, S)` on a key. A number is turned into its text on the stack, with
which the loop could not go on. -/
def checkismember (S : List String) (key : LuaValue) : CallM Unit :=
  match N.tolstring key with
  | none => .error (.raises (.argerror index
      ("invalid " ++ LuaValue.typename (some key) ++ " field name")))
  | some s =>
      if ∃ name ∈ S, name.toList = cstring s then
        if key = .string s then .ok () else .error .undefined
      else .error (invalidFieldName index s)

/-- `checkfieldnames(L, index, n, S)`. -/
def checkfieldnames (S : List String) : CallM Unit :=
  whileNext t (fun _ => H) (fun _ key _ => checkismember N index S key)
    ((H.tables t).entries.length + 1) ()

end Checks

/-! ## What the checks return -/

section Returned

variable {N : Numerals} {H : Heap} {index t : Nat} {k : String}

/-- A field that is an integer is taken whole. -/
theorem checkintegerfield_of_get {d : LuaInteger} (h : H.get t (fieldName k) = .integer d) :
    H.checkintegerfield index t k = .ok d := by
  rw [checkintegerfield, checkfieldtype, h]
  rfl

/-- As an `int` it is narrowed. -/
theorem checkintfield_of_get {d : LuaInteger} (h : H.get t (fieldName k) = .integer d) :
    H.checkintfield index t k = .ok (toInt d) := by
  rw [checkintfield, checkintegerfield_of_get h]
  rfl

/-- A field that is a string is taken whole. -/
theorem checklstringfield_of_get {s : LStr} (h : H.get t (fieldName k) = .string s) :
    H.checklstringfield index t k = .ok s := by
  rw [checklstringfield, checkfieldtype, h]
  rfl

/-- As a C string it ends at its first zero. -/
theorem checkstringfield_of_get {s : LStr} (h : H.get t (fieldName k) = .string s) :
    H.checkstringfield index t k = .ok (cstring s) := by
  rw [checkstringfield, checklstringfield_of_get h]
  rfl

/-- An optional field that is an integer is taken whole. -/
theorem optintegerfield_of_get {d dflt : LuaInteger} (h : H.get t (fieldName k) = .integer d) :
    H.optintegerfield index t k dflt = .ok d := by
  rw [optintegerfield, if_neg (by rw [h]; exact LuaValue.noConfusion), checkintegerfield_of_get h]

/-- As an `int` it is narrowed. -/
theorem optintfield_of_get {d dflt : LuaInteger} (h : H.get t (fieldName k) = .integer d) :
    H.optintfield index t k dflt = .ok (toInt d) := by
  rw [optintfield, optintegerfield_of_get h]
  rfl

/-- An optional field that is a string, as a C string. -/
theorem optstringfield_of_get {s : LStr} (h : H.get t (fieldName k) = .string s) :
    H.optstringfield index t k = .ok (some (cstring s)) := by
  rw [optstringfield, if_neg (by rw [h]; exact LuaValue.noConfusion), checkstringfield_of_get h]
  rfl

/-- An optional field that is missing. -/
theorem optstringfield_of_nil (h : H.get t (fieldName k) = .nil) :
    H.optstringfield index t k = .ok none := if_pos h

end Returned

/-! ## What the checks accept -/

/-- A field is there, with the given type. -/
def HasType (H : Heap) (t : Nat) (k ty : String) : Prop :=
  LuaValue.typename (some (H.get t (fieldName k))) = ty

/-- A field has the given type if it is there. -/
def MayHaveType (H : Heap) (t : Nat) (k ty : String) : Prop :=
  H.get t (fieldName k) = .nil ∨ H.HasType t k ty

/-- The type of a field can be decided. -/
instance (H : Heap) (t : Nat) (k ty : String) : Decidable (H.HasType t k ty) :=
  inferInstanceAs (Decidable (_ = _))

/-- So can that of one that may be missing. -/
instance (H : Heap) (t : Nat) (k ty : String) : Decidable (H.MayHaveType t k ty) :=
  inferInstanceAs (Decidable (_ ∨ _))

/-- A key that is one of the names. -/
def Known (S : List String) (key : LuaValue) : Prop := ∃ name ∈ S, key = fieldName name

/-- A key that is one of the names up to its first zero. -/
def Listed (S : List String) (key : LuaValue) : Prop :=
  ∃ s, key = .string s ∧ ∃ name ∈ S, name.toList = cstring s

/-- Whether a key is known can be decided. -/
instance (S : List String) (key : LuaValue) : Decidable (Known S key) :=
  inferInstanceAs (Decidable (∃ name ∈ S, key = fieldName name))

/-- The names of a list of fields: no zeros, and letters that no number has. -/
def Names (S : List String) : Prop :=
  ∀ name ∈ S, cstring name.toList = name.toList ∧
    ∃ c ∈ name.toList, c.isAlpha ∧ c ∉ ['a', 'e', 'f', 'i', 'n']

/-- Whether a list is one of names can be decided. -/
instance (S : List String) : Decidable (Names S) :=
  -- The letters of the name are tried, not all characters.
  @List.decidableBAll _ _ (fun _ => @instDecidableAnd _ _ _ (List.decidableBEx _ _)) S

section Accepted

variable {N : Numerals} {H : Heap} {index t : Nat} {k : String} {S : List String}

/-- A field of the type is returned as it is. -/
theorem checkfieldtype_of_hasType {ty : String} {expected : Option String}
    (h : H.HasType t k ty) :
    H.checkfieldtype index t k ty expected = .ok (H.get t (fieldName k)) := if_pos h

/-- The type of a field is what is checked. -/
theorem checks_checkfieldtype {ty : String} {expected : Option String} :
    (H.checkfieldtype index t k ty expected).Checks (H.HasType t k ty) := by
  by_cases h : H.HasType t k ty
  · exact .inl ⟨h, _, checkfieldtype_of_hasType h⟩
  · exact .inr ⟨h, _, _, if_neg h⟩

/-- An integer field has to be a number. -/
theorem checks_checkintegerfield :
    (H.checkintegerfield index t k).Checks (H.HasType t k "number") := checks_checkfieldtype.map _

/-- So has an `int`. -/
theorem checks_checkintfield : (H.checkintfield index t k).Checks (H.HasType t k "number") :=
  checks_checkintegerfield.map _

/-- A string field has to be a string. -/
theorem checks_checklstringfield :
    (H.checklstringfield index t k).Checks (H.HasType t k "string") := by
  refine (checks_checkfieldtype.bind fun field => ?_).congr (and_iff_left trivial)
  cases field <;> exact CallM.checks_ok _

/-- So has a C string. -/
theorem checks_checkstringfield : (H.checkstringfield index t k).Checks (H.HasType t k "string") :=
  checks_checklstringfield.map _

/-- A check that is left out where there is no field. -/
theorem checks_opt {α : Type} {dflt : α} {x : CallM α} {ty : String}
    (hx : x.Checks (H.HasType t k ty)) :
    CallM.Checks (if H.get t (fieldName k) = .nil then .ok dflt else x)
      (H.MayHaveType t k ty) := by
  split_ifs with h
  · exact .inl ⟨.inl h, dflt, rfl⟩
  · exact hx.congr (or_iff_right h).symm

/-- An optional integer is missing or a number. -/
theorem checks_optintegerfield {dflt : LuaInteger} :
    (H.optintegerfield index t k dflt).Checks (H.MayHaveType t k "number") :=
  checks_opt checks_checkintegerfield

/-- So is an optional `int`. -/
theorem checks_optintfield {dflt : LuaInteger} :
    (H.optintfield index t k dflt).Checks (H.MayHaveType t k "number") :=
  checks_optintegerfield.map _

/-- An optional string is missing or a string. -/
theorem checks_optstringfield :
    (H.optstringfield index t k).Checks (H.MayHaveType t k "string") :=
  checks_opt (checks_checkstringfield.map _)

/-- A known key is listed, since names have no zeros. -/
theorem Known.listed (hS : Names S) {key : LuaValue} (h : Known S key) : Listed S key := by
  obtain ⟨name, hname, rfl⟩ := h
  exact ⟨name.toList, rfl, name, hname, (hS name hname).1.symm⟩

/-- The text of a number is not a name. -/
theorem numberText_ne (hS : Names S) (v : LuaValue) :
    ¬∃ name ∈ S, name.toList = cstring (N.numberText v) := by
  rintro ⟨name, hname, htext⟩
  obtain ⟨c, hc, halpha, hmem⟩ := (hS name hname).2
  rw [htext] at hc
  exact hmem (N.letter_mem v c (List.takeWhile_subset _ hc) halpha)

/-- `checkismember` accepts what is listed. -/
theorem checks_checkismember (hS : Names S) (key : LuaValue) :
    (checkismember N index S key).Checks (Listed S key) := by
  rw [checkismember]
  cases htext : N.tolstring key with
  | none =>
      refine .inr ⟨?_, _, _, rfl⟩
      rintro ⟨s, rfl, -⟩
      cases htext
  | some s =>
      by_cases hname : ∃ name ∈ S, name.toList = cstring s
      · -- A number whose text is on the list would be replaced by it, and `lua_next` be lost.
        have hkey : key = .string s := by
          refine (Numerals.tolstring_eq_some htext).resolve_right ?_
          rintro rfl
          exact numberText_ne hS key hname
        exact .inl ⟨⟨s, hkey, hname⟩, (), (if_pos hname).trans (if_pos hkey)⟩
      · refine .inr ⟨?_, _, _, if_neg hname⟩
        rintro ⟨s', rfl, hlisted⟩
        cases htext
        exact hname hlisted

/-- The loop is the check of one key after the other. -/
theorem checkfieldnames_eq_foldlM : checkfieldnames N H index t S
    = (H.tables t).entries.foldlM (fun _ e => checkismember N index S e.1) () :=
  whileNext_eq_foldlM (fun _ _ _ _ _ => rfl) (Nat.lt_succ_self _)

/-- **`checkfieldnames` accepts the tables whose keys are listed.** -/
theorem checks_checkfieldnames (hS : Names S) :
    (checkfieldnames N H index t S).Checks (∀ key ∈ H.tables t, Listed S key) := by
  have hfold (l : List (Sigma fun _ : LuaValue => LuaValue)) :
      CallM.Checks (l.foldlM (fun _ e => checkismember N index S e.1) ())
        (∀ key ∈ l.keys, Listed S key) := by
    induction l with
    | nil => exact .inl ⟨fun key h => absurd h List.not_mem_nil, (), rfl⟩
    -- The keys are checked one after the other, up to the first that is not listed.
    | cons e l ih =>
        rw [List.foldlM_cons, List.keys_cons]
        exact ((checks_checkismember hS e.1).bind fun _ => ih).congr List.forall_mem_cons.symm
  rw [checkfieldnames_eq_foldlM]
  exact hfold _

/-- A table whose keys are names passes. -/
theorem checkfieldnames_of_known (hS : Names S) (h : ∀ key ∈ H.tables t, Known S key) :
    checkfieldnames N H index t S = .ok () := by
  have hsucceeds : (checkfieldnames N H index t S).Succeeds :=
    (checks_checkfieldnames hS).succeeds fun key hkey => (h key hkey).listed hS
  obtain ⟨⟨⟩, hok⟩ := hsucceeds
  exact hok

end Accepted

/-! ## Making tables -/

/-- What `pushintegerfield(k, v)` sets. -/
def pushintegerfield (k : String) (v : LuaInteger) : List (String × LuaValue) := [(k, .integer v)]

/-- What `pushstringfield(k, v)` sets, `v` being NULL or a C string. -/
def pushstringfield (k : String) (v : Option LStr) : List (String × LuaValue) :=
  match v with
  | some s => [(k, .string (cstring s))]
  | none => []

/-- What `pushlstringfield(k, v, l)` sets, for the `l` bytes `v`. -/
def pushlstringfield (k : String) (v : LStr) : List (String × LuaValue) :=
  if 0 < v.length then [(k, .string v)] else []

/-- An integer is pushed as the field of that name. -/
theorem name_of_mem_pushintegerfield {f : String × LuaValue} {k : String} {v : LuaInteger}
    (h : f ∈ pushintegerfield k v) : f.1 = k := congrArg Prod.fst (List.mem_singleton.mp h)

/-- So is a string that may be missing. -/
theorem name_of_mem_pushstringfield {f : String × LuaValue} {k : String} {v : Option LStr}
    (h : f ∈ pushstringfield k v) : f.1 = k := by
  cases v with
  | none => exact absurd h List.not_mem_nil
  | some s => exact congrArg Prod.fst (List.mem_singleton.mp h)

/-- So is a string of some length. -/
theorem name_of_mem_pushlstringfield {f : String × LuaValue} {k : String} {v : LStr}
    (h : f ∈ pushlstringfield k v) : f.1 = k := by
  rw [pushlstringfield] at h
  split_ifs at h
  · exact congrArg Prod.fst (List.mem_singleton.mp h)
  · exact absurd h List.not_mem_nil

section Tables

variable (L : Layout fun _ : LuaValue => LuaValue) (H : Heap)

/-- A new table with the fields set one after the other. -/
def newtable (fields : List (String × LuaValue)) : Nat × Heap :=
  (H.createtable.1,
    fields.foldl (fun H' f => H'.set L H.createtable.1 (fieldName f.1) f.2) H.createtable.2)

/-- The field of a name, the last one set, or nil. -/
def fieldOf (fields : List (String × LuaValue)) (k : String) : LuaValue :=
  (fields.reverse.lookup k).getD .nil

variable {L H}

/-- One more field is one more assignment. -/
theorem newtable_concat (fields : List (String × LuaValue)) (f : String × LuaValue) :
    (H.newtable L (fields ++ [f])).2
      = (H.newtable L fields).2.set L H.size (fieldName f.1) f.2 := by
  rw [newtable, List.foldl_append]
  rfl

/-- A new table is one more table. -/
theorem size_newtable (fields : List (String × LuaValue)) :
    (H.newtable L fields).2.size = H.size + 1 := by
  induction fields using List.reverseRecOn with
  | nil => rfl
  | append_singleton fields f ih => rw [newtable_concat, size_set, ih]

/-- The value of a field is the last one given. -/
theorem fieldOf_concat (fields : List (String × LuaValue)) (f : String × LuaValue) (k : String) :
    fieldOf (fields ++ [f]) k = if k = f.1 then f.2 else fieldOf fields k := by
  rw [fieldOf, List.reverse_append, List.reverse_singleton, List.singleton_append,
    List.lookup_cons]
  split_ifs with h
  · rw [beq_iff_eq.mpr h]
    rfl
  · rw [beq_eq_false_iff_ne.mpr h]
    rfl

/-- Fields of other names make no difference. -/
theorem fieldOf_append {fields fields' : List (String × LuaValue)} {k : String}
    (h : ∀ f ∈ fields', f.1 ≠ k) : fieldOf (fields ++ fields') k = fieldOf fields k := by
  induction fields' using List.reverseRecOn with
  | nil => rw [List.append_nil]
  | append_singleton fields' f ih =>
      have hf : k ≠ f.1 := (h f (List.mem_append_right _ (List.mem_singleton_self f))).symm
      rw [← List.append_assoc, fieldOf_concat, if_neg hf]
      exact ih fun f' hf' => h f' (List.mem_append_left _ hf')

/-- A field that is not given is nil. -/
theorem fieldOf_of_notMem {fields : List (String × LuaValue)} {k : String}
    (h : k ∉ fields.map Prod.fst) : fieldOf fields k = .nil := by
  have hnil : fieldOf ([] ++ fields) k = fieldOf [] k :=
    fieldOf_append fun f hf hk => h (hk ▸ List.mem_map_of_mem hf)
  rwa [List.nil_append] at hnil

/-- A field of a name that no other field has. -/
theorem fieldOf_of_mem {fields : List (String × LuaValue)} (h : (fields.map Prod.fst).Nodup)
    {f : String × LuaValue} (hf : f ∈ fields) : fieldOf fields f.1 = f.2 := by
  induction fields using List.reverseRecOn with
  | nil => exact absurd hf List.not_mem_nil
  | append_singleton fields g ih =>
      rw [List.map_append, List.nodup_append] at h
      rw [fieldOf_concat]
      rcases List.mem_append.mp hf with hmem | hlast
      · have hne : f.1 ≠ g.1 := h.2.2 _ (List.mem_map_of_mem hmem) _ (List.mem_singleton_self _)
        rw [if_neg hne, ih h.1 hmem]
      · rw [List.mem_singleton.mp hlast, if_pos rfl]

/-- **The fields of a new table.** -/
theorem get_newtable (fields : List (String × LuaValue)) (k : String) :
    (H.newtable L fields).2.get H.size (fieldName k) = fieldOf fields k := by
  induction fields using List.reverseRecOn with
  | nil =>
      have hempty : (H.newtable L []).2.tables H.size = ∅ := Function.update_self _ _ _
      rw [get, hempty, AList.lookup_empty]
      rfl
  | append_singleton fields f ih =>
      rw [newtable_concat, fieldOf_concat]
      split_ifs with h
      · rw [h, get_set]
      · rw [get_set_of_ne _ _ fun hname => h (fieldName_injective hname), ih]

/-- A new table has no other keys. -/
theorem mem_newtable {fields : List (String × LuaValue)} {key : LuaValue}
    (h : key ∈ (H.newtable L fields).2.tables H.size) : ∃ f ∈ fields, key = fieldName f.1 := by
  induction fields using List.reverseRecOn with
  | nil =>
      have hempty : (H.newtable L []).2.tables H.size = ∅ := Function.update_self _ _ _
      rw [hempty] at h
      exact absurd h (AList.notMem_empty key)
  | append_singleton fields f ih =>
      rw [newtable_concat, tables_set, Traversal.mem_assign] at h
      rcases h with rfl | h
      · exact ⟨f, List.mem_append_right _ (List.mem_singleton_self f), rfl⟩
      · obtain ⟨f', hf', rfl⟩ := ih h
        exact ⟨f', List.mem_append_left _ hf', rfl⟩

/-- A key that is no name is nil in a new table. -/
theorem get_newtable_other {fields : List (String × LuaValue)} {key : LuaValue}
    (h : ∀ k, key ≠ fieldName k) : (H.newtable L fields).2.get H.size key = .nil := by
  have hnone : ((H.newtable L fields).2.tables H.size).lookup key = none := by
    refine AList.lookup_eq_none.mpr fun hkey => ?_
    obtain ⟨f, -, hf⟩ := mem_newtable hkey
    exact h f.1 hf
  rw [get, hnone, Option.getD_none]

/-- The other tables are as before. -/
theorem tables_newtable_of_ne {fields : List (String × LuaValue)} {t : Nat} (h : t ≠ H.size) :
    (H.newtable L fields).2.tables t = H.tables t := by
  induction fields using List.reverseRecOn with
  | nil => exact Function.update_of_ne h _ _
  | append_singleton fields f ih => rw [newtable_concat, tables_set_of_ne _ _ h, ih]

/-- **Two new tables are equal if and only if their fields are.** -/
theorem get_newtable_eq_iff {fields fields' : List (String × LuaValue)} :
    (∀ t key, (H.newtable L fields).2.get t key = (H.newtable L fields').2.get t key) ↔
      ∀ k, fieldOf fields k = fieldOf fields' k := by
  constructor
  · intro h k
    rw [← get_newtable (L := L) (H := H), h, get_newtable]
  · intro h t key
    by_cases ht : t = H.size
    · subst ht
      by_cases hkey : ∃ k, key = fieldName k
      · obtain ⟨k, rfl⟩ := hkey
        rw [get_newtable, get_newtable, h]
      · have hother : ∀ k, key ≠ fieldName k := fun k hk => hkey ⟨k, hk⟩
        rw [get_newtable_other hother, get_newtable_other hother]
    · rw [get, get, tables_newtable_of_ne ht, tables_newtable_of_ne ht]

end Tables

/-! ## A small instance -/

/-- No tables. -/
def empty : Heap := ⟨fun _ => ∅, 0⟩

/-- Keeping the order is an order of traversal. -/
theorem perm_id (t : AList fun _ : LuaValue => LuaValue) : (id t).entries.Perm t.entries := .refl _

/-- New keys come first. -/
def newestFirst : Layout fun _ : LuaValue => LuaValue := ⟨id, perm_id⟩

end Heap

/-- Without fractions; all numbers have the same text. -/
def Numerals.zero : Numerals where
  strtod _ := none
  numberText _ := ['0']
  letter_mem _ c hc := by
    rw [List.mem_singleton.mp hc]
    decide

end LuaPosix

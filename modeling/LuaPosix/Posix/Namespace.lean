import LuaPosix.Posix.Preloading

/-! # The namespace of `posix`

After the legacy functions have taken their places, the last loop puts the submodules' tables under
their names, and gives each a metatable that calls the function of that name. The table of `posix`
in the end has what precedence selects for every other key. -/

namespace LuaPosix.Preloading

open LuaPattern (LStr)
open Traversal (Layout)
open Heap (fieldName)

/-! ## The submodules get their names -/

section Preloaded

/-- The submodules in a list have been preloaded. -/
structure Preloaded (L : Layout fun _ : LuaValue => LuaValue) (X : Loaded) (systable : Nat)
    (done : List String) (s : State) : Prop where
  /-- Other keys are left alone. -/
  others : ∀ k, (∀ n ∈ done, sysname n = none → k ≠ fieldName n) →
    s.heap.get X.M k = (merged L X).get X.M k
  toplevel : ∀ n ∈ done, sysname n = none →
    s.heap.get X.M (fieldName n) = .table (X.submodule n)
  sys : ∀ n ∈ done, ∀ S, sysname n = some S →
    s.heap.get systable (.string S) = .table (X.submodule n)
  called : ∀ n ∈ done, s.__call (X.submodule n)
    = if ((merged L X).get X.M (fieldName n)).truthy then some ((merged L X).get X.M (fieldName n))
      else none
  fresh : ∀ n ∈ names, n ∉ done → s.__call (X.submodule n) = none
  tables : ∀ n ∈ names, s.heap.tables (X.submodule n) = X.heap.tables (X.submodule n)

variable {L : Layout fun _ : LuaValue => LuaValue} {X : Loaded} {systable : Nat}
  {done : List String} {s : State} {name : String}

/-- Different names have different submodules. -/
theorem submodule_injOn {m n : String} (hm : m ∈ names) (hn : n ∈ names)
    (h : X.submodule m = X.submodule n) : m = n := by
  have hnodup : (names.map X.submodule).Nodup :=
    (X.nodup.sublist (List.sublist_cons_self _ _)).sublist
      ((List.sublist_cons_self _ _).trans (List.sublist_cons_self _ _))
  exact List.inj_on_of_nodup_map hnodup hm hn h

/-- Different names have different keys in `sys`. -/
theorem sysname_inj {m n : String} {S : LStr} (hm : sysname m = some S)
    (hn : sysname n = some S) : m = n := by
  rw [sysname_eq_some_iff] at hm hn
  exact String.toList_inj.mp (hm.trans hn.symm)

/-- A name with `sys.` goes into the table `sys`. -/
theorem preload_heap_of_some {S : LStr} (h : sysname name = some S) :
    (preload L X systable s name).heap
      = s.heap.set L systable (.string S) (.table (X.submodule name)) := by
  rw [preload, h]
  split_ifs <;> rfl

/-- Any other goes into the module. -/
theorem preload_heap_of_none (h : sysname name = none) : (preload L X systable s name).heap
    = s.heap.set L X.M (fieldName name) (.table (X.submodule name)) := by
  rw [preload, h]
  split_ifs <;> rfl

/-- A submodule is called as the module's function of its name, if there is one. -/
theorem preload_call : (preload L X systable s name).__call
    = if (s.heap.get X.M (fieldName name)).truthy then
        Function.update s.__call (X.submodule name) (some (s.heap.get X.M (fieldName name)))
      else s.__call := by
  rw [preload]
  cases sysname name <;> split_ifs <;> rfl

/-- Preloading one name leaves the others alone. -/
theorem preload_call_of_ne {n : String} (hn : n ∈ names) (hname : name ∈ names) (h : n ≠ name) :
    (preload L X systable s name).__call (X.submodule n) = s.__call (X.submodule n) := by
  have hne : X.submodule n ≠ X.submodule name := fun heq => h (submodule_injOn hn hname heq)
  rw [preload_call]
  split_ifs
  · rw [Function.update_of_ne hne]
  · rfl

/-- Tables other than that of `posix` and of `posix.sys` are left alone. -/
theorem tables_preload {t : Nat} (hM : t ≠ X.M) (hsys : t ≠ systable) :
    (preload L X systable s name).heap.tables t = s.heap.tables t := by
  cases h : sysname name with
  | none => rw [preload_heap_of_none h, Heap.tables_set_of_ne _ _ hM]
  | some S => rw [preload_heap_of_some h, Heap.tables_set_of_ne _ _ hsys]

/-- A table that is the same has the same values. -/
theorem get_of_tables {H H' : Heap} {t : Nat} (h : H.tables t = H'.tables t) (k : LuaValue) :
    H.get t k = H'.get t k := by
  rw [Heap.get, Heap.get, h]

/-- **One more submodule.** -/
theorem Preloaded.step (h : Preloaded L X systable done s) (hname : name ∈ names)
    (hdone : ∀ n ∈ done, n ∈ names) (hnew : name ∉ done) (hM : systable ≠ X.M)
    (hsub : ∀ n ∈ names, systable ≠ X.submodule n) :
    Preloaded L X systable (done ++ [name]) (preload L X systable s name) where
  others k hk := by
    have hold : s.heap.get X.M k = (merged L X).get X.M k :=
      h.others k fun n hn => hk n (List.mem_append_left _ hn)
    rw [← hold]
    cases hsys : sysname name with
    | none =>
        have hne := hk name (List.mem_append_right _ (List.mem_singleton_self _)) hsys
        rw [preload_heap_of_none hsys, Heap.get_set_of_ne _ _ hne]
    | some S =>
        rw [preload_heap_of_some hsys]
        exact get_of_tables (Heap.tables_set_of_ne _ _ hM.symm) k
  toplevel n hn htop := by
    rcases List.mem_append.mp hn with hn | hn
    · rw [← h.toplevel n hn htop]
      cases hsys : sysname name with
      | none =>
          have hne : fieldName n ≠ fieldName name := fun heq =>
            hnew (Heap.fieldName_injective heq ▸ hn)
          rw [preload_heap_of_none hsys, Heap.get_set_of_ne _ _ hne]
      | some S =>
          rw [preload_heap_of_some hsys]
          exact get_of_tables (Heap.tables_set_of_ne _ _ hM.symm) _
    · obtain rfl := List.mem_singleton.mp hn
      rw [preload_heap_of_none htop, Heap.get_set]
  sys n hn S hS := by
    rcases List.mem_append.mp hn with hn | hn
    · rw [← h.sys n hn S hS]
      cases hsys : sysname name with
      | none =>
          rw [preload_heap_of_none hsys]
          exact get_of_tables (Heap.tables_set_of_ne _ _ hM) _
      | some S' =>
          have hne : LuaValue.string S ≠ .string S' := by
            intro heq
            obtain rfl := LuaValue.string.inj heq
            exact hnew (sysname_inj hsys hS ▸ hn)
          rw [preload_heap_of_some hsys, Heap.get_set_of_ne _ _ hne]
    · obtain rfl := List.mem_singleton.mp hn
      rw [preload_heap_of_some hS, Heap.get_set]
  called n hn := by
    -- the name has not been replaced yet
    have hfn : s.heap.get X.M (fieldName name) = (merged L X).get X.M (fieldName name) := by
      refine h.others _ fun m hm _ heq => hnew ?_
      exact Heap.fieldName_injective heq ▸ hm
    rcases List.mem_append.mp hn with hn | hn
    · have hne : n ≠ name := fun heq => hnew (heq ▸ hn)
      rw [preload_call_of_ne (hdone n hn) hname hne, h.called n hn]
    · obtain rfl := List.mem_singleton.mp hn
      rw [preload_call, hfn]
      split_ifs
      · rw [Function.update_self]
      · exact h.fresh n hname hnew
  fresh n hn hnot := by
    rw [List.mem_append, List.mem_singleton, not_or] at hnot
    rw [preload_call_of_ne hn hname hnot.2, h.fresh n hn hnot.1]
  tables n hn := by
    rw [tables_preload (submodule_ne_M hn) (hsub n hn).symm, h.tables n hn]

/-- **All of them.** -/
theorem Preloaded.foldl {ns : List String} (h : Preloaded L X systable done s)
    (hns : (done ++ ns).Nodup) (hnames : ∀ n ∈ done ++ ns, n ∈ names) (hM : systable ≠ X.M)
    (hsub : ∀ n ∈ names, systable ≠ X.submodule n) :
    Preloaded L X systable (done ++ ns) (ns.foldl (preload L X systable) s) := by
  induction ns generalizing done s with
  | nil => rwa [List.append_nil]
  | cons n ns ih =>
      have happend : done ++ n :: ns = (done ++ [n]) ++ ns := by simp
      have hnew : n ∉ done := fun hmem =>
        (List.nodup_append.mp hns).2.2 n hmem n List.mem_cons_self rfl
      have hstep := h.step (hnames n (by simp)) (fun m hm => hnames m (List.mem_append_left _ hm))
        hnew hM hsub
      rw [happend] at hns hnames ⊢
      exact ih hstep hns hnames

end Preloaded

/-! ## The table in the end -/

section Assembled

/-- A value is a function. -/
def IsFunction (f : LuaValue) : Prop := LuaValue.typename (some f) = "function"

/-- The table of `posix` is put together without loss. -/
structure Assembled (X : Loaded) (s : State) : Prop where
  /-- A key that is no name of a submodule at the top has the value that precedence selects. -/
  fields : ∀ k, (∀ n ∈ names, (∀ S, n ≠ "sys." ++ S) → k ≠ fieldName n) →
    k ≠ fieldName "sys" → k ≠ fieldName "version" → Selects X k (s.heap.get X.M k)
  toplevel : ∀ n ∈ names, (∀ S, n ≠ "sys." ++ S) →
    s.heap.get X.M (fieldName n) = .table (X.submodule n)
  /-- Calling the table of a submodule is calling the function of its name. -/
  callable : ∀ n ∈ names, ∀ fn, Selects X (fieldName n) fn → IsFunction fn →
    ∀ {β : Type} (invoke : LuaValue → List LuaValue → CallM β) (depth : Nat)
      (args : List LuaValue),
      call s invoke (depth + 2) (.table (X.submodule n)) args = invoke fn args
  uncallable : ∀ n ∈ names, ∀ fn, Selects X (fieldName n) fn → fn.truthy = false →
    ∀ {β : Type} (invoke : LuaValue → List LuaValue → CallM β) (depth : Nat)
      (args : List LuaValue), call s invoke (depth + 1) (.table (X.submodule n)) args
        = .error (.raises (.error "attempt to call a table value"))
  own : ∀ n ∈ names, ∀ k, s.heap.get (X.submodule n) k = X.heap.get (X.submodule n) k
  sys : ∃ systable, s.heap.get X.M (fieldName "sys") = .table systable ∧
    ∀ S, "sys." ++ S ∈ names →
      s.heap.get systable (fieldName S) = .table (X.submodule ("sys." ++ S))
  version : s.heap.get X.M (fieldName "version") = .string X.version

variable (L : Layout fun _ : LuaValue => LuaValue) (X : Loaded)

/-- The tables after the last loop. -/
def preloaded : State :=
  names.foldl (preload L X X.heap.size) ⟨(merged L X).createtable.2, fun _ => none⟩

/-- The tables in the end. -/
def assembled : State :=
  { preloaded L X with
    heap := ((preloaded L X).heap.set L X.M (fieldName "sys") (.table X.heap.size)).set L X.M
      (fieldName "version") (.string X.version) }

variable {N : Numerals} {L X} {s : State} {k : LuaValue}

/-- A name without `sys.` has no key there. -/
theorem sysname_eq_none_iff {n : String} : sysname n = none ↔ ∀ S, n ≠ "sys." ++ S := by
  rw [Option.eq_none_iff_forall_ne_some]
  constructor
  · rintro h S rfl
    exact h S.toList (sysname_eq_some_iff.mpr String.toList_append)
  · intro h S hS
    refine h (String.ofList S) (String.toList_inj.mp ?_)
    rw [sysname_eq_some_iff.mp hS, String.toList_append, @String.toList_ofList S]

/-- What precedence selects is what the table has after the three loops. -/
theorem merged_of_selects (hclear : names.Pairwise (NoClash X)) {v : LuaValue}
    (h : Selects X k v) : (merged L X).get X.M k = v := by
  rw [merged, get_injected, get_injected]
  cases h with
  | compat h => rw [h, Option.getD_some]
  | deprecated hcompat h => rw [hcompat, h, Option.getD_none, Option.getD_some]
  | submodule hcompat hdeprecated hname hcopied h =>
      rw [hcompat, hdeprecated, Option.getD_none, Option.getD_none]
      exact get_foldl_copied_of_some hclear hname
        (dlookup_copiedEntries_eq_some_iff.mpr ⟨hcopied, h⟩) _
  | builtin hcompat hdeprecated hnot =>
      rw [hcompat, hdeprecated, Option.getD_none, Option.getD_none]
      refine get_foldl_copied_of_none (fun name hname => ?_) _
      refine Option.eq_none_iff_forall_ne_some.mpr fun v hv => ?_
      obtain ⟨hcopied, hlookup⟩ := dlookup_copiedEntries_eq_some_iff.mp hv
      rw [hnot name hname hcopied] at hlookup
      cases hlookup

/-- **The module is loaded** exactly if the keys are clear. -/
theorem init_eq_ok_iff : init N L X = .ok s ↔ Clear N X ∧ s = assembled L X := by
  have hcopy := fun H => @foldlM_copySubmodule_eq_ok_iff N L X X.heap H names (fun n hn => hn)
    (fun n _ => rfl)
  have hdeprecated : inject L X X.deprecated (names.foldl (copied L X) X.heap)
      = .ok (injected L X X.deprecated (names.foldl (copied L X) X.heap)) :=
    inject_eq deprecated_ne_M (tables_foldl_copied _ _ deprecated_ne_M)
  have hcompat : inject L X X.compat
      (injected L X X.deprecated (names.foldl (copied L X) X.heap)) = .ok (merged L X) :=
    inject_eq compat_ne_M
      ((tables_injected _ compat_ne_M).trans (tables_foldl_copied _ _ compat_ne_M))
  rw [init, bind_eq_ok]
  constructor
  · rintro ⟨H, hloop, hrest⟩
    obtain ⟨hclear, rfl⟩ := (hcopy H).mp hloop
    rw [hdeprecated, CallM.ok_bind, hcompat, CallM.ok_bind] at hrest
    refine ⟨hclear, ?_⟩
    rw [← Except.ok.inj hrest, assembled, preloaded, ← size_merged (L := L)]
    rfl
  · rintro ⟨hclear, rfl⟩
    refine ⟨_, (hcopy _).mpr ⟨hclear, rfl⟩, ?_⟩
    rw [hdeprecated, CallM.ok_bind, hcompat, CallM.ok_bind, assembled, preloaded,
      ← size_merged (L := L)]
    rfl

/-- The module's table was there before. -/
theorem M_lt : X.M < X.heap.size := X.allocated _ List.mem_cons_self

/-- So were the tables of the submodules. -/
theorem submodule_lt {n : String} (hn : n ∈ names) : X.submodule n < X.heap.size :=
  X.allocated _ (List.mem_cons_of_mem _ (submodule_mem hn))

/-- The table made for `posix.sys` is new. -/
theorem tables_createtable {t : Nat} (h : t < X.heap.size) :
    (merged L X).createtable.2.tables t = (merged L X).tables t := by
  refine Function.update_of_ne ?_ _ _
  rw [size_merged]
  exact h.ne

/-- All names are preloaded. -/
theorem preloaded_preloaded : Preloaded L X X.heap.size names (preloaded L X) := by
  have hstart : Preloaded L X X.heap.size []
      ⟨(merged L X).createtable.2, fun _ => none⟩ :=
    { others := fun k _ => get_of_tables (tables_createtable M_lt) k
      toplevel := fun n hn => absurd hn List.not_mem_nil
      sys := fun n hn => absurd hn List.not_mem_nil
      called := fun n hn => absurd hn List.not_mem_nil
      fresh := fun n _ _ => rfl
      tables := fun n hn =>
        (tables_createtable (submodule_lt hn)).trans (tables_merged (submodule_ne_M hn)) }
  have hM : X.heap.size ≠ X.M := M_lt.ne'
  have hsub : ∀ n ∈ names, X.heap.size ≠ X.submodule n := fun n hn => (submodule_lt hn).ne'
  exact hstart.foldl nodup_names (fun n hn => hn) hM hsub

/-- The new table `sys` is not the module's. -/
theorem heap_size_ne_M : X.heap.size ≠ X.M := M_lt.ne'

/-- The two last assignments leave the other fields of the table alone. -/
theorem get_assembled (hsys : k ≠ fieldName "sys") (hversion : k ≠ fieldName "version") :
    (assembled L X).heap.get X.M k = (preloaded L X).heap.get X.M k := by
  rw [assembled, Heap.get_set_of_ne _ _ hversion, Heap.get_set_of_ne _ _ hsys]

/-- Assembling touches no other table. -/
theorem tables_assembled {t : Nat} (h : t ≠ X.M) :
    (assembled L X).heap.tables t = (preloaded L X).heap.tables t := by
  rw [assembled, Heap.tables_set_of_ne _ _ h, Heap.tables_set_of_ne _ _ h]

/-- The submodules are named otherwise. -/
theorem ne_sys_version {n : String} (h : n ∈ names) :
    fieldName n ≠ fieldName "sys" ∧ fieldName n ≠ fieldName "version" := by
  have hnames : ∀ n ∈ names, n ≠ "sys" ∧ n ≠ "version" := by decide
  exact ⟨fun heq => (hnames n h).1 (Heap.fieldName_injective heq),
    fun heq => (hnames n h).2 (Heap.fieldName_injective heq)⟩

/-- The module has `sys`. -/
theorem get_assembled_sys :
    (assembled L X).heap.get X.M (fieldName "sys") = .table X.heap.size := by
  have hne : fieldName "sys" ≠ fieldName "version" := fun h =>
    absurd (Heap.fieldName_injective h) (by decide)
  rw [assembled, Heap.get_set_of_ne _ _ hne, Heap.get_set]

/-- It has its version. -/
theorem get_assembled_version :
    (assembled L X).heap.get X.M (fieldName "version") = .string X.version := by
  rw [assembled, Heap.get_set]

/-- What `posix.compat` has comes first. -/
theorem Selects.eq_of_compat {v v' : LuaValue} (h : Selects X k v')
    (hv : (X.heap.tables X.compat).lookup k = some v) : v' = v := by
  cases h with
  | compat h => exact Option.some.inj (h.symm.trans hv)
  | deprecated hcompat => cases hcompat.symm.trans hv
  | submodule hcompat => cases hcompat.symm.trans hv
  | builtin hcompat => cases hcompat.symm.trans hv

/-- A function is written in Lua or in C. -/
theorem isFunction_iff {f : LuaValue} :
    IsFunction f ↔ (∃ id, f = .function id) ∨ ∃ u v, f = .sigHandlerWrap u v := by
  cases f <;> simp [IsFunction, LuaValue.typename]

/-- A function is called as it is. -/
theorem call_function {β : Type} {invoke : LuaValue → List LuaValue → CallM β} {depth : Nat}
    {f : LuaValue} {args : List LuaValue} (h : IsFunction f) :
    call s invoke (depth + 1) f args = invoke f args := by
  rcases isFunction_iff.mp h with ⟨id, rfl⟩ | ⟨u, v, rfl⟩
  · rfl
  · rfl

/-- A function is neither nil nor false. -/
theorem truthy_of_isFunction {f : LuaValue} (h : IsFunction f) : f.truthy = true := by
  rcases isFunction_iff.mp h with ⟨id, rfl⟩ | ⟨u, v, rfl⟩
  · rfl
  · rfl

/-- What the metatable of a submodule calls is what precedence selects. -/
theorem call_assembled (hclear : names.Pairwise (NoClash X)) {n : String} (hn : n ∈ names)
    {fn : LuaValue} (h : Selects X (fieldName n) fn) :
    (assembled L X).__call (X.submodule n) = if fn.truthy then some fn else none := by
  have hcalled := (@preloaded_preloaded L X).called n hn
  rw [merged_of_selects hclear h] at hcalled
  exact hcalled

/-- Without a clash the module is assembled as it should be. -/
theorem assembled_assembled (hclear : names.Pairwise (NoClash X)) :
    Assembled X (assembled L X) where
  fields k hk hsys hversion := by
    rw [get_assembled hsys hversion, preloaded_preloaded.others k fun n hn htop =>
      hk n hn (sysname_eq_none_iff.mp htop)]
    exact selects_merged hclear k
  toplevel n hn htop := by
    rw [get_assembled (ne_sys_version hn).1 (ne_sys_version hn).2]
    exact preloaded_preloaded.toplevel n hn (sysname_eq_none_iff.mpr htop)
  callable n hn fn hselects hfunction β invoke depth args := by
    have hcalled : (assembled L X).__call (X.submodule n) = some fn := by
      rw [call_assembled hclear hn hselects, if_pos (truthy_of_isFunction hfunction)]
    rw [call]
    simp only [hcalled]
    exact call_function hfunction
  uncallable n hn fn hselects hfalsy β invoke depth args := by
    have hcalled : (assembled L X).__call (X.submodule n) = none := by
      rw [call_assembled hclear hn hselects, hfalsy, if_neg Bool.false_ne_true]
    rw [call]
    simp only [hcalled]
    rfl
  own n hn k := by
    refine get_of_tables ?_ k
    rw [tables_assembled (submodule_ne_M hn)]
    exact preloaded_preloaded.tables n hn
  sys := by
    refine ⟨X.heap.size, get_assembled_sys, fun S hS => ?_⟩
    rw [get_of_tables (tables_assembled heap_size_ne_M)]
    exact preloaded_preloaded.sys _ hS S.toList (sysname_eq_some_iff.mpr String.toList_append)
  version := get_assembled_version

/-- **The namespace is assembled without loss** if the module is loaded at all, which it is where
the keys are clear. -/
theorem init_assembles (N : Numerals) (L : Layout fun _ : LuaValue => LuaValue) (X : Loaded) :
    ((init N L X).Succeeds ↔ Clear N X) ∧ ∀ s, init N L X = .ok s → Assembled X s := by
  constructor
  · constructor
    · rintro ⟨s, hs⟩
      exact (init_eq_ok_iff.mp hs).1
    · intro h
      exact ⟨assembled L X, init_eq_ok_iff.mpr ⟨h, rfl⟩⟩
  · intro s hs
    obtain ⟨hclear, rfl⟩ := init_eq_ok_iff.mp hs
    exact assembled_assembled hclear.2

end Assembled

/-! ## Small instances -/

section Instances

/-- The tables of the instance are below 31. -/
theorem identities_lt :
    ∀ t ∈ 0 :: 1 :: 2 :: names.map fun name => names.idxOf name + 3, t < 31 := by decide

/-- Tables with these contents: of `posix` itself, `posix.deprecated`, `posix.compat`, and the
submodules in order. -/
def Loaded.of (contents : Nat → AList fun _ : LuaValue => LuaValue)
    (h : ∀ t < 31, ∀ e ∈ (contents t).entries, e.2 ≠ .nil) : Loaded where
  heap := ⟨contents, 31⟩
  M := 0
  submodule name := names.idxOf name + 3
  deprecated := 1
  compat := 2
  version := "posix for Lua 5.4 / luaposix".toList
  nodup := by decide
  allocated := identities_lt
  present t ht := h t (identities_lt t ht)

/-- A table with one field. -/
def single (k v : LuaValue) : AList fun _ : LuaValue => LuaValue :=
  AList.singleton k v

/-- `posix.compat` has fields named `sys` and `version`. -/
def reservedInCompat : Loaded :=
  .of (Function.update (fun _ => ∅) 2 ((single (fieldName "sys") (.boolean true)).insert
    (fieldName "version") (.boolean true))) (by decide)

/-- `posix` and `posix.ctype` have a function of one name. -/
def builtinInCtype : Loaded :=
  .of (Function.update (Function.update (fun _ => ∅) 0 (single (fieldName "spawn") (.function 1)))
    3 (single (fieldName "spawn") (.function 2))) (by decide)

/-- `posix.ctype` has a field without a name. -/
def booleanInCtype : Loaded :=
  .of (Function.update (fun _ => ∅) 3 (single (.boolean true) (.function 1))) (by decide)

/-- `posix.glob` has a function of its name, and there is no other of this name. -/
def onlyGlob : Loaded :=
  .of (Function.update (fun _ => ∅) 8 (single (fieldName "glob") (.function 1))) (by decide)

/-- `posix.fcntl` has a function of its name. -/
def onlyFcntl : Loaded :=
  .of (Function.update (fun _ => ∅) 6 (single (fieldName "fcntl") (.function 1))) (by decide)

variable {X : Loaded}

/-- Only one submodule has fields. -/
theorem pairwise_noClash {n : String} (h : ∀ m ∈ names, m ≠ n → copiedEntries X m = []) :
    names.Pairwise (NoClash X) := by
  refine nodup_names.imp_of_mem fun {a b} ha hb hne e he e' he' => ?_
  by_cases hn : a = n
  · rw [h b hb (hn ▸ hne.symm)] at he'
    exact absurd he' List.not_mem_nil
  · rw [h a ha hn] at he
    exact absurd he List.not_mem_nil

/-- Where a name fits it is clear. -/
theorem clear_of_fits {N : Numerals} {n : String} (hn : Fits N X X.heap n)
    (h : ∀ m ∈ names, m ≠ n → copiedEntries X m = []) : Clear N X := by
  refine ⟨fun m hm => ?_, pairwise_noClash h⟩
  by_cases hmn : m = n
  · exact hmn ▸ hn
  · intro e he
    rw [h m hm hmn] at he
    exact absurd he List.not_mem_nil

/-- A field of `posix.compat` that is overwritten in the end; a function of `posix.ctype` that
`posix` itself has, and a field there without a name, with which the module is not loaded; the
function `glob` of `posix.glob`, which is not copied. -/
theorem namespace_with_losses :
    (names.Pairwise (NoClash reservedInCompat) ∧
      ∀ s, init .zero Heap.newestFirst reservedInCompat = .ok s →
        ¬Selects reservedInCompat (fieldName "sys") (s.heap.get 0 (fieldName "sys")) ∧
        ¬Selects reservedInCompat (fieldName "version") (s.heap.get 0 (fieldName "version"))) ∧
    (names.Pairwise (NoClash builtinInCtype) ∧
      ¬(init .zero Heap.newestFirst builtinInCtype).Succeeds) ∧
    (names.Pairwise (NoClash booleanInCtype) ∧
      ¬(init .zero Heap.newestFirst booleanInCtype).Succeeds) ∧
    names.Pairwise (NoClash onlyGlob) ∧
      ∃ s, init .zero Heap.newestFirst onlyGlob = .ok s ∧
        call s (fun f args => .ok (f, args)) 2 (.table (onlyGlob.submodule "glob")) []
          = .error (.raises (.error "attempt to call a table value")) := by
  refine ⟨⟨?_, ?_⟩, ⟨?_, ?_⟩, ⟨?_, ?_⟩, ?_, ?_⟩
  · exact @pairwise_noClash _ "ctype" (by decide)
  · intro s hs
    obtain ⟨-, rfl⟩ := init_eq_ok_iff.mp hs
    have hsys := @get_assembled_sys Heap.newestFirst reservedInCompat
    have hversion := @get_assembled_version Heap.newestFirst reservedInCompat
    constructor
    · intro h
      have hv := h.eq_of_compat (v := .boolean true) (by decide)
      cases hsys.symm.trans hv
    · intro h
      have hv := h.eq_of_compat (v := .boolean true) (by decide)
      cases hversion.symm.trans hv
  · exact @pairwise_noClash _ "ctype" (by decide)
  · rintro ⟨s, hs⟩
    have hfits := (init_eq_ok_iff.mp hs).1.1 "ctype" (by decide)
    have hfree := (hfits ⟨fieldName "spawn", .function 2⟩ (by decide)).2
    exact absurd hfree (by decide)
  · exact @pairwise_noClash _ "ctype" (by decide)
  · rintro ⟨s, hs⟩
    have hfits := (init_eq_ok_iff.mp hs).1.1 "ctype" (by decide)
    have htext := (hfits ⟨.boolean true, .function 1⟩ (by decide)).1
    exact absurd htext (by decide)
  · exact @pairwise_noClash _ "glob" (by decide)
  · have hempty : ∀ m ∈ names, m ≠ "glob" → copiedEntries onlyGlob m = [] := by decide
    have hglob : Fits .zero onlyGlob onlyGlob.heap "glob" := by
      unfold Fits
      decide
    have hclear : Clear .zero onlyGlob := clear_of_fits hglob hempty
    have hselects : Selects onlyGlob (fieldName "glob") .nil := by
      refine .builtin (by decide) (by decide) fun n _ hcopied => ?_
      exact absurd rfl hcopied.2
    refine ⟨_, init_eq_ok_iff.mpr ⟨hclear, rfl⟩, ?_⟩
    exact (assembled_assembled hclear.2).uncallable "glob" (by decide) .nil hselects rfl _ 1 []

/-- With the function of `posix.fcntl` alone. -/
theorem fcntl_assembled : ∃ s, init .zero Heap.newestFirst onlyFcntl = .ok s ∧
    Assembled onlyFcntl s := by
  have hclear : Clear .zero onlyFcntl := by
    refine @clear_of_fits _ .zero "fcntl" ?_ ?_
    · unfold Fits
      decide
    · decide
  obtain ⟨s, hs⟩ := (init_assembles .zero Heap.newestFirst onlyFcntl).1.mpr hclear
  exact ⟨s, hs, (init_assembles .zero Heap.newestFirst onlyFcntl).2 s hs⟩

end Instances

end LuaPosix.Preloading

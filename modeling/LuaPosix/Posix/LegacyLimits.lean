import LuaPosix.Posix.IntegerFields
import LuaPosix.Posix.LegacyCalls

/-! # Limits that are given to legacy `setrlimit`

A limit that is not given is looked up, and passed on through a table as a signed integer. -/

namespace LuaPosix.LegacyCalls

open LuaPattern (LStr)
open Traversal (Layout)
open Resource (Rlimit)
open Heap (fieldName)

/-- An optional limit: nil where none is given, else a number that is an integer. -/
def Gives (v : LuaValue) : Option LuaInteger → Prop
  | none => v = .nil
  | some d => v.HasInteger d

/-- The limit that is given, or the present one. -/
def limitOr (v : LuaValue) (now : LuaInteger) : LuaValue := v.or (.integer now)

/-- A table of two limits, without other fields. -/
structure ShowsLimits (H : Heap) (p : Nat) (lim : Rlimit) : Prop where
  rlim_cur : (H.get p (fieldName "rlim_cur")).HasInteger lim.rlim_cur
  rlim_max : (H.get p (fieldName "rlim_max")).HasInteger lim.rlim_max
  known : ∀ key ∈ H.tables p, Heap.Known Resource.Srlimit_fields key

section Limits

variable {σ : Type} {S : Resource.System σ} {L : Layout fun _ : LuaValue => LuaValue}
  {w : World σ Resource.Call} {H : Heap} {p : Nat} {lim : Rlimit} {v : LuaValue}
  {d rc : LuaInteger} {g : Option LuaInteger}

/-- What has an integer value is a number. -/
theorem isNumber_of_hasInteger (h : v.HasInteger d) : v.IsNumber := by
  rcases h with rfl | rfl <;> rfl

/-- It is neither nil nor false. -/
theorem truthy_of_hasInteger (h : v.HasInteger d) : v.truthy = true := by
  rcases h with rfl | rfl <;> rfl

/-- Zero is no less given than another limit. -/
theorem hasInteger_limitOr (h : Gives v g) (now : LuaInteger) :
    (limitOr v now).HasInteger (g.getD now) := by
  rw [limitOr, LuaValue.or]
  cases g with
  | none =>
      have hnil : v = .nil := h
      rw [hnil]
      exact .inl rfl
  | some d =>
      have hd : v.HasInteger d := h
      rw [if_pos (truthy_of_hasInteger hd)]
      exact hd

/-- **A table of limits is read as these limits.** -/
theorem rlimitFields_of_shows (h : ShowsLimits H p lim) :
    Resource.rlimitFields S.num H p = .ok lim := by
  rw [Resource.rlimitFields,
    checkintegerfield_of_isNumber rfl (isNumber_of_hasInteger h.rlim_cur),
    checkintegerfield_of_isNumber rfl (isNumber_of_hasInteger h.rlim_max),
    tointeger_of_hasInteger h.rlim_cur, tointeger_of_hasInteger h.rlim_max,
    Heap.checkfieldnames_of_known Resource.names_Srlimit_fields h.known]
  rfl

/-- The table that is constructed shows the limits. -/
theorem shows_construct {cur max : LuaValue} (hcur : cur.HasInteger lim.rlim_cur)
    (hmax : max.HasInteger lim.rlim_max) :
    ShowsLimits (H.construct L [("rlim_cur", cur), ("rlim_max", max)]).2 H.size lim := by
  have hnodup : ([("rlim_cur", cur), ("rlim_max", max)].map Prod.fst).Nodup := by
    show ["rlim_cur", "rlim_max"].Nodup
    decide
  have hget := Heap.forall_get_construct (L := L) (H := H) hnodup
  obtain ⟨hgetcur, hgetmax⟩ := List.forall_mem_cons.mp hget
  refine ⟨hgetcur ▸ hcur, (List.forall_mem_singleton.mp hgetmax) ▸ hmax, fun key hkey => ?_⟩
  obtain ⟨f, hf, rfl⟩ := Heap.mem_newtable hkey
  have hname : f.1 ∈ [("rlim_cur", cur), ("rlim_max", max)].map Prod.fst :=
    List.mem_map_of_mem (List.mem_of_mem_filter hf)
  exact ⟨f.1, hname, rfl⟩

/-- `v or lim.name`, of a limit that is given or a table that shows the present one. -/
theorem run_orField {κ : Type} {w : World σ κ} {now : LuaInteger} {name : String}
    {lim v : LuaValue} (h : v.truthy = true ∨
      ∃ q, lim = .table q ∧ w.heap.get q (fieldName name) = .integer now) :
    (orField v lim name : BindingM σ κ LuaValue).run w = .ok (limitOr v now) w := by
  rw [orField, limitOr, LuaValue.or]
  split_ifs with hv
  · rfl
  · obtain ⟨q, rfl, hq⟩ := h.resolve_left hv
    rw [← hq]
    rfl

/-- The present limits, as `getrlimit` returns them. -/
theorem run_Pgetrlimit (hok : 0 ≤ cint (S.getrlimit (toInt rc) w.sys).1.1.value) :
    ∃ w', (first <$> Resource.Pgetrlimit S [.integer rc] L).run w = .ok (.table w.heap.size) w' ∧
      w'.calls = w.calls ++ [.getrlimit (toInt rc)] ∧
      w'.heap.get w.heap.size (fieldName "rlim_cur")
        = .integer (S.getrlimit (toInt rc) w.sys).1.2.rlim_cur ∧
      w'.heap.get w.heap.size (fieldName "rlim_max")
        = .integer (S.getrlimit (toInt rc) w.sys).1.2.rlim_max := by
  have hrc : checkint S.num.strtod [.integer rc] 1 = .ok (toInt rc) := rfl
  have hnargs : checknargs [.integer rc] 1 = .ok () := rfl
  let w₁ : World σ Resource.Call := { w with
    errno := (S.getrlimit (toInt rc) w.sys).1.1.errno
    sys := (S.getrlimit (toInt rc) w.sys).2
    calls := w.calls ++ [.getrlimit (toInt rc)]
    heap := (w.heap.newtable L (S.getrlimit (toInt rc) w.sys).1.2.fields).2 }
  refine ⟨w₁, ?_, rfl, Heap.get_newtable _ _, Heap.get_newtable _ _⟩
  rw [map_eq_pure_bind, EStateM.run_bind, Resource.Pgetrlimit, hrc, hnargs]
  simp only [EStateM.run_bind, BindingM.run_lua_ok, BindingM.run_syscall]
  rw [if_neg (Int.not_lt.mpr hok), EStateM.run_bind, BindingM.run_newtable]
  rfl

variable {cur max : LuaValue} {gcur gmax : Option LuaInteger}

/-- The limits that a call without them changes nothing of. -/
def limitsOr (now : Rlimit) (cur max : Option LuaInteger) : Rlimit :=
  ⟨cur.getD now.rlim_cur, max.getD now.rlim_max⟩

/-- A limit that is not given is nil. -/
theorem gives_none_iff (h : Gives v g) : v = .nil ↔ g = none := by
  cases g with
  | none => exact iff_of_true h rfl
  | some d =>
      have hd : v.HasInteger d := h
      refine iff_of_false ?_ (Option.some_ne_none d)
      rintro rfl
      rcases hd with hd | hd <;> cases hd

/-- **The table that is handed to `setrlimit`** shows the limits that are given and the present
ones for those that are not. -/
theorem run_limits (hcur : Gives cur gcur) (hmax : Gives max gmax)
    (hok : gcur = none ∨ gmax = none → 0 ≤ cint (S.getrlimit (toInt rc) w.sys).1.1.value) :
    ∃ p w', (limits L S (.integer rc) cur max).run w = .ok (.table p) w' ∧
      ShowsLimits w'.heap p (limitsOr (S.getrlimit (toInt rc) w.sys).1.2 gcur gmax) ∧
      w'.calls = w.calls ++ if gcur = none ∨ gmax = none then [.getrlimit (toInt rc)] else [] := by
  have hshows (H : Heap) : ShowsLimits (H.construct L
      [("rlim_cur", limitOr cur (S.getrlimit (toInt rc) w.sys).1.2.rlim_cur),
        ("rlim_max", limitOr max (S.getrlimit (toInt rc) w.sys).1.2.rlim_max)]).2 H.size
      (limitsOr (S.getrlimit (toInt rc) w.sys).1.2 gcur gmax) :=
    shows_construct (hasInteger_limitOr hcur _) (hasInteger_limitOr hmax _)
  have hiff : cur = .nil ∨ max = .nil ↔ gcur = none ∨ gmax = none :=
    or_congr (gives_none_iff hcur) (gives_none_iff hmax)
  rw [limits]
  by_cases hmissing : gcur = none ∨ gmax = none
  · obtain ⟨w', hrun, hcalls, hgetcur, hgetmax⟩ := run_Pgetrlimit (L := L) (hok hmissing)
    rw [if_pos (hiff.mpr hmissing), if_pos hmissing, BindingM.run_bind_of_ok hrun,
      BindingM.run_bind_of_ok (run_orField (.inr ⟨_, rfl, hgetcur⟩)),
      BindingM.run_bind_of_ok (run_orField (.inr ⟨_, rfl, hgetmax⟩)), BindingM.run_construct]
    exact ⟨_, _, rfl, hshows w'.heap, hcalls⟩
  · -- Both limits are given.
    have htruthy : cur.truthy = true ∧ max.truthy = true := by
      rw [not_or, ← ne_eq, Option.ne_none_iff_exists', ← ne_eq, Option.ne_none_iff_exists']
        at hmissing
      obtain ⟨⟨dcur, rfl⟩, ⟨dmax, rfl⟩⟩ := hmissing
      exact ⟨truthy_of_hasInteger hcur, truthy_of_hasInteger hmax⟩
    rw [if_neg (mt hiff.mp hmissing), if_neg hmissing,
      BindingM.run_bind_of_ok (BindingM.run_pure w LuaValue.nil),
      BindingM.run_bind_of_ok (run_orField (.inl htruthy.1)),
      BindingM.run_bind_of_ok (run_orField (.inl htruthy.2)), BindingM.run_construct]
    exact ⟨_, _, rfl, hshows w.heap, (List.append_nil _).symm⟩

/-- **Legacy `setrlimit` changes the limits it is given**, and leaves the others as they are. -/
theorem setrlimit_changes_given {args : List LuaValue} {name : LStr}
    (hname : first args = .string name)
    (hrc : RLIMIT_MAP.lookup (String.ofList (lower name)) = some rc)
    (hcur : Gives (args.getD 1 .nil) gcur) (hmax : Gives (args.getD 2 .nil) gmax)
    (hok : gcur = none ∨ gmax = none → 0 ≤ cint (S.getrlimit (toInt rc) w.sys).1.1.value) :
    BindingM.made w (setrlimit L S args)
      = (if gcur = none ∨ gmax = none then [.getrlimit (toInt rc)] else []) ++
        [.setrlimit (toInt rc) (limitsOr (S.getrlimit (toInt rc) w.sys).1.2 gcur gmax)] := by
  have hid : resourceId S.num (first args) = .ok (.integer rc) := by
    have hs : checklstring [.string name] S.num.numberText 1 = .ok name := rfl
    rw [hname, resourceId, hs]
    simp only [bind, Except.bind, hrc]
    rfl
  obtain ⟨p, w', hlimits, hshows, hcalls⟩ := run_limits (L := L) hcur hmax hok
  have hrid : checkint S.num.strtod [.integer rc, .table p] 1 = .ok (toInt rc) := rfl
  have htable : checktable [.integer rc, .table p] 2 = .ok p := rfl
  have hnargs : checknargs [.integer rc, .table p] 2 = .ok () := rfl
  refine BindingM.made_eq ?_
  rw [setrlimit, hid, BindingM.run_bind_of_ok (BindingM.run_lua_ok w _),
    BindingM.run_bind_of_ok hlimits, Resource.Psetrlimit, hrid, htable, hnargs]
  simp only [EStateM.run_bind, BindingM.run_lua_ok, BindingM.run_read,
    rlimitFields_of_shows hshows, BindingM.run_lift_ok, BindingM.run_syscall]
  rw [← List.append_assoc, ← hcalls]
  rfl

end Limits

/-- `setrlimit("NOFILE", 0)`, where both limits are `RLIM_INFINITY`. -/
theorem setrlimit_changes_given_zero :
    BindingM.made ⟨0, .empty, (), []⟩ (setrlimit Heap.newestFirst Resource.System.unlimited
        [.string "NOFILE".toList, .integer 0])
      = (if some (0 : LuaInteger) = none ∨ (none : Option LuaInteger) = none
          then [.getrlimit (toInt 7)] else []) ++
        [.setrlimit (toInt 7) (limitsOr ⟨-1, -1⟩ (some 0) none)] :=
  setrlimit_changes_given (S := Resource.System.unlimited)
    (w := ⟨0, .empty, (), []⟩) rfl (by decide) (.inl rfl) rfl fun _ => Int.le_refl 0

end LuaPosix.LegacyCalls

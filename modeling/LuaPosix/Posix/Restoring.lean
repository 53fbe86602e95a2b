import LuaPosix.Posix.FieldNames

/-! # Settings given back

A table that `tcgetwinsize` or `getrlimit` has returned can be given to `tcsetwinsize` or
`setrlimit`, later and for another descriptor or resource: the system is handed the struct that it
gave out, but for the size of a window in pixels, which a build may do without: it is 0 then. What
`msgctl` returns of a queue cannot be given back to it as it is. -/

namespace LuaPosix

open Traversal (Layout)
open Heap (fieldName fieldOf)
open FieldNames (checktable_of_argument)

/-- A table with these fields as they were pushed, and no others. -/
structure Heap.Pushed (H : Heap) (t : Nat) (fields : List (String × LuaValue)) : Prop where
  get : ∀ k, H.get t (fieldName k) = fieldOf fields k
  known : ∀ key ∈ H.tables t, ∃ f ∈ fields, key = fieldName f.1

section Pushed

variable {H H' : Heap} {t : Nat} {fields : List (String × LuaValue)}

/-- A new table. -/
theorem Heap.pushed_newtable (L : Layout fun _ : LuaValue => LuaValue) :
    (H.newtable L fields).2.Pushed H.size fields :=
  ⟨Heap.get_newtable fields, fun _ => Heap.mem_newtable⟩

/-- A table that nobody touches stays as it is. -/
theorem Heap.Pushed.of_tables_eq (h : H.Pushed t fields) (htables : H'.tables t = H.tables t) :
    H'.Pushed t fields where
  get k := by
    rw [Heap.get, htables]
    exact h.get k
  known key hkey := h.known key (htables ▸ hkey)

/-- The keys are names of fields. -/
theorem Heap.Pushed.known_names {S : List String} (h : H.Pushed t fields)
    (hfields : fields.map Prod.fst ⊆ S) : ∀ key ∈ H.tables t, Heap.Known S key := by
  intro key hkey
  obtain ⟨f, hf, rfl⟩ := h.known key hkey
  exact ⟨f.1, hfields (List.mem_map_of_mem hf), rfl⟩

/-- The value of a field. -/
theorem Heap.Pushed.get_of_mem (h : H.Pushed t fields) (hnodup : (fields.map Prod.fst).Nodup) :
    ∀ f ∈ fields, H.get t (fieldName f.1) = f.2 := fun f hf =>
  (h.get f.1).trans (Heap.fieldOf_of_mem hnodup hf)

end Pushed

namespace Restoring

variable {H : Heap} {t index : Nat} {N : Numerals}

/-! ## What the converters read -/

section Converters

open Heap (pushintegerfield optintfield_of_get checkintegerfield_of_get)

/-- A build knows the whole size, unless it does without the pixels and there are some. -/
theorem known_eq_iff {pixels : Bool} {ws : Termio.Winsize} :
    ws.known pixels = ws ↔ pixels = true ∨ ws.ws_xpixel = 0 ∧ ws.ws_ypixel = 0 := by
  cases pixels with
  | true => exact iff_of_true rfl (.inl rfl)
  | false =>
      constructor
      · intro h
        exact .inr ⟨(congrArg Termio.Winsize.ws_xpixel h).symm,
          (congrArg Termio.Winsize.ws_ypixel h).symm⟩
      · rintro (h | ⟨hxpixel, hypixel⟩)
        · cases h
        · cases ws
          cases hxpixel
          cases hypixel
          rfl

/-- The names of the fields that are pushed. -/
theorem map_fst_fields (pixels : Bool) (ws : Termio.Winsize) :
    (ws.fields pixels).map Prod.fst
      = ["ws_row", "ws_col"] ++ if pixels then ["ws_xpixel", "ws_ypixel"] else [] := by
  cases pixels <;> rfl

/-- What the build knows of a size comes back from the table. -/
theorem pixelFields_of_pushed (index : Nat) {pixels : Bool} {ws : Termio.Winsize}
    (hget : ∀ f ∈ ws.fields pixels, H.get t (fieldName f.1) = f.2) :
    ∃ p, Termio.pixelFields pixels index H t = .ok p ∧
      BitVec.ofInt 16 p.1 = (ws.known pixels).ws_xpixel ∧
      BitVec.ofInt 16 p.2 = (ws.known pixels).ws_ypixel := by
  cases pixels with
  | false => exact ⟨(0, 0), rfl, rfl, rfl⟩
  | true =>
      simp only [Termio.Winsize.fields, pushintegerfield, List.forall_mem_append,
        List.forall_mem_singleton, if_pos] at hget
      obtain ⟨-, hxpixel, hypixel⟩ := hget
      refine ⟨(_, _), ?_, ofInt_toInt_setWidth (by decide) _, ofInt_toInt_setWidth (by decide) _⟩
      rw [Termio.pixelFields, if_pos rfl, optintfield_of_get hxpixel, optintfield_of_get hypixel]
      rfl

/-- **`towinsize` reads the size that was pushed**, as far as the build knows it. -/
theorem winsizeFields_of_pushed {pixels : Bool} {ws : Termio.Winsize}
    (h : H.Pushed t (ws.fields pixels)) :
    Termio.winsizeFields pixels N index H t = .ok (ws.known pixels) := by
  have hsub : (ws.fields pixels).map Prod.fst ⊆ Termio.Swinsize_fields := by
    rw [map_fst_fields]
    cases pixels <;> decide
  have hnodup : ((ws.fields pixels).map Prod.fst).Nodup := by
    rw [map_fst_fields]
    cases pixels <;> decide
  have hnames : H.checkfieldnames N index t Termio.Swinsize_fields = .ok () :=
    Heap.checkfieldnames_of_known Termio.names_Swinsize_fields (h.known_names hsub)
  have hget := h.get_of_mem hnodup
  obtain ⟨p, hpixels, hxpixel, hypixel⟩ := pixelFields_of_pushed index hget
  simp only [Termio.Winsize.fields, pushintegerfield, List.forall_mem_append,
    List.forall_mem_singleton] at hget
  obtain ⟨⟨hrow, hcol⟩, -⟩ := hget
  rw [Termio.winsizeFields, optintfield_of_get hrow, optintfield_of_get hcol, hpixels, hnames]
  show Except.ok _ = _
  rw [ofInt_toInt_setWidth (by decide), ofInt_toInt_setWidth (by decide), hxpixel, hypixel]
  cases pixels <;> rfl

/-- **`setrlimit` reads the limits that were pushed.** -/
theorem rlimitFields_of_pushed {lim : Resource.Rlimit} (h : H.Pushed t lim.fields) :
    Resource.rlimitFields N H t = .ok lim := by
  have hnames : H.checkfieldnames N 2 t Resource.Srlimit_fields = .ok () :=
    Heap.checkfieldnames_of_known Resource.names_Srlimit_fields (h.known_names (List.Subset.refl _))
  have hget := h.get_of_mem (show Resource.Srlimit_fields.Nodup by decide)
  simp only [Resource.Rlimit.fields, pushintegerfield, List.forall_mem_append,
    List.forall_mem_singleton] at hget
  obtain ⟨hcur, hmax⟩ := hget
  rw [Resource.rlimitFields, checkintegerfield_of_get hcur, checkintegerfield_of_get hmax, hnames]
  rfl

end Converters

/-! ## Pairs of bindings -/

/-- A binding that returns a struct of the system as a table, and one that takes such a table: their
first argument says what the struct belongs to. -/
structure Pair (σ κ α : Type) where
  strtod : LuaPattern.LStr → Option Rat
  get : List LuaValue → BindingM σ κ (List LuaValue)
  set : List LuaValue → BindingM σ κ (List LuaValue)
  /-- What the system gives out. -/
  given : Int → σ → α
  /-- What of it is in the table. -/
  known : α → α
  /-- The call that hands it to the system. -/
  call : Int → α → κ

/-- A table that has been got, and that nobody has touched since, hands the system what is known of
the struct that it gave out, whatever else has happened. -/
def Pair.Restores {σ κ α : Type} (P : Pair σ κ α) : Prop :=
  ∀ (args args' : List LuaValue) (w w₁ w₂ : World σ κ) (t : Nat) (what' : Int),
    (P.get args).run w = .ok [.table t] w₁ → w₂.heap.tables t = w₁.heap.tables t →
    checkint P.strtod args' 1 = .ok what' → argument args' 2 = some (.table t) →
    args'.length ≤ 2 →
    ∃ what, checkint P.strtod args 1 = .ok what ∧
      BindingM.made w₂ (P.set args') = [P.call what' (P.known (P.given what w.sys))]

variable {σ : Type} {L : Layout fun _ : LuaValue => LuaValue} {args : List LuaValue}

/-- `tcgetwinsize` and `tcsetwinsize`. -/
def winsize (S : Termio.System σ) (L : Layout fun _ : LuaValue => LuaValue) :
    Pair σ Termio.Call Termio.Winsize where
  strtod := S.num.strtod
  get args := Termio.Ptcgetwinsize S args L
  set args := Termio.Ptcsetwinsize S args
  given fd s := (S.getWinsize fd s).1.2
  known := .known S.pixels
  call := .setWinsize

/-- `getrlimit` and `setrlimit`. -/
def rlimit (S : Resource.System σ) (L : Layout fun _ : LuaValue => LuaValue) :
    Pair σ Resource.Call Resource.Rlimit where
  strtod := S.num.strtod
  get args := Resource.Pgetrlimit S args L
  set args := Resource.Psetrlimit S args
  given resource s := (S.getrlimit resource s).1.2
  known := id
  call := .setrlimit

/-- No more arguments than there may be are accepted. -/
theorem checknargs_of_le {maxargs : Nat} (h : args.length ≤ maxargs) :
    checknargs args maxargs = .ok () := if_pos h

/-- The table that `tcgetwinsize` returns. -/
theorem pushed_of_Ptcgetwinsize {S : Termio.System σ} {w w₁ : World σ Termio.Call}
    (h : (Termio.Ptcgetwinsize S args L).run w = .ok [.table t] w₁) :
    ∃ fd, checkint S.num.strtod args 1 = .ok fd ∧
      w₁.heap.Pushed t ((S.getWinsize fd w.sys).1.2.fields S.pixels) := by
  rw [Termio.Ptcgetwinsize] at h
  cases hfd : checkint S.num.strtod args 1 with
  | error e =>
      rw [hfd] at h
      cases h
  | ok fd =>
  cases hnargs : checknargs args 1 with
  | error e =>
      rw [hfd, hnargs] at h
      cases h
  | ok u =>
  rw [hfd, hnargs] at h
  refine ⟨fd, rfl, ?_⟩
  simp only [EStateM.run_bind, BindingM.run_lua_ok, BindingM.run_syscall] at h
  -- an error has three results
  split_ifs at h
  · cases h
  · cases h
    exact Heap.pushed_newtable L

/-- The table that `getrlimit` returns. -/
theorem pushed_of_Pgetrlimit {S : Resource.System σ} {w w₁ : World σ Resource.Call}
    (h : (Resource.Pgetrlimit S args L).run w = .ok [.table t] w₁) :
    ∃ resource, checkint S.num.strtod args 1 = .ok resource ∧
      w₁.heap.Pushed t (S.getrlimit resource w.sys).1.2.fields := by
  rw [Resource.Pgetrlimit] at h
  cases hnargs : checknargs args 1 with
  | error e =>
      rw [hnargs] at h
      cases h
  | ok u =>
  cases hresource : checkint S.num.strtod args 1 with
  | error e =>
      rw [hnargs, hresource] at h
      cases h
  | ok resource =>
  rw [hnargs, hresource] at h
  refine ⟨resource, rfl, ?_⟩
  simp only [EStateM.run_bind, BindingM.run_lua_ok, BindingM.run_syscall] at h
  split_ifs at h
  · cases h
  · cases h
    exact Heap.pushed_newtable L

/-- The window size is given back. -/
theorem winsize_restores (S : Termio.System σ) (L : Layout fun _ : LuaValue => LuaValue) :
    (winsize S L).Restores := by
  intro args args' w w₁ w₂ t fd' hget htables hfd' htable hnargs
  obtain ⟨fd, hfd, hpushed⟩ := pushed_of_Ptcgetwinsize hget
  refine ⟨fd, hfd, BindingM.made_eq ?_⟩
  have hread : Termio.towinsize S args' 2 w₂.heap
      = .ok ((S.getWinsize fd w.sys).1.2.known S.pixels) := by
    rw [Termio.towinsize, checktable_of_argument htable]
    exact winsizeFields_of_pushed (hpushed.of_tables_eq htables)
  show (BindingM.worldAfter ((Termio.Ptcsetwinsize S args').run w₂)).calls = _
  rw [Termio.Ptcsetwinsize, show checkint S.num.strtod args' 1 = .ok fd' from hfd',
    checknargs_of_le hnargs]
  simp only [EStateM.run_bind, BindingM.run_lua_ok, BindingM.run_read, hread]
  rfl

/-- So are the limits. -/
theorem rlimit_restores (S : Resource.System σ) (L : Layout fun _ : LuaValue => LuaValue) :
    (rlimit S L).Restores := by
  intro args args' w w₁ w₂ t rid' hget htables hrid' htable hnargs
  obtain ⟨rid, hrid, hpushed⟩ := pushed_of_Pgetrlimit hget
  refine ⟨rid, hrid, BindingM.made_eq ?_⟩
  have hread : Resource.rlimitFields S.num w₂.heap t = .ok (S.getrlimit rid w.sys).1.2 :=
    rlimitFields_of_pushed (hpushed.of_tables_eq htables)
  show (BindingM.worldAfter ((Resource.Psetrlimit S args').run w₂)).calls = _
  rw [Resource.Psetrlimit, show checkint S.num.strtod args' 1 = .ok rid' from hrid',
    checktable_of_argument htable, checknargs_of_le hnargs]
  simp only [EStateM.run_bind, BindingM.run_lua_ok, BindingM.run_read, hread]
  rfl

/-! ## Message queues -/

variable {S : Messages.System σ}

/-- A result of a call is never a table. -/
theorem push_ne_table {n : Nat} (x : SysResult n) (strerror : Int → LuaPattern.LStr)
    (info : Option LuaPattern.LStr) (t : Nat) : x.push strerror info ≠ [.table t] := by
  intro h
  rw [SysResult.push, pushresult] at h
  split_ifs at h
  · cases h
  · cases h

/-- A table with another one in it. -/
theorem run_nested (w : World σ Messages.Call) (fields fields' : List (String × LuaValue))
    (key : LuaValue) : (do
      let table ← BindingM.newtable L fields
      let inner ← BindingM.newtable L fields'
      BindingM.settable L table key inner
      return table : BindingM σ Messages.Call LuaValue).run w
        = .ok (.table w.heap.size) { w with
            heap := ((w.heap.newtable L fields).2.newtable L fields').2.set L w.heap.size key
              (.table (w.heap.newtable L fields).2.size) } := rfl

/-- What `pushmsqid` makes has a field that `tomsqid` does not know. -/
theorem msg_qnum_mem (msqid : Messages.MsqidDs) {w w₁ : World σ Messages.Call}
    (h : (Messages.pushmsqid L msqid).run w = .ok (.table t) w₁) :
    fieldName "msg_qnum" ∈ w₁.heap.tables t := by
  let H₁ := (w.heap.newtable L msqid.fields).2
  let H₂ := (H₁.newtable L msqid.permFields).2
  obtain ⟨rfl, hheap⟩ : t = w.heap.size ∧
      w₁.heap = H₂.set L w.heap.size (fieldName "msg_perm") (.table H₁.size) := by
    rw [Messages.pushmsqid, run_nested] at h
    injection h with htable hworld
    exact ⟨(LuaValue.table.inj htable).symm, (congrArg World.heap hworld).symm⟩
  -- the table of permissions is a new one, and its place in the first is another key
  have hne : w.heap.size ≠ H₁.size := by
    rw [show H₁.size = w.heap.size + 1 from Heap.size_newtable _]
    exact Nat.ne_of_lt (Nat.lt_succ_self _)
  have hget : w₁.heap.get w.heap.size (fieldName "msg_qnum") = .integer msqid.msg_qnum := by
    rw [hheap, Heap.get_set_of_ne _ _ (by decide), Heap.get, Heap.tables_newtable_of_ne hne]
    have hnodup : (msqid.fields.map Prod.fst).Nodup := by
      show List.Nodup ["msg_qnum", "msg_qbytes", "msg_lspid", "msg_lrpid", "msg_stime",
        "msg_rtime", "msg_ctime"]
      decide
    have hmem : ("msg_qnum", .integer msqid.msg_qnum) ∈ msqid.fields := List.mem_cons_self
    exact (Heap.get_newtable msqid.fields "msg_qnum").trans (Heap.fieldOf_of_mem hnodup hmem)
  by_contra hnot
  rw [Heap.get, AList.lookup_eq_none.mpr hnot] at hget
  cases hget

/-- The table that `msgctl` returns, which only `IPC_STAT` does. -/
theorem msg_qnum_mem_of_Pmsgctl {w w₁ : World σ Messages.Call}
    (h : (Messages.Pmsgctl S args L).run w = .ok [.table t] w₁) :
    fieldName "msg_qnum" ∈ w₁.heap.tables t := by
  rw [Messages.Pmsgctl] at h
  obtain ⟨id, w₂, -, h⟩ := BindingM.run_bind_eq_ok h
  obtain ⟨cmd, w₃, -, h⟩ := BindingM.run_bind_eq_ok h
  cases hcmd : Messages.Cmd.ofInt cmd with
  | none =>
      rw [hcmd] at h
      obtain ⟨-, w₄, -, h⟩ := BindingM.run_bind_eq_ok h
      cases h
  | some c =>
  rw [hcmd] at h
  cases c with
  | IPC_RMID =>
      obtain ⟨-, w₄, -, h⟩ := BindingM.run_bind_eq_ok h
      obtain ⟨x, w₅, -, h⟩ := BindingM.run_bind_eq_ok h
      exact absurd (EStateM.Result.ok.inj h).1 (push_ne_table x _ _ _)
  -- an integer or an error, but no table
  | IPC_SET =>
      obtain ⟨-, w₄, -, h⟩ := BindingM.run_bind_eq_ok h
      obtain ⟨msqid, w₅, -, h⟩ := BindingM.run_bind_eq_ok h
      obtain ⟨x, w₆, -, h⟩ := BindingM.run_bind_eq_ok h
      exact absurd (EStateM.Result.ok.inj h).1 (push_ne_table x _ _ _)
  | IPC_STAT =>
      obtain ⟨-, w₄, -, h⟩ := BindingM.run_bind_eq_ok h
      obtain ⟨x, w₅, -, h⟩ := BindingM.run_bind_eq_ok h
      split_ifs at h
      · cases h
      · obtain ⟨table, w₆, hpush, h⟩ := BindingM.run_bind_eq_ok h
        cases h
        exact msg_qnum_mem x.2 hpush

/-- The number of messages is not among the fields that `msgctl` sets. -/
theorem not_listed_msg_qnum : ¬Heap.Listed Messages.Smsqid_fields (fieldName "msg_qnum") := by
  rintro ⟨s, hs, name, hname, heq⟩
  cases hs
  have hne : ∀ name ∈ Messages.Smsqid_fields, name.toList ≠ cstring "msg_qnum".toList := by decide
  exact hne name hname heq

/-- A table that `msgctl` has returned is refused, and nothing is called. -/
theorem raisesArg_Pmsgctl {args' : List LuaValue} {w w₁ w₂ : World σ Messages.Call}
    (hget : (Messages.Pmsgctl S args L).run w = .ok [.table t] w₁)
    (htables : w₂.heap.tables t = w₁.heap.tables t)
    (hcmd : checkint S.num.strtod args' 2 = .ok Messages.Cmd.IPC_SET.value)
    (htable : argument args' 3 = some (.table t)) :
    BindingM.RaisesArg (Messages.Pmsgctl S args' L) w₂ := by
  have hunknown : FieldNames.msqid.Unknown w₂.heap t :=
    ⟨_, htables ▸ msg_qnum_mem_of_Pmsgctl hget, not_listed_msg_qnum⟩
  have hread : (Messages.tomsqid S args' 3 w₂.heap).RaisesArg := by
    rw [Messages.tomsqid, checktable_of_argument htable]
    exact (FieldNames.checks_msqidFields S _).raisesArg fun h => hunknown.not_accepts h.1
  refine .lua BindingM.onlyArg_checkint fun _ _ => .lua BindingM.onlyArg_checkint fun cmd h => ?_
  rw [Except.ok.inj (h.symm.trans hcmd)]
  exact .lua (BindingM.onlyArg_checknargs 3) fun _ _ => .read hread

/-- **What is given back**: a table that `tcgetwinsize` or `getrlimit` has returned hands the system
the struct that it gave out, for any descriptor or resource, but for pixels that the build does
without; one that `msgctl` has returned is always refused. -/
theorem given_back {τ υ : Type} (T : Termio.System σ) (R : Resource.System τ)
    (M : Messages.System υ) (L : Layout fun _ : LuaValue => LuaValue) :
    ((winsize T L).Restores ∧ ∀ ws, (winsize T L).known ws = ws ↔
      T.pixels = true ∨ ws.ws_xpixel = 0 ∧ ws.ws_ypixel = 0) ∧
    ((rlimit R L).Restores ∧ ∀ lim, (rlimit R L).known lim = lim) ∧
      ∀ (args args' : List LuaValue) (w w₁ w₂ : World υ Messages.Call) (t : Nat),
        (Messages.Pmsgctl M args L).run w = .ok [.table t] w₁ →
        w₂.heap.tables t = w₁.heap.tables t →
        checkint M.num.strtod args' 2 = .ok Messages.Cmd.IPC_SET.value →
        argument args' 3 = some (.table t) →
        BindingM.RaisesArg (Messages.Pmsgctl M args' L) w₂ :=
  ⟨⟨winsize_restores T L, fun _ => known_eq_iff⟩, ⟨rlimit_restores R L, fun _ => rfl⟩,
    fun _ _ _ _ _ _ hget htables hcmd htable => raisesArg_Pmsgctl hget htables hcmd htable⟩

/-- The limits of one resource, given to another. -/
theorem given_back_unlimited : ∃ t w,
    (Resource.Pgetrlimit .unlimited [.integer 0] Heap.newestFirst).run .start
      = .ok [.table t] w ∧
    BindingM.made w (Resource.Psetrlimit .unlimited [.integer 7, .table t])
      = [.setrlimit 7 ⟨-1, -1⟩] := by
  have hgiven := (given_back Termio.System.noTerminal Resource.System.unlimited
    Messages.System.quiet Heap.newestFirst).2.1.1
  refine ⟨_, _, rfl, ?_⟩
  obtain ⟨resource, hresource, hmade⟩ := hgiven [.integer 0] [.integer 7, .table 0] .start _ _ 0 7
    rfl rfl rfl rfl (by decide)
  exact hmade

end Restoring

end LuaPosix

import LuaPosix.Lua.Binding

/-! # `chown` and `lchown`

An owner or a group is given as a number, as a name, or not at all. To C the number -1 says that
it stays as it is; `mygetuid` and `mygetgid` use it for a name that nobody has as well, and take
numbers that are not Lua integers for names. -/

namespace LuaPosix.Owner

open LuaPattern (LStr)

/-- The calls of the C library. -/
inductive Call where
  | getpwnam (name : LStr)
  | getgrnam (name : LStr)
  | chown (path : LStr) (uid gid : BitVec 32)
  | lchown (path : LStr) (uid gid : BitVec 32)
  deriving DecidableEq

/-- What the rest of the system answers, in a state of its own. -/
structure System (σ : Type) where
  num : Numerals
  strerror : Int → LStr
  /-- `pw_uid` of the entry. -/
  getpwnam : (name : LStr) → σ → Option (BitVec 32)
  /-- `gr_gid` of the entry. -/
  getgrnam : (name : LStr) → σ → Option (BitVec 32)
  chown : (path : LStr) → (uid gid : BitVec 32) → σ → SysResult 32 × σ
  lchown : (path : LStr) → (uid gid : BitVec 32) → σ → SysResult 32 × σ

section Model

variable {σ : Type} (S : System σ) (args : List LuaValue)

/-- What `mygetuid` and `mygetgid` do, each with its database. -/
def mygetid (call : LStr → Call) (lookup : LStr → σ → Option (BitVec 32)) (i : Nat) :
    BindingM σ Call (BitVec 32) :=
  match argument args i with
  | none | some .nil => return -1
  | some (.integer d) => return d.setWidth 32
  | some v =>
      -- A float is no `lua_isinteger`, whatever its value: its text is looked up.
      match S.num.tolstring v with
      | some s => do
          let p ← BindingM.libcall (call (cstring s)) fun sys => (lookup (cstring s) sys, sys)
          -- For a name that nobody has, the number that leaves the owner as it is.
          return p.getD (-1)
      | none => liftM (.error (argtypeerror args i "integer, nil or string") : LuaM (BitVec 32))

/-- `mygetuid(L, i)`. -/
def mygetuid (i : Nat) : BindingM σ Call (BitVec 32) := mygetid S args .getpwnam S.getpwnam i

/-- `mygetgid(L, i)`. -/
def mygetgid (i : Nat) : BindingM σ Call (BitVec 32) := mygetid S args .getgrnam S.getgrnam i

/-- What `chown` and `lchown` do, each with its system call. -/
def changeOwner (call : LStr → BitVec 32 → BitVec 32 → Call)
    (f : LStr → BitVec 32 → BitVec 32 → σ → SysResult 32 × σ) :
    BindingM σ Call (List LuaValue) := do
  let path ← checklstring args S.num.numberText 1
  let uid ← mygetuid S args 2
  let gid ← mygetgid S args 3
  checknargs args 3
  let x ← BindingM.syscall (call (cstring path) uid gid) SysResult.errno (f (cstring path) uid gid)
  return x.push S.strerror (some (cstring path))

/-- `chown(path, uid, gid)`. -/
def Pchown : BindingM σ Call (List LuaValue) := changeOwner S args .chown S.chown

/-- `lchown(path, uid, gid)`. -/
def Plchown : BindingM σ Call (List LuaValue) := changeOwner S args .lchown S.lchown

/-- The two bindings. -/
inductive Changing where
  | chown
  | lchown
  deriving DecidableEq, Repr

/-- The system call. -/
def Changing.call : Changing → LStr → BitVec 32 → BitVec 32 → Call
  | .chown => .chown
  | .lchown => .lchown

/-- The binding. -/
def Changing.run : Changing → BindingM σ Call (List LuaValue)
  | .chown => Pchown S args
  | .lchown => Plchown S args

/-- The same system, where the system calls answer as `f` says. -/
def System.answering (f : LStr → BitVec 32 → BitVec 32 → σ → SysResult 32 × σ) : System σ :=
  { S with chown := f, lchown := f }

end Model

/-! ## What an argument means -/

/-- An owner as a number: -1 leaves the owner as it is. -/
def idValue (id : BitVec 32) : Int := if id = -1 then -1 else id.toNat

/-- What an argument means: nothing leaves the owner as it is, a number is the owner of that
number, and a text is the owner that has it for a name. -/
def Meant (lookup : LStr → Option (BitVec 32)) (id : BitVec 32) : Option LuaValue → Prop
  | none | some .nil => idValue id = -1
  | some (.integer i) => i.toInt = idValue id
  | some (.float q) => q = idValue id
  | some (.string s) => cstring s = s ∧ lookup s = some id ∧ idValue id ≠ -1
  | some _ => False

/-- Arguments for which the binding finds what is meant: an integer is an `uid_t` or -1, a text is
a name without zeros, and a float is the number of the owner that has its text for a name (or -1,
if there is none). -/
def Found (N : Numerals) (lookup : LStr → Option (BitVec 32)) : Option LuaValue → Prop
  | none | some .nil => True
  | some (.integer i) => -1 ≤ i.toInt ∧ i.toInt < 2 ^ 32 - 1
  | some (.float q) => match lookup (cstring (N.numberText (.float q))) with
      | some id => q = idValue id
      | none => q = -1
  | some (.string s) => cstring s = s ∧ ∃ id, lookup s = some id ∧ idValue id ≠ -1
  | some _ => False

/-- Arguments of other types are refused. -/
def OfType (v : Option LuaValue) : Prop :=
  LuaValue.typename v ∈ ["no value", "nil", "number", "string"]

/-- Whether an argument has the type can be decided. -/
instance (v : Option LuaValue) : Decidable (OfType v) := inferInstanceAs (Decidable (_ ∈ _))

/-- The number `mygetuid` and `mygetgid` return for an argument that is not refused. -/
def idOf (N : Numerals) (lookup : LStr → Option (BitVec 32)) : Option LuaValue → BitVec 32
  | none | some .nil => -1
  | some (.integer i) => i.setWidth 32
  | some v => ((N.tolstring v).bind fun s => lookup (cstring s)).getD (-1)

/-- Two ids that the argument names alike are one. -/
theorem idValue_inj {id id' : BitVec 32} (h : idValue id = idValue id') : id = id' := by
  by_cases hid : id = -1
  · by_cases hid' : id' = -1
    · rw [hid, hid']
    · rw [idValue, idValue, if_pos hid, if_neg hid'] at h
      omega
  · by_cases hid' : id' = -1
    · rw [idValue, idValue, if_neg hid, if_pos hid'] at h
      omega
    · rw [idValue, idValue, if_neg hid, if_neg hid'] at h
      exact BitVec.eq_of_toNat_eq (Int.ofNat.inj h)

/-- An argument means one owner at most. -/
theorem Meant.unique {lookup : LStr → Option (BitVec 32)} {id id' : BitVec 32}
    {v : Option LuaValue} (h : Meant lookup id v) (h' : Meant lookup id' v) : id = id' := by
  rcases v with - | v
  · exact idValue_inj (Eq.trans h (Eq.symm h'))
  · cases v with
    | nil => exact idValue_inj (Eq.trans h (Eq.symm h'))
    | integer i => exact idValue_inj (Eq.trans (Eq.symm h) h')
    | float q => exact idValue_inj (Rat.intCast_inj.mp (Eq.trans (Eq.symm h) h'))
    | string s => exact Option.some.inj (h.2.1.symm.trans h'.2.1)
    | _ => exact absurd h not_false

/-- An argument that means something is not refused. -/
theorem Meant.ofType {lookup : LStr → Option (BitVec 32)} {id : BitVec 32}
    {v : Option LuaValue} (h : Meant lookup id v) : OfType v := by
  rcases v with - | v
  · decide
  · cases v with
    | nil => decide
    | integer i => exact List.mem_of_elem_eq_true rfl
    | float q => exact List.mem_of_elem_eq_true rfl
    | string s => exact List.mem_of_elem_eq_true rfl
    | _ => exact absurd h not_false

/-- The number of an integer is the integer itself exactly if it is an `uid_t` or -1. -/
theorem toInt_eq_idValue_iff (i : LuaInteger) :
    i.toInt = idValue (i.setWidth 32) ↔ -1 ≤ i.toInt ∧ i.toInt < 2 ^ 32 - 1 := by
  -- Everything is said by the low 32 bits, which are all ones exactly for what ends as -1.
  have hmod : ((i.setWidth 32).toNat : Int) = i.toInt % 2 ^ 32 := by
    rw [BitVec.toNat_setWidth, BitVec.toInt_eq_toNat_cond]
    split_ifs <;> omega
  have hneg : i.setWidth 32 = -1 ↔ i.toInt % 2 ^ 32 = 2 ^ 32 - 1 := by
    rw [← hmod, ← BitVec.toNat_inj]
    show _ = 4294967295 ↔ _
    omega
  rw [idValue]
  split_ifs with hid
  · rw [hneg] at hid
    omega
  · rw [hneg] at hid
    rw [hmod]
    omega

/-- **The binding finds an owner exactly if the number it has for an argument is what is meant.** -/
theorem found_iff (N : Numerals) {lookup : LStr → Option (BitVec 32)} {v : Option LuaValue} :
    Found N lookup v ↔ Meant lookup (idOf N lookup v) v := by
  rcases v with - | v
  · exact iff_of_true trivial rfl
  · cases v with
    -- Only numbers and texts may miss what is meant.
    | nil => exact iff_of_true trivial rfl
    | integer i => exact (toInt_eq_idValue_iff i).symm
    | float q =>
        show (match lookup (cstring (N.numberText (.float q))) with
          | some id => q = idValue id
          | none => q = -1) ↔ q = idValue ((lookup (cstring (N.numberText (.float q)))).getD (-1))
        cases lookup (cstring (N.numberText (.float q))) with
        | some id => exact Iff.rfl
        | none =>
            show q = -1 ↔ q = ((-1 : Int) : Rat)
            rw [Rat.intCast_neg, Rat.intCast_one]
    | string s =>
        show (cstring s = s ∧ ∃ id, lookup s = some id ∧ idValue id ≠ -1) ↔
          cstring s = s ∧ lookup s = some ((lookup (cstring s)).getD (-1)) ∧
            idValue ((lookup (cstring s)).getD (-1)) ≠ -1
        refine and_congr_right fun hs => ?_
        rw [hs]
        constructor
        · rintro ⟨id, hid, hne⟩
          rw [hid]
          exact ⟨rfl, hne⟩
        · rintro ⟨hid, hne⟩
          exact ⟨_, hid, hne⟩
    | _ => exact Iff.rfl

/-! ## Runs -/

section Runs

variable {σ : Type} {S : System σ} {args : List LuaValue} {w : World σ Call} {i : Nat}
  {call : LStr → Call} {lookup : LStr → σ → Option (BitVec 32)}

variable (call lookup) in
/-- An argument that is not refused is looked up at most. -/
theorem run_mygetid (hv : OfType (argument args i)) :
    ∃ l w', (mygetid S args call lookup i).run w
        = .ok (idOf S.num (fun name => lookup name w.sys) (argument args i)) w' ∧
      w'.sys = w.sys ∧ w'.calls = w.calls ++ l ∧ ∀ c ∈ l, ∃ name, c = call name := by
  have hnone : ∀ c ∈ ([] : List Call), ∃ name, c = call name := fun c hc =>
    absurd hc List.not_mem_nil
  rw [mygetid]
  cases harg : argument args i with
  | none => exact ⟨[], w, rfl, rfl, (List.append_nil _).symm, hnone⟩
  | some v =>
      rw [harg] at hv
      have hlookup (s : LStr) : ∀ c ∈ [call (cstring s)], ∃ name, c = call name := fun c hc =>
        ⟨cstring s, List.mem_singleton.mp hc⟩
      cases v with
      | nil => exact ⟨[], w, rfl, rfl, (List.append_nil _).symm, hnone⟩
      | integer d => exact ⟨[], w, rfl, rfl, (List.append_nil _).symm, hnone⟩
      | float q => exact ⟨_, _, rfl, rfl, rfl, hlookup _⟩
      | nonfinite => exact ⟨_, _, rfl, rfl, rfl, hlookup _⟩
      | string s => exact ⟨_, _, rfl, rfl, rfl, hlookup _⟩
      | _ => exact absurd hv (by simp [OfType, LuaValue.typename])

variable (call lookup) in
/-- An argument that is refused raises an error. -/
theorem run_mygetid_error (hv : ¬OfType (argument args i)) :
    ∃ e, (mygetid S args call lookup i).run w = .error e w := by
  rw [mygetid]
  cases harg : argument args i with
  | none =>
      rw [harg] at hv
      exact absurd (by decide) hv
  | some v =>
      rw [harg] at hv
      cases v with
      | nil => exact absurd (by decide) hv
      | integer d => exact absurd (List.mem_of_elem_eq_true rfl) hv
      | float q => exact absurd (List.mem_of_elem_eq_true rfl) hv
      | nonfinite => exact absurd (by decide) hv
      | string s => exact absurd (List.mem_of_elem_eq_true rfl) hv
      | _ => exact ⟨_, rfl⟩

/-- The users and the groups by their names, at the time of a call. -/
def System.users (S : System σ) (s : σ) (name : LStr) : Option (BitVec 32) := S.getpwnam name s

/-- The groups by name. -/
def System.groups (S : System σ) (s : σ) (name : LStr) : Option (BitVec 32) := S.getgrnam name s

variable (S args) in
/-- Arguments that pass the checks. -/
structure Accepted where
  path : LStr
  hpath : checklstring args S.num.numberText 1 = .ok path
  huid : OfType (argument args 2)
  hgid : OfType (argument args 3)
  hnargs : args.length ≤ 3

/-- The numbers that are passed on. -/
def Accepted.uid (_ : Accepted S args) (s : σ) : BitVec 32 :=
  idOf S.num (S.users s) (argument args 2)

/-- The group id that an accepted argument stands for. -/
def Accepted.gid (_ : Accepted S args) (s : σ) : BitVec 32 :=
  idOf S.num (S.groups s) (argument args 3)

variable {change : LStr → BitVec 32 → BitVec 32 → Call}
  {f : LStr → BitVec 32 → BitVec 32 → σ → SysResult 32 × σ}

variable (change f) in
/-- Where no argument is refused, one system call follows the lookups. -/
theorem Accepted.run_changeOwner (A : Accepted S args) :
    ∃ l w', (∀ c ∈ l, ∃ name, c = .getpwnam name ∨ c = .getgrnam name) ∧
      w'.calls = w.calls ++ (l ++ [change (cstring A.path) (A.uid w.sys) (A.gid w.sys)]) ∧
      (changeOwner S args change f).run w = .ok ((f (cstring A.path) (A.uid w.sys)
        (A.gid w.sys) w.sys).1.push S.strerror (some (cstring A.path))) w' := by
  obtain ⟨l₁, w₁, hrun₁, hsys₁, hcalls₁, hl₁⟩ := run_mygetid (S := S) (w := w)
    .getpwnam S.getpwnam A.huid
  obtain ⟨l₂, w₂, hrun₂, hsys₂, hcalls₂, hl₂⟩ := run_mygetid (S := S) (w := w₁)
    .getgrnam S.getgrnam A.hgid
  rw [hsys₁] at hrun₂ hsys₂
  have hargs : checknargs args 3 = .ok () := if_pos A.hnargs
  refine ⟨l₁ ++ l₂, { w₂ with
    errno := (f (cstring A.path) (A.uid w.sys) (A.gid w.sys) w.sys).1.errno
    sys := (f (cstring A.path) (A.uid w.sys) (A.gid w.sys) w.sys).2
    calls := w₂.calls ++ [change (cstring A.path) (A.uid w.sys) (A.gid w.sys)] },
    fun c hc => ?_, ?_, ?_⟩
  -- Before the change of the owner come the lookups, at most two.
  · rcases List.mem_append.mp hc with hmem | hmem
    · obtain ⟨name, hname⟩ := hl₁ c hmem
      exact ⟨name, .inl hname⟩
    · obtain ⟨name, hname⟩ := hl₂ c hmem
      exact ⟨name, .inr hname⟩
  · rw [hcalls₂, hcalls₁, List.append_assoc, List.append_assoc, List.append_assoc]
  · rw [changeOwner, A.hpath, BindingM.run_bind_of_ok (BindingM.run_lua_ok w A.path), mygetuid,
      BindingM.run_bind_of_ok hrun₁, mygetgid, BindingM.run_bind_of_ok hrun₂, hargs,
      BindingM.run_bind_of_ok (BindingM.run_lua_ok w₂ ()),
      BindingM.run_bind_of_ok (BindingM.run_syscall w₂ _ _ _), hsys₂]
    rfl

variable (change f) in
/-- Where an argument is refused, an error is raised. -/
theorem run_changeOwner_error (h : ¬Nonempty (Accepted S args)) :
    ∃ e w', (changeOwner S args change f).run w = .error e w' := by
  rw [changeOwner]
  -- What is refused is the path, the owner, the group or a fourth argument, in this order.
  cases hpath : checklstring args S.num.numberText 1 with
  | error e => exact ⟨_, _, rfl⟩
  | ok path =>
      rw [BindingM.run_bind_of_ok (BindingM.run_lua_ok w path), mygetuid]
      by_cases huid : OfType (argument args 2)
      · obtain ⟨l₁, w₁, hrun₁, -⟩ := run_mygetid (S := S) (w := w) .getpwnam
          S.getpwnam huid
        rw [BindingM.run_bind_of_ok hrun₁, mygetgid]
        by_cases hgid : OfType (argument args 3)
        · obtain ⟨l₂, w₂, hrun₂, -⟩ := run_mygetid (S := S) (w := w₁) .getgrnam
            S.getgrnam hgid
          have hnargs : ¬args.length ≤ 3 := fun hle => h ⟨⟨path, hpath, huid, hgid, hle⟩⟩
          rw [BindingM.run_bind_of_ok hrun₂, checknargs, if_neg hnargs]
          exact ⟨_, _, rfl⟩
        · obtain ⟨e, herr⟩ := run_mygetid_error (S := S) (w := w₁) .getgrnam
            S.getgrnam hgid
          rw [EStateM.run_bind, herr]
          exact ⟨_, _, rfl⟩
      · obtain ⟨e, herr⟩ := run_mygetid_error (S := S) (w := w) .getpwnam
          S.getpwnam huid
        rw [EStateM.run_bind, herr]
        exact ⟨_, _, rfl⟩

variable {b : Changing}

/-- The binding is one of the two instances. -/
theorem Changing.run_eq (b : Changing) : ∃ f, b.run S args = changeOwner S args b.call f := by
  cases b with
  | chown => exact ⟨_, rfl⟩
  | lchown => exact ⟨_, rfl⟩

/-- Where the system answers, the binding is the change of owner itself. -/
theorem Changing.run_answering (b : Changing) :
    b.run (S.answering f) args = changeOwner S args b.call f := by
  cases b <;> rfl

/-- The call that is made is the one for the numbers that the arguments have. -/
theorem Accepted.call_mem_made_iff (A : Accepted S args) {path : LStr} {uid gid : BitVec 32} :
    b.call path uid gid ∈ BindingM.made w (b.run S args) ↔
      path = cstring A.path ∧ uid = A.uid w.sys ∧ gid = A.gid w.sys := by
  obtain ⟨f, hf⟩ : ∃ f, b.run S args = changeOwner S args b.call f := b.run_eq
  obtain ⟨l, w', hl, hcalls, hrun⟩ := A.run_changeOwner (w := w) b.call f
  have hmade : BindingM.made w (b.run S args)
      = l ++ [b.call (cstring A.path) (A.uid w.sys) (A.gid w.sys)] := by
    refine BindingM.made_eq ?_
    rw [hf, hrun]
    exact hcalls
  rw [hmade, List.mem_append, List.mem_singleton]
  constructor
  · rintro (hmem | heq)
    · obtain ⟨name, hname⟩ := hl _ hmem
      -- A lookup is no change of the owner.
      cases b <;> rcases hname with hname | hname <;> cases hname
    · cases b <;> cases heq <;> exact ⟨rfl, rfl, rfl⟩
  · rintro ⟨rfl, rfl, rfl⟩
    exact .inr rfl

end Runs

/-! ## The owner that is named -/

/-- The binding acts on exactly the owner and the group that are named: they are passed on, and
where one of the arguments means nothing, the binding does not succeed, whatever the system call
would do. -/
structure Changing.ActsExactly {σ : Type} (b : Changing) (S : System σ) (args : List LuaValue)
    (w : World σ Call) : Prop where
  passed : ∀ path uid gid, checklstring args S.num.numberText 1 = .ok path → args.length ≤ 3 →
    Meant (S.users w.sys) uid (argument args 2) → Meant (S.groups w.sys) gid (argument args 3) →
      b.call (cstring path) uid gid ∈ BindingM.made w (b.run S args)
  reported : ∀ f, (¬∃ uid gid, Meant (S.users w.sys) uid (argument args 2) ∧
    Meant (S.groups w.sys) gid (argument args 3)) →
      ∀ w', (b.run (S.answering f) args).run w ≠ .ok [.integer 0] w'

/-- **`chown` acts on exactly the owner named if and only if it finds the owner and the group**, or
refuses an argument. -/
theorem Changing.actsExactly_iff {σ : Type} (S : System σ) (args : List LuaValue)
    (w : World σ Call) (b : Changing) : b.ActsExactly S args w ↔
      (Nonempty (Accepted S args) → Found S.num (S.users w.sys) (argument args 2) ∧
        Found S.num (S.groups w.sys) (argument args 3)) := by
  constructor
  · rintro h ⟨A⟩
    have hsome : ∃ uid gid, Meant (S.users w.sys) uid (argument args 2) ∧
        Meant (S.groups w.sys) gid (argument args 3) := by
      by_contra hnone
      -- A system call that succeeds would be reported as a success.
      obtain ⟨l, w', -, -, hrun⟩ := A.run_changeOwner (w := w) b.call
        fun _ _ _ s => (.returned 0 0, s)
      refine h.reported (fun _ _ _ s => (.returned 0 0, s)) hnone w' ?_
      rw [b.run_answering, hrun]
      rfl
    obtain ⟨uid, gid, huid, hgid⟩ := hsome
    obtain ⟨-, rfl, rfl⟩ := A.call_mem_made_iff.mp
      (h.passed A.path uid gid A.hpath A.hnargs huid hgid)
    exact ⟨(found_iff S.num).mpr huid, (found_iff S.num).mpr hgid⟩
  · intro h
    constructor
    · intro path uid gid hpath hnargs huid hgid
      have A : Accepted S args := ⟨path, hpath, huid.ofType, hgid.ofType, hnargs⟩
      obtain ⟨hfound, hfound'⟩ := h ⟨A⟩
      refine A.call_mem_made_iff.mpr ⟨?_, ?_, ?_⟩
      · rw [Except.ok.inj (hpath.symm.trans A.hpath)]
      · exact huid.unique ((found_iff S.num).mp hfound)
      · exact hgid.unique ((found_iff S.num).mp hfound')
    · intro f hnone w' hrun
      by_cases hA : Nonempty (Accepted S args)
      · obtain ⟨hfound, hfound'⟩ := h hA
        exact hnone ⟨_, _, (found_iff S.num).mp hfound, (found_iff S.num).mp hfound'⟩
      · obtain ⟨e, w'', herr⟩ := run_changeOwner_error (w := w) b.call f hA
        rw [b.run_answering, herr] at hrun
        cases hrun

/-- A small instance: `root` is the only user and there are no groups, and everything may be
changed. -/
def System.rootOnly : System Unit where
  num := .zero
  strerror _ := []
  getpwnam name _ := if name = "root".toList then some 0 else none
  getgrnam _ _ := none
  chown _ _ _ s := (.returned 0 0, s)
  lchown _ _ _ s := (.returned 0 0, s)

/-- `chown("f", "mallory")`, of a user that does not exist, succeeds and changes nothing, and so
does `chown("f", 1000.0)`. -/
theorem chown_nobody :
    ¬Changing.chown.ActsExactly System.rootOnly [.string ['f'], .string "mallory".toList] .start ∧
    ¬Changing.chown.ActsExactly System.rootOnly [.string ['f'], .float 1000] .start ∧
    ∀ v ∈ [LuaValue.string "mallory".toList, .float 1000],
      (∃ w', (Pchown System.rootOnly [.string ['f'], v]).run .start = .ok [.integer 0] w') ∧
      .chown ['f'] (-1) (-1)
        ∈ BindingM.made .start (Pchown System.rootOnly [.string ['f'], v]) := by
  refine ⟨fun h => ?_, fun h => ?_, ?_⟩
  · refine h.reported (fun _ _ _ s => (.returned 0 0, s)) ?_ _ rfl
    rintro ⟨uid, gid, ⟨-, huid, -⟩, -⟩
    cases huid
  · have hcall := h.passed ['f'] 1000 (-1) rfl (by decide) rfl rfl
    revert hcall
    decide
  · simp only [List.forall_mem_cons]
    exact ⟨⟨⟨_, rfl⟩, by decide⟩, ⟨⟨_, rfl⟩, by decide⟩, fun v hv => absurd hv List.not_mem_nil⟩

end LuaPosix.Owner

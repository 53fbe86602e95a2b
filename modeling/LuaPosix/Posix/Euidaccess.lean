import LuaPosix.Compat.ModeMatch
import LuaPosix.Lua.Value

/-! # `posix.euidaccess`

`access` for the effective instead of the real identity. Where the two are the same the call is
`access` itself; otherwise the function is meant to select one of the three permission classes
of the file and look the requested letters up in it. -/

namespace LuaPosix

open LuaPattern

/-! ## Lua library calls -/

/-- `string.sub(s, i, j)`. -/
def strSub (s : LStr) (i j : Nat) : LStr := (s.drop (i - 1)).take (j + 1 - i)

/-- `string.gsub(s, pattern, repl)` without its count; `repl` is nil or a text without `%`. Its
type is checked before the pattern is looked at. -/
def strGsub (s pattern : LStr) (repl : Option LStr) : LuaM LStr :=
  match repl with
  | none => .error (.argerror 3 "string/function/table expected")
  | some repl =>
      match gsub s pattern (fun (_ : Unit) _ => ((), some repl)) () with
      | some (_, text, _) => .ok text
      | none => .error (.error "malformed pattern")

/-- An integer where a string is expected is its decimal numeral. -/
def numeral (n : Nat) : LStr := Nat.toDigits 10 n

/-! ## The environment -/

/-- What `stat` reports that matters here; `st_mode` is the integer, not its letters. -/
structure Stats where
  st_uid : Nat
  st_gid : Nat
  st_mode : Nat
  deriving DecidableEq, Repr

/-- A process and the files it sees. -/
structure AccessEnv where
  uid : Nat
  euid : Nat
  gid : Nat
  egid : Nat
  /-- The supplementary groups. -/
  groups : List Nat
  /-- `stat`, or the error it leaves in `errno`. -/
  stat : LStr → Except Int Stats
  /-- `access`: what it returns, and `errno` afterwards. -/
  access : LStr → LStr → List LuaValue × Int
  EACCES : Int

/-- The names of the module's environment. -/
def environment : List String :=
  ["GLOB_MARK", "O_NOCTTY", "O_RDWR", "STDIN_FILENO", "STDOUT_FILENO", "_exit", "access",
   "argscheck", "assert", "bor", "close", "dup2", "errno", "error", "execp", "exit", "fork",
   "getegid", "geteuid", "getgid", "getuid", "glob", "grantpt", "gsub", "insert", "match", "next",
   "open", "openpt", "pcall", "pipe", "ptsname", "rawget", "rawset", "remove", "require",
   "set_errno", "setmetatable", "stat", "sub", "tonumber", "type", "unlockpt", "wait"]

/-- Index a global: one that is not in the environment is nil, and indexing it raises. -/
def indexGlobal (name : String) : LuaM Unit :=
  if name ∈ environment then .ok ()
  else .error (.error ("attempt to index a nil value (global '" ++ name ++ "')"))

section Model

variable (E : AccessEnv)

/-- `set.new(posix.getgroups()):member(gid)`. -/
def AccessEnv.memberOfGroups (gid : Nat) : LuaM Bool := do
  indexGlobal "set"
  indexGlobal "posix"
  return E.groups.contains gid

/-- `set_errno(EACCESS)`. -/
def AccessEnv.setErrnoEACCESS : StateT Int LuaM Unit :=
  if "EACCESS" ∈ environment then set E.EACCES
  else throw (.argerror 1 "integer expected, got nil")

/-- `granted`, the letters of the selected class. -/
def AccessEnv.granted (stats : Stats) : LuaM LStr := do
  let granted := strSub (numeral stats.st_mode) 1 3
  let granted ←
    if E.euid = stats.st_uid then pure (strSub (numeral stats.st_mode) 7 9)
    else if E.egid = stats.st_gid then pure (strSub (numeral stats.st_mode) 4 6)
    else do
      let member ← E.memberOfGroups stats.st_gid
      pure (if member then strSub (numeral stats.st_mode) 4 6 else granted)
  strGsub granted "[^rwx]".toList (some [])

/-- `posix.euidaccess(file, mode)`, over `errno`. -/
def euidaccess (file mode : LStr) : StateT Int LuaM (List LuaValue) :=
  if E.uid = E.euid ∧ E.gid = E.egid then do
    set (E.access file mode).2
    return (E.access file mode).1
  else
    match E.stat file with
    | .error errnum => do
        set errnum
        return []
    | .ok stats => do
        if E.euid = 0 ∧ (¬ matched mode "x" ∨ matched (numeral stats.st_mode) "x") then
          return [.integer 0]
        let mode ← strGsub mode "[^rwx]".toList (some [])
        if mode = [] then
          return [.integer 0]
        let granted ← E.granted stats
        -- The subject and the pattern are the wrong way round, and there is no replacement.
        if (← strGsub ("[^".toList ++ granted ++ "]".toList) mode none) = [] then
          return [.integer 0]
        E.setErrnoEACCESS
        return []

end Model

/-! ## What it does -/

section Lift

variable {α β : Type} (f : α → StateT Int LuaM β) (errno : Int)

/-- A call that does not touch `errno` is followed by the rest, or raises. -/
theorem run_liftM_ok_bind (a : α) :
    ((liftM (Except.ok a : LuaM α) : StateT Int LuaM α) >>= f).run errno = (f a).run errno := rfl

/-- Behind an error nothing is run. -/
theorem run_liftM_error_bind (e : LuaError) :
    ((liftM (Except.error e : LuaM α) : StateT Int LuaM α) >>= f).run errno = .error e := rfl

end Lift

/-- The letters `[^rwx]` leaves. -/
def isRwx (c : Char) : Bool := c == 'r' || c == 'w' || c == 'x'

/-- Of the mode only its letters r, w and x are kept. -/
theorem strGsub_rwx (s : LStr) :
    strGsub s "[^rwx]".toList (some []) = .ok (s.filter isRwx) := by
  have hparse : parse "[^rwx]".toList
      = some ⟨false, [.single (.set true [.lit 'r', .lit 'w', .lit 'x'])]⟩ := by decide
  have herase := gsubLoop_erase (.set true [.lit 'r', .lit 'w', .lit 'x'])
    (Nat.lt_succ_self s.length) false
  have hmem : ∀ c, (!(CharClass.set true [.lit 'r', .lit 'w', .lit 'x']).mem c) = isRwx c := by
    intro c
    simp only [CharClass.mem, SetItem.mem, List.any_cons, List.any_nil, Bool.or_false,
      Bool.true_bne, Bool.not_not, isRwx, Bool.or_assoc, Bool.beq_comm]
  simp only [hmem] at herase
  rw [strGsub, gsub, hparse]
  simp only [Option.map_some, herase]

/-- A mode asks for execution if it has an x. -/
theorem matched_x (s : LStr) : matched s "x" ↔ 'x' ∈ s := by
  rw [matched_single "x" (.lit 'x') (by decide)]
  simp [CharClass.mem]

/-- A numeral has no letters. -/
theorem not_matched_numeral (n : Nat) : ¬ matched (numeral n) "x" := by
  rw [matched_x]
  intro hx
  have hdigit := Nat.isDigit_of_mem_toDigits (by decide) (by decide) hx
  cases hdigit

section Runs

variable {E : AccessEnv} (hids : E.uid ≠ E.euid ∨ E.gid ≠ E.egid) {file mode : LStr}
  {stats : Stats} (hstat : E.stat file = .ok stats) (errno : Int)

include hids hstat

/-- The super-user is only asked about execution. -/
theorem euidaccess_root (hroot : E.euid = 0) (hx : 'x' ∉ mode) :
    (euidaccess E file mode).run errno = .ok ([.integer 0], errno) := by
  have hids' : ¬ (E.uid = E.euid ∧ E.gid = E.egid) := by rwa [not_and_or]
  have hguard : E.euid = 0 ∧ (¬ matched mode "x" ∨ matched (numeral stats.st_mode) "x") :=
    ⟨hroot, .inl (mt (matched_x mode).mp hx)⟩
  rw [euidaccess, if_neg hids', hstat]
  simp only [if_pos hguard]
  rfl

/-- Where no letter asks for a permission the file only has to exist. -/
theorem euidaccess_exists (hmode : mode.filter isRwx = []) :
    (euidaccess E file mode).run errno = .ok ([.integer 0], errno) := by
  have hids' : ¬ (E.uid = E.euid ∧ E.gid = E.egid) := by rwa [not_and_or]
  rw [euidaccess, if_neg hids', hstat]
  by_cases hguard : E.euid = 0 ∧ (¬ matched mode "x" ∨ matched (numeral stats.st_mode) "x")
  · simp only [if_pos hguard]
    rfl
  · simp only [if_neg hguard]
    rw [strGsub_rwx, run_liftM_ok_bind, if_pos hmode]
    rfl

/-- Everywhere else the call raises: on the undefined `set`, or on the `gsub` that has no
replacement. -/
theorem euidaccess_raises (hroot : E.euid = 0 → 'x' ∈ mode) (hmode : mode.filter isRwx ≠ []) :
    ∃ e, (euidaccess E file mode).run errno = .error e := by
  have hids' : ¬ (E.uid = E.euid ∧ E.gid = E.egid) := by rwa [not_and_or]
  have hguard : ¬ (E.euid = 0 ∧ (¬ matched mode "x" ∨ matched (numeral stats.st_mode) "x")) := by
    rintro ⟨h0, hno | hdigits⟩
    · exact hno ((matched_x mode).mpr (hroot h0))
    · exact not_matched_numeral _ hdigits
  rw [euidaccess, if_neg hids', hstat]
  simp only [if_neg hguard]
  rw [strGsub_rwx, run_liftM_ok_bind, if_neg hmode]
  cases E.granted stats with
  | error e => exact ⟨e, run_liftM_error_bind _ _ e⟩
  | ok granted =>
      rw [run_liftM_ok_bind, strGsub]
      exact ⟨_, run_liftM_error_bind _ _ _⟩

end Runs

/-! ## The decision it is meant to take -/

/-- The bit of a letter within a class, none for `f`. -/
def permBit (c : Char) : Nat :=
  if c = 'r' then 4 else if c = 'w' then 2 else if c = 'x' then 1 else 0

/-- The class of the effective identity: the owner's bits, else the group's, else the others'. -/
def AccessEnv.classBits (E : AccessEnv) (stats : Stats) : Nat :=
  if E.euid = stats.st_uid then stats.st_mode / 0o100 % 8
  else if E.egid = stats.st_gid ∨ stats.st_gid ∈ E.groups then stats.st_mode / 0o10 % 8
  else stats.st_mode % 8

/-- Whether the effective identity has the permission of a letter. The super-user may read and
write anything, and execute what anyone may. -/
def AccessEnv.Grants (E : AccessEnv) (stats : Stats) (c : Char) : Prop :=
  if E.euid = 0 then c = 'x' → stats.st_mode &&& 0o111 ≠ 0
  else E.classBits stats &&& permBit c = permBit c

/-- The call decides access: it returns 0 where every requested permission is granted, and nil
with `EACCES` elsewhere. -/
structure DecidesAccess (E : AccessEnv) (stats : Stats) (file mode : LStr) (errno : Int) :
    Prop where
  granted : (∀ c ∈ mode, E.Grants stats c) →
    ∃ errno', (euidaccess E file mode).run errno = .ok ([.integer 0], errno')
  denied : ¬ (∀ c ∈ mode, E.Grants stats c) →
    ∃ rs, (euidaccess E file mode).run errno = .ok (rs, E.EACCES) ∧ rs.headD .nil = .nil

section Decides

variable {E : AccessEnv} {stats : Stats} {file mode : LStr} {errno : Int}

/-- The superuser may do anything but execute. -/
theorem grants_root (hroot : E.euid = 0) {c : Char} (hc : c ≠ 'x') : E.Grants stats c := by
  rw [AccessEnv.Grants, if_pos hroot]
  exact fun h => absurd h hc

/-- Existence is granted to everyone. -/
theorem grants_f : E.Grants stats 'f' := by
  rw [AccessEnv.Grants]
  split_ifs
  · exact fun h => nomatch h
  · exact Nat.and_zero _

/-- A call that returns 0 where everything is granted decides access. -/
theorem DecidesAccess.of_zero (hall : ∀ c ∈ mode, E.Grants stats c)
    (h : (euidaccess E file mode).run errno = .ok ([.integer 0], errno)) :
    DecidesAccess E stats file mode errno :=
  ⟨fun _ => ⟨errno, h⟩, fun hno => absurd hall hno⟩

/-- A call that raises does not decide. -/
theorem not_decidesAccess_of_raises {e : LuaError}
    (h : (euidaccess E file mode).run errno = .error e) :
    ¬ DecidesAccess E stats file mode errno := by
  intro hdec
  by_cases hall : ∀ c ∈ mode, E.Grants stats c
  · obtain ⟨errno', hok⟩ := hdec.granted hall
    rw [h] at hok
    cases hok
  · obtain ⟨rs, hok, -⟩ := hdec.denied hall
    rw [h] at hok
    cases hok

/-- The only letter of a mode string that asks for no permission is `f`. -/
theorem filter_isRwx_eq_nil_iff (hmode : ∀ c ∈ mode, isRwx c ∨ c = 'f') :
    mode.filter isRwx = [] ↔ ∀ c ∈ mode, c = 'f' := by
  rw [List.filter_eq_nil_iff]
  constructor
  · exact fun h c hc => (hmode c hc).resolve_left (h c hc)
  · intro h c hc
    rw [h c hc]
    decide

/-- **`euidaccess` decides access** for differing identities exactly where no permission is
requested, or where the super-user does not ask for execution. -/
theorem decidesAccess_iff (hids : E.uid ≠ E.euid ∨ E.gid ≠ E.egid)
    (hstat : E.stat file = .ok stats) (hmode : ∀ c ∈ mode, isRwx c ∨ c = 'f') (errno : Int) :
    DecidesAccess E stats file mode errno ↔
      (∀ c ∈ mode, c = 'f') ∨ (E.euid = 0 ∧ 'x' ∉ mode) := by
  constructor
  · intro hdec
    by_contra hcond
    obtain ⟨hf, hroot⟩ := not_or.mp hcond
    have hroot' : E.euid = 0 → 'x' ∈ mode := fun h0 => by_contra fun hx => hroot ⟨h0, hx⟩
    obtain ⟨e, he⟩ := euidaccess_raises hids hstat errno hroot'
      (mt (filter_isRwx_eq_nil_iff hmode).mp hf)
    exact not_decidesAccess_of_raises he hdec
  · rintro (hf | ⟨hroot, hx⟩)
    · refine .of_zero ?_
        (euidaccess_exists hids hstat errno ((filter_isRwx_eq_nil_iff hmode).mpr hf))
      intro c hc
      rw [hf c hc]
      exact grants_f
    · refine .of_zero ?_ (euidaccess_root hids hstat errno hroot hx)
      exact fun c hc => grants_root hroot fun h => hx (h ▸ hc)

end Decides

/-- A set-uid program of user 1001 that user 1000 runs, and a file of user 1001. -/
def setuidEnv : AccessEnv where
  uid := 1000
  euid := 1001
  gid := 100
  egid := 100
  groups := [100]
  stat _ := .ok ⟨1001, 100, 0o100644⟩
  access _ _ := ([.integer 0], 0)
  EACCES := 13

/-- The owner of a readable file asks to read it, and the call raises. -/
theorem euidaccess_owner_raises :
    (∀ c ∈ "r".toList, setuidEnv.Grants ⟨1001, 100, 0o100644⟩ c) ∧
    (euidaccess setuidEnv "/etc/hosts".toList "r".toList).run 0
      = .error (.argerror 3 "string/function/table expected") ∧
    ¬ DecidesAccess setuidEnv ⟨1001, 100, 0o100644⟩ "/etc/hosts".toList "r".toList 0 := by
  have hraise : (euidaccess setuidEnv "/etc/hosts".toList "r".toList).run 0
      = .error (.argerror 3 "string/function/table expected") := by decide
  refine ⟨?_, hraise, not_decidesAccess_of_raises hraise⟩
  intro c hc
  obtain rfl : c = 'r' := by simpa using hc
  show 0o100644 / 0o100 % 8 &&& 4 = 4
  decide

/-- Asking only whether the file exists. -/
theorem decidesAccess_f :
    DecidesAccess setuidEnv ⟨1001, 100, 0o100644⟩ "/etc/hosts".toList "f".toList 0 :=
  (decidesAccess_iff (.inl (by decide)) rfl (by simp) 0).mpr (.inl (by simp))

end LuaPosix

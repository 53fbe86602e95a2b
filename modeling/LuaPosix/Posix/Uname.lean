import LuaPosix.Lib.LuaSubstitution
import LuaPosix.Posix.Selection

/-! # `uname` of `posix.deprecated`

The legacy `uname` fills a format with the fields of `posix.sys.utsname.uname`, by a `gsub` over the
pairs of `%` and a letter. Its last statement hands on whatever `gsub` returns, which is the text
and the number of pairs. -/

namespace LuaPosix.Uname

open LuaPattern (LStr Cap matchItems substitute)

/-! ## The function -/

/-- The table that `posix.sys.utsname.uname` returns. -/
structure Utsname where
  machine : LStr
  nodename : LStr
  release : LStr
  sysname : LStr
  version : LStr
  deriving DecidableEq, Repr

section Model

/-- `badoption(name, i, what, option)`. -/
def badoption {α : Type} (name : String) (i : Nat) (what : String) (option : LStr) : CallM α :=
  .error (.raises (argerror name i
    (some ("invalid " ++ what ++ " option '" ++ String.ofList option ++ "'"))))

variable (u : Option Utsname)

/-- `u.field`, where `u` is nil if the system call failed. -/
def index (field : Utsname → LStr) : CallM (Option LStr) :=
  match u with
  | some u => .ok (some (field u))
  | none => .error (Heap.indexError .nil)

/-- The function given to `gsub`. -/
def expand (caps : List LStr) : CallM (Option LStr) :=
  let s := caps.head?.getD []
  if s = ['%'] then .ok (some ['%'])
  else if s = ['m'] then index u Utsname.machine
  else if s = ['n'] then index u Utsname.nodename
  else if s = ['r'] then index u Utsname.release
  else if s = ['s'] then index u Utsname.sysname
  else if s = ['v'] then index u Utsname.version
  else badoption "uname" 1 "format" s

/-- `uname(spec)`. -/
def uname (spec : LuaValue) : CallM (List LuaValue) := do
  let s ← Deprecated.optstring "uname" 1 spec "%s %n %r %v %m".toList
  match LuaPattern.gsubRaising s "%%(.)".toList (expand u) with
  | some r => do
      let (text, n) ← r
      -- a tail call: all that `gsub` returns
      return [.string text, .integer (BitVec.ofNat 64 n)]
  | none => .error (.raises (.error "malformed pattern"))

end Model

/-! ## Formats -/

/-- What stands for a pair of `%` and a letter. -/
def option (u : Utsname) : Char → Option LStr
  | '%' => some ['%']
  | 'm' => some u.machine
  | 'n' => some u.nodename
  | 'r' => some u.release
  | 's' => some u.sysname
  | 'v' => some u.version
  | _ => none

/-- The first character behind a `%`, from left to right, that is none of `%mnrsv`. -/
def refused : LStr → Option Char
  | [] => none
  | ['%'] => none
  | '%' :: c :: s => if c ∈ ['%', 'm', 'n', 'r', 's', 'v'] then refused s else some c
  | _ :: s => refused s

/-- **One pass**: each pair is replaced by what stands for it, and the rest is copied. -/
inductive Fills (u : Utsname) : LStr → LStr → Prop where
  | nil : Fills u [] []
  | lone : Fills u ['%'] ['%']
  | pair {c : Char} {v s t : LStr} (h : option u c = some v) (hs : Fills u s t) :
      Fills u ('%' :: c :: s) (v ++ t)
  | copied {c : Char} {s t : LStr} (h : c ≠ '%') (hs : Fills u s t) : Fills u (c :: s) (c :: t)

/-- There is one way to fill a format. -/
theorem Fills.unique {u : Utsname} {s t t' : LStr} (h : Fills u s t) (h' : Fills u s t') :
    t = t' := by
  induction h generalizing t' with
  | nil =>
      cases h'
      rfl
  | lone =>
      cases h' with
      | lone => rfl
      | copied h => exact absurd rfl h
  | pair hv hs ih =>
      cases h' with
      | pair hv' hs' => rw [ih hs', Option.some.inj (hv.symm.trans hv')]
      | copied h => exact absurd rfl h
  | copied hc hs ih =>
      cases h' with
      | lone => exact absurd rfl hc
      | pair => exact absurd rfl hc
      | copied _ hs' => rw [ih hs']

/-- The error for a letter. -/
def InvalidOption {α : Type} (c : Char) (r : CallM α) : Prop :=
  r = .error (.raises (argerror "uname" 1
    (some ("invalid format option '" ++ String.ofList [c] ++ "'"))))

/-- Exactly one result, the format filled in one pass, where no character is refused; else an error
for the first one that is. -/
def OneResult (u : Utsname) (format : LStr) (r : CallM (List LuaValue)) : Prop :=
  match refused format with
  | none => ∃ text, Fills u format text ∧ r = .ok [.string text]
  | some c => InvalidOption c r

section Runs

variable {u : Utsname} {c : Char} {s format : LStr}

/-- The pattern `%%(.)`. -/
def pairPattern : LuaPattern.Pattern :=
  ⟨false, [.single (.esc '%'), .openCap, .single .any, .closeCap]⟩

/-- The pattern of `gsub` is a percent sign and a character. -/
theorem parse_pairPattern : LuaPattern.parse "%%(.)".toList = some pairPattern := by decide

/-- The pair is matched where it stands. -/
theorem matchItems_pair : matchItems pairPattern.items ('%' :: c :: s) []
    = some (s, [.closed [c]]) := by
  have hpercent : (LuaPattern.CharClass.esc '%').mem '%' = true := rfl
  rw [pairPattern, LuaPattern.matchItems_single hpercent, matchItems,
    LuaPattern.matchItems_single rfl, matchItems, LuaPattern.closeCapture_opened_char]
  rfl

/-- A percent sign alone is not. -/
theorem matchItems_lone : matchItems pairPattern.items ['%'] [] = none := rfl

/-- Neither is any other character. -/
theorem matchItems_other (h : c ≠ '%') : matchItems pairPattern.items (c :: s) [] = none := by
  have hpercent : (LuaPattern.CharClass.esc '%').mem c = false := beq_false_of_ne h.symm
  rw [pairPattern, matchItems, hpercent]
  rfl

/-- An option is expanded to its value. -/
theorem expand_option {v : LStr} (h : option u c = some v) :
    expand (some u) [[c]] = .ok (some v) := by
  unfold option at h
  split at h <;> cases h <;> rfl

/-- What is no option is refused. -/
theorem expand_invalid (h : c ∉ ['%', 'm', 'n', 'r', 's', 'v']) :
    InvalidOption c (expand (some u) [[c]]) := by
  simp only [List.mem_cons, List.not_mem_nil, or_false, not_or] at h
  simp [expand, h, InvalidOption, badoption]

/-- The six options have values. -/
theorem exists_option (h : c ∈ ['%', 'm', 'n', 'r', 's', 'v']) : ∃ v, option u c = some v := by
  simp only [List.mem_cons, List.not_mem_nil, or_false] at h
  rcases h with rfl | rfl | rfl | rfl | rfl | rfl <;> exact ⟨_, rfl⟩

/-- The error goes past whatever follows. -/
theorem InvalidOption.bind {α β : Type} {r : CallM α} (h : InvalidOption c r)
    (f : α → CallM β) : InvalidOption c (r >>= f) := by
  rw [InvalidOption] at h ⊢
  rw [h]
  rfl

/-- The substitution, for a format that begins with a pair. -/
theorem substitute_pair (afterMatch : Bool) :
    substitute pairPattern (expand (some u)) ('%' :: c :: s) afterMatch = (do
      let text ← expand (some u) [[c]]
      let (tail, n) ← substitute pairPattern (expand (some u)) s true
      return (LuaPattern.replacement ('%' :: c :: s) s text ++ tail, n + 1)) := by
  have hlt : s.length < ('%' :: c :: s).length := by
    rw [List.length_cons, List.length_cons]
    omega
  exact LuaPattern.substitute_match rfl matchItems_pair hlt afterMatch

/-- **The substitution**: the format is filled in one pass, or a character is refused. -/
theorem substitute_fills (u : Utsname) (format : LStr) (afterMatch : Bool) :
    (refused format = none → ∃ text n, Fills u format text ∧
      substitute pairPattern (expand (some u)) format afterMatch = .ok (text, n)) ∧
    ∀ c, refused format = some c →
      InvalidOption c (substitute pairPattern (expand (some u)) format afterMatch) := by
  induction format using refused.induct generalizing afterMatch with
  | case1 =>
      refine ⟨fun _ => ⟨[], 0, .nil, LuaPattern.substitute_nil rfl afterMatch⟩, fun c h => ?_⟩
      cases h
  | case2 =>
      have hrest : substitute pairPattern (expand (some u)) [] false = .ok ([], 0) :=
        LuaPattern.substitute_nil rfl false
      refine ⟨fun _ => ⟨['%'], 0, .lone, ?_⟩, fun c h => ?_⟩
      · rw [LuaPattern.substitute_skip rfl matchItems_lone, hrest]
        rfl
      · cases h
  | case3 c s hc ih =>
      obtain ⟨v, hv⟩ := exists_option (u := u) hc
      rw [refused, if_pos hc, substitute_pair, expand_option hv, CallM.ok_bind]
      constructor
      · intro hnone
        obtain ⟨text, n, hfills, hrest⟩ := (ih true).1 hnone
        refine ⟨v ++ text, n + 1, .pair hv hfills, ?_⟩
        rw [hrest]
        rfl
      · intro c' hsome
        exact ((ih true).2 c' hsome).bind _
  | case4 c s hc =>
      rw [refused, if_neg hc, substitute_pair]
      constructor
      · intro hnone
        cases hnone
      · intro c' hsome
        obtain rfl := Option.some.inj hsome
        exact (expand_invalid hc).bind _
  | case5 c s hlone hpair ih =>
      have hc : c ≠ '%' := by
        rintro rfl
        cases s with
        | nil => exact hlone rfl rfl
        | cons c' s' => exact hpair c' s' rfl rfl
      have hrefused : refused (c :: s) = refused s := by
        rw [refused]
        · exact hlone
        · exact hpair
      rw [hrefused, LuaPattern.substitute_skip rfl (matchItems_other hc)]
      constructor
      · intro hnone
        obtain ⟨text, n, hfills, hrest⟩ := (ih false).1 hnone
        refine ⟨c :: text, n, .copied hc hfills, ?_⟩
        rw [hrest]
        rfl
      · intro c' hsome
        exact ((ih false).2 c' hsome).bind _

/-- A format is expanded by `gsub`, and its count comes along. -/
theorem uname_eq (u : Option Utsname) (format : LStr) : uname u (.string format)
    = (substitute pairPattern (expand u) format false).map fun r =>
        [.string r.1, .integer (BitVec.ofNat 64 r.2)] := by
  have hgsub : LuaPattern.gsubRaising format "%%(.)".toList (expand u)
      = some (substitute pairPattern (expand u) format false) := by
    rw [LuaPattern.gsubRaising, parse_pairPattern]
    rfl
  have hspec : Deprecated.optstring "uname" 1 (.string format) "%s %n %r %v %m".toList
      = .ok format := rfl
  rw [uname, hspec, CallM.ok_bind, hgsub]
  cases substitute pairPattern (expand u) format false <;> rfl

/-- What is returned is the filled format, and a number after it. -/
theorem uname_fills (u : Utsname) {format : LStr} (h : refused format = none) :
    ∃ text n, Fills u format text ∧
      uname (some u) (.string format) = .ok [.string text, .integer n] := by
  obtain ⟨text, n, hfills, hrun⟩ := (substitute_fills u format false).1 h
  refine ⟨text, BitVec.ofNat 64 n, hfills, ?_⟩
  rw [uname_eq, hrun]
  rfl

/-- A format with an option that is none is refused for it. -/
theorem uname_refuses (u : Utsname) {format : LStr} (h : refused format = some c) :
    InvalidOption c (uname (some u) (.string format)) := by
  have hrun := (substitute_fills u format false).2 c h
  rw [InvalidOption] at hrun ⊢
  rw [uname_eq, hrun]
  rfl

/-- **One result is never returned**: the function does as it says exactly where it raises. -/
theorem uname_oneResult_iff (u : Utsname) (format : LStr) :
    OneResult u format (uname (some u) (.string format)) ↔ refused format ≠ none := by
  rw [OneResult]
  cases hrefused : refused format with
  | none =>
      constructor
      · rintro ⟨text, -, h⟩
        obtain ⟨text', n, -, hrun⟩ := uname_fills u hrefused
        rw [hrun] at h
        cases h
      · intro h
        exact absurd rfl h
  | some c => exact ⟨fun _ => Option.some_ne_none c, fun _ => uname_refuses u hrefused⟩

/-- `uname '%n'` returns the name and 1. -/
theorem count_returned : ¬ ∀ (u : Utsname) (format : LStr),
    OneResult u format (uname (some u) (.string format)) := by
  intro h
  obtain ⟨text, -, hrun⟩ := h ⟨"x86_64".toList, "host".toList, [], [], []⟩ "%n".toList
  have hreturned : uname (some ⟨"x86_64".toList, "host".toList, [], [], []⟩)
      (.string "%n".toList) = .ok [.string "host".toList, .integer 1] := by decide
  rw [hreturned] at hrun
  cases hrun

end Runs

end LuaPosix.Uname

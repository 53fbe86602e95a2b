import LuaPosix.Base.Mode
import LuaPosix.Lib.LuaPatternMatching

/-! # `mode_munch`

The interpreter of mode strings behind `posix.chmod`, `creat`, `msgget`, `open` and `umask`:
nine-letter longhand, octal digits, or symbolic clauses edited into a starting mode. A clause
list is recognised by one pattern and applied by another through `gsub`. -/

namespace LuaPosix

open LuaPattern

/-! ## Lua library calls -/

/-- `string.sub(s, i, i)`. -/
def sub (s : LStr) (i : Nat) : LStr := (s.drop (i - 1)).take 1

/-- Whether `string.match(s, pattern)` is not nil. -/
def matched (s : LStr) (pattern : String) : Bool := (luaMatch s pattern.toList).isSome

/-- `tonumber(s)` on an integer numeral. -/
def tonumber (s : LStr) : Option LuaInteger := l_str2int s

/-! ## The interpreter -/

/-- What `mode_munch` returns: a mode, or nil with an error text unless it came from
`rwxrwxrwx`. -/
inductive Munched (ν : Type) where
  /-- A mode. -/
  | mode (bits : ν)
  /-- `nil, err`. -/
  | bad (err : Option String)
  deriving DecidableEq, Repr

section Munch

variable {ν : Type} (B : Bitwise ν)

/-- One round of `rwxrwxrwx`: the letter at position `i`, whose own letter is `c` for bit `b`. -/
def rwxrwxrwxStep (modestr : LStr) (mode : ν) : (Char × Nat) × Nat → Option ν
  | ((c, b), i) =>
      if sub modestr i = [c] then some (B.bor mode [B.ofNat b])
      else if sub modestr i = ['s'] then
        if i = 3 then some (B.bor mode [B.ofNat S_ISUID, B.ofNat S_IXUSR])
        else if i = 6 then some (B.bor mode [B.ofNat S_ISGID, B.ofNat S_IXGRP])
        else none
      -- Any other letter is passed over, a dash or not.
      else some mode

/-- `rwxrwxrwx(modestr)`, nil for a misplaced `s`. -/
def rwxrwxrwx (modestr : LStr) : Option ν :=
  (MODE_MAP.zipIdx 1).foldlM (rwxrwxrwxStep B modestr) (B.ofNat 0)

/-- One round of `octal_mode`; arithmetic on what `tonumber` refuses raises. -/
def octalModeStep (mode : ν) (c : Char) : LuaM ν :=
  match tonumber [c] with
  | some d => .ok (B.add (B.mul mode (B.ofNat 8)) (B.ofNat d.toNat))
  | none => .error (.error "attempt to perform arithmetic on a nil value")

/-- `octal_mode(modestr)`. -/
def octalMode (modestr : LStr) : LuaM ν :=
  modestr.foldlM (octalModeStep B) (B.ofNat 0)

/-- The bits a clause's class letters select. -/
def whoBits (who : LStr) : ν :=
  let bits := B.ofNat 0
  let bits := if matched who "[ua]" then B.bor bits [B.ofNat S_ISUID, B.ofNat S_IRWXU] else bits
  let bits := if matched who "[ga]" then B.bor bits [B.ofNat S_ISGID, B.ofNat S_IRWXG] else bits
  if matched who "[oa]" then B.bor bits [B.ofNat S_IRWXO] else bits

/-- The bits a clause's permission letters name, for every class. -/
def whatBits (what : LStr) : ν :=
  let bobs := B.ofNat 0
  let bobs := if matched what "r" then
    B.bor bobs [B.ofNat S_IRUSR, B.ofNat S_IRGRP, B.ofNat S_IROTH] else bobs
  let bobs := if matched what "w" then
    B.bor bobs [B.ofNat S_IWUSR, B.ofNat S_IWGRP, B.ofNat S_IWOTH] else bobs
  let bobs := if matched what "x" then
    B.bor bobs [B.ofNat S_IXUSR, B.ofNat S_IXGRP, B.ofNat S_IXOTH] else bobs
  if matched what "s" then B.bor bobs [B.ofNat S_ISUID, B.ofNat S_ISGID] else bobs

/-- The function `mode_munch` gives to `gsub`: edit the mode by one clause. It returns nothing,
so `gsub` keeps the text. -/
def mungeClause (mode : ν) : List LStr → ν × Option LStr
  | [who, op, what] =>
      let bits := whoBits B who
      let bobs := whatBits B what
      let mode :=
        if op = ['+'] then B.bor mode [B.band bits [bobs]]
        else if op = ['-'] then B.band mode [B.bnot (B.band bits [bobs])]
        else if op = ['='] then B.bor (B.band mode [B.bnot bits]) [B.band bits [bobs]]
        else mode
      (mode, none)
  | _ => (mode, none)

/-- The pattern that recognises a clause list. -/
def clauseGuard : String := "^[ugoa]+%s*[-+=]%s*[rswx]+,*"

/-- The pattern that picks the clauses out. -/
def clausePattern : String := "%s*(%a+)%s*(.)%s*(%a+),*"

/-- `mode_munch(mode, modestr)`. -/
def modeMunch (mode : ν) (modestr : Option LStr) : LuaM (Munched ν) :=
  match modestr with
  | none => .ok (.bad (some "string expected, got no value"))
  | some modestr =>
      if modestr.length = 9 ∧ matched modestr "^[-rswx]+$" then
        match rwxrwxrwx B modestr with
        -- `return rwxrwxrwx(modestr)`: nil comes without an error text.
        | some mode => .ok (.mode mode)
        | none => .ok (.bad none)
      else if matched modestr "^[0-7]+$" then (octalMode B modestr).map .mode
      else if matched modestr clauseGuard then
        match gsub modestr clausePattern.toList (mungeClause B) mode with
        | some (mode, _, _) => .ok (.mode mode)
        | none => .error (.error "malformed pattern")
      else .ok (.bad (some "bad mode"))

end Munch

example : modeMunch posixBitwise 0o750 (some "g+w,o=x,u-x".toList) = .ok (.mode 0o671) := by
  decide

/-! ## The patterns, parsed -/

/-- The items of `clauseGuard`. -/
def guardItems : List Item :=
  [.plus (.set false [.lit 'u', .lit 'g', .lit 'o', .lit 'a']), .star (.esc 's'),
   .single (.set false [.lit '-', .lit '+', .lit '=']), .star (.esc 's'),
   .plus (.set false [.lit 'r', .lit 's', .lit 'w', .lit 'x']), .star (.lit ',')]

/-- The items of the pattern that guards the clauses. -/
theorem parse_clauseGuard : parse clauseGuard.toList = some ⟨true, guardItems⟩ := by decide

/-- The items of `clausePattern`. -/
def clauseItems : List Item :=
  [.star (.esc 's'), .openCap, .plus (.esc 'a'), .closeCap, .star (.esc 's'), .openCap,
   .single .any, .closeCap, .star (.esc 's'), .openCap, .plus (.esc 'a'), .closeCap,
   .star (.lit ',')]

/-- The items of the pattern that takes them apart. -/
theorem parse_clausePattern : parse clausePattern.toList = some ⟨false, clauseItems⟩ := by decide

end LuaPosix

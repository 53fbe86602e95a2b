import LuaPosix.Compat.ModeMunch
import LuaPosix.Lib.MaskEdit
import Mathlib.Data.Nat.Digits.Defs

/-! # Well-formed mode strings

The three documented formats by their grammar, apart from any parser: nine-letter longhand,
octal digits, and comma-separated clauses `who op what`. A value of `Longhand`, `Clause` or
`ClauseList` is a parse tree; `text` is the string it stands for and `bits`, `sel` and `val`
are the mode bits it names. -/

namespace LuaPosix

open LuaPattern MaskEdit

/-! ## Longhand -/

/-- An execute position of user or group, which may carry the set-id letter. -/
inductive Exec where
  | none
  | x
  | s
  deriving DecidableEq, Repr

/-- The letter of an execute position. -/
def Exec.char : Exec → Char
  | .none => '-'
  | .x => 'x'
  | .s => 's'

/-- The bits of an execute position, `setid` being its set-id bit and `exec` its execute bit. -/
def Exec.bits (setid exec : Nat) : Exec → LuaInteger
  | .none => 0
  | .x => BitVec.ofNat 64 exec
  | .s => BitVec.ofNat 64 setid ||| BitVec.ofNat 64 exec

/-- A plain position: its own letter or a dash. -/
def plainChar (c : Char) (on : Bool) : Char := if on then c else '-'

/-- The bit of a plain position. -/
def plainBits (b : Nat) (on : Bool) : LuaInteger := if on then BitVec.ofNat 64 b else 0

/-- A longhand mode, position by position. -/
structure Longhand where
  ur : Bool
  uw : Bool
  ux : Exec
  gr : Bool
  gw : Bool
  gx : Exec
  or : Bool
  ow : Bool
  ox : Bool
  deriving DecidableEq, Repr

/-- The nine letters. -/
def Longhand.text (h : Longhand) : LStr :=
  [plainChar 'r' h.ur, plainChar 'w' h.uw, h.ux.char,
   plainChar 'r' h.gr, plainChar 'w' h.gw, h.gx.char,
   plainChar 'r' h.or, plainChar 'w' h.ow, plainChar 'x' h.ox]

/-- The union of the bits the letters name; `s` names set-id and execute. -/
def Longhand.bits (h : Longhand) : LuaInteger :=
  plainBits S_IRUSR h.ur ||| plainBits S_IWUSR h.uw ||| h.ux.bits S_ISUID S_IXUSR |||
  plainBits S_IRGRP h.gr ||| plainBits S_IWGRP h.gw ||| h.gx.bits S_ISGID S_IXGRP |||
  plainBits S_IROTH h.or ||| plainBits S_IWOTH h.ow ||| plainBits S_IXOTH h.ox

/-! ## Octal digits -/

/-- Octal digits. -/
def isOctal (c : Char) : Bool := '0' ≤ c && c ≤ '7'

/-- The base-8 value of a digit string. -/
def octalValue (digits : LStr) : Nat :=
  Nat.ofDigits 8 (digits.reverse.map fun c => c.toNat - '0'.toNat)

/-! ## Clauses -/

/-- A class letter. -/
inductive Who where
  | u
  | g
  | o
  | a
  deriving DecidableEq, Repr

/-- The letter of a class of users. -/
def Who.char : Who → Char
  | .u => 'u'
  | .g => 'g'
  | .o => 'o'
  | .a => 'a'

/-- The bits of a class. -/
def Who.mask : Who → LuaInteger
  | .u => BitVec.ofNat 64 (S_ISUID ||| S_IRWXU)
  | .g => BitVec.ofNat 64 (S_ISGID ||| S_IRWXG)
  | .o => BitVec.ofNat 64 S_IRWXO
  | .a => BitVec.ofNat 64 (S_ISUID ||| S_IRWXU ||| (S_ISGID ||| S_IRWXG) ||| S_IRWXO)

/-- A permission letter. -/
inductive Perm where
  | r
  | s
  | w
  | x
  deriving DecidableEq, Repr

/-- The letter of a permission. -/
def Perm.char : Perm → Char
  | .r => 'r'
  | .s => 's'
  | .w => 'w'
  | .x => 'x'

/-- The bits of a permission, in every class. -/
def Perm.mask : Perm → LuaInteger
  | .r => BitVec.ofNat 64 (S_IRUSR ||| S_IRGRP ||| S_IROTH)
  | .s => BitVec.ofNat 64 (S_ISUID ||| S_ISGID)
  | .w => BitVec.ofNat 64 (S_IWUSR ||| S_IWGRP ||| S_IWOTH)
  | .x => BitVec.ofNat 64 (S_IXUSR ||| S_IXGRP ||| S_IXOTH)

/-- The character of an operator. -/
def opChar : Op → Char
  | .add => '+'
  | .remove => '-'
  | .assign => '='

/-- Optional white space. -/
structure Spaces where
  chars : LStr
  isspace_of_mem : ∀ c ∈ chars, isspace c

/-- No white space. -/
def Spaces.empty : Spaces := ⟨[], by simp⟩

/-- A clause `who op what`, with white space allowed on both sides of the operator. -/
structure Clause where
  who : List Who
  beforeOp : Spaces
  op : Op
  afterOp : Spaces
  what : List Perm
  what_ne_nil : what ≠ []

namespace Clause

/-- The operator and what follows it. -/
def opText (c : Clause) : LStr := opChar c.op :: (c.afterOp.chars ++ c.what.map Perm.char)

/-- The text of a clause. -/
def text (c : Clause) : LStr := c.who.map Who.char ++ (c.beforeOp.chars ++ c.opText)

/-- The union of the class masks. -/
def sel (c : Clause) : LuaInteger := c.who.foldr (fun w m => w.mask ||| m) 0

/-- The union of the permission masks. -/
def val (c : Clause) : LuaInteger := c.what.foldr (fun p m => p.mask ||| m) 0

/-- The meaning of `who op what`. -/
def edit (sel val : LuaInteger) (op : Op) (m : LuaInteger) : LuaInteger :=
  match op with
  | .add => m ||| (sel &&& val)
  | .remove => m &&& ~~~(sel &&& val)
  | .assign => (m &&& ~~~sel) ||| (sel &&& val)

/-- Edit a mode by a clause. -/
def apply (m : LuaInteger) (c : Clause) : LuaInteger := edit c.sel c.val c.op m

end Clause

/-- A comma-separated list of clauses, with white space allowed after each comma. -/
structure ClauseList where
  first : Clause
  rest : List (Spaces × Clause)

namespace ClauseList

/-- Clauses, each behind its comma. -/
def tailText (rest : List (Spaces × Clause)) : LStr :=
  rest.flatMap fun (sp, c) => ',' :: (sp.chars ++ c.text)

/-- The text of a clause list. -/
def text (cs : ClauseList) : LStr := cs.first.text ++ tailText cs.rest

/-- The clauses from left to right. -/
def clauses (cs : ClauseList) : List Clause := cs.first :: cs.rest.map Prod.snd

/-- Every clause has class letters. -/
def AllWho (cs : ClauseList) : Prop := ∀ c ∈ cs.clauses, c.who ≠ []

/-- Behind no clause there is nothing. -/
@[simp] theorem tailText_nil : tailText [] = [] := rfl

/-- A clause behind another follows a comma and spaces. -/
@[simp] theorem tailText_cons (sp : Spaces) (c : Clause) (rest : List (Spaces × Clause)) :
    tailText ((sp, c) :: rest) = ',' :: (sp.chars ++ (c.text ++ tailText rest)) := by
  simp [tailText]

end ClauseList

/-! ## The letters -/

/-- The letter of a class of users is a letter. -/
theorem Who.isAlpha_char (w : Who) : w.char.isAlpha := by cases w <;> decide

/-- The letter of a permission is a letter. -/
theorem Perm.isAlpha_char (p : Perm) : p.char.isAlpha := by cases p <;> decide

/-- An octal digit is a digit. -/
theorem isDigit_of_isOctal {c : Char} (hc : isOctal c) : c.isDigit := by
  simp only [isOctal, Bool.and_eq_true, decide_eq_true_eq] at hc
  simp only [Char.isDigit, Bool.and_eq_true, decide_eq_true_eq]
  exact ⟨hc.1, UInt32.le_trans hc.2 (by decide)⟩

/-- The octal digits, by code. -/
theorem toNat_of_isOctal {c : Char} (hc : isOctal c) : 48 ≤ c.toNat ∧ c.toNat ≤ 55 := by
  simpa [isOctal, Char.le_def, UInt32.le_iff_toNat_le, ← Char.toNat_val] using hc

/-- Users are written with letters. -/
theorem isAlpha_of_mem_who {who : List Who} {c : Char} (h : c ∈ who.map Who.char) :
    c.isAlpha := by
  obtain ⟨w, -, rfl⟩ := List.mem_map.mp h
  exact w.isAlpha_char

/-- Permissions are written with letters. -/
theorem isAlpha_of_mem_perm {what : List Perm} {c : Char} (h : c ∈ what.map Perm.char) :
    c.isAlpha := by
  obtain ⟨p, -, rfl⟩ := List.mem_map.mp h
  exact p.isAlpha_char

/-- An operator is no letter. -/
theorem isAlpha_opChar (op : Op) : (opChar op).isAlpha = false := by cases op <;> decide

/-- An operator is no space. -/
theorem isspace_opChar (op : Op) : isspace (opChar op) = false := by cases op <;> decide

end LuaPosix

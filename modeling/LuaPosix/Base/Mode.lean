import LuaPosix.Base.Bitwise

/-! # File modes in `posix._base`

The mode bits of `sys/stat.h`, the table `MODE_MAP` and the printer `pushmode`, with the
error text of `argerror`. -/

namespace LuaPosix

open LuaPattern (LStr)

/-! ## Mode bits -/

/-- The bit that gives a program its owner's rights. -/
def S_ISUID : Nat := 0o4000

/-- The bit that gives a program its group's rights. -/
def S_ISGID : Nat := 0o2000

/-- All permissions of the owner. -/
def S_IRWXU : Nat := 0o700

/-- The owner may read. -/
def S_IRUSR : Nat := 0o400

/-- The owner may write. -/
def S_IWUSR : Nat := 0o200

/-- The owner may execute. -/
def S_IXUSR : Nat := 0o100

/-- All permissions of the group. -/
def S_IRWXG : Nat := 0o070

/-- The group may read. -/
def S_IRGRP : Nat := 0o040

/-- The group may write. -/
def S_IWGRP : Nat := 0o020

/-- The group may execute. -/
def S_IXGRP : Nat := 0o010

/-- All permissions of others. -/
def S_IRWXO : Nat := 0o007

/-- Others may read. -/
def S_IROTH : Nat := 0o004

/-- Others may write. -/
def S_IWOTH : Nat := 0o002

/-- Others may execute. -/
def S_IXOTH : Nat := 0o001

/-- The letters of a mode string and their bits, in order. -/
def MODE_MAP : List (Char × Nat) :=
  [('r', S_IRUSR), ('w', S_IWUSR), ('x', S_IXUSR),
   ('r', S_IRGRP), ('w', S_IWGRP), ('x', S_IXGRP),
   ('r', S_IROTH), ('w', S_IWOTH), ('x', S_IXOTH)]

/-! ## Error texts -/

/-- `argerror(name, i, extramsg, level)`. -/
def argerror (name : String) (i : Nat) (extramsg : Option String) : LuaError :=
  let s := "bad argument #" ++ toString i ++ " to '" ++ name ++ "'"
  match extramsg with
  | some extramsg => .error (s ++ " (" ++ extramsg ++ ")")
  | none => .error s

/-! ## Printing a mode -/

section Pushmode

variable {ν : Type} [DecidableEq ν] (B : Bitwise ν)

/-- `band(mode, b) ~= 0`. -/
def testBits (mode : ν) (b : Nat) : Bool := B.band mode [B.ofNat b] ≠ B.ofNat 0

/-- `pushmode(mode)`: the nine permission letters, with the set-id bits laid over the execute
letters of user and group. -/
def pushmode (mode : ν) : LStr :=
  let m := MODE_MAP.map fun (c, b) => if testBits B mode b then c else '-'
  let m :=
    if testBits B mode S_ISUID then
      if testBits B mode S_IXUSR then m.set 2 's' else m.set 2 'S'
    else m
  let m :=
    if testBits B mode S_ISGID then
      if testBits B mode S_IXGRP then m.set 5 's' else m.set 5 'S'
    else m
  m

example : pushmode posixBitwise 0o104751 = "rwsr-x--x".toList := by decide

end Pushmode

end LuaPosix

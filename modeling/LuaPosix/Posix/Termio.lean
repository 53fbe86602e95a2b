import LuaPosix.Lua.Binding

/-! # `tcgetwinsize` and `tcsetwinsize`

The size of a terminal's window as a table. What it is in pixels is a part of the table only where
the build has found these members of the struct (`HAVE_WS_XPIXEL && HAVE_WS_YPIXEL`): a build that
looks for them in the wrong header does without. -/

namespace LuaPosix.Termio

open LuaPattern (LStr)
open Traversal (Layout)

/-- `struct winsize`. -/
structure Winsize where
  ws_row : BitVec 16
  ws_col : BitVec 16
  ws_xpixel : BitVec 16
  ws_ypixel : BitVec 16
  deriving DecidableEq, Repr

/-- The calls of the C library: `ioctl(2)` with `TIOCGWINSZ` and `TIOCSWINSZ`. -/
inductive Call where
  | getWinsize (fd : Int)
  | setWinsize (fd : Int) (ws : Winsize)
  deriving DecidableEq

/-- What the rest of the system answers, in a state of its own. -/
structure System (σ : Type) where
  /-- `HAVE_WS_XPIXEL && HAVE_WS_YPIXEL`. -/
  pixels : Bool
  num : Numerals
  strerror : Int → LStr
  getWinsize : (fd : Int) → σ → (SysResult 32 × Winsize) × σ
  setWinsize : (fd : Int) → Winsize → σ → SysResult 32 × σ

/-- The names of the fields, the same in every build. -/
def Swinsize_fields : List String := ["ws_row", "ws_col", "ws_xpixel", "ws_ypixel"]

/-- None of them has a zero in it. -/
theorem names_Swinsize_fields : Heap.Names Swinsize_fields := by decide

open Heap (pushintegerfield) in
/-- The fields `pushwinsize` sets. -/
def Winsize.fields (pixels : Bool) (ws : Winsize) : List (String × LuaValue) :=
  pushintegerfield "ws_row" (ws.ws_row.setWidth 64) ++
  pushintegerfield "ws_col" (ws.ws_col.setWidth 64) ++
  if pixels then
    pushintegerfield "ws_xpixel" (ws.ws_xpixel.setWidth 64) ++
    pushintegerfield "ws_ypixel" (ws.ws_ypixel.setWidth 64)
  else []

/-- What a build knows of a size: the rest is 0. -/
def Winsize.known (pixels : Bool) (ws : Winsize) : Winsize :=
  if pixels then ws else { ws with ws_xpixel := 0, ws_ypixel := 0 }

section Model

variable {σ : Type} (S : System σ) (args : List LuaValue)

/-- `ws_xpixel` and `ws_ypixel`, which are 0 where they are not read. -/
def pixelFields (pixels : Bool) (index : Nat) (H : Heap) (t : Nat) : CallM (Int × Int) :=
  if pixels then do
    let ws_xpixel ← H.optintfield index t "ws_xpixel" 0
    let ws_ypixel ← H.optintfield index t "ws_ypixel" 0
    return (ws_xpixel, ws_ypixel)
  else return (0, 0)

/-- The fields of a table that `towinsize` reads. -/
def winsizeFields (pixels : Bool) (N : Numerals) (index : Nat) (H : Heap) (t : Nat) :
    CallM Winsize := do
  let ws_row ← H.optintfield index t "ws_row" 0
  let ws_col ← H.optintfield index t "ws_col" 0
  let ws_pixel ← pixelFields pixels index H t
  H.checkfieldnames N index t Swinsize_fields
  return ⟨BitVec.ofInt 16 ws_row, BitVec.ofInt 16 ws_col, BitVec.ofInt 16 ws_pixel.1,
    BitVec.ofInt 16 ws_pixel.2⟩

/-- `towinsize(L, index, &ws)`. -/
def towinsize (index : Nat) (H : Heap) : CallM Winsize := do
  let t ← checktable args index
  winsizeFields S.pixels S.num index H t

/-- `tcgetwinsize(fd)`. -/
def Ptcgetwinsize (L : Layout fun _ : LuaValue => LuaValue) :
    BindingM σ Call (List LuaValue) := do
  let fd ← checkint S.num.strtod args 1
  checknargs args 1
  let x ← BindingM.syscall (.getWinsize fd) (fun x => x.1.errno) (S.getWinsize fd)
  if cint x.1.value = -1 then return pusherror S.strerror (← BindingM.errno) none
  else do
    let table ← BindingM.newtable L (x.2.fields S.pixels)
    return [table]

/-- `tcsetwinsize(fd, winsize)`. -/
def Ptcsetwinsize : BindingM σ Call (List LuaValue) := do
  let fd ← checkint S.num.strtod args 1
  let ws ← BindingM.read (towinsize S args 2)
  checknargs args 2
  let x ← BindingM.syscall (.setWinsize fd ws) SysResult.errno (S.setWinsize fd ws)
  return x.push S.strerror none

end Model

/-- A small instance, where nothing is a terminal. -/
def System.noTerminal : System Unit where
  pixels := false
  num := .zero
  strerror _ := []
  getWinsize _ s := ((.failed 25, ⟨0, 0, 0, 0⟩), s)
  setWinsize _ _ s := (.failed 25, s)

end LuaPosix.Termio

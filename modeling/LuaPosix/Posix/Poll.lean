import LuaPosix.Lua.Heap
import LuaPosix.Lua.Results

/-! # `poll`

`poll` reads a table of descriptors into an array for `poll(2)`, and writes what comes back into
the table again. The two walks over the table are loops around `lua_next` that never compare a
key: the array and the table only fit together by their order. -/

namespace LuaPosix.Poll

open LuaPattern (LStr)
open Traversal (Layout)

/-- The events of `poll_event_map`. -/
inductive Event where
  | IN
  | PRI
  | OUT
  | ERR
  | HUP
  | NVAL
  deriving DecidableEq, Repr

/-- The names in `poll_event_map`. -/
def Event.name : Event → String
  | .IN => "IN"
  | .PRI => "PRI"
  | .OUT => "OUT"
  | .ERR => "ERR"
  | .HUP => "HUP"
  | .NVAL => "NVAL"

/-- `poll_event_map`. -/
def poll_event_map : List Event := [.IN, .PRI, .OUT, .ERR, .HUP, .NVAL]

/-- An entry of the array; the kernel fills in its `revents`. -/
structure PollFd where
  fd : Int
  events : BitVec 16
  deriving DecidableEq, Repr

/-- What `poll(2)` comes to: its result, the `revents` of the entries and `errno`. -/
structure Polled where
  r : Int
  revents : Nat → BitVec 16
  errno : Int

/-- What the rest of the system answers. -/
structure System where
  /-- The place of the bit of `POLLIN`, ...: each is a bit of its own. -/
  place : Event → Nat
  place_lt : ∀ e, place e < 16
  place_injective : Function.Injective place
  /-- `poll(fds, nfds, timeout)`. -/
  poll : List PollFd → Int → Polled
  strerror : Int → LStr
  /-- Numerals with a fraction or an exponent. -/
  strtod : LStr → Option Rat

/-- `POLLIN`, ... . -/
def System.bit (S : System) (e : Event) : BitVec 16 := BitVec.twoPow 16 (S.place e)

/-- `lua_toboolean`. -/
def toboolean (v : LuaValue) : Bool := v ≠ .nil ∧ v ≠ .boolean false

section Model

variable (S : System) (L : Layout fun _ : LuaValue => LuaValue)

/-- `poll_events_from_table(L, table)`. -/
def poll_events_from_table (H : Heap) (table : LuaValue) : CallM (BitVec 16) :=
  poll_event_map.foldlM (fun events e => do
    let v ← H.getfield table e.name
    return if toboolean v then events ||| S.bit e else events) 0

/-- `poll_events_to_table(L, table, events)`. -/
def poll_events_to_table (H : Heap) (table : LuaValue) (events : BitVec 16) : CallM Heap :=
  poll_event_map.foldlM (fun H e =>
    H.setfield L table e.name (.boolean (events &&& S.bit e != 0))) H

/-- `luaL_argcheck(L, cond, arg, extramsg)`. -/
def argcheck (cond : Bool) (arg : Nat) (extramsg : String) : CallM Unit :=
  if cond then .ok () else .error (.raises (.argerror arg extramsg))

/-- `lua_istable`. -/
def istable (v : LuaValue) : Bool :=
  match v with
  | .table _ => true
  | _ => false

/-- `lua_isinteger`. -/
def isinteger (v : LuaValue) : Bool :=
  match v with
  | .integer _ => true
  | _ => false

/-- One round of `poll_fd_list_check_table`. -/
def checkEntry (H : Heap) (fd_num : Nat) (k v : LuaValue) : CallM Nat := do
  argcheck (isinteger k) 1 "contains non-integer key(s)"
  argcheck (istable v) 1 "contains non-table value(s)"
  let events ← H.getfield v "events"
  argcheck (istable events) 1 "contains invalid value table(s)"
  let revents ← H.getfield v "revents"
  argcheck (revents = .nil || istable revents) 1 "contains invalid value table(s)"
  return fd_num + 1

/-- `poll_fd_list_check_table(L, 1)`: the number of entries. -/
def poll_fd_list_check_table (n : Nat) (H : Heap) (table : Nat) : CallM Nat :=
  Heap.whileNext table (fun _ => H) (checkEntry H) n 0

/-- The entries the array has room for: `static_fd_list`, or a block for `fd_num` of them. -/
def fdListCapacity (fd_num : Nat) : Nat := if fd_num ≤ 16 then 16 else fd_num

/-- One round of `poll_fd_list_from_table`. -/
def fillEntry (H : Heap) (capacity : Nat) (fd_list : List PollFd) (k v : LuaValue) :
    CallM (List PollFd) := do
  let events ← H.getfield v "events"
  let events ← poll_events_from_table S H events
  if fd_list.length < capacity then
    return fd_list ++ [⟨toInt ((k.tointegerx S.strtod).getD 0), events⟩]
  else .error .undefined

/-- `poll_fd_list_from_table(L, 1, fd_list)`. -/
def poll_fd_list_from_table (n : Nat) (H : Heap) (table capacity : Nat) : CallM (List PollFd) :=
  Heap.whileNext table (fun _ => H) (fillEntry S H capacity) n []

/-- The `revents` table of a value, a new one where it has none. -/
def reventsTable (H : Heap) (v : LuaValue) : CallM (LuaValue × Heap) := do
  let field ← H.getfield v "revents"
  if field = .nil then do
    let H' ← H.createtable.2.setfield L v "revents" (.table H.createtable.1)
    return (.table H.createtable.1, H')
  else return (field, H)

/-- One round of `poll_fd_list_to_table`, at place `i` of an array of `fd_num` entries. -/
def reportEntry (fd_num : Nat) (revents : Nat → BitVec 16) (s : Heap × Nat) (_k v : LuaValue) :
    CallM (Heap × Nat) := do
  let table ← reventsTable L s.1 v
  if s.2 < fd_num then do
    let H ← poll_events_to_table S L table.2 table.1 (revents s.2)
    return (H, s.2 + 1)
  else .error .undefined

/-- `poll_fd_list_to_table(L, 1, fd_list)`. -/
def poll_fd_list_to_table (n : Nat) (H : Heap) (table fd_num : Nat) (revents : Nat → BitVec 16) :
    CallM Heap :=
  Prod.fst <$> Heap.whileNext table Prod.fst (reportEntry S L fd_num revents) n (H, 0)

/-- What a call of `poll` leaves: the array and timeout handed to `poll(2)`, the tables and the
values returned. -/
structure Outcome where
  fd_list : List PollFd
  timeout : Int
  heap : Heap
  results : List LuaValue

/-- Raise the error of a call. -/
def ofLua {α : Type} : LuaM α → CallM α := Except.mapError Fault.raises

/-- `poll(fds, timeout)`, with at most `n` calls of `lua_next` in each loop. -/
def Ppoll (n : Nat) (H : Heap) (args : List LuaValue) : CallM Outcome :=
  match args.headD .nil with
  | .table table => do
      let fd_num ← poll_fd_list_check_table n H table
      let timeout ← ofLua (optint S.strtod args 2 (-1))
      ofLua (checknargs args 2)
      let fd_list ← poll_fd_list_from_table S n H table (fdListCapacity fd_num)
      -- `poll(2)` reads `fd_num` entries.
      if fd_list.length < fd_num then .error .undefined
      else do
        let polled := S.poll (fd_list.take fd_num) timeout
        let H ← if 0 < polled.r then poll_fd_list_to_table S L n H table fd_num polled.revents
          else pure H
        return ⟨fd_list.take fd_num, timeout, H,
          pushresult S.strerror polled.errno none polled.r⟩
  | _ => .error (.raises (argtypeerror args 1 "table"))

end Model

end LuaPosix.Poll

import LuaPosix.Lib.Machine
import LuaPosix.Posix.PollReports

/-! # `poll` in a loop

The flags of a `revents` table stay until a call of `poll` sets them again, and a call that finds
nothing sets none. As many descriptors look ready as the last call has returned exactly as long
as no call finds nothing while a flag is true. -/

namespace LuaPosix.Poll

open Traversal (Layout)
open Heap (fieldName)

/-! ## Descriptors that look ready -/

/-- The value has a `revents` table with a true flag. -/
def looksReady (H : Heap) (v : LuaValue) : Bool :=
  match v with
  | .table t =>
      match H.get t reventsField with
      | .table r => poll_event_map.any fun e => toboolean (H.get r e.field)
      | _ => false
  | _ => false

/-- How many descriptors look ready. -/
def readyCount (H : Heap) (table : Nat) : Nat :=
  (H.tables table).entries.countP fun e => looksReady H e.2

/-! ## Calls of `poll` -/

/-- The tables and what the last call has returned. -/
structure LoopState where
  heap : Heap
  results : List LuaValue

/-- A call: its arguments after the descriptor table, and what `poll(2)` comes to. -/
structure PollCall where
  more : List LuaValue
  polled : Polled

/-- The system when `poll(2)` comes to this. -/
def System.answering (S : System) (polled : Polled) : System :=
  { S with poll := fun _ _ => polled }

/-- Calls of `poll` on one descriptor table, those that do not raise. -/
def pollLoop (S : System) (L : Layout fun _ : LuaValue => LuaValue) (table : Nat) :
    Machine LoopState PollCall where
  init s := Separate s.heap table ∧ s.results = []
  next s c :=
    match Ppoll (S.answering c.polled) L ((s.heap.tables table).entries.length + 1) s.heap
        (.table table :: c.more) with
    | .ok o => some ⟨o.heap, o.results⟩
    | .error _ => none

/-- What is assumed of `poll(2)`: it returns the number of entries with events, and no event is
one that `poll_event_map` leaves out. -/
structure Polled.Honest (S : System) (n : Nat) (p : Polled) : Prop where
  int : -1 ≤ p.r ∧ p.r < 2 ^ 31
  mapped : ∀ i < n, ∀ b, (p.revents i).getLsbD b = true → ∃ e, b = S.place e
  counts : 0 ≤ p.r → p.r = (List.range n).countP fun i => p.revents i ≠ 0

section Loop

variable (S : System) (L : Layout fun _ : LuaValue => LuaValue) (table : Nat)

/-- The call gets an honest answer. -/
def Honest (s : LoopState) (c : PollCall) : Prop :=
  c.polled.Honest S (s.heap.tables table).entries.length

/-- Where nothing is found no descriptor looks ready before. -/
def Quiet (s : LoopState) (c : PollCall) : Prop :=
  Honest S table s c ∧ (c.polled.r = 0 → readyCount s.heap table = 0)

/-- As many descriptors look ready as the last call has returned. -/
def Agrees (s : LoopState) : Prop :=
  ∀ r : LuaInteger, s.results = [.integer r] → 0 ≤ r.toInt →
    (readyCount s.heap table : Int) = r.toInt

end Loop

/-! ## The entries of a call that does not raise -/

section Checked

variable {H : Heap} {k v : LuaValue} {m m' : Nat}

/-- An argument check that passes was of something true. -/
theorem argcheck_eq_ok {cond : Bool} {arg : Nat} {extramsg : String} {u : Unit}
    (h : argcheck cond arg extramsg = .ok u) : cond = true := by
  rw [argcheck] at h
  split_ifs at h with hcond
  exact hcond

/-- What is a table has an address. -/
theorem exists_table (h : istable v = true) : ∃ t, v = .table t := by
  cases v with
  | table t => exact ⟨t, rfl⟩
  | _ => cases h

/-- An entry that raises no error passes the check. -/
theorem EntryChecked.of_checkEntry (h : checkEntry H m k v = .ok m') : EntryChecked H k v := by
  obtain ⟨_, hkey, h⟩ := bind_eq_ok.mp h
  obtain ⟨_, hvalue, h⟩ := bind_eq_ok.mp h
  obtain ⟨events, hevents, h⟩ := bind_eq_ok.mp h
  obtain ⟨_, hevents', h⟩ := bind_eq_ok.mp h
  obtain ⟨revents, hrevents, h⟩ := bind_eq_ok.mp h
  obtain ⟨_, hrevents', h⟩ := bind_eq_ok.mp h
  obtain ⟨t, rfl⟩ := exists_table (argcheck_eq_ok hvalue)
  obtain ⟨ev, rfl⟩ := exists_table (argcheck_eq_ok hevents')
  refine ⟨?_, t, ev, rfl, Except.ok.inj hevents, ?_⟩
  · have hinteger := argcheck_eq_ok hkey
    cases k with
    | integer d => exact ⟨d, rfl⟩
    | _ => cases hinteger
  · have hget : H.get t reventsField = revents := Except.ok.inj hrevents
    have hor := argcheck_eq_ok hrevents'
    rw [hget]
    rw [Bool.or_eq_true, decide_eq_true_eq] at hor
    exact hor.imp_right exists_table

/-- The entries that the first pass accepts are as it wants them. -/
theorem checked_of_foldlM {l : List (Sigma fun _ : LuaValue => LuaValue)}
    (h : l.foldlM (fun m e => checkEntry H m e.1 e.2) m = .ok m') :
    ∀ e ∈ l, EntryChecked H e.1 e.2 := by
  induction l generalizing m with
  | nil => exact fun e he => absurd he List.not_mem_nil
  | cons e l ih =>
      rw [List.foldlM_cons] at h
      obtain ⟨m₁, hfirst, h⟩ := bind_eq_ok.mp h
      intro e' he'
      rcases List.mem_cons.mp he' with rfl | he'
      · exact .of_checkEntry hfirst
      · exact ih h e' he'

end Checked

/-! ## One call -/

section Step

variable {S : System} {L : Layout fun _ : LuaValue => LuaValue} {table : Nat} {s s' : LoopState}
  {c : PollCall}

/-- What the calls return the function returned. -/
theorem ofLua_eq_ok {α : Type} {x : LuaM α} {a : α} (h : ofLua x = .ok a) : x = .ok a := by
  cases x with
  | error e => cases h
  | ok b =>
      cases h
      rfl

/-- A call that does not raise has checked its entries and its other arguments. -/
theorem exists_of_Ppoll {n : Nat} {H : Heap} {more : List LuaValue} {o : Outcome}
    (hn : (H.tables table).entries.length < n)
    (h : Ppoll S L n H (.table table :: more) = .ok o) :
    (∀ e ∈ (H.tables table).entries, EntryChecked H e.1 e.2) ∧
      (.table table :: more : List LuaValue).length ≤ 2 ∧
      ∃ timeout, optint S.strtod (.table table :: more) 2 (-1) = .ok timeout := by
  obtain ⟨fd_num, hcheck, h⟩ := bind_eq_ok.mp h
  obtain ⟨timeout, htimeout, h⟩ := bind_eq_ok.mp h
  obtain ⟨_, hnargs, -⟩ := bind_eq_ok.mp h
  rw [poll_fd_list_check_table, Heap.whileNext_eq_foldlM (fun _ _ _ _ _ => rfl) hn] at hcheck
  refine ⟨checked_of_foldlM hcheck, ?_, timeout, ofLua_eq_ok htimeout⟩
  have hnargs' := ofLua_eq_ok hnargs
  rw [checknargs] at hnargs'
  split_ifs at hnargs' with hle
  exact hle

/-- What a step of the loop can be. -/
theorem pollLoop_next (h : Separate s.heap table)
    (hnext : (pollLoop S L table).next s c = some s') :
    (∀ e ∈ (s.heap.tables table).entries, EntryChecked s.heap e.1 e.2) ∧
      s'.results = pushresult S.strerror c.polled.errno none c.polled.r ∧
      (c.polled.r ≤ 0 → s'.heap = s.heap) ∧
      (0 < c.polled.r →
        Walked (S.answering c.polled) s.heap s'.heap table c.polled.revents) := by
  have hlt : (s.heap.tables table).entries.length < (s.heap.tables table).entries.length + 1 :=
    Nat.lt_succ_self _
  cases hrun : Ppoll (S.answering c.polled) L ((s.heap.tables table).entries.length + 1) s.heap
      (.table table :: c.more) with
  | error e =>
      rw [pollLoop] at hnext
      simp only [hrun] at hnext
      cases hnext
  | ok o =>
      obtain ⟨hchecked, hargs, timeout, htimeout⟩ := exists_of_Ppoll hlt hrun
      obtain ⟨H', hPpoll, hsame, hwalked⟩ := h.exists_Ppoll (L := L) hchecked hlt rfl hargs htimeout
      rw [hPpoll] at hrun
      obtain rfl := Except.ok.inj hrun
      rw [pollLoop] at hnext
      simp only [hPpoll] at hnext
      cases hnext
      exact ⟨hchecked, rfl, hsame, hwalked⟩

/-- The tables are separate after a walk. -/
theorem Separate.walked {H H' : Heap} {revents : Nat → BitVec 16} (h : Separate H table)
    (hwalked : Walked S H H' table revents) : Separate H' table := by
  refine ⟨h.live.trans_le hwalked.size, ?_, ?_, fun hmem => ?_⟩
  · rw [hwalked.keys]
    exact hwalked.renewed.live
  · rw [hwalked.keys]
    exact hwalked.renewed.distinct
  · rw [hwalked.keys] at hmem
    obtain hold | hnew := hwalked.renewed.known table hmem
    · exact h.table_not hold
    · exact absurd h.live (Nat.not_lt.mpr hnew)

/-- **A step keeps the tables separate.** -/
theorem Separate.step (h : Separate s.heap table)
    (hnext : (pollLoop S L table).next s c = some s') : Separate s'.heap table := by
  obtain ⟨-, -, hsame, hwalked⟩ := pollLoop_next h hnext
  by_cases hr : 0 < c.polled.r
  · exact h.walked (hwalked hr)
  · rw [hsame (Int.not_lt.mp hr)]
    exact h

/-- The tables stay separate in every reachable state. -/
theorem separate_of_reachable {P : LoopState → PollCall → Prop}
    (h : (pollLoop S L table).Reachable P s) : Separate s.heap table :=
  h.invariant (I := fun s => Separate s.heap table)
    (fun s (hs : Separate s.heap table ∧ s.results = []) => hs.1)
    fun _ _ _ hs _ hnext => hs.step hnext

/-! ## The flags after a walk -/

/-- A bit of `poll_event_map` is set exactly if a bit is. -/
theorem any_bit_iff {revents : BitVec 16}
    (hmapped : ∀ b, revents.getLsbD b = true → ∃ e, b = S.place e) :
    (∃ e, revents.getLsbD (S.place e) = true) ↔ revents ≠ 0 := by
  constructor
  · rintro ⟨e, he⟩ rfl
    rw [show (0 : BitVec 16) = 0#16 from rfl, BitVec.getLsbD_zero] at he
    cases he
  · intro hne
    by_contra hnone
    refine hne (BitVec.eq_of_getLsbD_eq fun b _ => ?_)
    rw [show (0 : BitVec 16) = 0#16 from rfl, BitVec.getLsbD_zero, Bool.eq_false_iff]
    intro hb
    obtain ⟨e, rfl⟩ := hmapped b hb
    exact hnone ⟨e, hb⟩

/-- A reported descriptor looks ready exactly if the kernel has found something. -/
theorem Reported.looksReady_eq {H H' : Heap} {t : Nat} {revents : BitVec 16}
    (h : Reported S H H' t revents)
    (hmapped : ∀ b, revents.getLsbD b = true → ∃ e, b = S.place e) :
    looksReady H' (.table t) = decide (revents ≠ 0) := by
  obtain ⟨r, hr, -, hflags, -⟩ := h.table
  have hready : looksReady H' (.table t)
      = poll_event_map.any fun e => revents.getLsbD (S.place e) := by
    simp only [looksReady, hr, hflags]
    refine List.any_congr rfl fun e => ?_
    cases revents.getLsbD (S.place e) <;> rfl
  rw [hready, Bool.eq_iff_iff, List.any_eq_true, decide_eq_true_eq, ← any_bit_iff hmapped]
  exact ⟨fun ⟨e, _, he⟩ => ⟨e, he⟩, fun ⟨e, he⟩ => ⟨e, mem_poll_event_map e, he⟩⟩

/-- Counting by the entries is counting by their positions. -/
theorem countP_eq_countP_range {α : Type} {l : List α} {p : α → Bool} {q : Nat → Bool}
    (h : ∀ i x, l[i]? = some x → p x = q i) : l.countP p = (List.range l.length).countP q := by
  have hmap : l.map p = (List.range l.length).map q := by
    refine List.ext_getElem (by simp) fun i hi _ => ?_
    rw [List.length_map] at hi
    rw [List.getElem_map, List.getElem_map, List.getElem_range,
      h i _ (List.getElem?_eq_getElem hi)]
  have hcount := congrArg (List.countP id) hmap
  rwa [List.countP_map, List.countP_map, Function.id_comp, Function.id_comp] at hcount

/-- **After a walk** as many descriptors look ready as the kernel has found. -/
theorem Walked.readyCount_eq {H H' : Heap} {polled : Polled}
    (h : Walked (S.answering polled) H H' table polled.revents)
    (hhonest : polled.Honest S (H.tables table).entries.length)
    (hchecked : ∀ e ∈ (H.tables table).entries, EntryChecked H e.1 e.2) (hr : 0 ≤ polled.r) :
    (readyCount H' table : Int) = polled.r := by
  rw [hhonest.counts hr, readyCount, h.keys]
  refine congrArg _ (countP_eq_countP_range fun j e hj => ?_)
  obtain ⟨t, -, ht, -⟩ := (hchecked e (List.mem_of_getElem? hj)).value
  have hlt : j < (H.tables table).entries.length := (List.getElem?_eq_some_iff.mp hj).1
  obtain ⟨k, v⟩ := e
  obtain rfl : v = .table t := ht
  exact (h.reported j k t hj).looksReady_eq (hhonest.mapped j hlt)

/-- The integer a call has returned, if it has not failed. -/
theorem pushresult_eq_integer_iff {strerror : Int → LuaPattern.LStr} {errno r : Int}
    {info : Option LuaPattern.LStr} {d : LuaInteger} (hr : -1 ≤ r ∧ r < 2 ^ 31) (hd : 0 ≤ d.toInt) :
    pushresult strerror errno info r = [.integer d] ↔ d.toInt = r := by
  rw [pushresult]
  split_ifs with hneg
  · exact iff_of_false (by intro h; cases h) (by omega)
  · have htoInt : (BitVec.ofInt 64 r).toInt = r :=
      BitVec.toInt_ofInt_eq_self (by decide) (by omega) (by omega)
    constructor
    · intro h
      cases h
      exact htoInt
    · intro h
      rw [← h, BitVec.ofInt_toInt]

/-- **One call**: the flags agree with the result exactly if nothing looks ready before a call
that finds nothing. -/
theorem agrees_step_iff (h : Separate s.heap table) (hhonest : Honest S table s c)
    (hnext : (pollLoop S L table).next s c = some s') :
    Agrees table s' ↔ (c.polled.r = 0 → readyCount s.heap table = 0) := by
  obtain ⟨hchecked, hresults, hsame, hwalked⟩ := pollLoop_next h hnext
  constructor
  · intro hagrees hzero
    have hresults' : s'.results = [.integer 0] := by
      rw [hresults, hzero]
      rfl
    have hready := hagrees 0 hresults' (by decide)
    rw [hsame (Int.le_of_eq hzero)] at hready
    exact Int.natCast_eq_zero.mp hready
  · intro hquiet d hd hle
    rw [hresults, pushresult_eq_integer_iff hhonest.int hle] at hd
    rw [hd]
    by_cases hr : 0 < c.polled.r
    · exact (hwalked hr).readyCount_eq hhonest hchecked (Int.le_of_lt hr)
    · have hzero : c.polled.r = 0 := by omega
      rw [hsame (Int.not_lt.mp hr), hquiet hzero, hzero]
      rfl

end Step

/-! ## Runs -/

/-- **`poll` in a loop**: if no two descriptors share a value or `revents` table, then in every
run in which nothing looks ready before a call that finds nothing, as many descriptors look ready
after each call as it has returned; a call before which something does look ready and that finds
nothing breaks this. -/
theorem pollLoop_agrees (S : System) (L : Layout fun _ : LuaValue => LuaValue) (table : Nat) :
    (∀ s, (pollLoop S L table).Reachable (Quiet S table) s → Agrees table s) ∧
    ∀ s c s', (pollLoop S L table).Reachable (Honest S table) s → Honest S table s c →
      (pollLoop S L table).next s c = some s' →
      (Agrees table s' ↔ (c.polled.r = 0 → readyCount s.heap table = 0)) := by
  constructor
  · intro s hs
    -- Separate tables are kept by every step, the agreement by the quiet ones.
    have hinv : Separate s.heap table ∧ Agrees table s := by
      refine hs.invariant (I := fun s => Separate s.heap table ∧ Agrees table s) ?_ ?_
      · rintro s ⟨hseparate, hresults⟩
        refine ⟨hseparate, fun d hd => ?_⟩
        rw [hresults] at hd
        cases hd
      · rintro s c s' ⟨hseparate, -⟩ ⟨hhonest, hquiet⟩ hnext
        exact ⟨hseparate.step hnext, (agrees_step_iff hseparate hhonest hnext).mpr hquiet⟩
    exact hinv.2
  · intro s c s' hs hhonest hnext
    exact agrees_step_iff (separate_of_reachable hs) hhonest hnext

/-! ## An instance -/

/-- Input on one descriptor. -/
def inputFound : PollCall := ⟨[], ⟨1, fun _ => 1, 0⟩⟩

/-- A timeout. -/
def timedOut : PollCall := ⟨[.integer 0], ⟨0, fun _ => 0, 0⟩⟩

/-- The loop begins with `{[3] = {events = {IN = true}}}`. -/
def stdinLoop : LoopState := ⟨stdinHeap, []⟩

/-- The tables after input was found: descriptor 3 has `revents = {IN = true, PRI = false, ...}`. -/
def readyLoop : LoopState := ⟨report linux frontLayout stdinHeap 1 1, [.integer 1]⟩

/-- The call that finds input goes on. -/
theorem next_stdinLoop :
    (pollLoop linux frontLayout 0).next stdinLoop inputFound = some readyLoop := rfl

/-- So does the one that times out, with the flags left standing. -/
theorem next_readyLoop :
    (pollLoop linux frontLayout 0).next readyLoop timedOut
      = some { readyLoop with results := [.integer 0] } := rfl

/-- The system is honest about the input. -/
theorem honest_inputFound : Honest linux 0 stdinLoop inputFound where
  int := by decide
  mapped i _ b hb := by
    have hbit : (1 : BitVec 16).getLsbD b = true := hb
    rw [show (1 : BitVec 16) = 1#16 from rfl, BitVec.getLsbD_one] at hbit
    have hzero : b = 0 := by simpa using hbit
    exact ⟨.IN, hzero⟩
  counts _ := by decide

/-- It is honest about the time-out. -/
theorem honest_timedOut : Honest linux 0 readyLoop timedOut where
  int := by decide
  mapped i _ b hb := by
    have hbit : (0 : BitVec 16).getLsbD b = true := hb
    rw [show (0 : BitVec 16) = 0#16 from rfl, BitVec.getLsbD_zero] at hbit
    cases hbit
  counts _ := by decide

/-- Nothing else writes to the tables. -/
theorem quiet_stdinLoop : Quiet linux 0 stdinLoop inputFound :=
  ⟨honest_inputFound, fun h => absurd h (by decide)⟩

/-- The loop over standard input may start. -/
theorem init_stdinLoop : (pollLoop linux frontLayout 0).init stdinLoop :=
  ⟨pollable_stdinHeap.separate, rfl⟩

/-- After the time-out the result of 0 stands beside a flag that is still set. -/
theorem pollLoop_agrees_stdin :
    Agrees 0 readyLoop ∧
      (Agrees 0 { readyLoop with results := [.integer 0] } ↔
        (timedOut.polled.r = 0 → readyCount readyLoop.heap 0 = 0)) :=
  ⟨(pollLoop_agrees linux frontLayout 0).1 _
      ((Machine.Reachable.init init_stdinLoop).step quiet_stdinLoop next_stdinLoop),
    (pollLoop_agrees linux frontLayout 0).2 _ _ _
      ((Machine.Reachable.init init_stdinLoop).step honest_inputFound next_stdinLoop)
      honest_timedOut next_readyLoop⟩

/-- Input is found once, and after the timeout that follows the descriptor still looks ready. -/
theorem ready_after_timeout :
    (pollLoop linux frontLayout 0).init stdinLoop ∧
    Honest linux 0 stdinLoop inputFound ∧
    (pollLoop linux frontLayout 0).next stdinLoop inputFound = some readyLoop ∧
    Honest linux 0 readyLoop timedOut ∧
    (pollLoop linux frontLayout 0).next readyLoop timedOut
      = some { readyLoop with results := [.integer 0] } ∧
    readyCount readyLoop.heap 0 = 1 ∧
    ¬Agrees 0 { readyLoop with results := [.integer 0] } := by
  have hcount : readyCount readyLoop.heap 0 = 1 := by decide
  refine ⟨init_stdinLoop, honest_inputFound, next_stdinLoop, honest_timedOut, next_readyLoop,
    hcount, fun h => ?_⟩
  have hzero : (readyCount readyLoop.heap 0 : Int) = (0 : LuaInteger).toInt :=
    h 0 rfl (by decide)
  rw [hcount] at hzero
  exact absurd hzero (by decide)

end LuaPosix.Poll

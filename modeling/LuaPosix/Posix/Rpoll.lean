import LuaPosix.Posix.PollLoop

/-! # `rpoll`

`rpoll` waits for input on one descriptor, without a table: the array it hands to `poll(2)` has a
single entry that it makes itself. A table whose descriptors are watched for input is polled as
`rpoll` polls each of them, and what both find in a descriptor is the same. -/

namespace LuaPosix.Poll

open LuaPattern (LStr)
open Traversal (Layout)
open Heap (fieldName)

/-- What a call of `rpoll` leaves: the array and timeout handed to `poll(2)` and the values
returned. -/
structure Watch where
  fd_list : List PollFd
  timeout : Int
  results : List LuaValue

/-- `rpoll(fd, timeout)`. -/
def Prpoll (S : System) (args : List LuaValue) : LuaM Watch := do
  let file ← checkint S.strtod args 1
  let timeout ← checkint S.strtod args 2
  checknargs args 2
  let fds : PollFd := ⟨file, S.bit .IN⟩
  let polled := S.poll [fds] timeout
  return ⟨[fds], timeout, pushresult S.strerror polled.errno none polled.r⟩

/-- The value is `{events={IN=true}}`, with false or nothing for the other events. -/
def WatchesInput (H : Heap) (v : LuaValue) : Prop :=
  ∃ t ev, v = .table t ∧ H.get t (fieldName "events") = .table ev ∧
    ∀ e : Event, toboolean (H.get ev e.field) = decide (e = .IN)

/-- What is assumed of `poll(2)` where it does not wait: it tells of each descriptor what is to be
seen of it then, and returns how many of them there is something to tell of. An array that is too
long for it fails. -/
structure System.Observes (S : System) (timeout : Int) (limit : Nat) (seen : PollFd → BitVec 16) :
    Prop where
  counts : ∀ l, l.length ≤ limit → (S.poll l timeout).r = l.countP fun p => seen p ≠ 0
  tells : ∀ l, l.length ≤ limit → ∀ i p, l[i]? = some p → (S.poll l timeout).revents i = seen p
  mapped : ∀ p i, (seen p).getLsbD i = true → ∃ e, i = S.place e
  positive : 0 < limit

variable {S : System} {L : Layout fun _ : LuaValue => LuaValue} {H : Heap} {table n : Nat}
  {timeout : Int} {limit : Nat} {seen : PollFd → BitVec 16}

/-! ## One descriptor -/

/-- An argument that is an integer. -/
theorem expectinteger_of_getElem? {args : List LuaValue} {narg : Nat} {expected : String}
    {v : LuaValue} {d : LuaInteger} (h : args[narg - 1]? = some v)
    (hv : v.tointegerx S.strtod = some d) :
    expectinteger S.strtod args narg expected = .ok d := by
  rw [expectinteger, h, Option.bind_some, hv]

/-- **The entry that `rpoll` makes** is the one that `poll` makes of such a value. -/
theorem pollFd_of_watchesInput {k v : LuaValue} {d : LuaInteger}
    (hk : k.tointegerx S.strtod = some d) (hv : WatchesInput H v) :
    pollFd S H k v = ⟨toInt d, S.bit .IN⟩ := by
  obtain ⟨t, ev, rfl, hev, hflags⟩ := hv
  have hevents : (pollFd S H k (.table t)).events = S.bit .IN := by
    rw [pollFd_events k hev]
    refine BitVec.eq_of_getLsbD_eq fun i _ => Bool.eq_iff_iff.mpr ?_
    rw [getLsbD_eventsOf, getLsbD_bit, decide_eq_true_iff]
    constructor
    · rintro ⟨e, hi, he⟩
      rw [hflags, decide_eq_true_iff] at he
      rw [hi, he]
    · intro hi
      refine ⟨.IN, hi, ?_⟩
      rw [hflags, decide_eq_true rfl]
  have hfd : (pollFd S H k (.table t)).fd = toInt d := by
    rw [pollFd, hk, Option.getD_some]
  rw [← hevents, ← hfd]

/-- `rpoll` of an integer. -/
theorem Prpoll_eq {k v : LuaValue} {fd d : LuaInteger} (hk : k.tointegerx S.strtod = some fd)
    (hv : v.tointegerx S.strtod = some d) :
    Prpoll S [k, v] = .ok ⟨[⟨toInt fd, S.bit .IN⟩], toInt d,
      pushresult S.strerror (S.poll [⟨toInt fd, S.bit .IN⟩] (toInt d)).errno none
        (S.poll [⟨toInt fd, S.bit .IN⟩] (toInt d)).r⟩ := by
  have hfd : expectinteger S.strtod [k, v] 1 "integer" = .ok fd :=
    expectinteger_of_getElem? rfl hk
  have htimeout : expectinteger S.strtod [k, v] 2 "integer" = .ok d :=
    expectinteger_of_getElem? rfl hv
  rw [Prpoll, checkint, checkint, hfd, htimeout]
  rfl

/-- Its timeout has no default. -/
theorem Prpoll_without_timeout {k : LuaValue} {fd : LuaInteger}
    (hk : k.tointegerx S.strtod = some fd) :
    Prpoll S [k] = .error (.argerror 2 "integer expected, got no value") := by
  have hfd : expectinteger S.strtod [k] 1 "integer" = .ok fd := expectinteger_of_getElem? rfl hk
  rw [Prpoll, checkint, hfd]
  rfl

/-! ## A table of descriptors -/

/-- What `rpoll` returns for a descriptor of the table. -/
def watchOf (S : System) (H : Heap) (timeout : Int) (e : Sigma fun _ : LuaValue => LuaValue) :
    Watch :=
  ⟨[pollFd S H e.1 e.2], timeout,
    pushresult S.strerror (S.poll [pollFd S H e.1 e.2] timeout).errno none
      (S.poll [pollFd S H e.1 e.2] timeout).r⟩

/-- Calling `rpoll` on each entry watches each of them. -/
theorem mapM_Prpoll {v : LuaValue} {d : LuaInteger} (hv : v.tointegerx S.strtod = some d)
    {l : List (Sigma fun _ : LuaValue => LuaValue)} (hl : ∀ e ∈ l, EntryChecked H e.1 e.2)
    (hinput : ∀ e ∈ l, WatchesInput H e.2) :
    (l.mapM fun e => Prpoll S [e.1, v]) = .ok (l.map (watchOf S H (toInt d))) := by
  induction l with
  | nil => rfl
  | cons e l ih =>
      obtain ⟨fd, hfd⟩ := (hl e List.mem_cons_self).key
      have hk : e.1.tointegerx S.strtod = some fd := by
        rw [hfd]
        rfl
      have hfirst : Prpoll S [e.1, v] = .ok (watchOf S H (toInt d) e) := by
        rw [Prpoll_eq hk hv, watchOf,
          pollFd_of_watchesInput hk (hinput e List.mem_cons_self)]
      rw [List.mapM_cons, hfirst, ih (fun e' he' => hl e' (List.mem_cons_of_mem _ he'))
        fun e' he' => hinput e' (List.mem_cons_of_mem _ he')]
      rfl

/-- Both hand the same entries to `poll(2)`. -/
theorem flatMap_watchOf (l : List (Sigma fun _ : LuaValue => LuaValue)) :
    (l.map (watchOf S H timeout)).flatMap Watch.fd_list
      = l.map fun e => pollFd S H e.1 e.2 := by
  induction l with
  | nil => rfl
  | cons e l ih =>
      rw [List.map_cons, List.flatMap_cons, ih]
      rfl

/-- What `rpoll` returns where `poll(2)` does not wait. -/
theorem results_watchOf (hseen : S.Observes timeout limit seen)
    (e : Sigma fun _ : LuaValue => LuaValue) :
    (watchOf S H timeout e).results
      = [.integer (if seen (pollFd S H e.1 e.2) ≠ 0 then 1 else 0)] := by
  have hr := hseen.counts [pollFd S H e.1 e.2] hseen.positive
  rw [List.countP_singleton] at hr
  show pushresult _ _ _ _ = _
  rw [hr]
  by_cases hzero : seen (pollFd S H e.1 e.2) ≠ 0
  · rw [if_pos (decide_eq_true hzero), if_pos hzero]
    rfl
  · rw [if_neg (by rwa [decide_eq_true_iff]), if_neg hzero]
    rfl

/-- `rpoll` finds a descriptor ready if and only if there is something to be seen of it. -/
theorem results_watchOf_eq_one_iff (hseen : S.Observes timeout limit seen)
    (e : Sigma fun _ : LuaValue => LuaValue) :
    (watchOf S H timeout e).results = [.integer 1] ↔ seen (pollFd S H e.1 e.2) ≠ 0 := by
  rw [results_watchOf hseen e]
  by_cases hzero : seen (pollFd S H e.1 e.2) ≠ 0
  · rw [if_pos hzero]
    exact ⟨fun _ => hzero, fun _ => rfl⟩
  · rw [if_neg hzero]
    exact ⟨fun h => absurd h (by decide), fun h => absurd h hzero⟩

/-- The descriptors for which `rpoll` returns 1 are as many as there is something to be seen of. -/
theorem countP_watchOf (hseen : S.Observes timeout limit seen) :
    ((H.tables table).entries.map (watchOf S H timeout)).countP
        (fun w => w.results = [.integer 1])
      = (fdList S H table).countP fun p => seen p ≠ 0 := by
  rw [fdList, List.countP_map, List.countP_map]
  refine List.countP_congr fun e _ => ?_
  simp only [Function.comp_apply, decide_eq_true_eq]
  exact results_watchOf_eq_one_iff hseen e

/-- The descriptors that look ready after `poll` are those that there is something to be seen of. -/
theorem looksReady_of_walked {H' : Heap} (hseen : S.Observes timeout limit seen)
    (hlimit : (H.tables table).entries.length ≤ limit)
    (hinput : ∀ e ∈ (H.tables table).entries, WatchesInput H e.2)
    (hwalked : Walked S H H' table (S.poll (fdList S H table) timeout).revents)
    {e : Sigma fun _ : LuaValue => LuaValue} {i : Nat}
    (he : (H.tables table).entries[i]? = some e) :
    looksReady H' e.2 = decide (seen (pollFd S H e.1 e.2) ≠ 0) := by
  obtain ⟨k, v⟩ := e
  obtain ⟨t, ev, ht : v = .table t, -⟩ := hinput _ (List.mem_of_getElem? he)
  subst ht
  have hlen : (fdList S H table).length ≤ limit := (List.length_map _).trans_le hlimit
  have hpolled : (fdList S H table)[i]? = some (pollFd S H k (.table t)) := by
    rw [fdList, List.getElem?_map, he]
    rfl
  have hbits := hseen.tells _ hlen i _ hpolled
  rw [(hwalked.reported i _ t he).looksReady_eq fun b hb => hseen.mapped _ b (hbits ▸ hb), hbits]

/-- The timeout of `poll` is that of `rpoll`. -/
theorem optint_timeout {v : LuaValue} {d : LuaInteger} (hv : v.tointegerx S.strtod = some d) :
    optint S.strtod [.table table, v] 2 (-1) = .ok (toInt d) := by
  have hsome : isnoneornil [.table table, v] 2 = false := by
    cases v with
    | nil => cases hv
    | _ => rfl
  have hint : expectinteger S.strtod [.table table, v] 2 "integer or nil" = .ok d :=
    expectinteger_of_getElem? rfl hv
  rw [optint, hsome, hint]
  rfl

/-- **`poll` and `rpoll` agree**: a table of any number of descriptors, all watched for input, is
polled with the entries that `rpoll` makes for them one by one, and where `poll(2)` does not wait it
returns for how many of them `rpoll` returns 1; if there is any, the descriptors that look ready are
those. -/
theorem poll_eq_rpolls (h : Pollable H table) (hn : (H.tables table).entries.length < n)
    (hinput : ∀ e ∈ (H.tables table).entries, WatchesInput H e.2)
    {v : LuaValue} {d : LuaInteger} (hv : v.tointegerx S.strtod = some d) :
    ∃ o ws, Ppoll S L n H [.table table, v] = .ok o ∧
      (H.tables table).entries.mapM (fun e => Prpoll S [e.1, v]) = .ok ws ∧
      o.fd_list = ws.flatMap Watch.fd_list ∧ (∀ w ∈ ws, w.timeout = o.timeout) ∧
      ∀ limit seen, S.Observes (toInt d) limit seen → (H.tables table).entries.length ≤ limit →
        o.results = [.integer (BitVec.ofNat 64 (ws.countP fun w => w.results = [.integer 1]))] ∧
        (0 < ws.countP (fun w => w.results = [.integer 1]) →
          ws.map (fun w => decide (w.results = [.integer 1]))
            = (H.tables table).entries.map fun e => looksReady o.heap e.2) := by
  have hlast : [LuaValue.table table, v].length ≤ 2 := Nat.le_refl 2
  obtain ⟨H', hrun, -, hwalked⟩ := h.separate.exists_Ppoll (S := S) (L := L) h.checked hn rfl hlast
    (optint_timeout hv)
  refine ⟨_, _, hrun, mapM_Prpoll hv h.checked hinput, (flatMap_watchOf _).symm, ?_, ?_⟩
  · intro w hw
    obtain ⟨e, -, rfl⟩ := List.mem_map.mp hw
    rfl
  intro limit seen hseen hlimit
  -- Both count the descriptors that there is something to be seen of.
  have hr : (S.poll (fdList S H table) (toInt d)).r
      = ((fdList S H table).countP fun p => seen p ≠ 0 : Nat) :=
    hseen.counts _ ((List.length_map _).trans_le hlimit)
  rw [countP_watchOf hseen]
  refine ⟨?_, fun hpos => ?_⟩
  · show pushresult _ _ _ _ = _
    rw [hr, pushresult, if_neg (by omega)]
    rfl
  · have hfound := hwalked (by rw [hr]; exact_mod_cast hpos)
    rw [List.map_map]
    refine List.map_congr_left fun e he => ?_
    obtain ⟨i, he⟩ := List.getElem?_of_mem he
    rw [looksReady_of_walked hseen hlimit hinput hfound he]
    exact decide_eq_decide.mpr (results_watchOf_eq_one_iff hseen e)

/-! ## An instance -/

/-- There is input on each descriptor. -/
theorem observes_linux : linux.Observes 0 16 fun _ => 1 where
  counts l _ := by
    have hall : l.countP (fun _ => decide ((1 : BitVec 16) ≠ 0)) = l.length :=
      List.countP_eq_length.mpr fun _ _ => rfl
    rw [hall]
    rfl
  tells _ _ _ _ _ := rfl
  mapped _ i h := by
    refine ⟨.IN, ?_⟩
    rw [show (1 : BitVec 16) = BitVec.twoPow 16 0 from rfl, BitVec.getLsbD_twoPow,
      Bool.and_eq_true, decide_eq_true_iff] at h
    exact (of_decide_eq_true h.2).symm
  positive := by decide

/-- Polling standard input agrees with watching it. -/
theorem poll_eq_rpolls_stdin :
    ∃ o ws, Ppoll linux frontLayout 2 stdinHeap [.table 0, .integer 0] = .ok o ∧
      (stdinHeap.tables 0).entries.mapM (fun e => Prpoll linux [e.1, .integer 0]) = .ok ws ∧
      o.fd_list = ws.flatMap Watch.fd_list ∧
      o.results
        = [.integer (BitVec.ofNat 64 (ws.countP fun w => w.results = [.integer 1]))] := by
  have hinput : ∀ e ∈ (stdinHeap.tables 0).entries, WatchesInput stdinHeap e.2 := by
    intro e he
    obtain rfl := List.mem_singleton.mp he
    exact ⟨1, 2, rfl, by decide, fun e => by cases e <;> decide⟩
  have hn : (stdinHeap.tables 0).entries.length < 2 := by decide
  have hv : (LuaValue.integer 0).tointegerx linux.strtod = some 0 := rfl
  obtain ⟨o, ws, hrun, hws, hlist, -, hseen⟩ :=
    poll_eq_rpolls (L := frontLayout) pollable_stdinHeap hn hinput hv
  exact ⟨o, ws, hrun, hws, hlist, (hseen 16 (fun _ => 1) observes_linux (by decide)).1⟩

end LuaPosix.Poll

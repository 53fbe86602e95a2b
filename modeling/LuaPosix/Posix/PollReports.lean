import LuaPosix.Posix.Poll

/-! # What `poll` reports

The loops of `poll` are folds over the entries of the descriptor table, as long as no round
writes to that table. A round writes to the value table and to its `revents` table; where these
are different for all entries and none of them is the descriptor table, every entry ends up with
the events of its own descriptor. -/

namespace LuaPosix.Poll

open Traversal (Layout)
open Heap (fieldName)

variable {S : System} {L : Layout fun _ : LuaValue => LuaValue}

/-! ## Events -/

/-- The events have different names. -/
theorem Event.name_injective : Function.Injective Event.name := by
  intro e e' h
  cases e <;> cases e' <;> first | rfl | exact absurd h (by decide)

/-- The map lists every event. -/
theorem mem_poll_event_map (e : Event) : e ∈ poll_event_map := by
  cases e <;> decide

/-- The field of an event. -/
def Event.field (e : Event) : LuaValue := fieldName e.name

/-- So they have different fields. -/
theorem Event.field_injective : Function.Injective Event.field :=
  Heap.fieldName_injective.comp Event.name_injective

/-- The bit of an event stands at its place only. -/
theorem getLsbD_bit (e : Event) (i : Nat) : (S.bit e).getLsbD i = decide (i = S.place e) := by
  rw [System.bit, BitVec.getLsbD_twoPow, decide_eq_true (S.place_lt e), Bool.true_and]
  exact decide_eq_decide.mpr eq_comm

/-- Testing the bit of an event reads its place. -/
theorem and_bit (events : BitVec 16) (e : Event) :
    (events &&& S.bit e != 0) = events.getLsbD (S.place e) := by
  rw [System.bit, BitVec.and_twoPow]
  split_ifs with h
  · rw [h, bne_iff_ne]
    intro heq
    have hbit := congrArg (BitVec.getLsbD · (S.place e)) heq
    simp [S.place_lt e] at hbit
  · simpa using h

/-- The events of a table whose flag is true. -/
def eventsOf (S : System) (H : Heap) (t : Nat) : BitVec 16 :=
  poll_event_map.foldl
    (fun events e => if toboolean (H.get t e.field) then events ||| S.bit e else events) 0

/-- Reading the events of a table is the fold over the map. -/
theorem poll_events_from_table_eq (H : Heap) (t : Nat) :
    poll_events_from_table S H (.table t) = .ok (eventsOf S H t) :=
  List.foldlM_pure

/-- A place of the folded mask is set by the events that stand there. -/
theorem getLsbD_foldl_events (H : Heap) (t i : Nat) (l : List Event) (acc : BitVec 16) :
    (l.foldl (fun events e => if toboolean (H.get t e.field) then events ||| S.bit e else events)
      acc).getLsbD i
      = (acc.getLsbD i || l.any fun e => toboolean (H.get t e.field) && i == S.place e) := by
  induction l generalizing acc with
  | nil => rw [List.foldl_nil, List.any_nil, Bool.or_false]
  | cons e l ih =>
      rw [List.foldl_cons, ih, List.any_cons, ← Bool.or_assoc]
      congr 1
      split_ifs with h
      · rw [BitVec.getLsbD_or, getLsbD_bit, h, Bool.true_and]
        rfl
      · rw [Bool.not_eq_true] at h
        rw [h, Bool.false_and, Bool.or_false]

/-- **The events of a table** have exactly the bits whose flag is true. -/
theorem getLsbD_eventsOf (H : Heap) (t i : Nat) :
    (eventsOf S H t).getLsbD i = true ↔
      ∃ e, i = S.place e ∧ toboolean (H.get t e.field) = true := by
  have hzero : (0 : BitVec 16).getLsbD i = false := BitVec.getLsbD_zero
  rw [eventsOf, getLsbD_foldl_events, hzero, Bool.false_or, List.any_eq_true]
  constructor
  · rintro ⟨e, -, h⟩
    rw [Bool.and_eq_true, beq_iff_eq] at h
    exact ⟨e, h.2, h.1⟩
  · rintro ⟨e, hi, h⟩
    refine ⟨e, mem_poll_event_map e, ?_⟩
    rw [Bool.and_eq_true, beq_iff_eq]
    exact ⟨h, hi⟩

/-- A table with its flags set. -/
def setFlags (S : System) (L : Layout fun _ : LuaValue => LuaValue) (t : Nat)
    (revents : BitVec 16) (H : Heap) (l : List Event) : Heap :=
  l.foldl (fun H e => H.set L t e.field (.boolean (revents &&& S.bit e != 0))) H

/-- Writing the events of a table is the fold over the map. -/
theorem poll_events_to_table_eq (H : Heap) (t : Nat) (revents : BitVec 16) :
    poll_events_to_table S L H (.table t) revents = .ok (setFlags S L t revents H poll_event_map) :=
  List.foldlM_pure

section SetFlags

variable (t : Nat) (revents : BitVec 16) (H : Heap) (l : List Event)

/-- The flags of the first event are set first. -/
theorem setFlags_cons (e : Event) : setFlags S L t revents H (e :: l)
    = setFlags S L t revents (H.set L t e.field (.boolean (revents &&& S.bit e != 0))) l := rfl

/-- Setting flags makes no table. -/
@[simp] theorem size_setFlags : (setFlags S L t revents H l).size = H.size := by
  induction l generalizing H with
  | nil => rfl
  | cons e l ih => rw [setFlags_cons, ih, Heap.size_set]

/-- It changes one table only. -/
theorem tables_setFlags_of_ne {t' : Nat} (h : t' ≠ t) :
    (setFlags S L t revents H l).tables t' = H.tables t' := by
  induction l generalizing H with
  | nil => rfl
  | cons e l ih => rw [setFlags_cons, ih, Heap.tables_set_of_ne _ _ h]

/-- It leaves alone the keys that name no event. -/
theorem get_setFlags_of_not_field {k : LuaValue} (h : ∀ e : Event, k ≠ e.field) :
    (setFlags S L t revents H l).get t k = H.get t k := by
  induction l generalizing H with
  | nil => rfl
  | cons e l ih => rw [setFlags_cons, ih, Heap.get_set_of_ne _ _ (h e)]

/-- A flag that was set tells the bit of its event. -/
theorem get_setFlags (e : Event) : (setFlags S L t revents H l).get t e.field
    = if e ∈ l then .boolean (revents.getLsbD (S.place e)) else H.get t e.field := by
  induction l generalizing H with
  | nil => rw [if_neg List.not_mem_nil, setFlags, List.foldl_nil]
  | cons e' l ih =>
      rw [setFlags_cons, ih]
      by_cases hl : e ∈ l
      · rw [if_pos hl, if_pos (List.mem_cons_of_mem _ hl)]
      · rw [if_neg hl]
        by_cases he : e = e'
        · subst he
          rw [if_pos List.mem_cons_self, Heap.get_set, and_bit]
        · rw [if_neg (by simp [he, hl]), Heap.get_set_of_ne _ _ (Event.field_injective.ne he)]

end SetFlags

/-! ## The entries -/

/-- The field `revents` of a value table. -/
def reventsField : LuaValue := fieldName "revents"

/-- The tables a round of the second walk writes to: the value table of the entry and its
`revents` table. -/
def touched (H : Heap) (v : LuaValue) : List Nat :=
  match v with
  | .table t =>
      t :: (match H.get t reventsField with
        | .table r => [r]
        | _ => [])
  | _ => []

/-- An entry that passes the check: its key is an `int`, its value a table with an `events`
table, and a `revents` table if any. -/
structure EntryOk (H : Heap) (k v : LuaValue) : Prop where
  key : ∃ fd : Int, k = .integer (BitVec.ofInt 64 fd) ∧ -2 ^ 31 ≤ fd ∧ fd < 2 ^ 31
  value : ∃ t ev, v = .table t ∧ H.get t (fieldName "events") = .table ev ∧ ev < H.size ∧
    (H.get t reventsField = .nil ∨ ∃ r, H.get t reventsField = .table r)

/-- An entry that `poll_fd_list_check_table` lets pass. -/
structure EntryChecked (H : Heap) (k v : LuaValue) : Prop where
  key : ∃ d : LuaInteger, k = .integer d
  value : ∃ t ev, v = .table t ∧ H.get t (fieldName "events") = .table ev ∧
    (H.get t reventsField = .nil ∨ ∃ r, H.get t reventsField = .table r)

/-- An entry that is accepted was checked. -/
theorem EntryOk.checked {H : Heap} {k v : LuaValue} (h : EntryOk H k v) : EntryChecked H k v := by
  obtain ⟨fd, hk, -⟩ := h.key
  obtain ⟨t, ev, hv, hev, -, hrev⟩ := h.value
  exact ⟨⟨_, hk⟩, t, ev, hv, hev, hrev⟩

/-- The number of tables an entry's round may write to is the same wherever its value table is. -/
theorem touched_congr {H H' : Heap} {v : LuaValue}
    (h : ∀ t, v = .table t → H'.tables t = H.tables t) : touched H' v = touched H v := by
  cases v with
  | table t =>
      have hget : H'.get t reventsField = H.get t reventsField := by
        rw [Heap.get, Heap.get, h t rfl]
      rw [touched, touched, hget]
  | _ => rfl

/-- **An entry reported**: the six flags of its `revents` table are the kernel's, and nothing
else has changed in its tables. -/
structure Reported (S : System) (H H' : Heap) (t : Nat) (revents : BitVec 16) : Prop where
  table : ∃ r, H'.get t reventsField = .table r ∧
    (H.get t reventsField = .table r ∨ (H.get t reventsField = .nil ∧ H.size ≤ r)) ∧
    (∀ e : Event, H'.get r e.field = .boolean (revents.getLsbD (S.place e))) ∧
    ∀ k, (∀ e : Event, k ≠ e.field) → H'.get r k = if r < H.size then H.get r k else .nil
  value : ∀ k, k ≠ reventsField → H'.get t k = H.get t k

/-- The tables after a round. -/
def report (S : System) (L : Layout fun _ : LuaValue => LuaValue) (H : Heap) (t : Nat)
    (revents : BitVec 16) : Heap :=
  match H.get t reventsField with
  | .table r => setFlags S L r revents H poll_event_map
  | _ => setFlags S L H.size revents
      (H.createtable.2.set L t reventsField (.table H.size)) poll_event_map

section Report

variable {H : Heap} {t : Nat} (revents : BitVec 16)

/-- Where `revents` is a table, the flags go there. -/
theorem report_of_table {r : Nat} (h : H.get t reventsField = .table r) :
    report S L H t revents = setFlags S L r revents H poll_event_map := by
  rw [report, h]

/-- Where it is missing, they go to a new one. -/
theorem report_of_nil (h : H.get t reventsField = .nil) :
    report S L H t revents = setFlags S L H.size revents
      (H.createtable.2.set L t reventsField (.table H.size)) poll_event_map := by
  rw [report, h]

/-- One entry is reported by the bits at its position. -/
theorem reportEntry_eq {fd_num i : Nat} {bits : Nat → BitVec 16} {k : LuaValue} (hi : i < fd_num)
    (h : H.get t reventsField = .nil ∨ ∃ r, H.get t reventsField = .table r) :
    reportEntry S L fd_num bits (H, i) k (.table t) = .ok (report S L H t (bits i), i + 1) := by
  obtain h | ⟨r, h⟩ := h
  · have hfield : H.getfield (.table t) "revents" = .ok .nil := congrArg _ h
    rw [report_of_nil _ h, reportEntry, reventsTable, hfield, CallM.ok_bind, if_pos rfl]
    show (if i < fd_num then _ else _) = _
    rw [if_pos hi]
    show (poll_events_to_table S L _ (.table H.size) (bits i) >>= _) = _
    rw [poll_events_to_table_eq]
    rfl
  · have hfield : H.getfield (.table t) "revents" = .ok (.table r) := congrArg _ h
    rw [report_of_table _ h, reportEntry, reventsTable, hfield]
    show (if i < fd_num then _ else _) = _
    rw [if_pos hi]
    show (poll_events_to_table S L _ (.table r) (bits i) >>= _) = _
    rw [poll_events_to_table_eq]
    rfl

/-- Reporting takes no table away. -/
theorem size_le_report : H.size ≤ (report S L H t revents).size := by
  rw [report]
  split
  · rw [size_setFlags]
  · rw [size_setFlags, Heap.size_set]
    exact Nat.le_succ _

/-- An entry with a table of `revents` touches these two. -/
theorem touched_of_table {r : Nat} (h : H.get t reventsField = .table r) :
    touched H (.table t) = [t, r] := by
  rw [touched, h]

/-- A round leaves every other table alone. -/
theorem tables_report (h : H.get t reventsField = .nil ∨ ∃ r, H.get t reventsField = .table r)
    {t' : Nat} (ht' : t' < H.size) (hnot : t' ∉ touched H (.table t)) :
    (report S L H t revents).tables t' = H.tables t' := by
  obtain h | ⟨r, h⟩ := h
  · have ht : t' ≠ t := List.ne_of_not_mem_cons hnot
    rw [report_of_nil _ h, tables_setFlags_of_ne _ _ _ _ (Nat.ne_of_lt ht'),
      Heap.tables_set_of_ne _ _ ht]
    exact Function.update_of_ne (Nat.ne_of_lt ht') _ _
  · rw [touched_of_table h] at hnot
    rw [report_of_table _ h]
    exact tables_setFlags_of_ne _ _ _ _
      (List.ne_of_not_mem_cons (List.not_mem_of_not_mem_cons hnot))

/-- **A round reports its entry.** -/
theorem reported_report (h : H.get t reventsField = .nil ∨ ∃ r, H.get t reventsField = .table r)
    (hlive : ∀ t' ∈ touched H (.table t), t' < H.size) (hnodup : (touched H (.table t)).Nodup) :
    Reported S H (report S L H t revents) t revents := by
  have hflag : ∀ (r : Nat) (H : Heap) (e : Event),
      (setFlags S L r revents H poll_event_map).get r e.field
        = .boolean (revents.getLsbD (S.place e)) := by
    intro r H e
    rw [get_setFlags, if_pos (mem_poll_event_map e)]
  have ht : t < H.size := hlive t (List.mem_cons_self)
  obtain h | ⟨r, h⟩ := h
  · have hne : t ≠ H.size := Nat.ne_of_lt ht
    have hget : ∀ k, (report S L H t revents).get t k
        = (H.createtable.2.set L t reventsField (.table H.size)).get t k := by
      intro k
      rw [report_of_nil _ h, Heap.get, Heap.get, tables_setFlags_of_ne _ _ _ _ hne]
    have hold : ∀ k, H.createtable.2.get t k = H.get t k := by
      intro k
      have htables : H.createtable.2.tables t = H.tables t := Function.update_of_ne hne _ _
      rw [Heap.get, Heap.get, htables]
    refine ⟨⟨H.size, ?_, .inr ⟨h, Nat.le_refl _⟩, fun e => ?_, fun k hk => ?_⟩, fun k hk => ?_⟩
    · rw [hget, Heap.get_set]
    · rw [report_of_nil _ h, hflag]
    · have hempty : H.createtable.2.tables H.size = ∅ := Function.update_self _ _ _
      rw [report_of_nil _ h, get_setFlags_of_not_field _ _ _ _ hk, if_neg (Nat.lt_irrefl _),
        Heap.get, Heap.tables_set_of_ne _ _ hne.symm, hempty]
      rfl
    · rw [hget, Heap.get_set_of_ne _ _ hk, hold]
  · rw [touched_of_table h] at hlive hnodup
    have hr : r < H.size := hlive r (by simp)
    have hne : t ≠ r := by
      rw [List.nodup_cons, List.mem_singleton] at hnodup
      exact hnodup.1
    have hget : ∀ k, (report S L H t revents).get t k = H.get t k := by
      intro k
      rw [report_of_table _ h, Heap.get, Heap.get, tables_setFlags_of_ne _ _ _ _ hne]
    refine ⟨⟨r, (hget _).trans h, .inl h, fun e => ?_, fun k hk => ?_⟩, fun k _ => hget k⟩
    · rw [report_of_table _ h, hflag]
    · rw [report_of_table _ h, get_setFlags_of_not_field _ _ _ _ hk, if_pos hr]

/-- A new `revents` table is the one after those there were. -/
theorem lt_size_of_get_report (hlive : t < H.size) (h : H.get t reventsField = .nil) {r : Nat}
    (hr : (report S L H t revents).get t reventsField = .table r) :
    r < (report S L H t revents).size := by
  rw [report_of_nil _ h, Heap.get, tables_setFlags_of_ne _ _ _ _ (Nat.ne_of_lt hlive), ← Heap.get,
    Heap.get_set] at hr
  rw [report_of_nil _ h, size_setFlags, Heap.size_set]
  injection hr with hr
  exact hr ▸ Nat.lt_succ_self _

end Report

/-- What was reported stays so while its tables are left alone. -/
theorem Reported.mono {H H₁ H' : Heap} {t : Nat} {revents : BitVec 16}
    (h : Reported S H H₁ t revents) (ht : H'.tables t = H₁.tables t)
    (hr : ∀ r, H₁.get t reventsField = .table r → H'.tables r = H₁.tables r) :
    Reported S H H' t revents := by
  obtain ⟨r, hget, hrev, hflags, hothers⟩ := h.table
  have hget' : ∀ k, H'.get t k = H₁.get t k := fun k => by rw [Heap.get, Heap.get, ht]
  have hgetr : ∀ k, H'.get r k = H₁.get r k := fun k => by rw [Heap.get, Heap.get, hr r hget]
  refine ⟨⟨r, (hget' _).trans hget, hrev, fun e => (hgetr _).trans (hflags e),
    fun k hk => (hgetr k).trans (hothers k hk)⟩, fun k hk => (hget' k).trans (h.value k hk)⟩

/-- What is reported from a later state is so from an earlier one with the same tables. -/
theorem Reported.of_eq {H H₁ H' : Heap} {t : Nat} {revents : BitVec 16}
    (h : Reported S H₁ H' t revents) (hsize : H.size ≤ H₁.size) (ht : H₁.tables t = H.tables t)
    (hr : ∀ r, H.get t reventsField = .table r → r < H.size ∧ H₁.tables r = H.tables r) :
    Reported S H H' t revents := by
  obtain ⟨r, hget, hrev, hflags, hothers⟩ := h.table
  have hget' : ∀ k, H₁.get t k = H.get t k := fun k => by rw [Heap.get, Heap.get, ht]
  rw [hget'] at hrev
  refine ⟨⟨r, hget, ?_, hflags, fun k hk => ?_⟩, fun k hk => (h.value k hk).trans (hget' k)⟩
  · exact hrev.imp_right fun h => ⟨h.1, hsize.trans h.2⟩
  · rw [hothers k hk]
    obtain hold | ⟨-, hnew⟩ := hrev
    · obtain ⟨hlt, htables⟩ := hr r hold
      rw [if_pos hlt, if_pos (hlt.trans_le hsize), Heap.get, Heap.get, htables]
    · rw [if_neg (by omega), if_neg (by omega)]

/-! ## The loops -/

/-- The tables the second walk writes to. -/
def touchedBy (H : Heap) (l : List (Sigma fun _ : LuaValue => LuaValue)) : List Nat :=
  l.flatMap fun e => touched H e.2

/-- What the entries touch is what each of them does. -/
theorem touchedBy_cons (H : Heap) (e : Sigma fun _ : LuaValue => LuaValue)
    (l : List (Sigma fun _ : LuaValue => LuaValue)) :
    touchedBy H (e :: l) = touched H e.2 ++ touchedBy H l := List.flatMap_cons

/-- What the second walk needs of the entries it has before it: tables of their own. -/
structure Reportable (H : Heap) (l : List (Sigma fun _ : LuaValue => LuaValue)) : Prop where
  value : ∀ e ∈ l, ∃ t, e.2 = .table t ∧
    (H.get t reventsField = .nil ∨ ∃ r, H.get t reventsField = .table r)
  live : ∀ t ∈ touchedBy H l, t < H.size
  distinct : (touchedBy H l).Nodup

/-- After a walk the tables of the entries still are tables of their own, each of them one there
was or a new one. -/
structure Renewed (H H' : Heap) (l : List (Sigma fun _ : LuaValue => LuaValue)) : Prop where
  distinct : (touchedBy H' l).Nodup
  live : ∀ t ∈ touchedBy H' l, t < H'.size
  known : ∀ t ∈ touchedBy H' l, t ∈ touchedBy H l ∨ H.size ≤ t

section Walk

variable {H H₁ H' : Heap} {e : Sigma fun _ : LuaValue => LuaValue}
  {l : List (Sigma fun _ : LuaValue => LuaValue)} {revents : BitVec 16}

/-- The tables of an entry are not those of another. -/
theorem Reportable.disjoint (h : Reportable H (e :: l)) :
    (touched H e.2).Nodup ∧ (touchedBy H l).Nodup ∧ ∀ t ∈ touched H e.2, t ∉ touchedBy H l := by
  have hdistinct := h.distinct
  rw [touchedBy_cons, List.nodup_append] at hdistinct
  exact ⟨hdistinct.1, hdistinct.2.1, fun t ht hmem => hdistinct.2.2 t ht t hmem rfl⟩

/-- What the first entry touches is there. -/
theorem Reportable.live_head (h : Reportable H (e :: l)) : ∀ t ∈ touched H e.2, t < H.size :=
  fun t ht => h.live t (List.mem_append_left _ ht)

/-- So is what the others touch. -/
theorem Reportable.live_tail (h : Reportable H (e :: l)) : ∀ t ∈ touchedBy H l, t < H.size :=
  fun t ht => h.live t (List.mem_append_right _ ht)

/-- The entries still to come are not affected by a round. -/
theorem Reportable.tail (h : Reportable H (e :: l)) (hsize : H.size ≤ H₁.size)
    (htables : ∀ t, t < H.size → t ∉ touched H e.2 → H₁.tables t = H.tables t) :
    Reportable H₁ l ∧ touchedBy H₁ l = touchedBy H l ∧
      ∀ t ∈ touchedBy H l, H₁.tables t = H.tables t := by
  obtain ⟨-, hnodup, hdisjoint⟩ := h.disjoint
  have hsame : ∀ t ∈ touchedBy H l, H₁.tables t = H.tables t := fun t ht =>
    htables t (h.live_tail t ht) fun hmem => hdisjoint t hmem ht
  have hvalue : ∀ e' ∈ l, ∀ t, e'.2 = .table t → H₁.tables t = H.tables t := by
    intro e' he' t ht
    refine hsame t (List.mem_flatMap.mpr ⟨e', he', ?_⟩)
    rw [ht, touched]
    exact List.mem_cons_self
  have htouched : touchedBy H₁ l = touchedBy H l :=
    List.flatMap_congr fun e' he' => touched_congr (hvalue e' he')
  refine ⟨⟨fun e' he' => ?_, ?_, ?_⟩, htouched, hsame⟩
  · obtain ⟨t, ht, hrev⟩ := h.value e' (List.mem_cons_of_mem _ he')
    have hget : H₁.get t reventsField = H.get t reventsField := by
      rw [Heap.get, Heap.get, hvalue e' he' t ht]
    exact ⟨t, ht, by rwa [hget]⟩
  · rw [htouched]
    exact fun t ht => (h.live_tail t ht).trans_le hsize
  · rw [htouched]
    exact hnodup

/-- The entry reported first stays so for the rest of the walk. -/
theorem Reportable.reported_head {k : LuaValue} {t : Nat} (h : Reportable H (⟨k, .table t⟩ :: l))
    (hnew : ∀ r, H.get t reventsField = .nil → H₁.get t reventsField = .table r → r < H₁.size)
    (hsize : H.size ≤ H₁.size)
    (hframe : ∀ t', t' < H₁.size → t' ∉ touchedBy H l → H'.tables t' = H₁.tables t')
    (hreport : Reported S H H₁ t revents) : Reported S H H' t revents := by
  obtain ⟨-, -, hdisjoint⟩ := h.disjoint
  have hold : ∀ t' ∈ touched H (.table t), H'.tables t' = H₁.tables t' := fun t' ht' =>
    hframe t' ((h.live_head t' ht').trans_le hsize) (hdisjoint t' ht')
  refine hreport.mono (hold t List.mem_cons_self) fun r hr => ?_
  obtain ⟨r', hr', hrev, -⟩ := hreport.table
  obtain rfl : r = r' := by injection hr.symm.trans hr'
  obtain hrev | ⟨hnil, hfree⟩ := hrev
  · exact hold r (by simp [touched_of_table hrev])
  · -- A new `revents` table is not one of those still to be written to.
    refine hframe r (hnew r hnil hr) fun hmem => ?_
    have hlt := h.live_tail r hmem
    omega

/-- An entry reported later is reported from the tables there were before. -/
theorem Reportable.reported_tail {e' : Sigma fun _ : LuaValue => LuaValue} {t : Nat}
    (h : Reportable H (e :: l)) (he' : e' ∈ l) (ht : e'.2 = .table t) (hsize : H.size ≤ H₁.size)
    (hsame : ∀ t ∈ touchedBy H l, H₁.tables t = H.tables t)
    (hreport : Reported S H₁ H' t revents) : Reported S H H' t revents := by
  have htouch : ∀ r ∈ touched H (.table t), r ∈ touchedBy H l := fun r hr =>
    List.mem_flatMap.mpr ⟨e', he', ht ▸ hr⟩
  refine hreport.of_eq hsize (hsame t (htouch t List.mem_cons_self)) fun r hr => ?_
  have hr' : r ∈ touchedBy H l := htouch r (by simp [touched_of_table hr])
  exact ⟨h.live_tail r hr', hsame r hr'⟩

/-- A round leaves its entry with a `revents` table. -/
theorem touched_report {t : Nat} (bits : BitVec 16)
    (hrev : H.get t reventsField = .nil ∨ ∃ r, H.get t reventsField = .table r)
    (hlive : ∀ t' ∈ touched H (.table t), t' < H.size) (hnodup : (touched H (.table t)).Nodup) :
    ∃ r, touched (report S L H t bits) (.table t) = [t, r] ∧ t ≠ r ∧
      r < (report S L H t bits).size ∧ (r ∈ touched H (.table t) ∨ H.size ≤ r) := by
  obtain ⟨r, hr, hold, -⟩ := (reported_report (S := S) (L := L) bits hrev hlive hnodup).table
  have ht : t < H.size := hlive t List.mem_cons_self
  refine ⟨r, touched_of_table hr, ?_⟩
  obtain hold | ⟨hnil, hfree⟩ := hold
  · rw [touched_of_table hold] at hlive hnodup ⊢
    have hmem : r ∈ [t, r] := List.mem_cons_of_mem _ List.mem_cons_self
    rw [List.nodup_cons, List.mem_singleton] at hnodup
    exact ⟨hnodup.1, (hlive r hmem).trans_le (size_le_report bits), .inl hmem⟩
  · exact ⟨by omega, lt_size_of_get_report bits ht hnil hr, .inr hfree⟩

/-- A round and the rest of the walk together. -/
theorem Reportable.renewed {k : LuaValue} {t r : Nat} (h : Reportable H (⟨k, .table t⟩ :: l))
    (hsize : H.size ≤ H₁.size) (hsize' : H₁.size ≤ H'.size)
    (hhead : touched H' (.table t) = [t, r]) (hne : t ≠ r) (hr : r < H₁.size)
    (hknown : r ∈ touched H (.table t) ∨ H.size ≤ r) (hsame : touchedBy H₁ l = touchedBy H l)
    (hrest : Renewed H₁ H' l) : Renewed H H' (⟨k, .table t⟩ :: l) := by
  have hhead' : touchedBy H' (⟨k, .table t⟩ :: l) = [t, r] ++ touchedBy H' l := by
    rw [touchedBy_cons]
    exact congrArg (· ++ _) hhead
  have ht : t ∈ touched H (.table t) := List.mem_cons_self
  have htsize : t < H.size := h.live_head t ht
  -- What the rest writes to is a table of a later entry, or newer than the round.
  have hlater : ∀ t' ∈ touchedBy H' l, t' ∈ touchedBy H l ∨ H₁.size ≤ t' := by
    intro t' ht'
    rw [← hsame]
    exact hrest.known t' ht'
  refine ⟨?_, fun t' ht' => ?_, fun t' ht' => ?_⟩
  · rw [hhead', List.nodup_append]
    refine ⟨by simpa using hne, hrest.distinct, fun x hx y hy heq => ?_⟩
    subst heq
    have hx₁ : x < H₁.size := by
      rcases List.mem_pair.mp hx with rfl | rfl
      · omega
      · exact hr
    obtain hmem | hnew := hlater x hy
    · have hlt := h.live_tail x hmem
      rcases List.mem_pair.mp hx with rfl | rfl
      · exact h.disjoint.2.2 x ht hmem
      · obtain hold | hfree := hknown
        · exact h.disjoint.2.2 x hold hmem
        · omega
    · omega
  · rw [hhead'] at ht'
    rcases List.mem_append.mp ht' with ht' | ht'
    · rcases List.mem_pair.mp ht' with rfl | rfl <;> omega
    · exact hrest.live t' ht'
  · rw [hhead'] at ht'
    rw [touchedBy_cons, List.mem_append]
    rcases List.mem_append.mp ht' with ht' | ht'
    · rcases List.mem_pair.mp ht' with rfl | rfl
      · exact .inl (.inl ht)
      · exact hknown.imp_left .inl
    · exact (hlater t' ht').imp .inr hsize.trans

/-- **The second walk**, from place `i` of the array: every entry is reported, and no table but
theirs is written to. -/
theorem exists_foldlM_reportEntry {fd_num : Nat} (bits : Nat → BitVec 16)
    (l : List (Sigma fun _ : LuaValue => LuaValue)) {H : Heap} (h : Reportable H l) {i : Nat}
    (hi : i + l.length ≤ fd_num) :
    ∃ H', l.foldlM (fun s e => reportEntry S L fd_num bits s e.1 e.2) (H, i)
        = .ok (H', i + l.length) ∧ H.size ≤ H'.size ∧ Renewed H H' l ∧
      (∀ t, t < H.size → t ∉ touchedBy H l → H'.tables t = H.tables t) ∧
      ∀ j e t, l[j]? = some e → e.2 = .table t → Reported S H H' t (bits (i + j)) := by
  induction l generalizing H i with
  | nil =>
      refine ⟨H, rfl, Nat.le_refl _, ?_, fun _ _ _ => rfl, fun j e t hj => (nomatch hj)⟩
      exact ⟨List.nodup_nil, fun t ht => absurd ht List.not_mem_nil,
        fun t ht => absurd ht List.not_mem_nil⟩
  | cons e l ih =>
      rw [List.length_cons] at hi
      obtain ⟨k, v⟩ := e
      obtain ⟨t, rfl, hrev⟩ : ∃ t, v = .table t ∧
          (H.get t reventsField = .nil ∨ ∃ r, H.get t reventsField = .table r) :=
        h.value _ List.mem_cons_self
      have hreport := reported_report (S := S) (L := L) (bits i) hrev h.live_head h.disjoint.1
      have hframe : ∀ t', t' < H.size → t' ∉ touched H (.table t) →
          (report S L H t (bits i)).tables t' = H.tables t' :=
        fun t' ht' hnot => tables_report (bits i) hrev ht' hnot
      have hsize₁ : H.size ≤ (report S L H t (bits i)).size := size_le_report (bits i)
      obtain ⟨hrest, htouched, hsame⟩ := h.tail hsize₁ hframe
      obtain ⟨H', hrun, hsize, hrenewed, hframe', hreports⟩ := ih hrest (i := i + 1) (by omega)
      rw [htouched] at hframe'
      refine ⟨H', ?_, hsize₁.trans hsize, ?_, fun t' ht' hnot => ?_, fun j e t' hj ht' => ?_⟩
      · rw [List.foldlM_cons, reportEntry_eq (by omega) hrev]
        show List.foldlM _ _ l = _
        rw [hrun, List.length_cons, Nat.add_assoc, Nat.add_comm 1]
      · obtain ⟨r, hr, hne, hlt, hknown⟩ := touched_report (S := S) (L := L) (bits i) hrev
          h.live_head h.disjoint.1
        have ht : t < H.size := h.live_head t List.mem_cons_self
        have hhead : touched H' (.table t) = [t, r] := by
          rw [← hr]
          refine touched_congr fun t' ht' => ?_
          obtain rfl : t = t' := by injection ht'
          exact hframe' t (ht.trans_le hsize₁) (h.disjoint.2.2 t List.mem_cons_self)
        exact h.renewed hsize₁ hsize hhead hne hlt hknown htouched hrenewed
      · rw [touchedBy_cons, List.mem_append, not_or] at hnot
        rw [hframe' t' (ht'.trans_le hsize₁) hnot.2, hframe t' ht' hnot.1]
      · cases j with
        | zero =>
            cases hj
            cases ht'
            have hlive : t < H.size := h.live_head t List.mem_cons_self
            exact h.reported_head (fun r hnil => lt_size_of_get_report (bits i) hlive hnil) hsize₁
              hframe' hreport
        | succ j =>
            have hj' : l[j]? = some e := hj
            have hreported := hreports j e t' hj' ht'
            rw [show i + 1 + j = i + (j + 1) by omega] at hreported
            exact h.reported_tail (List.mem_of_getElem? hj') ht' hsize₁ hsame hreported

end Walk

/-- What the first walk makes of an entry. -/
def pollFd (S : System) (H : Heap) (k v : LuaValue) : PollFd where
  fd := toInt ((k.tointegerx S.strtod).getD 0)
  events :=
    match v with
    | .table t =>
        match H.get t (fieldName "events") with
        | .table ev => eventsOf S H ev
        | _ => 0
    | _ => 0

/-- The events of the array's entry are those of the table. -/
theorem pollFd_events {H : Heap} {t ev : Nat} (k : LuaValue)
    (hev : H.get t (fieldName "events") = .table ev) :
    (pollFd S H k (.table t)).events = eventsOf S H ev := by
  simp only [pollFd, hev]

/-- A descriptor comes back from the integer that was made of it. -/
theorem toInt_ofInt {fd : Int} (h : -2 ^ 31 ≤ fd ∧ fd < 2 ^ 31) :
    toInt (BitVec.ofInt 64 fd) = fd := by
  rw [toInt, BitVec.toInt_setWidth, BitVec.toNat_ofInt]
  rw [Int.bmod_def]
  omega

section Rounds

variable {H : Heap} {k v : LuaValue}

/-- An entry that is as it should be is counted. -/
theorem checkEntry_eq (h : EntryChecked H k v) (fd_num : Nat) :
    checkEntry H fd_num k v = .ok (fd_num + 1) := by
  obtain ⟨d, rfl⟩ := h.key
  obtain ⟨t, ev, rfl, hev, hrev⟩ := h.value
  have hevents : H.getfield (.table t) "events" = .ok (.table ev) := congrArg _ hev
  rw [checkEntry, hevents]
  obtain hrev | ⟨r, hrev⟩ := hrev
  · have hrevents : H.getfield (.table t) "revents" = .ok .nil := congrArg _ hrev
    rw [hrevents]
    rfl
  · have hrevents : H.getfield (.table t) "revents" = .ok (.table r) := congrArg _ hrev
    rw [hrevents]
    rfl

/-- It is filled in where there is room. -/
theorem fillEntry_eq (h : EntryChecked H k v) {capacity : Nat} {fd_list : List PollFd}
    (hroom : fd_list.length < capacity) :
    fillEntry S H capacity fd_list k v = .ok (fd_list ++ [pollFd S H k v]) := by
  obtain ⟨t, ev, rfl, hev, -⟩ := h.value
  have hevents : H.getfield (.table t) "events" = .ok (.table ev) := congrArg _ hev
  rw [fillEntry, hevents, CallM.ok_bind, poll_events_from_table_eq, CallM.ok_bind, if_pos hroom,
    ← pollFd_events k hev]
  rfl

variable {l : List (Sigma fun _ : LuaValue => LuaValue)}

/-- All the entries are counted. -/
theorem foldlM_checkEntry (h : ∀ e ∈ l, EntryChecked H e.1 e.2) (fd_num : Nat) :
    l.foldlM (fun m e => checkEntry H m e.1 e.2) fd_num = .ok (fd_num + l.length) := by
  induction l generalizing fd_num with
  | nil => rfl
  | cons e l ih =>
      rw [List.foldlM_cons, checkEntry_eq (h e List.mem_cons_self)]
      show List.foldlM _ _ l = _
      rw [ih fun e' he' => h e' (List.mem_cons_of_mem _ he'), List.length_cons, Nat.add_assoc,
        Nat.add_comm 1]

/-- All of them are filled in, in their order. -/
theorem foldlM_fillEntry (h : ∀ e ∈ l, EntryChecked H e.1 e.2) {capacity : Nat}
    {fd_list : List PollFd} (hroom : fd_list.length + l.length ≤ capacity) :
    l.foldlM (fun m e => fillEntry S H capacity m e.1 e.2) fd_list
      = .ok (fd_list ++ l.map fun e => pollFd S H e.1 e.2) := by
  induction l generalizing fd_list with
  | nil =>
      rw [List.map_nil, List.append_nil]
      rfl
  | cons e l ih =>
      rw [List.length_cons] at hroom
      rw [List.foldlM_cons, fillEntry_eq (h e List.mem_cons_self) (by omega)]
      show List.foldlM _ _ l = _
      rw [ih (fun e' he' => h e' (List.mem_cons_of_mem _ he')) (by
        rw [List.length_append, List.length_singleton]
        omega), List.append_assoc, List.singleton_append, List.map_cons]

end Rounds

/-! ## The call -/

/-- A table `poll` takes: its entries pass the check, and their value and `revents` tables are
tables of their own, neither the descriptor table nor one of the `events` tables. -/
structure Pollable (H : Heap) (table : Nat) : Prop where
  live : table < H.size
  entries : ∀ e ∈ (H.tables table).entries, EntryOk H e.1 e.2
  touched_live : ∀ t ∈ touchedBy H (H.tables table).entries, t < H.size
  distinct : (touchedBy H (H.tables table).entries).Nodup
  table_not : table ∉ touchedBy H (H.tables table).entries
  events_not : ∀ e ∈ (H.tables table).entries, ∀ t ev, e.2 = .table t →
    H.get t (fieldName "events") = .table ev → ev ∉ touchedBy H (H.tables table).entries

/-- The array handed to `poll(2)`: an entry for each key, with its events. -/
structure Handed (S : System) (H : Heap) (table : Nat) (fd_list : List PollFd) : Prop where
  length : fd_list.length = (H.tables table).entries.length
  entry : ∀ (j : Nat) k t ev, (H.tables table).entries[j]? = some ⟨k, .table t⟩ →
    H.get t (fieldName "events") = .table ev →
    ∃ p, fd_list[j]? = some p ∧ k = .integer (BitVec.ofInt 64 p.fd) ∧
      ∀ i, p.events.getLsbD i = true ↔
        ∃ e : Event, i = S.place e ∧ toboolean (H.get ev e.field) = true

/-- The tables after a call that found events: those of each entry report what the kernel said
of it, and all others are as they were. -/
structure Answered (S : System) (H H' : Heap) (table : Nat) (revents : Nat → BitVec 16) :
    Prop where
  reported : ∀ (j : Nat) k t, (H.tables table).entries[j]? = some ⟨k, .table t⟩ →
    Reported S H H' t (revents j)
  keys : H'.tables table = H.tables table
  events : ∀ e ∈ (H.tables table).entries, ∀ t ev, e.2 = .table t →
    H.get t (fieldName "events") = .table ev → H'.tables ev = H.tables ev
  others : ∀ t, t < H.size → t ∉ touchedBy H (H.tables table).entries →
    H'.tables t = H.tables t

/-- The tables of the entries are tables of their own, and none of them is the descriptor
table. -/
structure Separate (H : Heap) (table : Nat) : Prop where
  live : table < H.size
  touched_live : ∀ t ∈ touchedBy H (H.tables table).entries, t < H.size
  distinct : (touchedBy H (H.tables table).entries).Nodup
  table_not : table ∉ touchedBy H (H.tables table).entries

/-- The tables after the second walk: those of each entry report what the kernel said of it, and
all others are as they were. -/
structure Walked (S : System) (H H' : Heap) (table : Nat) (revents : Nat → BitVec 16) :
    Prop where
  reported : ∀ (j : Nat) k t, (H.tables table).entries[j]? = some ⟨k, .table t⟩ →
    Reported S H H' t (revents j)
  keys : H'.tables table = H.tables table
  others : ∀ t, t < H.size → t ∉ touchedBy H (H.tables table).entries →
    H'.tables t = H.tables t
  size : H.size ≤ H'.size
  renewed : Renewed H H' (H.tables table).entries

section Call

variable {H : Heap} {table n : Nat}

/-- The entries of a table that may be polled lie apart. -/
theorem Pollable.separate (h : Pollable H table) : Separate H table :=
  ⟨h.live, h.touched_live, h.distinct, h.table_not⟩

/-- Each of them passes the check. -/
theorem Pollable.checked (h : Pollable H table) :
    ∀ e ∈ (H.tables table).entries, EntryChecked H e.1 e.2 := fun e he => (h.entries e he).checked

/-- The reports of separate entries do not meet. -/
theorem Separate.reportable (h : Separate H table)
    (hchecked : ∀ e ∈ (H.tables table).entries, EntryChecked H e.1 e.2) :
    Reportable H (H.tables table).entries where
  value e he := by
    obtain ⟨t, -, ht, -, hrev⟩ := (hchecked e he).value
    exact ⟨t, ht, hrev⟩
  live := h.touched_live
  distinct := h.distinct

/-- The first pass counts the entries. -/
theorem check_table_eq (hchecked : ∀ e ∈ (H.tables table).entries, EntryChecked H e.1 e.2)
    (hn : (H.tables table).entries.length < n) :
    poll_fd_list_check_table n H table = .ok (H.tables table).entries.length := by
  rw [poll_fd_list_check_table, Heap.whileNext_eq_foldlM (fun _ _ _ _ _ => rfl) hn,
    foldlM_checkEntry hchecked, Nat.zero_add]

/-- The second one makes the array of them. -/
theorem from_table_eq (hchecked : ∀ e ∈ (H.tables table).entries, EntryChecked H e.1 e.2)
    (hn : (H.tables table).entries.length < n)
    {capacity : Nat} (hroom : (H.tables table).entries.length ≤ capacity) :
    poll_fd_list_from_table S n H table capacity
      = .ok ((H.tables table).entries.map fun e => pollFd S H e.1 e.2) := by
  rw [poll_fd_list_from_table, Heap.whileNext_eq_foldlM (fun _ _ _ _ _ => rfl) hn,
    foldlM_fillEntry hchecked (by simpa using hroom), List.nil_append]

/-- Both walks visit the entries in the same order. -/
theorem Separate.to_table (h : Separate H table)
    (hchecked : ∀ e ∈ (H.tables table).entries, EntryChecked H e.1 e.2)
    (hn : (H.tables table).entries.length < n) (revents : Nat → BitVec 16) :
    ∃ H', poll_fd_list_to_table S L n H table (H.tables table).entries.length revents = .ok H' ∧
      Walked S H H' table revents := by
  have hreportable := h.reportable hchecked
  -- No round of the walk writes to the descriptor table.
  have hkeep : ∀ l₁ l₂ (s : Heap × Nat), l₁ ++ l₂ = (H.tables table).entries →
      l₁.foldlM (fun s e => reportEntry S L (H.tables table).entries.length revents s e.1 e.2)
        (H, 0) = .ok s → s.1.tables table = H.tables table := by
    intro l₁ l₂ s hl hs
    have happend : touchedBy H (H.tables table).entries = touchedBy H l₁ ++ touchedBy H l₂ := by
      rw [← hl, touchedBy, List.flatMap_append]
      rfl
    have hprefix : Reportable H l₁ := by
      refine ⟨fun e he => hreportable.value e (hl ▸ List.mem_append_left _ he),
        fun t ht => h.touched_live t (happend ▸ List.mem_append_left _ ht), ?_⟩
      have hdistinct := h.distinct
      rw [happend] at hdistinct
      exact hdistinct.of_append_left
    have hlen : 0 + l₁.length ≤ (H.tables table).entries.length := by
      rw [← hl, List.length_append]
      omega
    obtain ⟨H', hrun, -, -, hframe, -⟩ := exists_foldlM_reportEntry (S := S) (L := L) revents l₁
      hprefix hlen
    rw [hrun] at hs
    cases hs
    exact hframe table h.live fun hmem => h.table_not (happend ▸ List.mem_append_left _ hmem)
  obtain ⟨H', hrun, hsize, hrenewed, hframe, hreports⟩ := exists_foldlM_reportEntry (S := S)
    (L := L) revents (H.tables table).entries hreportable (Nat.le_of_eq (Nat.zero_add _))
  refine ⟨H', ?_, fun j k t hj => ?_, hframe table h.live h.table_not, hframe, hsize, hrenewed⟩
  · rw [poll_fd_list_to_table, Heap.whileNext_eq_foldlM hkeep hn, hrun]
    rfl
  · have hreported := hreports j _ t hj rfl
    rwa [Nat.zero_add] at hreported

/-- The `events` tables are among those left alone. -/
theorem Pollable.answered (h : Pollable H table) {H' : Heap} {revents : Nat → BitVec 16}
    (hwalked : Walked S H H' table revents) : Answered S H H' table revents where
  reported := hwalked.reported
  keys := hwalked.keys
  events e he t ev ht hev := by
    obtain ⟨t', ev', ht', hev', hlive, -⟩ := (h.entries e he).value
    obtain rfl : t = t' := by injection ht.symm.trans ht'
    obtain rfl : ev = ev' := by injection hev.symm.trans hev'
    exact hwalked.others ev hlive (h.events_not e he t ev ht hev)
  others := hwalked.others

/-- The array that the system is handed has one entry for each of the table's. -/
theorem Pollable.handed (h : Pollable H table) :
    Handed S H table ((H.tables table).entries.map fun e => pollFd S H e.1 e.2) where
  length := List.length_map _
  entry j k t ev hj hev := by
    obtain ⟨fd, hk, hrange⟩ := (h.entries _ (List.mem_of_getElem? hj)).key
    refine ⟨pollFd S H k (.table t), by rw [List.getElem?_map, hj]; rfl, ?_, fun i => ?_⟩
    · have hfd : (pollFd S H k (.table t)).fd = fd := by
        rw [show k = .integer (BitVec.ofInt 64 fd) from hk]
        exact toInt_ofInt hrange
      rw [hfd]
      exact hk
    · rw [pollFd_events k hev, getLsbD_eventsOf]

/-- The array handed to `poll(2)`. -/
def fdList (S : System) (H : Heap) (table : Nat) : List PollFd :=
  (H.tables table).entries.map fun e => pollFd S H e.1 e.2

/-- **What a call of `poll` does** with entries that pass the check: the tables are written to
where `poll(2)` has found something. -/
theorem Separate.exists_Ppoll (h : Separate H table)
    (hchecked : ∀ e ∈ (H.tables table).entries, EntryChecked H e.1 e.2)
    (hn : (H.tables table).entries.length < n) {args : List LuaValue}
    (harg : args.head? = some (.table table)) (hargs : args.length ≤ 2) {timeout : Int}
    (htimeout : optint S.strtod args 2 (-1) = .ok timeout) :
    ∃ H', Ppoll S L n H args = .ok ⟨fdList S H table, timeout, H',
        pushresult S.strerror (S.poll (fdList S H table) timeout).errno none
          (S.poll (fdList S H table) timeout).r⟩ ∧
      ((S.poll (fdList S H table) timeout).r ≤ 0 → H' = H) ∧
      (0 < (S.poll (fdList S H table) timeout).r →
        Walked S H H' table (S.poll (fdList S H table) timeout).revents) := by
  have hhead : args.headD .nil = .table table := by
    rw [List.headD_eq_head?_getD, harg]
    rfl
  have hroom : (H.tables table).entries.length
      ≤ fdListCapacity (H.tables table).entries.length := by
    rw [fdListCapacity]
    split_ifs with hle
    · exact hle
    · exact Nat.le_refl _
  have hlen : (fdList S H table).length = (H.tables table).entries.length := List.length_map _
  have hfrom : poll_fd_list_from_table S n H table (fdListCapacity (H.tables table).entries.length)
      = .ok (fdList S H table) := from_table_eq hchecked hn hroom
  have htake : (fdList S H table).take (H.tables table).entries.length = fdList S H table :=
    List.take_of_length_le (Nat.le_of_eq hlen)
  have hnargs : checknargs args 2 = .ok () := if_pos hargs
  rw [Ppoll, hhead]
  simp only [check_table_eq hchecked hn, hfrom, htimeout, hnargs, ofLua, Except.mapError,
    CallM.ok_bind, hlen, htake, Nat.lt_irrefl, if_false]
  by_cases hr : 0 < (S.poll (fdList S H table) timeout).r
  · obtain ⟨H', hrun, hwalked⟩ := h.to_table (S := S) (L := L) hchecked hn
      (S.poll (fdList S H table) timeout).revents
    rw [if_pos hr, hrun]
    exact ⟨H', rfl, fun hle => absurd hr (Int.not_lt.mpr hle), fun _ => hwalked⟩
  · rw [if_neg hr]
    exact ⟨H, rfl, fun _ => rfl, fun hpos => absurd hpos hr⟩

/-- **`poll` reports each descriptor's own events**, for any number of entries: the array has an
entry for each key with the events of its table, and if `poll(2)` finds something each entry's
`revents` table has the flags the kernel set for it, and nothing else changes. -/
theorem poll_reports (h : Pollable H table) (hn : (H.tables table).entries.length < n)
    {args : List LuaValue} (harg : args.head? = some (.table table)) (hargs : args.length ≤ 2)
    {timeout : Int} (htimeout : optint S.strtod args 2 (-1) = .ok timeout) :
    ∃ o, Ppoll S L n H args = .ok o ∧ o.timeout = timeout ∧ Handed S H table o.fd_list ∧
      o.results = pushresult S.strerror (S.poll o.fd_list timeout).errno none
        (S.poll o.fd_list timeout).r ∧
      ((S.poll o.fd_list timeout).r ≤ 0 → o.heap = H) ∧
      (0 < (S.poll o.fd_list timeout).r →
        Answered S H o.heap table (S.poll o.fd_list timeout).revents) := by
  obtain ⟨H', hrun, hsame, hwalked⟩ := h.separate.exists_Ppoll (L := L) h.checked hn harg hargs
    htimeout
  exact ⟨_, hrun, rfl, h.handed, rfl, hsame, fun hr => h.answered (hwalked hr)⟩

end Call

/-! ## An instance -/

/-- The bits of Linux, and a `poll(2)` that finds input on each descriptor. -/
def linux : System where
  place
    | .IN => 0
    | .PRI => 1
    | .OUT => 2
    | .ERR => 3
    | .HUP => 4
    | .NVAL => 5
  place_lt e := by cases e <;> decide
  place_injective e e' h := by cases e <;> cases e' <;> first | rfl | exact absurd h (by decide)
  poll fds _ := ⟨fds.length, fun _ => 1, 0⟩
  strerror _ := []
  strtod _ := none

/-- New keys go to the front. -/
def frontLayout : Layout fun _ : LuaValue => LuaValue := ⟨id, fun _ => .refl _⟩

/-- `{[3] = {events = {IN = true}}}`. -/
def stdinHeap : Heap where
  tables
    | 0 => .singleton (.integer 3) (.table 1)
    | 1 => .singleton (fieldName "events") (.table 2)
    | 2 => .singleton (fieldName "IN") (.boolean true)
    | _ => ∅
  size := 3

/-- Standard input may be polled. -/
theorem pollable_stdinHeap : Pollable stdinHeap 0 where
  live := by decide
  entries e he := by
    obtain rfl := List.mem_singleton.mp he
    exact ⟨⟨3, rfl, by decide, by decide⟩, 1, 2, rfl, by decide, by decide, .inl (by decide)⟩
  touched_live := by decide
  distinct := by decide
  table_not := by decide
  events_not e he t ev ht hev := by
    obtain rfl := List.mem_singleton.mp he
    cases ht
    have hev' : stdinHeap.get 1 (fieldName "events") = .table 2 := by decide
    obtain rfl : ev = 2 := by injection hev.symm.trans hev'
    decide

/-- It is, and the flags are written when something is ready. -/
theorem poll_reports_stdin :
    ∃ o, Ppoll linux frontLayout 2 stdinHeap [.table 0] = .ok o ∧ o.timeout = -1 ∧
      Handed linux stdinHeap 0 o.fd_list ∧
      o.results = pushresult linux.strerror (linux.poll o.fd_list (-1)).errno none
        (linux.poll o.fd_list (-1)).r ∧
      ((linux.poll o.fd_list (-1)).r ≤ 0 → o.heap = stdinHeap) ∧
      (0 < (linux.poll o.fd_list (-1)).r →
        Answered linux stdinHeap o.heap 0 (linux.poll o.fd_list (-1)).revents) :=
  poll_reports pollable_stdinHeap (by decide) rfl (by decide) rfl

end LuaPosix.Poll

import LuaPosix.Posix.Syslog

/-! # Which messages are logged

`setlogmask` of `posix` takes the levels to log, one by one, and makes the mask of them that
`setlogmask` of `posix.syslog` takes. From then on a program logs the messages of these levels and
no others, as long as it does not set another mask. -/

namespace LuaPosix.Syslog

open LuaPattern (LStr)

section Model

variable (N : Numerals) (strerror : Int → LStr)

/-- `LOG_MASK(priority)`: `1 << priority` as an `int`. -/
def PLOG_MASK (args : List LuaValue) : CallM LuaInteger := do
  checknargs args 1
  let priority ← checkint N.strtod args 1
  if 0 ≤ priority ∧ priority < 31 then return BitVec.ofNat 64 (2 ^ priority.toNat)
  else throw .undefined

/-- The loop of `setlogmask`, up to the first nil. -/
def orMasks (mask : LuaInteger) : List (Option LuaInteger) → CallM LuaInteger
  | [] | none :: _ => return mask
  | some level :: ts => do
      let bit ← PLOG_MASK N [.integer level]
      orMasks (posixBitwise.bor mask [bit]) ts

/-- `setlogmask(...)` of `posix`, of integers and nils. -/
def setlevels (ts : List (Option LuaInteger)) : LogM (List LuaValue) := do
  let mask ← orMasks N 0 ts
  Psetlogmask N strerror [.integer mask]

end Model

/-! ## The mask -/

section Masks

variable {N : Numerals}

/-- The arguments for some levels. -/
def levelArgs (levels : List Nat) : List (Option LuaInteger) :=
  levels.map fun level => some (BitVec.ofNat 64 level)

/-- The mask of some levels. -/
def maskOf (mask : LuaInteger) (levels : List Nat) : LuaInteger :=
  levels.foldl (fun mask level => mask ||| BitVec.ofNat 64 (2 ^ level)) mask

/-- A level below 31 has a bit of its own. -/
theorem PLOG_MASK_level {level : Nat} (h : level < 31) :
    PLOG_MASK N [.integer (BitVec.ofNat 64 level)] = .ok (BitVec.ofNat 64 (2 ^ level)) := by
  have hlow : (BitVec.ofNat 64 level).setWidth 32 = BitVec.ofNat 32 level := by
    rw [BitVec.setWidth_ofNat_of_le (by decide)]
  have hint : toInt (BitVec.ofNat 64 level) = level := by
    have hnat : (BitVec.ofNat 32 level).toNat = level := by
      rw [BitVec.toNat_ofNat, Nat.mod_eq_of_lt (by omega)]
    rw [toInt, hlow, BitVec.toInt_eq_toNat_of_lt (by omega), hnat]
  have hcheck : checkint N.strtod [.integer (BitVec.ofNat 64 level)] 1 = .ok (level : Int) := by
    rw [← hint]
    rfl
  rw [PLOG_MASK, hcheck]
  have hrange : 0 ≤ (level : Int) ∧ (level : Int) < 31 := by omega
  show (if 0 ≤ (level : Int) ∧ (level : Int) < 31 then _ else _) = _
  rw [if_pos hrange]
  rfl

/-- The loop makes the mask of the levels. -/
theorem orMasks_levels {levels : List Nat} (h : ∀ l ∈ levels, l < 31) (mask : LuaInteger) :
    orMasks N mask (levelArgs levels) = .ok (maskOf mask levels) := by
  induction levels generalizing mask with
  | nil => rfl
  | cons level levels ih =>
      show (PLOG_MASK N [.integer (BitVec.ofNat 64 level)] >>= _) = _
      rw [PLOG_MASK_level (h level List.mem_cons_self)]
      exact ih (fun l hl => h l (List.mem_cons_of_mem _ hl)) _

/-- It is the bit of that number. -/
theorem getLsbD_bit {level k : Nat} (hk : k < 64) :
    (BitVec.ofNat 64 (2 ^ level)).getLsbD k = decide (level = k) := by
  rw [BitVec.getLsbD_ofNat, Nat.testBit_two_pow]
  simp [hk]

/-- **The bits of the mask** are the levels. -/
theorem getLsbD_maskOf {levels : List Nat} {k : Nat} (hk : k < 64) (mask : LuaInteger) :
    (maskOf mask levels).getLsbD k = (mask.getLsbD k || decide (k ∈ levels)) := by
  induction levels generalizing mask with
  | nil => simp [maskOf]
  | cons level levels ih =>
      rw [maskOf, List.foldl_cons]
      show (maskOf (mask ||| BitVec.ofNat 64 (2 ^ level)) levels).getLsbD k = _
      rw [ih, BitVec.getLsbD_or, getLsbD_bit hk]
      simp [eq_comm, Bool.or_assoc]

end Masks

/-! ## From one mask to the next -/

section Runs

variable {N : Numerals} {strerror : Int → LStr} {C : CLib} {interns : LStr → Bool}
  {w w' : World Logger LogCall} {s : Logger}

/-- The step sets no mask. -/
def Label.KeepsMask : Label → Prop
  | .setlogmask _ => False
  | _ => True

/-- The messages of an event whose levels pass. -/
def Event.messages (C : CLib) (p : Nat → Bool) : Event → List LStr
  | .syslog priority message =>
      ((C.messages priority message).filter fun m => p (level m.1)).map Prod.snd
  | _ => []

/-- Of a priority that is made of a level and a facility this is the message itself. -/
theorem Event.messages_of_proper {p : Nat → Bool} {priority : BitVec 32} (h : Proper priority)
    (message : LStr) : Event.messages C p (.syslog priority message)
      = if p (level priority) then [message] else [] := by
  rw [Event.messages, C.messages_proper priority message h, List.filter_singleton]
  cases p (level priority) <;> rfl

/-- What has been logged, without what it starts with. -/
def Logger.messages (s : Logger) : List LStr := s.logged.map (·.message)

/-- A message is added to the log, and the mask stays. -/
theorem messages_write (s : Logger) (priority : BitVec 32) (message : LStr) :
    (s.write priority message).messages = s.messages ++ [message] ∧
      (s.write priority message).mask = s.mask := by
  rw [Logger.write]
  refine ⟨?_, rfl⟩
  simp [Logger.messages]

/-- A message is logged if its level is in the mask, which stays as it is. -/
theorem messages_note (m : BitVec 32 × LStr) :
    (s.note m).messages
      = s.messages ++ ([m].filter fun m => s.mask.getLsbD (level m.1)).map Prod.snd ∧
      (s.note m).mask = s.mask := by
  rw [Logger.note, List.filter_singleton]
  cases s.mask.getLsbD (level m.1) with
  | true => exact messages_write s m.1 m.2
  | false => exact ⟨(List.append_nil _).symm, rfl⟩

/-- Of several messages those are logged whose levels are in the mask. -/
theorem messages_notes (ms : List (BitVec 32 × LStr)) :
    (ms.foldl Logger.note s).messages
      = s.messages ++ (ms.filter fun m => s.mask.getLsbD (level m.1)).map Prod.snd ∧
      (ms.foldl Logger.note s).mask = s.mask := by
  induction ms generalizing s with
  | nil => exact ⟨(List.append_nil _).symm, rfl⟩
  | cons m ms ih =>
      obtain ⟨hmessages, hmask⟩ := messages_note (s := s) m
      obtain ⟨hrest, hrestmask⟩ := ih (s := s.note m)
      refine ⟨?_, hrestmask.trans hmask⟩
      rw [List.foldl_cons, hrest, hmessages, hmask, List.append_assoc, ← List.map_append,
        ← List.filter_append, List.singleton_append]

/-- Every event logs its messages if their levels are in the mask. -/
theorem messages_after (found : Option Nat) (e : Event) :
    (s.after C interns found e).messages
      = s.messages ++ e.messages C s.mask.getLsbD := by
  cases e with
  | syslog priority message => exact (messages_notes _).1
  | openlog => exact (List.append_nil _).symm
  | closelog =>
      rw [Logger.after]
      split_ifs <;> exact (List.append_nil _).symm
  | setlogmask =>
      rw [Logger.after]
      split_ifs <;> exact (List.append_nil _).symm

/-- Only `setlogmask` changes the mask. -/
theorem mask_after (found : Option Nat) {e : Event} (he : ∀ mask, e ≠ .setlogmask mask) :
    (s.after C interns found e).mask = s.mask := by
  cases e with
  | setlogmask mask => exact absurd rfl (he mask)
  | syslog priority message => exact (messages_notes _).2
  | openlog => rfl
  | closelog =>
      rw [Logger.after]
      split_ifs <;> rfl

/-- The messages of a step. -/
def Label.messages (N : Numerals) (C : CLib) (p : Nat → Bool) (l : Label) : List LStr :=
  (l.events N C).flatMap (Event.messages C p)

/-- **One step** logs its messages if their levels are in the mask, and keeps the mask. -/
theorem messages_next {l : Label} (hl : l.KeepsMask)
    (hs : (machine N strerror C interns).next w l = some w') :
    w'.sys.mask = w.sys.mask ∧
      w'.sys.messages = w.sys.messages ++ l.messages N C w.sys.mask.getLsbD := by
  -- what holds of a call that does what its arguments ask for
  have hcall : ∀ found event (call : LogM (List LuaValue)), Does C interns found event call →
      (∀ e, event = .ok e → ∀ mask, e ≠ .setlogmask mask) →
      (BindingM.worldAfter (call.run w)).sys.mask = w.sys.mask ∧
        (BindingM.worldAfter (call.run w)).sys.messages = w.sys.messages ++
          event.toOption.toList.flatMap (Event.messages C w.sys.mask.getLsbD) := by
    intro found event call hdoes hkeeps
    rw [hdoes w]
    cases event with
    | error e => exact ⟨rfl, (List.append_nil _).symm⟩
    | ok e =>
        refine ⟨mask_after found (hkeeps e rfl), ?_⟩
        rw [messages_after]
        show _ = w.sys.messages ++ [e].flatMap _
        rw [List.flatMap_singleton]
  cases l with
  | openlog found args =>
      cases hs
      refine hcall found _ _ (does_Popenlog N C interns found args) fun e he mask => ?_
      obtain ⟨text, option, facility, rfl⟩ := openlogEvent_eq_ok N C he
      exact nofun
  | syslog args =>
      cases hs
      refine hcall none _ _ (does_Psyslog N C interns args) fun e he mask => ?_
      obtain ⟨priority, message, rfl⟩ := syslogEvent_eq_ok N he
      exact nofun
  | closelog args =>
      cases hs
      refine hcall none _ _ (does_Pcloselog C interns args) fun e he mask => ?_
      obtain rfl := closelogEvent_eq_ok he
      exact nofun
  | setlogmask args => exact absurd hl not_false
  | string text =>
      cases hs
      exact ⟨rfl, (List.append_nil _).symm⟩
  | collect i =>
      obtain ⟨-, hs⟩ := Option.ite_none_right_eq_some.mp hs
      cases hs
      exact ⟨rfl, (List.append_nil _).symm⟩

/-- A run that keeps the mask logs the messages whose level is in it. -/
theorem messages_run {ls : List Label} (hls : ∀ l ∈ ls, l.KeepsMask)
    (hrun : (machine N strerror C interns).run w ls = some w') :
    w'.sys.messages = w.sys.messages ++ ls.flatMap (Label.messages N C w.sys.mask.getLsbD) := by
  induction ls generalizing w with
  | nil =>
      cases hrun
      exact (List.append_nil _).symm
  | cons l ls ih =>
      obtain ⟨w₁, hs, hrun⟩ := Machine.run_cons.mp hrun
      obtain ⟨hmask, hmessages⟩ := messages_next (hls l List.mem_cons_self) hs
      rw [ih (fun l' hl' => hls l' (List.mem_cons_of_mem l hl')) hrun, hmessages, hmask,
        List.flatMap_cons, List.append_assoc]

variable (N strerror w) in
/-- The mask that `setlogmask` sets for some levels. -/
theorem run_setlevels {levels : List Nat} (h : ∀ l ∈ levels, l < 31) (hne : levels ≠ []) :
    ∃ vs w₁, (setlevels N strerror (levelArgs levels)).run w = .ok vs w₁ ∧
      w₁.sys.messages = w.sys.messages ∧
      ∀ k < 8, w₁.sys.mask.getLsbD k = decide (k ∈ levels) := by
  let mask := (maskOf 0 levels).setWidth 32
  have hbits : ∀ k < 32, mask.getLsbD k = decide (k ∈ levels) := by
    intro k hk
    rw [BitVec.getLsbD_setWidth, getLsbD_maskOf (by omega)]
    simp [hk]
  have hnonzero : mask ≠ 0 := by
    intro hzero
    obtain ⟨level, hlevel⟩ := List.exists_mem_of_ne_nil levels hne
    have hbit := hbits level (by have := h level hlevel; omega)
    rw [hzero] at hbit
    simp [hlevel] at hbit
  have hint : BitVec.ofInt 32 (toInt (maskOf 0 levels)) = mask := ofInt_toInt le_rfl _
  have hrun : (setlevels N strerror (levelArgs levels)).run w
      = (Psetlogmask N strerror [.integer (maskOf 0 levels)]).run w := by
    rw [setlevels, orMasks_levels h]
    rfl
  have hset : (Psetlogmask N strerror [.integer (maskOf 0 levels)]).run w
      = .ok (pushresult strerror w.errno (some "setlogmask".toList) w.sys.mask.toInt) { w with
          sys := if mask = 0 then w.sys else { w.sys with mask := mask }
          calls := w.calls ++ [.setlogmask mask] } := by
    rw [← hint]
    rfl
  rw [if_neg hnonzero] at hset
  exact ⟨_, _, hrun.trans hset, rfl, fun k hk => hbits k (by omega)⟩

variable (N strerror C interns w) in
/-- **The levels that are logged**: after `setlogmask` of some levels a program that sets no other
mask logs the messages of these levels, in order, and no others. The messages are those that the C
library makes of the calls of `syslog`. -/
theorem levels_logged {levels : List Nat} (h : ∀ l ∈ levels, l < 31) (hne : levels ≠ []) :
    ∃ vs w₁, (setlevels N strerror (levelArgs levels)).run w = .ok vs w₁ ∧
      ∀ ls w₂, (∀ l ∈ ls, l.KeepsMask) → (machine N strerror C interns).run w₁ ls = some w₂ →
        w₂.sys.messages = w.sys.messages ++ ls.flatMap (Label.messages N C (· ∈ levels)) := by
  obtain ⟨vs, w₁, hrun, hmessages, hmask⟩ := run_setlevels N strerror w h hne
  refine ⟨vs, w₁, hrun, fun ls w₂ hls hrun₂ => ?_⟩
  have hlevel : ∀ m : BitVec 32 × LStr,
      w₁.sys.mask.getLsbD (level m.1) = decide (level m.1 ∈ levels) := by
    intro m
    refine hmask _ ?_
    rw [level, BitVec.toNat_and]
    exact Nat.lt_of_le_of_lt Nat.and_le_right (by decide)
  have hevent : ∀ e : Event,
      e.messages C w₁.sys.mask.getLsbD = e.messages C (· ∈ levels) := by
    intro e
    cases e with
    | syslog priority message =>
        rw [Event.messages, Event.messages]
        simp only [hlevel]
    | openlog | closelog | setlogmask => rfl
  have hlabel : ∀ l : Label,
      l.messages N C w₁.sys.mask.getLsbD = l.messages N C (· ∈ levels) := by
    intro l
    unfold Label.messages
    congr 1
    funext e
    exact hevent e
  rw [messages_run hls hrun₂, hmessages]
  congr 2
  funext l
  exact hlabel l

/-- An error and a critical message are logged, a debugging one is not. -/
theorem levels_logged_urgent : ∃ vs w₁,
    (setlevels .zero (fun _ => []) (levelArgs [3, 2])).run quiet = .ok vs w₁ ∧
      ∀ w₂, (machine .zero (fun _ => []) glibc shortOnly).run w₁
          [.syslog [.integer 3, .string "a".toList], .syslog [.integer 7, .string "b".toList],
            .syslog [.integer 2, .string "c".toList]] = some w₂ →
        w₂.sys.messages = ["a".toList, "c".toList] := by
  have hlevels : ∀ l ∈ [3, 2], l < 31 := by decide
  obtain ⟨vs, w₁, hrun, h⟩ :=
    levels_logged .zero (fun _ => []) glibc shortOnly quiet hlevels (List.cons_ne_nil _ _)
  refine ⟨vs, w₁, hrun, fun w₂ hrun₂ => ?_⟩
  rw [h _ w₂ (by simp [Label.KeepsMask]) hrun₂]
  rfl

end Runs

end LuaPosix.Syslog

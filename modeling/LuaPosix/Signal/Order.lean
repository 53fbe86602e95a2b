import LuaPosix.Signal.Queue
import Mathlib.Data.List.Palindrome

/-! # The order of the drain

`sig_postpone` puts a signal behind those that are queued, and `sig_handle` takes signals from the
same end: the queue is a stack. -/

namespace LuaPosix

/-! ## Arrivals -/

/-- Signals that arrive one after the other. -/
def postponed (p : Process) (signos : List Int) : Process :=
  signos.foldl (fun p i => sig_postpone i p) p

/-- What a drain leaves: nothing is queued or deferred. -/
structure Statics.Idle (s : Statics) : Prop where
  signal_count : s.signal_count = 0
  defer_signal : s.defer_signal = 0
  signal_pending : s.signal_pending = 0

/-- The last signal is postponed after the others. -/
theorem postponed_snoc (p : Process) (signos : List Int) (i : Int) :
    postponed p (signos ++ [i]) = sig_postpone i (postponed p signos) := by
  rw [postponed, postponed, List.foldl_append, List.foldl_cons, List.foldl_nil]

/-- **The first to arrive are queued**, as many as there is room for, in the order they come. -/
theorem queued_postponed {p : Process} (hidle : p.statics.Idle) (signos : List Int) :
    (postponed p signos).statics.queued = signos.take 25 ∧
      (postponed p signos).statics.signal_count = (signos.take 25).length ∧
      (postponed p signos).statics.defer_signal = 0 ∧
      (postponed p signos).statics.signal_pending = 0 := by
  induction signos using List.reverseRecOn with
  | nil =>
      exact ⟨queued_eq_nil (le_of_eq hidle.signal_count), hidle.signal_count, hidle.defer_signal,
        hidle.signal_pending⟩
  | append_singleton signos i ih =>
      obtain ⟨hqueued, hcount, hdefer, hpending⟩ := ih
      rw [postponed_snoc]
      have hlength : (signos.take 25).length = min 25 signos.length := List.length_take
      by_cases hfull : 25 ≤ signos.length
      · -- There is no room.
        have hmax : (postponed p signos).statics.signal_count = SIGNAL_QUEUE_MAX := by
          rw [hcount, hlength, Nat.min_eq_left hfull]
          rfl
        rw [sig_postpone_full hdefer hmax, List.take_append_of_le_length hfull]
        exact ⟨hqueued, hcount, hdefer, hpending⟩
      · have hall : signos.take 25 = signos := List.take_of_length_le (by omega)
        have hall' : (signos ++ [i]).take 25 = signos ++ [i] :=
          List.take_of_length_le (by rw [List.length_append, List.length_singleton]; omega)
        have hroom : (postponed p signos).statics.signal_count ≠ SIGNAL_QUEUE_MAX := by
          rw [hcount, hall, SIGNAL_QUEUE_MAX]
          omega
        rw [hall] at hqueued hcount
        rw [sig_postpone_room hdefer hpending hroom, hall']
        refine ⟨?_, ?_, hdefer, hpending⟩
        · rw [queued_push (by rw [hcount]; omega), hqueued]
        · rw [List.length_append, List.length_singleton, Nat.cast_add, ← hcount]
          rfl

/-! ## The drain -/

section Drain

variable (H : Host) (P : Program)

/-- A drain that handled `new`, the latest first: an end of the queue, and all of it where no error
escapes. None does where every function can be had. -/
structure Drains (p p' : Process) (r : Except LuaValue Unit) (new : List Drained) : Prop where
  drained : p'.registry.drained = new ++ p.registry.drained
  suffix : new.map Drained.signo <:+ p.statics.queued
  all : r = .ok () → new.map Drained.signo = p.statics.queued
  calm : (∀ ds v i, ∃ f, P.index ds v i = .ok f) → r = .ok ()

variable {P}

/-- A table whose lookups succeed gives a handler. -/
theorem exists_gettable (hindex : ∀ ds v i, ∃ f, P.index ds v i = .ok f) (R : Registry)
    (t : LuaValue) (signo : Int) : ∃ f, gettable P R t signo = .ok f := by
  rw [gettable]
  split_ifs
  · exact ⟨_, rfl⟩
  · exact hindex _ _ _

/-- The last entry is handled first. -/
theorem Drains.entry {n : Nat} {p p' : Process} {r : Except LuaValue Unit} {new : List Drained}
    {f : LuaValue} (hn : p.statics.signal_count = n + 1)
    (h : Drains P (p.entryDone n (registryAfter H P p.registry f (p.statics.signals n))) p' r new) :
    Drains P p p' r (new ++ [⟨p.statics.signals n,
      rawget p.registry.handlers (signoValue (p.statics.signals n)),
      p.registry.installed (p.statics.signals n), some f⟩]) where
  drained := by
    rw [h.drained, List.append_assoc]
    exact congrArg (new ++ ·) (registryAfter_drained H P p.registry f (p.statics.signals n))
  suffix := by
    rw [List.map_append, queued_succ hn]
    exact (List.suffix_append_inj_of_length_eq rfl).mpr ⟨h.suffix, rfl⟩
  all hr := by
    rw [List.map_append, h.all hr, queued_succ hn]
    rfl
  calm := h.calm

variable (P)

/-- **The loop drains the queue from its end**, by induction on how many entries it has. -/
theorem handleLoop_drains {n : Nat} (stack : List LuaValue) (p : Process)
    (hn : p.statics.signal_count = n) : ∃ r p' new,
      handleLoop H P (n + 1) stack p = some (r, p') ∧ Drains P p p' r new := by
  induction n generalizing stack p with
  | zero =>
      have hnil : p.statics.queued = [] := queued_eq_nil (le_of_eq hn)
      exact ⟨_, _, [], handleLoop_empty hn, rfl, List.nil_suffix, fun _ => hnil.symm, fun _ => rfl⟩
  | succ n ih =>
      have hn : p.statics.signal_count = n + 1 := by simpa using hn
      rw [handleLoop_entry hn]
      cases hget : gettable P p.registry (stack.headD .nil) (p.statics.signals n) with
      | error e =>
          rw [handleEntry_error hget]
          refine ⟨_, _, [_], rfl, rfl, ?_, ?_, ?_⟩
          · rw [queued_succ hn]
            exact List.suffix_append _ _
          · intro h
            cases h
          · intro hindex
            obtain ⟨f, hf⟩ := exists_gettable hindex p.registry (stack.headD .nil)
              (p.statics.signals n)
            cases hget.symm.trans hf
      | ok f =>
          rw [handleEntry_ok hget]
          obtain ⟨r, p', new, hrun, hdrains⟩ := ih
            ((callFor P p.registry f (p.statics.signals n)).leave H stack)
            (p.entryDone n (registryAfter H P p.registry f (p.statics.signals n))) rfl
          exact ⟨r, p', _, hrun, hdrains.entry H hn⟩

/-- What `sig_handle` drains. -/
theorem sig_handle_drains {p : Process} (hcount : 0 ≤ p.statics.signal_count) : ∃ r p' new,
    sig_handle H P p = some (r, p') ∧ Drains P p p' r new := by
  obtain ⟨r, p₂, new, hrun, hdrains⟩ := handleLoop_drains H P [handlersTable]
    { p with mask := fun _ => true, hook := false } (Int.toNat_of_nonneg hcount).symm
  cases r with
  | ok u =>
      exact ⟨_, _, new, sig_handle_ok_iff.mpr ⟨p₂, hrun, rfl⟩, hdrains.drained, hdrains.suffix,
        hdrains.all, hdrains.calm⟩
  | error e =>
      have herror : sig_handle H P p = some (.error e, p₂) := by
        rw [sig_handle, Option.bind_eq_bind, Option.bind_eq_some_iff]
        exact ⟨_, hrun, rfl⟩
      exact ⟨_, p₂, new, herror, hdrains.drained, hdrains.suffix, hdrains.all, hdrains.calm⟩

end Drain

/-! ## The order of the handlers -/

/-- The signals are handled in the order in which they were queued: up to an error that escapes, if
one does, and all of them otherwise. -/
def HandledInOrder (H : Host) (P : Program) (p : Process) : Prop := ∃ r p' new,
  sig_handle H P p = some (r, p') ∧ p'.registry.drained = new ++ p.registry.drained ∧
    (new.map Drained.signo).reverse <+: p.statics.queued ∧
    (r = .ok () → (new.map Drained.signo).reverse = p.statics.queued)

/-- A program in which nothing raises. -/
def Program.calm : Program where
  call _ _ _ := ⟨[], .ok ()⟩
  index _ _ _ := .ok .nil

/-- **The handlers are called in the order of arrival if and only if that is also the reverse
order.** -/
theorem handledInOrder_iff (H : Host) {p₀ p : Process} (hidle : p₀.statics.Idle)
    (signos : List Int) (hp : p.statics = (postponed p₀ signos).statics) :
    (∀ P, HandledInOrder H P p) ↔ (signos.take 25).Palindrome := by
  obtain ⟨hqueued, hcount, -⟩ := queued_postponed hidle signos
  rw [← hp] at hqueued hcount
  rw [List.Palindrome.iff_reverse_eq, ← hqueued]
  constructor
  · intro h
    obtain ⟨r, p', new, hrun, hdrained, hprefix, hall⟩ := h .calm
    obtain ⟨r₁, p₁, new₁, hrun₁, hdrains⟩ := sig_handle_drains H .calm (p := p)
      (by rw [hcount]; omega)
    rw [hrun] at hrun₁
    obtain ⟨rfl, rfl⟩ := Prod.mk.inj (Option.some.inj hrun₁)
    obtain rfl : new = new₁ := List.append_cancel_right (hdrained.symm.trans hdrains.drained)
    have hok := hdrains.calm fun ds v i => ⟨.nil, rfl⟩
    rw [← hdrains.all hok] at hall ⊢
    exact hall hok
  · intro hreverse P
    obtain ⟨r, p', new, hrun, hdrains⟩ := sig_handle_drains H P (p := p) (by rw [hcount]; omega)
    refine ⟨r, p', new, hrun, hdrains.drained, ?_, fun hr => ?_⟩
    · rw [← hreverse]
      exact List.reverse_prefix.mpr hdrains.suffix
    · rw [hdrains.all hr, hreverse]

/-- The process after `signal(10, f)` and `signal(12, g)`. -/
def drained : Process where
  registry := [[.integer 10, .function 7], [.integer 12, .function 8]].foldl
    (signalCall linux) luaopen
  statics := ⟨0, 0, 0, fun _ => 0⟩
  hook := false
  mask := fun _ => false
  raised := []

/-- The drained queue is idle. -/
theorem idle_drained : drained.statics.Idle := ⟨rfl, rfl, rfl⟩

/-- Signal 10, then 12, then 10. -/
theorem handledInOrder_usr1_usr2_usr1 :
    (∀ P, HandledInOrder linux P (postponed drained [10, 12, 10]))
      ↔ ([10, 12, 10] : List Int).Palindrome :=
  handledInOrder_iff linux idle_drained [10, 12, 10] rfl

/-- Signal 10 arrives before signal 12, and is handled after it. -/
theorem usr2_overtakes_usr1 :
    (∃ p, sig_handle linux .calm (postponed drained [10, 12]) = some (.ok (), p) ∧
      (p.registry.drained.map Drained.called).reverse
        = [some (.function 8), some (.function 7)]) ∧
    ¬HandledInOrder linux .calm (postponed drained [10, 12]) := by
  refine ⟨⟨_, rfl, rfl⟩, ?_⟩
  rintro ⟨r, p', new, hrun, hdrained, -, hall⟩
  obtain ⟨rfl, rfl⟩ := Prod.mk.inj (Option.some.inj hrun)
  obtain rfl : _ = new := (hdrained.trans (List.append_nil new))
  exact absurd (hall rfl) (by decide)

end LuaPosix

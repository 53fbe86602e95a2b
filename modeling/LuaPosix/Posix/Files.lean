import LuaPosix.Lib.Machine
import LuaPosix.Posix.Dirent

/-! # Iterators over directories

A program with any number of iterators of `files`, called in any order, and of calls of `dir`
between them; the interpreter finalizes the blocks when it likes. The finalizer closes the stream
of a block and keeps the pointer to it. That does no harm as long as nobody calls the iterator
afterwards, which takes another finalizer that still has it. -/

namespace LuaPosix.Dirent

open LuaPattern (LStr)
open Traversal (Layout)

/-- A program with iterators. The last two fields are history: what the streams of the iterators
had to give, and what the iterators have given. -/
structure Session where
  world : World Dirs DirCall
  /-- The blocks of the iterators. -/
  iterators : List Nat
  /-- Those whose finalizers have run. -/
  collected : List Nat
  listing : Nat → List LStr
  given : Nat → List LuaValue

/-- What happens next. -/
inductive Label where
  /-- A call of `dir`. -/
  | dir (O : Opens) (args : List LuaValue)
  /-- A call of `files`. -/
  | files (O : Opens) (args : List LuaValue)
  /-- A call of an iterator. -/
  | call (u : Nat)
  /-- The finalizer of the block of an iterator. -/
  | gc (u : Nat)

namespace Session

/-- The stream of a block, if any. -/
abbrev block (s : Session) (u : Nat) : Option Nat := s.world.sys.block u

/-- What a stream still gives, if it is open. -/
abbrev live (s : Session) (d : Nat) : Option (List LStr) := s.world.sys.streams.live d

/-- No iterator is called after its finalizer, unless it had come to its end before. -/
def NotDead (s : Session) : Label → Prop
  | .call u => u ∈ s.collected → s.block u = none
  | _ => True

/-- What is known of an iterator: at its end it has given everything; before that its stream is
open, until it is collected, and has the rest. -/
def Known (s : Session) (u : Nat) : Prop :=
  match s.block u with
  | none => s.given u = nameValues (s.listing u)
  | some d =>
      if u ∈ s.collected then s.live d = none ∧ s.given u <+: nameValues (s.listing u)
      else ∃ names, s.live d = some names ∧ s.given u ++ nameValues names = nameValues (s.listing u)

/-- **The invariant.** -/
structure Inv (s : Session) : Prop where
  sound : s.world.sys.streams.Sound
  unmisused : s.world.sys.streams.misused = false
  bound : ∀ u ∈ s.iterators, u < s.world.sys.blocks.length
  made : ∀ u d, s.block u = some d → d < s.world.sys.streams.made
  /-- No stream belongs to two blocks. -/
  inj : ∀ u u' d, s.block u = some d → s.block u' = some d → u = u'
  /-- Every open stream belongs to an iterator that is still there. -/
  owner : ∀ d, s.live d ≠ none → ∃ u ∈ s.iterators, u ∉ s.collected ∧ s.block u = some d
  known : ∀ u ∈ s.iterators, s.Known u
  collected : ∀ u ∈ s.collected, u ∈ s.iterators

/-- What a maintainer wants to know of every run: streams are used only while they are open, each
is closed once at most, the open ones are those of the iterators that are still there and have not
come to their end, and each iterator gives the names of its directory in order, all of them when it
comes to its end. -/
structure Sound (s : Session) : Prop where
  unmisused : s.world.sys.streams.misused = false
  closedOnce : s.world.sys.streams.released.Nodup
  noLeak : ∀ d < s.world.sys.streams.made, d ∉ s.world.sys.streams.released →
    ∃ u ∈ s.iterators, u ∉ s.collected ∧ s.block u = some d
  opened : ∀ u ∈ s.iterators, u ∉ s.collected → ∀ d, s.block u = some d →
    d < s.world.sys.streams.made ∧ d ∉ s.world.sys.streams.released
  given : ∀ u ∈ s.iterators, s.given u <+: nameValues (s.listing u) ∧
    (s.block u = none → s.given u = nameValues (s.listing u))

end Session

section Machine

variable (N : Numerals) (strerror : Int → LStr) (L : Layout fun _ : LuaValue => LuaValue)

/-- The next state. -/
def Session.next (s : Session) : Label → Option Session
  | .dir O args => some { s with
      world := BindingM.worldAfter ((Pdir N strerror L O args).run s.world) }
  | .files O args =>
      match (Pfiles N strerror O args).run s.world with
      | .ok u w => some { s with
          world := w
          iterators := u :: s.iterators
          listing := Function.update s.listing u
            (((w.sys.block u).bind w.sys.streams.live).getD [])
          given := Function.update s.given u [] }
      | .error _ w => some { s with world := w }
  | .call u =>
      if u ∈ s.iterators then
        match (aux_files u).run s.world with
        | .ok vs w => some { s with
            world := w, given := Function.update s.given u (s.given u ++ vs) }
        | .error _ w => some { s with world := w }
      else none
  | .gc u =>
      -- A finalizer runs once.
      if u ∈ s.iterators ∧ u ∉ s.collected then some { s with
        world := BindingM.worldAfter ((dir_gc u).run s.world), collected := u :: s.collected }
      else none

/-- A program that has made no iterator yet. -/
structure Session.Start (s : Session) : Prop where
  sys : s.world.sys = ⟨.empty, []⟩
  iterators : s.iterators = []
  collected : s.collected = []

/-- The machine. -/
def machine : Machine Session Label := ⟨Session.Start, Session.next N strerror L⟩

end Machine

/-! ## Each step -/

namespace Session

variable {N : Numerals} {strerror : Int → LStr} {L : Layout fun _ : LuaValue => LuaValue}
  {s s' : Session} {u d : Nat} {names : List LStr} {w : World Dirs DirCall}

/-- At its end an iterator has given everything. -/
theorem known_of_none (h : s.block u = none) :
    s.Known u ↔ s.given u = nameValues (s.listing u) := by
  rw [Known, h]

/-- Before its end it has its stream, unless it was collected. -/
theorem known_of_some (h : s.block u = some d) :
    s.Known u ↔ if u ∈ s.collected then s.live d = none ∧ s.given u <+: nameValues (s.listing u)
      else ∃ names, s.live d = some names ∧
        s.given u ++ nameValues names = nameValues (s.listing u) := by
  rw [Known, h]

/-- At the start there are no streams. -/
theorem inv_of_start (h : s.Start) : s.Inv := by
  have hblock : ∀ u, s.block u = none := fun u => by rw [block, h.sys]; rfl
  have hlive : ∀ d, s.live d = none := fun d => by rw [live, h.sys]; rfl
  refine ⟨?_, ?_, ?_, ?_, ?_, ?_, ?_, ?_⟩
  · rw [h.sys]
    exact Pool.sound_empty
  · rw [h.sys]
    rfl
  · rw [h.iterators]
    exact fun _ hu => absurd hu List.not_mem_nil
  · exact fun u d hu => nomatch (hblock u).symm.trans hu
  · exact fun u _ d hu => nomatch (hblock u).symm.trans hu
  · exact fun d hd => absurd (hlive d) hd
  · rw [h.iterators]
    exact fun _ hu => absurd hu List.not_mem_nil
  · rw [h.collected]
    exact fun _ hu => absurd hu List.not_mem_nil

/-- A step that leaves the blocks, the open streams and the iterators alone. -/
theorem Inv.congr (h : s.Inv) (hsound : w.sys.streams.Sound)
    (hmisused : w.sys.streams.misused = false) (hblocks : w.sys.blocks = s.world.sys.blocks)
    (hlive : w.sys.streams.live = s.world.sys.streams.live)
    (hmade : s.world.sys.streams.made ≤ w.sys.streams.made) : Inv { s with world := w } := by
  have hblock : ∀ u, w.sys.block u = s.block u := fun u => by rw [Dirs.block, hblocks]; rfl
  refine ⟨hsound, hmisused, ?_, ?_, ?_, ?_, ?_, h.collected⟩
  · show ∀ u ∈ s.iterators, u < w.sys.blocks.length
    rw [hblocks]
    exact h.bound
  · intro u d hu
    exact (h.made u d ((hblock u).symm.trans hu)).trans_le hmade
  · intro u u' d hu hu'
    exact h.inj u u' d ((hblock u).symm.trans hu) ((hblock u').symm.trans hu')
  · intro d hd
    obtain ⟨u, hu, hcollected, hown⟩ := h.owner d (by rw [live, ← hlive]; exact hd)
    exact ⟨u, hu, hcollected, (hblock u).trans hown⟩
  · intro u hu
    have hknown := h.known u hu
    cases hu' : s.block u with
    | none => exact (known_of_none ((hblock u).trans hu')).mpr ((known_of_none hu').mp hknown)
    | some d =>
        refine (known_of_some ((hblock u).trans hu')).mpr ?_
        simp only [live, hlive]
        exact (known_of_some hu').mp hknown

/-- `dir` opens a stream and closes it. -/
theorem Inv.dir (h : s.Inv) {O : Opens} {args : List LuaValue} :
    Inv { s with world := BindingM.worldAfter ((Pdir N strerror L O args).run s.world) } := by
  rcases sys_Pdir N strerror L O args h.sound
    with hsys | hsys
  · refine h.congr ?_ ?_ ?_ ?_ ?_ <;> rw [hsys]
    · exact h.sound
    · exact h.unmisused
  · refine h.congr ?_ ?_ ?_ ?_ ?_ <;> rw [hsys]
    · exact Dirs.sound_listed h.sound
    · exact h.unmisused
    · rfl
    · rfl
    · exact Nat.le_succ _

/-- The blocks there were, after another has been made. -/
theorem block_append (sys : Dirs) (P : Pool (List LStr)) (v : Option Nat)
    (hu : u < sys.blocks.length) : (Dirs.mk P (sys.blocks ++ [v])).block u = sys.block u := by
  rw [Dirs.block, Dirs.block, List.getElem?_append_left hu]

/-- The block that has been made. -/
theorem block_length (sys : Dirs) (P : Pool (List LStr)) (v : Option Nat) :
    (Dirs.mk P (sys.blocks ++ [v])).block sys.blocks.length = v := by
  rw [Dirs.block, List.getElem?_append_right le_rfl, Nat.sub_self]
  rfl

/-- There are no other blocks. -/
theorem lt_of_block (sys : Dirs) (h : sys.block u = some d) : u < sys.blocks.length := by
  rw [Dirs.block, Option.join_eq_some_iff] at h
  exact (List.getElem?_eq_some_iff.mp h).1

/-- A block that has a stream is one of those there were, or the new one. -/
theorem block_append_cases {sys : Dirs} {P : Pool (List LStr)} {v : Option Nat}
    (h : (Dirs.mk P (sys.blocks ++ [v])).block u = some d) :
    sys.block u = some d ∨ (u = sys.blocks.length ∧ v = some d) := by
  have hlt := lt_of_block _ h
  rw [List.length_append, List.length_singleton] at hlt
  rcases Nat.lt_succ_iff_lt_or_eq.mp hlt with hlt | rfl
  · exact .inl ((block_append sys P v hlt).symm.trans h)
  · exact .inr ⟨rfl, (block_length sys P v).symm.trans h⟩

/-- A failed `files` leaves a block without a stream. -/
theorem Inv.failed (h : s.Inv) (hsys : w.sys = s.world.sys.failed) :
    Inv { s with world := w } := by
  have hold : ∀ {u}, u < s.world.sys.blocks.length → w.sys.block u = s.block u := fun hu => by
    rw [hsys]
    exact block_append _ _ _ hu
  have hback : ∀ {u d}, w.sys.block u = some d → s.block u = some d := fun hu => by
    rw [hsys] at hu
    exact (block_append_cases hu).resolve_right fun h => nomatch h.2
  have hstreams : w.sys.streams = s.world.sys.streams := by rw [hsys]; rfl
  refine ⟨?_, ?_, ?_, ?_, ?_, ?_, ?_, h.collected⟩
  · rw [hstreams]
    exact h.sound
  · rw [hstreams]
    exact h.unmisused
  · intro u hu
    rw [hsys]
    show u < (s.world.sys.blocks ++ [none]).length
    rw [List.length_append]
    exact Nat.lt_add_right _ (h.bound u hu)
  · intro u d hu
    rw [hstreams]
    exact h.made u d (hback hu)
  · exact fun u u' d hu hu' => h.inj u u' d (hback hu) (hback hu')
  · intro d hd
    obtain ⟨u, hu, hcollected, hown⟩ := h.owner d (by rw [live, ← hstreams]; exact hd)
    exact ⟨u, hu, hcollected, (hold (h.bound u hu)).trans hown⟩
  · intro u hu
    have hknown := h.known u hu
    have hsame := hold (h.bound u hu)
    cases hu' : s.block u with
    | none => exact (known_of_none (hsame.trans hu')).mpr ((known_of_none hu').mp hknown)
    | some d =>
        refine (known_of_some (hsame.trans hu')).mpr ?_
        simp only [live, hstreams]
        exact (known_of_some hu').mp hknown

/-- **A new iterator.** -/
theorem Inv.opened (h : s.Inv) (hsys : w.sys = s.world.sys.opened names) :
    Inv { s with
      world := w
      iterators := s.world.sys.blocks.length :: s.iterators
      listing := Function.update s.listing s.world.sys.blocks.length
        (((w.sys.block s.world.sys.blocks.length).bind w.sys.streams.live).getD [])
      given := Function.update s.given s.world.sys.blocks.length [] } := by
  have hold : ∀ {u}, u < s.world.sys.blocks.length → w.sys.block u = s.block u := fun hu => by
    rw [hsys]
    exact block_append _ _ _ hu
  have hnew : w.sys.block s.world.sys.blocks.length = some s.world.sys.streams.made := by
    rw [hsys]
    exact block_length _ _ _
  have hback : ∀ {u d}, w.sys.block u = some d → s.block u = some d ∨
      (u = s.world.sys.blocks.length ∧ d = s.world.sys.streams.made) := fun hu => by
    rw [hsys] at hu
    exact (block_append_cases hu).imp_right fun h => ⟨h.1, (Option.some.inj h.2).symm⟩
  have hlive : w.sys.streams.live
      = Function.update s.world.sys.streams.live s.world.sys.streams.made (some names) := by
    rw [hsys]
    rfl
  have hliveNew : w.sys.streams.live s.world.sys.streams.made = some names := by
    rw [hlive, Function.update_self]
  have hmade : w.sys.streams.made = s.world.sys.streams.made + 1 := by rw [hsys]; rfl
  have hnotMem : s.world.sys.blocks.length ∉ s.iterators :=
    fun hmem => absurd (h.bound _ hmem) (Nat.lt_irrefl _)
  have hnotCollected : s.world.sys.blocks.length ∉ s.collected :=
    fun hmem => hnotMem (h.collected _ hmem)
  have hsound := h.sound.make names
  refine ⟨?_, ?_, ?_, ?_, ?_, ?_, ?_, fun u hu => List.mem_cons_of_mem _ (h.collected u hu)⟩
  · rw [hsys]
    exact hsound
  · rw [hsys]
    exact h.unmisused
  · intro u hu
    have hlength : w.sys.blocks.length = s.world.sys.blocks.length + 1 := by
      rw [hsys]
      exact List.length_append
    rw [hlength]
    rcases List.mem_cons.mp hu with rfl | hu
    · exact Nat.lt_succ_self _
    · exact Nat.lt_succ_of_lt (h.bound u hu)
  · intro u d hu
    rw [hmade]
    rcases hback hu with hu | ⟨-, rfl⟩
    · exact Nat.lt_succ_of_lt (h.made u d hu)
    · exact Nat.lt_succ_self _
  · intro u u' d hu hu'
    rcases hback hu with hu | ⟨rfl, rfl⟩ <;> rcases hback hu' with hu' | ⟨rfl, hd⟩
    · exact h.inj u u' d hu hu'
    · exact absurd (hd ▸ h.made u d hu) (Nat.lt_irrefl _)
    · exact absurd (h.made u' _ hu') (Nat.lt_irrefl _)
    · rfl
  · intro d hd
    by_cases hdmade : d = s.world.sys.streams.made
    · exact ⟨_, List.mem_cons_self, hnotCollected, hdmade ▸ hnew⟩
    · have hd' : s.live d ≠ none := by
        intro hnone
        refine hd ?_
        show w.sys.streams.live d = none
        rw [hlive, Function.update_of_ne hdmade]
        exact hnone
      obtain ⟨u, hu, hcollected, hown⟩ := h.owner d hd'
      exact ⟨u, List.mem_cons_of_mem _ hu, hcollected, (hold (h.bound u hu)).trans hown⟩
  · intro u hu
    rcases List.mem_cons.mp hu with rfl | hu
    · refine (known_of_some hnew).mpr ?_
      simp only [hnew, hnotCollected, if_false, live, hliveNew, Function.update_self,
        Option.bind_some, Option.getD_some, List.nil_append]
      exact ⟨names, rfl, rfl⟩
    · have hlt := h.bound u hu
      have hne : u ≠ s.world.sys.blocks.length := Nat.ne_of_lt hlt
      have hknown := h.known u hu
      cases hblock : s.block u with
      | none =>
          refine (known_of_none ((hold hlt).trans hblock)).mpr ?_
          simp only [Function.update_of_ne hne]
          exact (known_of_none hblock).mp hknown
      | some d =>
          have hd : d ≠ s.world.sys.streams.made := Nat.ne_of_lt (h.made u d hblock)
          refine (known_of_some ((hold hlt).trans hblock)).mpr ?_
          simp only [live, hlive, Function.update_of_ne hne, Function.update_of_ne hd]
          exact (known_of_some hblock).mp hknown

/-- What a step about one iterator leaves of the others. -/
structure Touched (s s' : Session) (u d : Nat) : Prop where
  iterators : s'.iterators = s.iterators
  collected : ∀ v, v ≠ u → (v ∈ s'.collected ↔ v ∈ s.collected)
  listing : s'.listing = s.listing
  given : ∀ v, v ≠ u → s'.given v = s.given v
  live : ∀ e, e ≠ d → s'.live e = s.live e
  block : ∀ v, v ≠ u → s'.block v = s.block v
  own : ∀ e, s'.block u = some e → e = d
  length : s'.world.sys.blocks.length = s.world.sys.blocks.length
  made : s'.world.sys.streams.made = s.world.sys.streams.made

/-- **A step about one iterator** keeps the invariant if it does for that iterator and its
stream. -/
theorem Inv.touched (h : s.Inv) (hu : u ∈ s.iterators) (hblock : s.block u = some d)
    (htouched : Touched s s' u d) (hsound : s'.world.sys.streams.Sound)
    (hmisused : s'.world.sys.streams.misused = false)
    (hopen : s'.live d ≠ none → u ∉ s'.collected ∧ s'.block u = some d) (hknown : s'.Known u) :
    s'.Inv := by
  have hback : ∀ v e, s'.block v = some e → s.block v = some e := by
    intro v e hv
    by_cases hvu : v = u
    · subst hvu
      rw [htouched.own e hv]
      exact hblock
    · rw [← htouched.block v hvu]
      exact hv
  refine ⟨hsound, hmisused, ?_, ?_, ?_, ?_, ?_, ?_⟩
  · rw [htouched.iterators, htouched.length]
    exact h.bound
  · intro v e hv
    rw [htouched.made]
    exact h.made v e (hback v e hv)
  · exact fun v v' e hv hv' => h.inj v v' e (hback v e hv) (hback v' e hv')
  · intro e he
    by_cases hed : e = d
    · subst hed
      exact ⟨u, htouched.iterators ▸ hu, hopen he⟩
    · rw [htouched.live e hed] at he
      obtain ⟨v, hv, hcollected, hown⟩ := h.owner e he
      have hvu : v ≠ u := by
        rintro rfl
        exact hed (Option.some.inj (hown.symm.trans hblock))
      exact ⟨v, htouched.iterators ▸ hv,
        fun hmem => hcollected ((htouched.collected v hvu).mp hmem),
        (htouched.block v hvu).trans hown⟩
  · intro v hv
    by_cases hvu : v = u
    · rw [hvu]
      exact hknown
    · have hold := h.known v (htouched.iterators ▸ hv)
      have hsame := htouched.block v hvu
      cases hvblock : s.block v with
      | none =>
          rw [known_of_none (hsame.trans hvblock), htouched.given v hvu, htouched.listing]
          exact (known_of_none hvblock).mp hold
      | some e =>
          -- The stream of another block is another one.
          have hed : e ≠ d := by
            rintro rfl
            exact hvu (h.inj v u e hvblock hblock)
          rw [known_of_some (hsame.trans hvblock), htouched.given v hvu, htouched.listing]
          simp only [htouched.collected v hvu, htouched.live e hed]
          exact (known_of_some hvblock).mp hold
  · intro v hv
    rw [htouched.iterators]
    by_cases hvu : v = u
    · rw [hvu]
      exact hu
    · exact h.collected v ((htouched.collected v hvu).mp hv)

/-- The iterator gives the next name. -/
theorem Inv.gives (h : s.Inv) {name : LStr} (hu : u ∈ s.iterators) (hblock : s.block u = some d)
    (hcollected : u ∉ s.collected) (hlive : s.live d = some (name :: names))
    (hgiven : s.given u ++ nameValues (name :: names) = nameValues (s.listing u))
    (hsys : w.sys = s.world.sys.at d names) :
    Inv { s with
      world := w, given := Function.update s.given u (s.given u ++ nameValues [name]) } := by
  have hlive' : w.sys.streams.live = Function.update s.world.sys.streams.live d (some names) := by
    rw [hsys]
    rfl
  have hblock' : ∀ v, w.sys.block v = s.block v := fun v => by rw [hsys]; rfl
  refine h.touched hu hblock ⟨rfl, fun _ _ => Iff.rfl, rfl,
    fun v hv => Function.update_of_ne hv _ _,
    fun e he => ?_, fun v _ => hblock' v, fun e he => ?_, ?_, ?_⟩ ?_ ?_ (fun _ => ?_) ?_
  · show w.sys.streams.live e = _
    rw [hlive', Function.update_of_ne he]
  · exact Option.some.inj (he.symm.trans ((hblock' u).trans hblock))
  · rw [hsys]
    rfl
  · rw [hsys]
    rfl
  · have hsound := h.sound.use d none nextName
    rw [Pool.use_of_live hlive] at hsound
    rw [hsys]
    exact hsound
  · rw [hsys]
    exact h.unmisused
  · exact ⟨hcollected, (hblock' u).trans hblock⟩
  · refine (known_of_some ((hblock' u).trans hblock)).mpr ?_
    simp only [hcollected, if_false, live, hlive', Function.update_self]
    refine ⟨names, rfl, ?_⟩
    rw [List.append_assoc]
    exact hgiven

/-- The iterator comes to its end. -/
theorem Inv.finishes (h : s.Inv) (hu : u ∈ s.iterators) (hblock : s.block u = some d)
    (hlive : s.live d = some []) (hgiven : s.given u = nameValues (s.listing u))
    (hsys : w.sys = ⟨(s.world.sys.at d []).streams.release d, s.world.sys.blocks.set u none⟩) :
    Inv { s with world := w, given := Function.update s.given u (s.given u ++ []) } := by
  have hempty : (s.world.sys.at d []).streams.live d = some [] := Dirs.live_at _
  have hrelease := Pool.release_of_live hempty
  have hlive' : w.sys.streams.live = Function.update s.world.sys.streams.live d none := by
    rw [hsys, hrelease]
    exact Function.update_idem _ _ _
  have hnone : w.sys.block u = none := by
    rw [hsys, Dirs.block, List.getElem?_set_self (h.bound u hu)]
    rfl
  have hother : ∀ v, v ≠ u → w.sys.block v = s.block v := fun v hv => by
    rw [hsys, Dirs.block, List.getElem?_set_ne (Ne.symm hv)]
    rfl
  refine h.touched hu hblock ⟨rfl, fun _ _ => Iff.rfl, rfl,
    fun v hv => Function.update_of_ne hv _ _,
    fun e he => ?_, fun v hv => hother v hv, fun e he => ?_, ?_, ?_⟩ ?_ ?_ (fun hd => ?_) ?_
  · show w.sys.streams.live e = _
    rw [hlive', Function.update_of_ne he]
  · exact nomatch hnone.symm.trans he
  · rw [hsys]
    exact List.length_set
  · rw [hsys, hrelease]
    rfl
  · have hsound := (h.sound.use d none nextName).release d
    rw [Pool.use_of_live hlive] at hsound
    rw [hsys]
    exact hsound
  · rw [hsys, hrelease]
    exact h.unmisused
  · refine absurd ?_ hd
    show w.sys.streams.live d = none
    rw [hlive', Function.update_self]
  · refine (known_of_none hnone).mpr ?_
    show Function.update s.given u _ u = _
    rw [Function.update_self, List.append_nil]
    exact hgiven

/-- The finalizer closes the stream of an iterator that has not come to its end. -/
theorem Inv.finalized (h : s.Inv) (hu : u ∈ s.iterators) (hblock : s.block u = some d)
    (hlive : s.live d = some names)
    (hgiven : s.given u ++ nameValues names = nameValues (s.listing u))
    (hsys : w.sys = { s.world.sys with streams := s.world.sys.streams.release d }) :
    Inv { s with world := w, collected := u :: s.collected } := by
  have hrelease := Pool.release_of_live hlive
  have hlive' : w.sys.streams.live = Function.update s.world.sys.streams.live d none := by
    rw [hsys, hrelease]
  have hblock' : ∀ v, w.sys.block v = s.block v := fun v => by rw [hsys]; rfl
  have hclosed : w.sys.streams.live d = none := by rw [hlive', Function.update_self]
  refine h.touched hu hblock ⟨rfl, fun v hv => ?_, rfl, fun _ _ => rfl, fun e he => ?_,
    fun v _ => hblock' v, fun e he => ?_, ?_, ?_⟩ ?_ ?_ (fun hd => absurd hclosed hd) ?_
  · show v ∈ u :: s.collected ↔ _
    rw [List.mem_cons, or_iff_right hv]
  · show w.sys.streams.live e = _
    rw [hlive', Function.update_of_ne he]
  · exact Option.some.inj (he.symm.trans ((hblock' u).trans hblock))
  · rw [hsys]
  · rw [hsys, hrelease]
  · rw [hsys]
    exact h.sound.release d
  · rw [hsys, hrelease]
    exact h.unmisused
  · refine (known_of_some ((hblock' u).trans hblock)).mpr ?_
    simp only [List.mem_cons_self, if_true, live, hclosed, true_and]
    exact ⟨_, hgiven⟩

/-- The finalizer of an iterator that has come to its end does nothing. -/
theorem Inv.collects (h : s.Inv) (hu : u ∈ s.iterators) (hblock : s.block u = none) :
    Inv { s with collected := u :: s.collected } := by
  refine ⟨h.sound, h.unmisused, h.bound, h.made, h.inj, fun d hd => ?_, fun v hv => ?_,
    fun v hv => ?_⟩
  · obtain ⟨v, hv, hcollected, hown⟩ := h.owner d hd
    refine ⟨v, hv, fun hmem => ?_, hown⟩
    rcases List.mem_cons.mp hmem with rfl | hmem
    · exact nomatch hblock.symm.trans hown
    · exact hcollected hmem
  · have hknown := h.known v hv
    cases hvblock : s.block v with
    | none =>
        refine (known_of_none (s := { s with collected := u :: s.collected }) hvblock).mpr ?_
        exact (known_of_none hvblock).mp hknown
    | some d =>
        have hvu : v ≠ u := by
          rintro rfl
          exact nomatch hblock.symm.trans hvblock
        refine (known_of_some (s := { s with collected := u :: s.collected }) hvblock).mpr ?_
        simp only [List.mem_cons, or_iff_right hvu]
        exact (known_of_some hvblock).mp hknown
  · rcases List.mem_cons.mp hv with rfl | hv
    · exact hu
    · exact h.collected v hv

/-! ## Every run -/

variable {l : Label} {ls : List Label} {s₀ : Session}

/-- A call of an iterator that is not dead. -/
theorem Inv.call (h : s.Inv) (hu : u ∈ s.iterators) (hdead : u ∈ s.collected → s.block u = none) :
    ∃ vs w, (aux_files u).run s.world = .ok vs w ∧
      Inv { s with world := w, given := Function.update s.given u (s.given u ++ vs) } := by
  cases hblock : s.block u with
  | none =>
      refine ⟨[], s.world, run_aux_files_null hblock, ?_⟩
      rw [List.append_nil, Function.update_eq_self]
      exact h
  | some d =>
      have hcollected : u ∉ s.collected := fun hmem => nomatch hblock.symm.trans (hdead hmem)
      have hknown := (known_of_some hblock).mp (h.known u hu)
      rw [if_neg hcollected] at hknown
      obtain ⟨names, hlive, hgiven⟩ := hknown
      refine ⟨_, _, run_aux_files hblock hlive, ?_⟩
      cases names with
      | nil => exact h.finishes hu hblock hlive ((List.append_nil _).symm.trans hgiven) rfl
      | cons name names => exact h.gives hu hblock hcollected hlive hgiven rfl

/-- **Each step keeps the invariant**, as long as no dead iterator is called. -/
theorem Inv.next (h : s.Inv) (hl : s.NotDead l) (hs : s.next N strerror L l = some s') :
    s'.Inv := by
  cases l with
  | dir O args =>
      cases hs
      exact h.dir
  | files O args =>
      rw [Session.next] at hs
      rcases run_Pfiles_cases N strerror O args s.world
        with ⟨e, hrun⟩ | ⟨e, w, hrun, hsys⟩ | ⟨names, w, hrun, hsys⟩
      · rw [hrun] at hs
        cases hs
        exact h
      · rw [hrun] at hs
        cases hs
        exact h.failed hsys
      · rw [hrun] at hs
        cases hs
        exact h.opened hsys
  | call u =>
      obtain ⟨hu, hs⟩ := Option.ite_none_right_eq_some.mp hs
      obtain ⟨vs, w, hrun, hinv⟩ := h.call hu hl
      rw [hrun] at hs
      cases hs
      exact hinv
  | gc u =>
      obtain ⟨⟨hu, hcollected⟩, hs⟩ := Option.ite_none_right_eq_some.mp hs
      cases hs
      have hsys := sys_dir_gc u s.world
      cases hblock : s.block u with
      | none =>
          rw [show s.world.sys.block u = none from hblock] at hsys
          have hcongr := (h.collects hu hblock).congr (w := BindingM.worldAfter
            ((dir_gc u).run s.world)) (by rw [hsys]; exact h.sound)
            (by rw [hsys]; exact h.unmisused) (by rw [hsys]) (by rw [hsys]) (by rw [hsys])
          exact hcongr
      | some d =>
          rw [show s.world.sys.block u = some d from hblock] at hsys
          have hknown := (known_of_some hblock).mp (h.known u hu)
          rw [if_neg hcollected] at hknown
          obtain ⟨names, hlive, hgiven⟩ := hknown
          exact h.finalized hu hblock hlive hgiven hsys

/-- Streams in order, once misused. -/
def Misused (P : Pool (List LStr)) : Prop := P.Sound ∧ P.misused = true

/-- Opening another stream makes up for nothing. -/
theorem Misused.opened {P : Pool (List LStr)} (h : Misused P) (names : List LStr) :
    Misused (P.make names).2 := ⟨h.1.make names, h.2⟩

/-- A dead iterator goes wrong. -/
theorem Inv.misused (h : s.Inv) (hl : ¬ s.NotDead l) (hs : s.next N strerror L l = some s') :
    Misused s'.world.sys.streams := by
  cases l with
  | dir | files | gc => exact absurd trivial hl
  | call u =>
      obtain ⟨hcollected, hblock⟩ := Classical.not_imp.mp hl
      obtain ⟨d, hblock⟩ := Option.ne_none_iff_exists'.mp hblock
      obtain ⟨hu, hs⟩ := Option.ite_none_right_eq_some.mp hs
      have hknown := (known_of_some hblock).mp (h.known u hu)
      rw [if_pos hcollected] at hknown
      rw [run_aux_files_dead hblock hknown.1] at hs
      cases hs
      exact ⟨⟨h.sound.live_iff, h.sound.released, h.sound.once⟩, rfl⟩

/-- A misuse is not forgotten, whatever is called. -/
theorem misused_next (h : Misused s.world.sys.streams) (hs : s.next N strerror L l = some s') :
    Misused s'.world.sys.streams := by
  cases l with
  | dir O args =>
      cases hs
      show Misused (BindingM.worldAfter ((Pdir N strerror L O args).run s.world)).sys.streams
      rcases sys_Pdir N strerror L O args h.1
        with hsys | hsys
      · rw [hsys]
        exact h
      · rw [hsys]
        exact ⟨Dirs.sound_listed h.1, h.2⟩
  | files O args =>
      rw [Session.next] at hs
      rcases run_Pfiles_cases N strerror O args s.world
        with ⟨e, hrun⟩ | ⟨e, w, hrun, hsys⟩ | ⟨names, w, hrun, hsys⟩
      · rw [hrun] at hs
        cases hs
        exact h
      · rw [hrun] at hs
        cases hs
        rw [hsys]
        exact h
      · rw [hrun] at hs
        cases hs
        rw [hsys]
        exact h.opened names
  | call u =>
      obtain ⟨-, hs⟩ := Option.ite_none_right_eq_some.mp hs
      cases hblock : s.block u with
      | none =>
          rw [run_aux_files_null hblock] at hs
          cases hs
          exact h
      | some d =>
          cases hlive : s.live d with
          | none =>
              rw [run_aux_files_dead hblock hlive] at hs
              cases hs
              exact ⟨⟨h.1.live_iff, h.1.released, h.1.once⟩, rfl⟩
          | some names =>
              rw [run_aux_files hblock hlive] at hs
              have huse := h.1.use d none nextName
              have hmisused := Pool.misused_use h.2 d none nextName
              rw [Pool.use_of_live hlive] at huse hmisused
              cases names with
              | nil =>
                  cases hs
                  exact ⟨huse.release d, Pool.misused_release hmisused d⟩
              | cons name names =>
                  cases hs
                  exact ⟨huse, hmisused⟩
  | gc u =>
      obtain ⟨-, hs⟩ := Option.ite_none_right_eq_some.mp hs
      cases hs
      show Misused (BindingM.worldAfter ((dir_gc u).run s.world)).sys.streams
      rw [sys_dir_gc]
      cases s.world.sys.block u with
      | none => exact h
      | some d => exact ⟨h.1.release d, Pool.misused_release h.2 d⟩

/-- What the invariant is for. -/
theorem Inv.isSound (h : s.Inv) : s.Sound where
  unmisused := h.unmisused
  closedOnce := h.sound.once
  noLeak d hd hreleased := h.owner d ((h.sound.live_iff d).mpr ⟨hd, hreleased⟩)
  opened u hu hcollected d hblock := by
    have hknown := (known_of_some hblock).mp (h.known u hu)
    rw [if_neg hcollected] at hknown
    obtain ⟨names, hlive, -⟩ := hknown
    exact (h.sound.live_iff d).mp fun hnone => Option.some_ne_none names (hlive.symm.trans hnone)
  given u hu := by
    have hknown := h.known u hu
    cases hblock : s.block u with
    | none =>
        have hgiven := (known_of_none hblock).mp hknown
        exact ⟨⟨[], by rw [List.append_nil, hgiven]⟩, fun _ => hgiven⟩
    | some d =>
        refine ⟨?_, fun h => nomatch h⟩
        have hsome := (known_of_some hblock).mp hknown
        split_ifs at hsome
        · exact hsome.2
        · obtain ⟨names, -, hgiven⟩ := hsome
          exact ⟨_, hgiven⟩

/-- **Iterators and their streams**: a run goes well in every respect if and only if no iterator is
called after its finalizer that had not come to its end before. -/
theorem sound_iff_notDead (h₀ : s₀.Start) (hrun : (machine N strerror L).run s₀ ls = some s) :
    s.Sound ↔ (machine N strerror L).Meets NotDead s₀ ls := by
  have hinv := inv_of_start h₀
  constructor
  · intro hsound
    have hend : ¬ Misused s.world.sys.streams :=
      fun h => absurd (h.2.symm.trans hsound.unmisused) (by decide)
    refine Machine.meets_of_not_trap (I := fun s => s.Inv ∨ Misused s.world.sys.streams)
      (T := fun s => Misused s.world.sys.streams) (fun s l s' h hs => ?_)
      (fun s l s' h hl hs => ?_) (fun s l s' _ hT hs => misused_next hT hs) (.inl hinv) hrun hend
    · rcases h with h | h
      · by_cases hl : s.NotDead l
        · exact .inl (h.next hl hs)
        · exact .inr (h.misused hl hs)
      · exact .inr (misused_next h hs)
    · rcases h with h | h
      · exact h.misused hl hs
      · exact misused_next h hs
  · intro hmeets
    exact (Machine.invariant_of_meets (fun s l s' h hl hs => h.next hl hs) hinv hmeets hrun).isSound

end Session

/-! ## An instance -/

/-- Directories with two names. -/
def twoNames : Opens := fun _ => .ok ["a".toList, "b".toList]

/-- A program that has made nothing. -/
def nothing : Session := ⟨⟨0, .empty, ⟨.empty, []⟩, []⟩, [], [], fun _ => [], fun _ => []⟩

/-- An iterator over two names, called to its end and once more behind its finalizer. -/
private def toTheEnd : List Label := [.files twoNames [], .call 0, .call 0, .call 0, .gc 0, .call 0]

/-- An iterator that comes to its end is called once more behind its finalizer. -/
theorem sound_toTheEnd : ∃ s,
    (machine .zero (fun _ => []) Heap.newestFirst).run nothing toTheEnd = some s ∧ s.Sound := by
  have hrun : (machine .zero (fun _ => []) Heap.newestFirst).run nothing toTheEnd = some _ := rfl
  refine ⟨_, hrun, (Session.sound_iff_notDead ⟨rfl, rfl, rfl⟩ hrun).mpr ?_⟩
  refine ⟨trivial, fun s' h => ?_⟩
  obtain rfl := Option.some.inj h
  refine ⟨fun h => absurd h List.not_mem_nil, fun s' h => ?_⟩
  obtain rfl := Option.some.inj h
  refine ⟨fun h => absurd h List.not_mem_nil, fun s' h => ?_⟩
  obtain rfl := Option.some.inj h
  refine ⟨fun h => absurd h List.not_mem_nil, fun s' h => ?_⟩
  obtain rfl := Option.some.inj h
  refine ⟨trivial, fun s' h => ?_⟩
  obtain rfl := Option.some.inj h
  exact ⟨fun _ => rfl, fun s' _ => trivial⟩

end LuaPosix.Dirent

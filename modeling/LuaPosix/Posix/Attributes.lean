import LuaPosix.Lua.Frame
import LuaPosix.Lua.Sequence

/-! # `tcgetattr` and `tcsetattr`

The attributes of a terminal as a table of flags and speeds, with a table of control characters in
it. `Ptcsetattr` fills a structure that was never initialised, and lets the C library put the
speeds in after the flags. -/

namespace LuaPosix.Attributes

open LuaPattern (LStr)
open Traversal (Layout)
open Heap (fieldName pushintegerfield)

/-- `struct termios`, `NCCS` control characters and so many bits of other fields. -/
structure Termios (NCCS bits : Nat) where
  c_iflag : BitVec 32
  c_oflag : BitVec 32
  c_cflag : BitVec 32
  c_lflag : BitVec 32
  c_cc : Fin NCCS → BitVec 8
  others : BitVec bits

/-- The calls of the C library. -/
inductive Call (NCCS bits : Nat) where
  | tcgetattr (fd : Int)
  | tcsetattr (fd act : Int) (t : Termios NCCS bits)

/-- What the rest of the system answers, in a state of its own. -/
structure System (NCCS bits : Nat) (σ : Type) where
  num : Numerals
  strerror : Int → LStr
  tcgetattr : (fd : Int) → σ → (SysResult 32 × Termios NCCS bits) × σ
  tcsetattr : (fd act : Int) → Termios NCCS bits → σ → SysResult 32 × σ
  cfgetispeed : Termios NCCS bits → BitVec 32
  cfgetospeed : Termios NCCS bits → BitVec 32
  cfsetispeed : Termios NCCS bits → BitVec 32 → Termios NCCS bits
  cfsetospeed : Termios NCCS bits → BitVec 32 → Termios NCCS bits
  /-- What is in a structure before it is assigned to. -/
  uninitialised : σ → Termios NCCS bits

/-- The speed of a line that is hung up, and the default. -/
def B0 : Int := 0

section Model

variable {NCCS bits : Nat} {σ : Type} (S : System NCCS bits σ)
  (L : Layout fun _ : LuaValue => LuaValue) (args : List LuaValue)

/-- The numbers among the fields `Ptcgetattr` sets. -/
def Termios.fields (t : Termios NCCS bits) : List (String × LuaValue) :=
  pushintegerfield "iflag" (t.c_iflag.setWidth 64) ++
  pushintegerfield "oflag" (t.c_oflag.setWidth 64) ++
  pushintegerfield "lflag" (t.c_lflag.setWidth 64) ++
  pushintegerfield "cflag" (t.c_cflag.setWidth 64) ++
  pushintegerfield "ispeed" ((S.cfgetispeed t).setWidth 64) ++
  pushintegerfield "ospeed" ((S.cfgetospeed t).setWidth 64)

/-- A control character in a table. -/
def index (i : Fin NCCS) : LuaValue := .integer (BitVec.ofNat 64 i)

/-- The table `Ptcgetattr` makes of a structure. -/
def pushtermios (t : Termios NCCS bits) : BindingM σ (Call NCCS bits) LuaValue := do
  let table ← BindingM.newtable L (t.fields S)
  let cc ← BindingM.newtable L []
  (List.finRange NCCS).forM fun i =>
    BindingM.settable L cc (index i) (.integer ((t.c_cc i).setWidth 64))
  BindingM.settable L table (fieldName "cc") cc
  return table

/-- `Ptcgetattr`. -/
def Ptcgetattr : BindingM σ (Call NCCS bits) (List LuaValue) := do
  let fd ← checkint S.num.strtod args 1
  checknargs args 1
  let x ← BindingM.syscall (.tcgetattr fd) (fun x => x.1.errno) (S.tcgetattr fd)
  if cint x.1.value = -1 then
    return pusherror S.strerror (← BindingM.errno) none
  else do
    let table ← pushtermios S L x.2
    return [table]

/-- `optint(L, -1, def)`. -/
def optvalue (v : LuaValue) (dflt : Int) : LuaM Int :=
  if v = .nil then .ok dflt
  else match v.tointegerx S.num.strtod with
    | some d => .ok (toInt d)
    | none => .error (badvalue "integer or nil" v)

/-- `lua_gettable(L, -2)` with a number on top, which the library of strings has nothing for. -/
def gettable (H : Heap) (v k : LuaValue) : CallM LuaValue :=
  match v with
  | .table t => .ok (H.get t k)
  | .string _ => .ok .nil
  | v => .error (Heap.indexError v)

/-- A round of the loop over the control characters. -/
def readchar (H : Heap) (cc : LuaValue) (t : Termios NCCS bits) (i : Fin NCCS) :
    CallM (Termios NCCS bits) := do
  let v ← gettable H cc (index i)
  let c ← optvalue S v 0
  return { t with c_cc := Function.update t.c_cc i (BitVec.ofInt 8 c) }

/-- The loop over the control characters. -/
def readcc (H : Heap) (cc : LuaValue) (t : Termios NCCS bits) : CallM (Termios NCCS bits) :=
  (List.finRange NCCS).foldlM (readchar S H cc) t

/-- The structure that is filled from a table. -/
def totermios (H : Heap) (p : Nat) (t : Termios NCCS bits) : CallM (Termios NCCS bits) := do
  let iflag ← optvalue S (H.get p (fieldName "iflag")) 0
  let t := { t with c_iflag := BitVec.ofInt 32 iflag }
  let oflag ← optvalue S (H.get p (fieldName "oflag")) 0
  let t := { t with c_oflag := BitVec.ofInt 32 oflag }
  let cflag ← optvalue S (H.get p (fieldName "cflag")) 0
  let t := { t with c_cflag := BitVec.ofInt 32 cflag }
  let lflag ← optvalue S (H.get p (fieldName "lflag")) 0
  let t := { t with c_lflag := BitVec.ofInt 32 lflag }
  let ispeed ← optvalue S (H.get p (fieldName "ispeed")) B0
  let t := S.cfsetispeed t (BitVec.ofInt 32 ispeed)
  let ospeed ← optvalue S (H.get p (fieldName "ospeed")) B0
  let t := S.cfsetospeed t (BitVec.ofInt 32 ospeed)
  readcc S H (H.get p (fieldName "cc")) t

/-- `Ptcsetattr`. -/
def Ptcsetattr : BindingM σ (Call NCCS bits) (List LuaValue) := do
  let fd ← checkint S.num.strtod args 1
  let act ← checkint S.num.strtod args 2
  let p ← checktable args 3
  checknargs args 3
  let w ← get
  let t ← totermios S w.heap p (S.uninitialised w.sys)
  let x ← BindingM.syscall (.tcsetattr fd act t) SysResult.errno (S.tcsetattr fd act t)
  return x.push S.strerror none

end Model

/-! ## Speeds -/

section Speeds

variable {NCCS bits : Nat}

/-- The bits of a structure in which a speed is kept. -/
structure SpeedBits (bits : Nat) where
  c_iflag : BitVec 32
  c_oflag : BitVec 32
  c_cflag : BitVec 32
  c_lflag : BitVec 32
  others : BitVec bits

/-- The other bits of the words, and of the other fields those among `read`. -/
def SpeedBits.rest (m : SpeedBits bits) (read : BitVec bits) : SpeedBits bits :=
  ⟨~~~m.c_iflag, ~~~m.c_oflag, ~~~m.c_cflag, ~~~m.c_lflag, read &&& ~~~m.others⟩

/-- Two structures agree in some bits. -/
structure SameOn (m : SpeedBits bits) (u t : Termios NCCS bits) : Prop where
  c_iflag : u.c_iflag &&& m.c_iflag = t.c_iflag &&& m.c_iflag
  c_oflag : u.c_oflag &&& m.c_oflag = t.c_oflag &&& m.c_oflag
  c_cflag : u.c_cflag &&& m.c_cflag = t.c_cflag &&& m.c_cflag
  c_lflag : u.c_lflag &&& m.c_lflag = t.c_lflag &&& m.c_lflag
  others : u.others &&& m.others = t.others &&& m.others

/-- The words of two structures are the same. -/
structure SameFlags (u t : Termios NCCS bits) : Prop where
  c_iflag : u.c_iflag = t.c_iflag
  c_oflag : u.c_oflag = t.c_oflag
  c_cflag : u.c_cflag = t.c_cflag
  c_lflag : u.c_lflag = t.c_lflag

/-- The speed of a saved structure is kept in some bits. Where the structure has its words, setting
the speed that was got of it touches no other bits, and sets these to what they were. Only the bits
`read` of the other fields say anything about a speed. -/
structure KeptIn (m : SpeedBits bits) (read : BitVec bits) (get : Termios NCCS bits → BitVec 32)
    (set : Termios NCCS bits → BitVec 32 → Termios NCCS bits) (t : Termios NCCS bits) : Prop where
  get_eq : ∀ u, SameOn m u t → get u = get t
  others_read : m.others &&& read = m.others
  touches : ∀ u, SameFlags u t → SameOn (m.rest read) (set u (get t)) u
  restores : ∀ u, SameFlags u t → SameOn m (set u (get t)) t

/-- A word is what is in some bits and what is in the others. -/
theorem eq_of_and_eq {w : Nat} {x y m : BitVec w} (h : x &&& m = y &&& m)
    (hcompl : x &&& ~~~m = y &&& ~~~m) : x = y := by
  ext i hi
  have hi₁ := congrArg (fun v : BitVec w => v[i]) h
  have hi₂ := congrArg (fun v : BitVec w => v[i]) hcompl
  simp only [BitVec.getElem_and, BitVec.getElem_not] at hi₁ hi₂
  cases hm : m[i] with
  | true => simpa [hm] using hi₁
  | false => simpa [hm] using hi₂

variable {m m₁ m₂ : SpeedBits bits} {read : BitVec bits}
  {get get₁ get₂ : Termios NCCS bits → BitVec 32}
  {set set₁ set₂ : Termios NCCS bits → BitVec 32 → Termios NCCS bits} {t u v : Termios NCCS bits}

/-- The words of a structure are kept when its speed is set. -/
theorem KeptIn.sameFlags (h : KeptIn m read get set t) (hflags : SameFlags u t) :
    SameFlags (set u (get t)) t where
  c_iflag := eq_of_and_eq (h.restores u hflags).c_iflag
    ((h.touches u hflags).c_iflag.trans (by rw [hflags.c_iflag]; rfl))
  c_oflag := eq_of_and_eq (h.restores u hflags).c_oflag
    ((h.touches u hflags).c_oflag.trans (by rw [hflags.c_oflag]; rfl))
  c_cflag := eq_of_and_eq (h.restores u hflags).c_cflag
    ((h.touches u hflags).c_cflag.trans (by rw [hflags.c_cflag]; rfl))
  c_lflag := eq_of_and_eq (h.restores u hflags).c_lflag
    ((h.touches u hflags).c_lflag.trans (by rw [hflags.c_lflag]; rfl))

/-- What agrees in the words and in the other fields agrees in any bits. -/
theorem SameFlags.sameOn (h : SameFlags u t)
    (hothers : u.others &&& m.others = t.others &&& m.others) : SameOn m u t where
  c_iflag := by rw [h.c_iflag]
  c_oflag := by rw [h.c_oflag]
  c_cflag := by rw [h.c_cflag]
  c_lflag := by rw [h.c_lflag]
  others := hothers

/-- Control characters are none of the words. -/
theorem SameFlags.withChars (h : SameFlags u t) {c_cc : Fin NCCS → BitVec 8} :
    SameFlags { u with c_cc := c_cc } t := ⟨h.c_iflag, h.c_oflag, h.c_cflag, h.c_lflag⟩

/-- Bits that are what they should be stay so where others are set to what they should be. -/
theorem and_eq_of_touched {w : Nat} {x y z m₁ m₂ read : BitVec w} (hread : m₁ &&& read = m₁)
    (h : y &&& m₁ = z &&& m₁) (htouched : x &&& m₂ = z &&& m₂)
    (hkept : x &&& (read &&& ~~~m₂) = y &&& (read &&& ~~~m₂)) : x &&& m₁ = z &&& m₁ := by
  ext i hi
  have hread := congrArg (fun v : BitVec w => v[i]) hread
  have h := congrArg (fun v : BitVec w => v[i]) h
  have htouched := congrArg (fun v : BitVec w => v[i]) htouched
  have hkept := congrArg (fun v : BitVec w => v[i]) hkept
  simp only [BitVec.getElem_and, BitVec.getElem_not] at hread h htouched hkept ⊢
  cases hm₁ : m₁[i] with
  | false => rw [Bool.and_false, Bool.and_false]
  | true =>
      rw [hm₁, Bool.true_and] at hread
      cases hm₂ : m₂[i] with
      | true =>
          rw [hm₂, Bool.and_true, Bool.and_true] at htouched
          rw [htouched]
      | false =>
          rw [hread, hm₂, Bool.not_false, Bool.and_true, Bool.and_true, Bool.and_true] at hkept
          rw [hm₁] at h
          rw [hkept, h]

/-- **Both speeds are restored**, the second leaving the first as it is; control characters make no
difference. -/
theorem KeptIn.both (h₁ : KeptIn m₁ read get₁ set₁ t) (h₂ : KeptIn m₂ read get₂ set₂ t)
    (hflags : SameFlags u t) :
    SameFlags (set₂ (set₁ u (get₁ t)) (get₂ t)) t ∧ ∀ c_cc,
      get₁ { set₂ (set₁ u (get₁ t)) (get₂ t) with c_cc := c_cc } = get₁ t ∧
      get₂ { set₂ (set₁ u (get₁ t)) (get₂ t) with c_cc := c_cc } = get₂ t := by
  have hflags₁ : SameFlags (set₁ u (get₁ t)) t := h₁.sameFlags hflags
  have hflags₂ : SameFlags (set₂ (set₁ u (get₁ t)) (get₂ t)) t := h₂.sameFlags hflags₁
  have hothers := and_eq_of_touched h₁.others_read (h₁.restores u hflags).others
    (h₂.restores _ hflags₁).others (h₂.touches _ hflags₁).others
  exact ⟨hflags₂, fun c_cc => ⟨h₁.get_eq _ (hflags₂.withChars.sameOn hothers),
    h₂.get_eq _ (hflags₂.withChars.sameOn (h₂.restores _ hflags₁).others)⟩⟩

end Speeds

/-! ## Tables that show attributes -/

section Tables

variable {NCCS bits : Nat} {σ : Type} {S : System NCCS bits σ} {H : Heap} {p : Nat}
  {t u : Termios NCCS bits} {m₁ m₂ : SpeedBits bits} {read : BitVec bits}

/-- A table has the attributes of a terminal. -/
structure Shows (S : System NCCS bits σ) (H : Heap) (p : Nat) (t : Termios NCCS bits) : Prop where
  fields : ∀ f ∈ t.fields S, H.get p (fieldName f.1) = f.2
  cc : ∃ c, H.get p (fieldName "cc") = .table c ∧
    ∀ i, H.get c (index i) = .integer ((t.c_cc i).setWidth 64)

/-- An integer is narrowed to an `int`. -/
theorem optvalue_integer (d : LuaInteger) (dflt : Int) :
    optvalue S (.integer d) dflt = .ok (toInt d) := rfl

/-- A round reads one control character. -/
theorem readchar_of_get {c : Nat} {i : Fin NCCS} {x : BitVec 8}
    (h : H.get c (index i) = .integer (x.setWidth 64)) :
    readchar S H (.table c) u i = .ok { u with c_cc := Function.update u.c_cc i x } := by
  rw [readchar, gettable, h, CallM.ok_bind, optvalue_integer, CallM.lift_ok, CallM.ok_bind,
    ofInt_toInt_setWidth (by decide)]
  rfl

/-- The loop over the control characters fills them all. -/
theorem readcc_of_get {c : Nat} {cc : Fin NCCS → BitVec 8}
    (h : ∀ i, H.get c (index i) = .integer ((cc i).setWidth 64)) :
    readcc S H (.table c) u = .ok { u with c_cc := cc } := by
  -- The characters of the rounds so far are filled, the others are as before.
  have hloop (l : List (Fin NCCS)) (u : Termios NCCS bits) : l.foldlM (readchar S H (.table c)) u
      = .ok { u with c_cc := fun i => if i ∈ l then cc i else u.c_cc i } := by
    induction l generalizing u with
    | nil => rfl
    | cons i l ih =>
        have hcc : (fun j => if j ∈ l then cc j else Function.update u.c_cc i (cc i) j)
            = fun j => if j ∈ i :: l then cc j else u.c_cc j := by
          funext j
          by_cases hj : j ∈ l
          · rw [if_pos hj, if_pos (List.mem_cons_of_mem i hj)]
          · rw [if_neg hj]
            by_cases hji : j = i
            · rw [hji, Function.update_self, if_pos List.mem_cons_self]
            · have hnot : j ∉ i :: l := by
                rw [List.mem_cons, not_or]
                exact ⟨hji, hj⟩
              rw [Function.update_of_ne hji, if_neg hnot]
        rw [List.foldlM_cons, readchar_of_get (h i), CallM.ok_bind, ih, ← hcc]
  rw [readcc, hloop]
  simp only [List.mem_finRange, if_true]

/-- **A table that shows attributes is read as these attributes.** -/
theorem totermios_of_shows (hi : KeptIn m₁ read S.cfgetispeed S.cfsetispeed t)
    (ho : KeptIn m₂ read S.cfgetospeed S.cfsetospeed t) (h : Shows S H p t) :
    ∃ v, totermios S H p u = .ok v ∧ SameFlags v t ∧ v.c_cc = t.c_cc ∧
      S.cfgetispeed v = S.cfgetispeed t ∧ S.cfgetospeed v = S.cfgetospeed t := by
  obtain ⟨c, hcc, hchars⟩ := h.cc
  have hfields := h.fields
  simp only [Termios.fields, pushintegerfield, List.forall_mem_append, List.forall_mem_singleton]
    at hfields
  obtain ⟨⟨⟨⟨⟨iflag, oflag⟩, lflag⟩, cflag⟩, ispeed⟩, ospeed⟩ := hfields
  -- The structure once the words are filled, and once the speeds are.
  let words : Termios NCCS bits := { u with
    c_iflag := t.c_iflag, c_oflag := t.c_oflag, c_cflag := t.c_cflag, c_lflag := t.c_lflag }
  let speeds := S.cfsetospeed (S.cfsetispeed words (S.cfgetispeed t)) (S.cfgetospeed t)
  have hwords : SameFlags words t := ⟨rfl, rfl, rfl, rfl⟩
  obtain ⟨hflags, hspeeds⟩ := hi.both ho hwords
  refine ⟨{ speeds with c_cc := t.c_cc }, ?_, hflags.withChars, rfl, hspeeds t.c_cc⟩
  rw [totermios, iflag, oflag, lflag, cflag, ispeed, ospeed, hcc]
  simp only [optvalue_integer, CallM.lift_ok, CallM.ok_bind, ofInt_toInt_setWidth (Nat.le_refl 32)]
  exact readcc_of_get hchars

end Tables

/-! ## There and back -/

section Restored

variable {NCCS bits : Nat} {σ : Type} {S : System NCCS bits σ}
  {L : Layout fun _ : LuaValue => LuaValue} {w : World σ (Call NCCS bits)} {t : Termios NCCS bits}
  {m₁ m₂ : SpeedBits bits} {read : BitVec bits}

/-- The tables after `pushtermios`. -/
def termiosHeap (S : System NCCS bits σ) (L : Layout fun _ : LuaValue => LuaValue) (H : Heap)
    (t : Termios NCCS bits) : Heap :=
  ((List.finRange NCCS).foldl (fun H' i => H'.set L (H.size + 1) (index i)
    (.integer ((t.c_cc i).setWidth 64))) ((H.newtable L (t.fields S)).2.newtable L []).2).set L
      H.size (fieldName "cc") (.table (H.size + 1))

/-- The table that is pushed, as the heap has it. -/
theorem run_pushtermios : (pushtermios S L t).run w
    = .ok (.table w.heap.size) { w with heap := termiosHeap S L w.heap t } := by
  have hsize : ((w.heap.newtable L (t.fields S)).2).size = w.heap.size + 1 :=
    Heap.size_newtable _
  rw [pushtermios, EStateM.run_bind, BindingM.run_newtable]
  simp only
  rw [EStateM.run_bind, BindingM.run_newtable]
  simp only
  rw [EStateM.run_bind, BindingM.run_forM_settable, hsize]
  rfl

/-- Control characters have keys of their own. -/
theorem index_injective (hN : NCCS ≤ 2 ^ 64) :
    Function.Injective (index : Fin NCCS → LuaValue) := by
  intro i j h
  exact Fin.ext (position_injective (by omega) (by omega) h)

/-- **The table shows the attributes** it was made of. -/
theorem shows_termiosHeap (hN : NCCS ≤ 2 ^ 64) (H : Heap) :
    Shows S (termiosHeap S L H t) H.size t where
  fields f hf := by
    have hnames : (t.fields S).map Prod.fst
        = ["iflag", "oflag", "lflag", "cflag", "ispeed", "ospeed"] := rfl
    have hnodup : ((t.fields S).map Prod.fst).Nodup := by
      rw [hnames]
      decide
    have hcc : fieldName f.1 ≠ fieldName "cc" := by
      intro h
      have hmem := List.mem_map_of_mem (f := Prod.fst) hf
      rw [hnames, Heap.fieldName_injective h] at hmem
      exact absurd hmem (by decide)
    -- The table of characters is another one.
    rw [termiosHeap, Heap.get_set_of_ne _ _ hcc, Heap.get,
      Heap.tables_foldl_set_of_ne (by omega),
      Heap.tables_newtable_of_ne (by rw [Heap.size_newtable]; omega), ← Heap.get,
      Heap.get_newtable, Heap.fieldOf_of_mem hnodup hf]
  cc := by
    refine ⟨H.size + 1, Heap.get_set _ _ _, fun i => ?_⟩
    rw [termiosHeap, Heap.get, Heap.tables_set_of_ne _ _ (by omega), ← Heap.get]
    refine Heap.get_foldl_set (fun j _ hkey => ?_)
      (.inl (List.mem_finRange i))
    rw [index_injective hN hkey]

/-- What `tcgetattr` returns is such a table. -/
theorem run_Ptcgetattr (hN : NCCS ≤ 2 ^ 64) (fd : LuaInteger)
    (hget : (S.tcgetattr (toInt fd) w.sys).1.2 = t)
    (hok : cint (S.tcgetattr (toInt fd) w.sys).1.1.value ≠ -1) :
    ∃ p w', (Ptcgetattr S L [.integer fd]).run w = .ok [.table p] w' ∧ Shows S w'.heap p t := by
  have hnargs : checknargs [.integer fd] 1 = .ok () := rfl
  have hfd : checkint S.num.strtod [.integer fd] 1 = .ok (toInt fd) := rfl
  -- The world after the call.
  let w₁ : World σ (Call NCCS bits) := { w with
    errno := (S.tcgetattr (toInt fd) w.sys).1.1.errno
    sys := (S.tcgetattr (toInt fd) w.sys).2
    calls := w.calls ++ [.tcgetattr (toInt fd)] }
  refine ⟨w.heap.size, { w₁ with heap := termiosHeap S L w.heap t }, ?_,
    shows_termiosHeap hN w.heap⟩
  rw [Ptcgetattr, hfd, hnargs]
  simp only [EStateM.run_bind, BindingM.run_lua_ok, BindingM.run_syscall]
  rw [if_neg hok, EStateM.run_bind, run_pushtermios, hget]
  rfl

/-- **Attributes are restored**: what `tcsetattr(3)` is passed agrees with what `tcgetattr(3)`
returned in all words and control characters and in both speeds. -/
theorem attributes_restored (hN : NCCS ≤ 2 ^ 64)
    (hi : KeptIn m₁ read S.cfgetispeed S.cfsetispeed t)
    (ho : KeptIn m₂ read S.cfgetospeed S.cfsetospeed t) (fd act : LuaInteger)
    (hget : (S.tcgetattr (toInt fd) w.sys).1.2 = t)
    (hok : cint (S.tcgetattr (toInt fd) w.sys).1.1.value ≠ -1) :
    ∃ p w' u, (Ptcgetattr S L [.integer fd]).run w = .ok [.table p] w' ∧
      BindingM.made w' (Ptcsetattr S [.integer fd, .integer act, .table p])
        = [.tcsetattr (toInt fd) (toInt act) u] ∧
      SameFlags u t ∧ u.c_cc = t.c_cc ∧
      S.cfgetispeed u = S.cfgetispeed t ∧ S.cfgetospeed u = S.cfgetospeed t := by
  obtain ⟨p, w', hrun, hshows⟩ := run_Ptcgetattr (L := L) hN fd hget hok
  obtain ⟨u, hread, hsame⟩ := totermios_of_shows (u := S.uninitialised w'.sys) hi ho hshows
  refine ⟨p, w', u, hrun, BindingM.made_eq ?_, hsame⟩
  have hargs : checkint S.num.strtod [.integer fd, .integer act, .table p] 1 = .ok (toInt fd) ∧
      checkint S.num.strtod [.integer fd, .integer act, .table p] 2 = .ok (toInt act) ∧
      checktable [.integer fd, .integer act, .table p] 3 = .ok p ∧
      checknargs [.integer fd, .integer act, .table p] 3 = .ok () := ⟨rfl, rfl, rfl, rfl⟩
  obtain ⟨hfd, hact, htable, hnargs⟩ := hargs
  rw [Ptcsetattr, hfd, hact, htable, hnargs]
  simp only [EStateM.run_bind, BindingM.run_lua_ok]
  show (BindingM.worldAfter ((liftM (totermios S w'.heap p (S.uninitialised w'.sys)) >>= fun t =>
    BindingM.syscall (.tcsetattr (toInt fd) (toInt act) t) SysResult.errno
      (S.tcsetattr (toInt fd) (toInt act) t) >>= fun x => pure (x.push S.strerror none) :
        BindingM σ (Call NCCS bits) (List LuaValue)).run w')).calls = _
  rw [hread]
  rfl

end Restored

/-! ## The speeds of glibc -/

section Glibc

variable {NCCS : Nat} {t : Termios NCCS 72}

/-- The bits of `c_cflag` where Linux keeps the speed, `CBAUDEX` among them. -/
def CBAUD : BitVec 32 := 0x100F

/-- The bit of `c_iflag` for an input speed of 0. -/
def IBAUD0 : BitVec 32 := 0x80000000

/-- The first speed with `CBAUDEX`. -/
def B57600 : BitVec 32 := 0x1001

/-- The last speed of all. -/
def MAX_BAUD : BitVec 32 := 0x100F

/-- A speed the C library sets. -/
def ValidSpeed (speed : BitVec 32) : Prop :=
  speed &&& ~~~CBAUD = 0#32 ∨ B57600 ≤ speed ∧ speed ≤ MAX_BAUD

/-- Whether a speed is one of these can be decided. -/
instance (speed : BitVec 32) : Decidable (ValidSpeed speed) := inferInstanceAs (Decidable (_ ∨ _))

/-- The other fields: `c_line`, `c_ispeed` and `c_ospeed`. -/
def otherFields (c_line : BitVec 8) (c_ispeed c_ospeed : BitVec 32) : BitVec 72 :=
  c_line ++ c_ispeed ++ c_ospeed

/-- The line discipline, behind the words and characters. -/
def Termios.c_line (t : Termios NCCS 72) : BitVec 8 := t.others.extractLsb' 64 8

/-- The input speed, where newer systems keep it. -/
def Termios.c_ispeed (t : Termios NCCS 72) : BitVec 32 := t.others.extractLsb' 32 32

/-- The output speed. -/
def Termios.c_ospeed (t : Termios NCCS 72) : BitVec 32 := t.others.extractLsb' 0 32

/-- `cfgetospeed(t)`: the bits in `c_cflag`. -/
def cfgetospeed (t : Termios NCCS 72) : BitVec 32 := t.c_cflag &&& CBAUD

/-- `cfgetispeed(t)`: 0 where `IBAUD0` says so. -/
def cfgetispeed (t : Termios NCCS 72) : BitVec 32 :=
  if t.c_iflag &&& IBAUD0 ≠ 0#32 then 0#32 else t.c_cflag &&& CBAUD

/-- `cfsetospeed(t, speed)`, which refuses what is no speed. -/
def cfsetospeed (t : Termios NCCS 72) (speed : BitVec 32) : Termios NCCS 72 :=
  if ValidSpeed speed then
    { t with
      c_cflag := (t.c_cflag &&& ~~~CBAUD) ||| speed
      others := otherFields t.c_line t.c_ispeed speed }
  else t

/-- `cfsetispeed(t, speed)`, which keeps a 0 as `IBAUD0`. -/
def cfsetispeed (t : Termios NCCS 72) (speed : BitVec 32) : Termios NCCS 72 :=
  if ValidSpeed speed then
    if speed = 0#32 then
      { t with
        c_iflag := t.c_iflag ||| IBAUD0
        others := otherFields t.c_line speed t.c_ospeed }
    else
      { t with
        c_iflag := t.c_iflag &&& ~~~IBAUD0
        c_cflag := (t.c_cflag &&& ~~~CBAUD) ||| speed
        others := otherFields t.c_line speed t.c_ospeed }
  else t

/-- Where the input speed is kept. -/
def inputBits : SpeedBits 72 := ⟨IBAUD0, 0, CBAUD, 0, 0⟩

/-- Where the output speed is kept. -/
def outputBits : SpeedBits 72 := ⟨0, 0, CBAUD, 0, 0⟩

/-- Bits taken from a word are the same once they are put back. -/
theorem or_and_self {w : Nat} (x m : BitVec w) : (x &&& ~~~m) ||| (x &&& m) = x := by
  ext i hi
  simp only [BitVec.getElem_and, BitVec.getElem_or, BitVec.getElem_not]
  cases m[i] <;> simp

/-- The bits of a speed may be any. -/
theorem validSpeed_and (x : BitVec 32) : ValidSpeed (x &&& CBAUD) := by
  refine .inl ?_
  rw [BitVec.and_assoc, BitVec.and_not_self]
  exact BitVec.and_zero

/-- A setter that keeps the words touches nothing that is read, and restores. -/
theorem keptIn_of_sameFlags {m : SpeedBits 72} {get : Termios NCCS 72 → BitVec 32}
    {set : Termios NCCS 72 → BitVec 32 → Termios NCCS 72} (hm : m.others = 0#72)
    (hget : ∀ u, SameOn m u t → get u = get t)
    (hset : ∀ u, SameFlags u t → SameFlags (set u (get t)) t) : KeptIn m 0#72 get set t where
  get_eq := hget
  others_read := by rw [hm, BitVec.zero_and]
  touches u hflags := by
    have h := hset u hflags
    have hsame : SameFlags (set u (get t)) u := ⟨h.c_iflag.trans hflags.c_iflag.symm,
      h.c_oflag.trans hflags.c_oflag.symm, h.c_cflag.trans hflags.c_cflag.symm,
      h.c_lflag.trans hflags.c_lflag.symm⟩
    refine hsame.sameOn ?_
    simp only [SpeedBits.rest, BitVec.zero_and, BitVec.and_zero]
  restores u hflags := (hset u hflags).sameOn (by rw [hm, BitVec.and_zero, BitVec.and_zero])

/-- The output speed is kept in `c_cflag`. -/
theorem keptIn_cfsetospeed : KeptIn outputBits 0#72 cfgetospeed cfsetospeed t := by
  refine keptIn_of_sameFlags rfl (fun u h => h.c_cflag) fun u hflags => ?_
  have hcflag : (u.c_cflag &&& ~~~CBAUD) ||| (t.c_cflag &&& CBAUD) = t.c_cflag := by
    rw [hflags.c_cflag, or_and_self]
  rw [cfsetospeed, cfgetospeed, if_pos (validSpeed_and _)]
  exact ⟨hflags.c_iflag, hflags.c_oflag, hcflag, hflags.c_lflag⟩

/-- The input speed is kept in `c_cflag`, or in the bit for 0. A speed of 0 without that bit is not
kept. -/
theorem keptIn_cfsetispeed (h : t.c_iflag &&& IBAUD0 = IBAUD0 ∨
    t.c_iflag &&& IBAUD0 = 0#32 ∧ t.c_cflag &&& CBAUD ≠ 0#32) :
    KeptIn inputBits 0#72 cfgetispeed cfsetispeed t := by
  refine keptIn_of_sameFlags rfl (fun u hu => ?_) fun u hflags => ?_
  · have hiflag : u.c_iflag &&& IBAUD0 = t.c_iflag &&& IBAUD0 := hu.c_iflag
    have hcflag : u.c_cflag &&& CBAUD = t.c_cflag &&& CBAUD := hu.c_cflag
    rw [cfgetispeed, cfgetispeed, hiflag, hcflag]
  · rcases h with hbit | ⟨hbit, hspeed⟩
    · have hget : cfgetispeed t = 0#32 := by
        rw [cfgetispeed, hbit, if_pos (by decide)]
      have hiflag : u.c_iflag ||| IBAUD0 = t.c_iflag := by
        have hall := or_and_self t.c_iflag IBAUD0
        rw [hbit] at hall
        rw [hflags.c_iflag, ← hall, BitVec.or_assoc, BitVec.or_self]
      rw [hget, cfsetispeed, if_pos (by decide), if_pos rfl]
      exact ⟨hiflag, hflags.c_oflag, hflags.c_cflag, hflags.c_lflag⟩
    · have hget : cfgetispeed t = t.c_cflag &&& CBAUD := by
        rw [cfgetispeed, hbit, if_neg (by decide)]
      have hiflag : u.c_iflag &&& ~~~IBAUD0 = t.c_iflag := by
        have hall := or_and_self t.c_iflag IBAUD0
        rw [hbit, BitVec.or_zero] at hall
        rw [hflags.c_iflag, hall]
      have hcflag : (u.c_cflag &&& ~~~CBAUD) ||| (t.c_cflag &&& CBAUD) = t.c_cflag := by
        rw [hflags.c_cflag, or_and_self]
      rw [hget, cfsetispeed, if_pos (validSpeed_and _), if_neg hspeed]
      exact ⟨hiflag, hflags.c_oflag, hcflag, hflags.c_lflag⟩

end Glibc

/-- A terminal at 9600 baud whose input speed is 0, with the interrupt character 3. -/
def console : Termios 32 72 where
  c_iflag := 0x80004500
  c_oflag := 5
  c_cflag := 0xBD
  c_lflag := 0x8A3B
  c_cc i := if i = 0 then 3 else 0
  others := otherFields 0 13 13

/-- A system with this terminal. -/
def System.console : System 32 72 Unit where
  num := .zero
  strerror _ := []
  tcgetattr _ s := ((.returned 0 0, Attributes.console), s)
  tcsetattr _ _ _ s := (.returned 0 0, s)
  cfgetispeed := Attributes.cfgetispeed
  cfgetospeed := Attributes.cfgetospeed
  cfsetispeed := Attributes.cfsetispeed
  cfsetospeed := Attributes.cfsetospeed
  uninitialised _ := ⟨0, 1, 2, 3, fun _ => 4, 5⟩

/-- A console with characters and speeds of its own. -/
theorem attributes_restored_console :
    ∃ p w' u, (Ptcgetattr System.console Heap.newestFirst [.integer 0]).run
        ⟨0, .empty, (), []⟩ = .ok [.table p] w' ∧
      BindingM.made w' (Ptcsetattr System.console [.integer 0, .integer 1, .table p])
        = [.tcsetattr (toInt 0) (toInt 1) u] ∧
      SameFlags u console ∧ u.c_cc = console.c_cc ∧
      System.console.cfgetispeed u = System.console.cfgetispeed console ∧
      System.console.cfgetospeed u = System.console.cfgetospeed console :=
  attributes_restored (by decide) (keptIn_cfsetispeed (.inl (by decide))) keptIn_cfsetospeed 0 1 rfl
    (by decide)

end LuaPosix.Attributes

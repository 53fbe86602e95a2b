import Mathlib.Data.BitVec

/-! # Bytes in memory

A memory gives a byte at each address. Numbers lie in it with their least significant byte first
and `swap` turns their bytes around. What is written is read back, what is written elsewhere
leaves a read alone, and two memories read alike exactly where their bytes agree. -/

namespace Bytes

/-- Eight bits. -/
abbrev Byte := BitVec 8

/-- The bytes at all addresses. -/
abbrev Memory := Nat → Byte

/-! ## Blocks -/

/-- The bytes from an address on. -/
def read (m : Memory) (off n : Nat) : List Byte := List.ofFn fun i : Fin n => m (off + i)

/-- Write bytes from an address on. -/
def write (m : Memory) (off : Nat) (bs : List Byte) : Memory :=
  fun a => if off ≤ a then bs[a - off]?.getD (m a) else m a

variable (m m' : Memory) {off off' n : Nat} {bs : List Byte}

/-- So many bytes are read as are asked for. -/
@[simp] theorem length_read : (read m off n).length = n := List.length_ofFn

/-- The bytes are those at the addresses from the offset on. -/
theorem getElem_read {i : Nat} (h : i < (read m off n).length) :
    (read m off n)[i] = m (off + i) := List.getElem_ofFn h

/-- Blocks are equal if and only if they are byte by byte. -/
theorem read_eq_read_iff :
    read m off n = read m' off' n ↔ ∀ i < n, m (off + i) = m' (off' + i) := by
  rw [read, read, List.ofFn_inj, funext_iff]
  exact ⟨fun h i hi => h ⟨i, hi⟩, fun h i => h i i.2⟩

/-- A block in two parts. -/
theorem read_append (k : Nat) : read m off (n + k) = read m off n ++ read m (off + n) k := by
  rw [read, read, read, List.ofFn_add]
  refine congrArg₂ _ rfl (congrArg _ (funext fun i => ?_))
  rw [Fin.val_natAdd, Nat.add_assoc]

/-- A byte that is written. -/
theorem write_of_lt {i : Nat} (h : i < bs.length) : write m off bs (off + i) = bs[i] := by
  rw [write, if_pos (Nat.le_add_right off i), Nat.add_sub_cancel_left, List.getElem?_eq_getElem h,
    Option.getD_some]

/-- A byte that is not. -/
theorem write_of_notMem {a : Nat} (h : a < off ∨ off + bs.length ≤ a) :
    write m off bs a = m a := by
  rw [write]
  split_ifs with hle
  · rw [List.getElem?_eq_none (by omega), Option.getD_none]
  · rfl

/-- **What is written is read back.** -/
@[simp] theorem read_write : read (write m off bs) off bs.length = bs := by
  refine List.ext_getElem (length_read _) fun i _ h => ?_
  rw [getElem_read, write_of_lt m h]

/-- **A write elsewhere leaves a block alone.** -/
theorem read_write_of_disjoint (h : off' + n ≤ off ∨ off + bs.length ≤ off') :
    read (write m off bs) off' n = read m off' n :=
  (read_eq_read_iff _ _).mpr fun i hi => write_of_notMem m (by omega)

/-- Bytes are written in two parts. -/
theorem write_append (bs bs' : List Byte) :
    write m off (bs ++ bs') = write (write m off bs) (off + bs.length) bs' := by
  funext a
  rcases Nat.lt_or_ge a (off + bs.length) with ha | ha
  · rw [write_of_notMem _ (.inl ha), write, write]
    split_ifs with hle
    · rw [List.getElem?_append_left (by omega)]
    · rfl
  · have hle : off ≤ a := by omega
    rw [write, if_pos hle, write, if_pos ha, write_of_notMem m (.inr ha),
      List.getElem?_append_right (by omega), Nat.sub_sub]

/-! ## Numbers -/

/-- The number with the given bits. -/
def ofBits {w : Nat} (f : Nat → Bool) : BitVec w :=
  (BitVec.ofBoolListLE ((List.range w).map f)).setWidth w

/-- A bit of a number that is given bit by bit. -/
theorem getElem_ofBits {w : Nat} (f : Nat → Bool) {i : Nat} (h : i < w) :
    (ofBits f : BitVec w)[i] = f i := by
  rw [ofBits, BitVec.getElem_setWidth, BitVec.getLsbD_ofBoolListLE, List.getD_eq_getElem?_getD,
    List.getElem?_map, List.getElem?_range h, Option.map_some, Option.getD_some]

/-- The number at an address. -/
def load (w : Nat) (m : Memory) (off : Nat) : BitVec w :=
  ofBits fun i => (m (off + i / 8)).getLsbD (i % 8)

/-- The bytes of a number. -/
def ofNumber {w : Nat} (v : BitVec w) : List Byte :=
  List.ofFn fun k : Fin (w / 8) => v.extractLsb' (8 * k) 8

/-- Write a number at an address. -/
def store {w : Nat} (m : Memory) (off : Nat) (v : BitVec w) : Memory := write m off (ofNumber v)

variable {w w' : Nat} (v : BitVec w)

/-- A number of so many bits has so many bytes. -/
@[simp] theorem length_ofNumber : (ofNumber v).length = w / 8 := List.length_ofFn

/-- A bit of a number in memory, the low byte first. -/
theorem getElem_load {i : Nat} (h : i < w) :
    (load w m off)[i] = (m (off + i / 8)).getLsbD (i % 8) := getElem_ofBits _ h

/-- **Numbers are equal if and only if their bytes are.** -/
theorem load_eq_load_iff (hw : 8 ∣ w) :
    load w m off = load w m' off' ↔ read m off (w / 8) = read m' off' (w / 8) := by
  rw [read_eq_read_iff]
  constructor
  · intro h k hk
    -- Bit `i` of byte `k` is bit `8 * k + i` of the number.
    refine BitVec.eq_of_getLsbD_eq fun i hi => ?_
    have hbit : 8 * k + i < w := by omega
    have hload := congrArg (fun v => v[8 * k + i]) h
    have hdiv : (8 * k + i) / 8 = k := by omega
    have hmod : (8 * k + i) % 8 = i := by omega
    simpa only [getElem_load, hdiv, hmod] using hload
  · intro h
    refine BitVec.eq_of_getElem_eq fun i hi => ?_
    rw [getElem_load, getElem_load, h (i / 8) (by omega)]

/-- **A number that is written is read back.** -/
@[simp] theorem load_store (hw : 8 ∣ w) : load w (store m off v) off = v := by
  refine BitVec.eq_of_getElem_eq fun i hi => ?_
  have hk : i / 8 < (ofNumber v).length := by
    rw [length_ofNumber]
    omega
  have hbyte : (ofNumber v)[i / 8] = v.extractLsb' (8 * (i / 8)) 8 := List.getElem_ofFn hk
  have hlt : i % 8 < 8 := Nat.mod_lt i (by decide)
  rw [getElem_load, store, write_of_lt m hk, hbyte, BitVec.getLsbD_extractLsb',
    Nat.div_add_mod, decide_eq_true hlt, Bool.true_and, BitVec.getLsbD_eq_getElem hi]

/-- **A number written elsewhere leaves a number alone.** -/
theorem load_store_of_disjoint (hw : 8 ∣ w')
    (h : off' + w' / 8 ≤ off ∨ off + w / 8 ≤ off') :
    load w' (store m off v) off' = load w' m off' := by
  refine (load_eq_load_iff _ _ hw).mpr (read_write_of_disjoint m ?_)
  rwa [length_ofNumber]

/-- Bytes elsewhere are not touched. -/
theorem read_store_of_disjoint (h : off' + n ≤ off ∨ off + w / 8 ≤ off') :
    read (store m off v) off' n = read m off' n := by
  refine read_write_of_disjoint m ?_
  rwa [length_ofNumber]

/-! ## Agreement -/

/-- Two memories agree from an address up to another. -/
def Agree (m m' : Memory) (a b : Nat) : Prop := ∀ i, a ≤ i → i < b → m i = m' i

section Agreement

variable {m m' : Memory} {a b c : Nat}

/-- Two memories read alike in a range if and only if they agree there. -/
theorem read_eq_read_iff_agree : read m off n = read m' off n ↔ Agree m m' off (off + n) := by
  rw [read_eq_read_iff]
  constructor
  · intro h i hle hlt
    have hi := h (i - off) (by omega)
    rwa [Nat.add_sub_cancel' hle] at hi
  · intro h i hi
    exact h (off + i) (by omega) (by omega)

/-- They hold the same number there if and only if they agree in its bytes. -/
theorem load_eq_load_iff_agree (hw : 8 ∣ w) :
    load w m off = load w m' off ↔ Agree m m' off (off + w / 8) := by
  rw [load_eq_load_iff _ _ hw, read_eq_read_iff_agree]

/-- Agreement on two stretches is agreement on both together. -/
theorem agree_append (hab : a ≤ b) (hbc : b ≤ c) :
    Agree m m' a b ∧ Agree m m' b c ↔ Agree m m' a c := by
  constructor
  · rintro ⟨h₁, h₂⟩ i hle hlt
    rcases Nat.lt_or_ge i b with hi | hi
    · exact h₁ i hle hi
    · exact h₂ i hi hlt
  · intro h
    exact ⟨fun i hle hlt => h i hle (by omega), fun i hle hlt => h i (by omega) hlt⟩

end Agreement

/-! ## Byte order -/

/-- The bytes of a number turned around. -/
def swap (v : BitVec w) : BitVec w :=
  ofBits fun i => v.getLsbD (8 * (w / 8 - 1 - i / 8) + i % 8)

/-- A bit of a number with its bytes in the other order. -/
theorem getElem_swap {i : Nat} (h : i < w) :
    (swap v)[i] = v.getLsbD (8 * (w / 8 - 1 - i / 8) + i % 8) := getElem_ofBits _ h

/-- Swapped twice, a number is what it was. -/
@[simp] theorem swap_swap (hw : 8 ∣ w) : swap (swap v) = v := by
  refine BitVec.eq_of_getElem_eq fun i hi => ?_
  have hj : 8 * (w / 8 - 1 - i / 8) + i % 8 < w := by omega
  -- Byte `k` goes to byte `w / 8 - 1 - k`, and that one back.
  have hback : 8 * (w / 8 - 1 - (8 * (w / 8 - 1 - i / 8) + i % 8) / 8)
      + (8 * (w / 8 - 1 - i / 8) + i % 8) % 8 = i := by omega
  rw [getElem_swap, BitVec.getLsbD_eq_getElem hj, getElem_swap, hback,
    BitVec.getLsbD_eq_getElem hi]

/-- Turning around is one to one. -/
theorem swap_inj (hw : 8 ∣ w) {u v : BitVec w} : swap u = swap v ↔ u = v := by
  refine ⟨fun h => ?_, congrArg swap⟩
  rw [← swap_swap u hw, h, swap_swap v hw]

example : swap 0x1234#16 = 0x3412#16 := by decide

end Bytes

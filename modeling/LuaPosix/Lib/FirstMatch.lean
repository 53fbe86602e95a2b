import Mathlib.Data.List.Basic

/-! # Lists looked up by a test

A list in which a test finds the first element that passes. Putting an element in the place of the
one found, or at the end, and removing all that pass are what an association list offers; tests
that no element passes together do not see each other's elements. -/

namespace FirstMatch

variable {α : Type*} {p q : α → Bool} {x : α} {l : List α}

/-- Put an element in the place of the first one that passes, or at the end. -/
def put (p : α → Bool) (x : α) : List α → List α
  | [] => [x]
  | a :: l => if p a then x :: l else a :: put p x l

/-- Remove the elements that pass. -/
def erase (p : α → Bool) (l : List α) : List α := l.filter fun a => !p a

/-- The tests have no element in common. -/
def Apart (p q : α → Bool) : Prop := ∀ a, p a = true → q a = false

/-- The first match is replaced. -/
theorem put_cons_of_pos {a : α} (h : p a = true) : put p x (a :: l) = x :: l := if_pos h

/-- What is no match stays. -/
theorem put_cons_of_neg {a : α} (h : p a ≠ true) : put p x (a :: l) = a :: put p x l := if_neg h

/-! ## What is found first -/

/-- Tests that agree on the elements find the same. -/
theorem find_congr (h : ∀ a ∈ l, p a = q a) : l.find? p = l.find? q := by
  induction l with
  | nil => rfl
  | cons a l ih =>
      rw [List.find?_cons, List.find?_cons, h a List.mem_cons_self,
        ih fun b hb => h b (List.mem_cons_of_mem a hb)]

/-- What is put is found. -/
theorem find_put (hx : p x = true) : (put p x l).find? p = some x := by
  induction l with
  | nil => exact List.find?_cons_of_pos hx
  | cons a l ih =>
      by_cases ha : p a = true
      · rw [put_cons_of_pos ha, List.find?_cons_of_pos hx]
      · rw [put_cons_of_neg ha, List.find?_cons_of_neg ha, ih]

/-- Tests apart from it find what they found. -/
theorem find_put_of_apart (hpq : Apart p q) (hx : q x = false) :
    (put p x l).find? q = l.find? q := by
  induction l with
  | nil => exact List.find?_cons_of_neg (by simp [hx])
  | cons a l ih =>
      by_cases ha : p a = true
      · rw [put_cons_of_pos ha, List.find?_cons_of_neg (by simp [hx]),
          List.find?_cons_of_neg (by simp [hpq a ha])]
      · rw [put_cons_of_neg ha, List.find?_cons, List.find?_cons, ih]

/-- Nothing that passes is left. -/
theorem find_erase : (erase p l).find? p = none := by
  rw [List.find?_eq_none]
  intro a ha
  have hkept := (List.mem_filter.mp ha).2
  simpa using hkept

/-- Erasing the matches of one predicate leaves the first match of another. -/
theorem find_erase_of_apart (hpq : Apart p q) : (erase p l).find? q = l.find? q := by
  rw [erase, List.find?_filter]
  congr 1
  funext a
  cases ha : p a with
  | false => simp
  | true => simp [hpq a ha]

/-! ## What is found last -/

/-- The last match of a list: the first of its reverse. -/
theorem find_reverse_cons {a : α} :
    (a :: l).reverse.find? q = (l.reverse.find? q).or (if q a then some a else none) := by
  rw [List.reverse_cons, List.find?_append, List.find?_singleton]

/-- Where an element that passes is left behind the one put, the last is not the one put. -/
theorem find_reverse_put_ne (hpq : ∀ a, p a = true → q a = true) (hcount : 2 ≤ l.countP p)
    (hx : x ∉ l) : (put p x l).reverse.find? q ≠ some x := by
  induction l with
  | nil => exact absurd hcount (by simp)
  | cons a l ih =>
      obtain ⟨hxa, hxl⟩ := not_or.mp (mt List.mem_cons.mpr hx)
      by_cases ha : p a = true
      · rw [List.countP_cons_of_pos ha] at hcount
        obtain ⟨b, hb, hpb⟩ := List.countP_pos_iff.mp (show 0 < l.countP p by omega)
        have hfound : (l.reverse.find? q).isSome = true :=
          List.find?_isSome.mpr ⟨b, List.mem_reverse.mpr hb, hpq b hpb⟩
        obtain ⟨c, hc⟩ := Option.isSome_iff_exists.mp hfound
        rw [put_cons_of_pos ha, find_reverse_cons, hc, Option.some_or]
        intro heq
        obtain rfl := Option.some.inj heq
        exact hxl (List.mem_reverse.mp (List.mem_of_find?_eq_some hc))
      · rw [List.countP_cons_of_neg ha] at hcount
        rw [put_cons_of_neg ha, find_reverse_cons]
        cases hlast : (put p x l).reverse.find? q with
        | some c =>
            rw [Option.some_or, ← hlast]
            exact ih hcount hxl
        | none =>
            rw [Option.none_or]
            split_ifs
            · exact fun heq => hxa (Option.some.inj heq).symm
            · exact fun heq => nomatch heq

/-- A test that at most one element passes finds it from both ends. -/
theorem find_reverse_of_countP (h : l.countP p ≤ 1) : l.reverse.find? p = l.find? p := by
  induction l with
  | nil => rfl
  | cons a l ih =>
      rw [find_reverse_cons]
      by_cases ha : p a = true
      · rw [List.countP_cons_of_pos ha] at h
        have hnone : l.reverse.find? p = none := by
          rw [List.find?_eq_none]
          intro b hb
          exact List.countP_eq_zero.mp (show l.countP p = 0 by omega) b (List.mem_reverse.mp hb)
        rw [hnone, if_pos ha, List.find?_cons_of_pos ha, Option.none_or]
      · rw [List.countP_cons_of_neg ha] at h
        rw [ih h, if_neg ha, Option.or_none, List.find?_cons_of_neg ha]

/-! ## How many pass -/

/-- Where there was a match there are as many afterwards, else one. -/
theorem countP_put (hx : p x = true) : (put p x l).countP p = max 1 (l.countP p) := by
  induction l with
  | nil => simp [put, hx]
  | cons a l ih =>
      by_cases ha : p a = true
      · rw [put_cons_of_pos ha, List.countP_cons_of_pos hx, List.countP_cons_of_pos ha]
        omega
      · rw [put_cons_of_neg ha, List.countP_cons_of_neg ha, List.countP_cons_of_neg ha, ih]

/-- The matches of another predicate are as many as before. -/
theorem countP_put_of_apart (hpq : Apart p q) (hx : q x = false) :
    (put p x l).countP q = l.countP q := by
  induction l with
  | nil => simp [put, hx]
  | cons a l ih =>
      by_cases ha : p a = true
      · rw [put_cons_of_pos ha, List.countP_cons_of_neg (by simp [hx]),
          List.countP_cons_of_neg (by simp [hpq a ha])]
      · rw [put_cons_of_neg ha, List.countP_cons, List.countP_cons, ih]

/-- Erasing makes no matches. -/
theorem countP_erase_le : (erase p l).countP q ≤ l.countP q :=
  List.Sublist.countP_le List.filter_sublist

/-- What is in the list afterwards is new or was there before. -/
theorem mem_put {a : α} (h : a ∈ put p x l) : a = x ∨ a ∈ l := by
  induction l with
  | nil => exact .inl (List.mem_singleton.mp h)
  | cons b l ih =>
      by_cases hb : p b = true
      · rw [put_cons_of_pos hb] at h
        exact (List.mem_cons.mp h).imp_right (List.mem_cons_of_mem b)
      · rw [put_cons_of_neg hb] at h
        rcases List.mem_cons.mp h with rfl | h
        · exact .inr List.mem_cons_self
        · exact (ih h).imp_right (List.mem_cons_of_mem b)

end FirstMatch

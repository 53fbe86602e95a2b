import Mathlib.Data.List.AList

/-! # Traversing a table by its keys

Tables keep their entries in the order an iterator visits them. The iterator is only told the
key it visited last and finds its place in the table as it is then, so the body of a loop around
it may change the table. Assigning to a key the table has keeps the order; a new key may bring
about any other. Where the body leaves the entries alone the loop is the fold over them. -/

namespace Traversal

universe u v w x

variable {κ : Type u} [DecidableEq κ] {ν : κ → Type v} {σ : Type w} {ε : Type x}

/-! ## Assignment -/

/-- How a table is laid out anew when a key is added. -/
structure Layout (ν : κ → Type v) where
  rehash : AList ν → AList ν
  perm : ∀ t, (rehash t).entries.Perm t.entries

/-- Assign to a key. -/
def Layout.assign (L : Layout ν) (t : AList ν) (k : κ) (v : ν k) : AList ν :=
  if k ∈ t then t.replace k v else L.rehash (t.insert k v)

/-- Replacing a key at the front of a list or behind it. -/
theorem kreplace_cons (k : κ) (v : ν k) (e : Sigma ν) (l : List (Sigma ν)) :
    (e :: l).kreplace k v = if k = e.1 then ⟨k, v⟩ :: l else e :: l.kreplace k v := by
  split_ifs with h
  · exact List.lookmap_cons_some _ _ (if_pos h)
  · exact List.lookmap_cons_none _ _ (if_neg h)

/-- The key that is replaced has its new value. -/
theorem dlookup_kreplace {k : κ} (v : ν k) {l : List (Sigma ν)} (h : k ∈ l.keys) :
    (l.kreplace k v).dlookup k = some v := by
  induction l with
  | nil => exact absurd h List.not_mem_nil
  | cons e l ih =>
      rw [kreplace_cons]
      split_ifs with hk
      · exact List.dlookup_cons_eq _ _ _
      · rw [List.keys_cons, List.mem_cons] at h
        rw [List.dlookup_cons_ne _ _ hk]
        exact ih (h.resolve_left hk)

/-- Any other has its old one. -/
theorem dlookup_kreplace_ne {k k' : κ} (v : ν k) (h : k' ≠ k) (l : List (Sigma ν)) :
    (l.kreplace k v).dlookup k' = l.dlookup k' := by
  induction l with
  | nil => rfl
  | cons e l ih =>
      rw [kreplace_cons]
      split_ifs with hk
      · rw [List.dlookup_cons_ne _ _ h, List.dlookup_cons_ne _ _ (hk ▸ h)]
      · by_cases hk' : k' = e.1
        · subst hk'
          rw [List.dlookup_cons_eq, List.dlookup_cons_eq]
        · rw [List.dlookup_cons_ne _ _ hk', List.dlookup_cons_ne _ _ hk', ih]

variable (L : Layout ν) (t : AList ν) {k k' : κ} (v : ν k)

/-- A key has the value that was assigned to it. -/
@[simp] theorem lookup_assign : (L.assign t k v).lookup k = some v := by
  rw [Layout.assign]
  split_ifs with h
  · exact dlookup_kreplace v h
  · rw [AList.perm_lookup (L.perm _), AList.lookup_insert]

/-- Any other has its old one. -/
theorem lookup_assign_ne (h : k' ≠ k) : (L.assign t k v).lookup k' = t.lookup k' := by
  rw [Layout.assign]
  split_ifs
  · exact dlookup_kreplace_ne v h t.entries
  · rw [AList.perm_lookup (L.perm _), AList.lookup_insert_ne h]

/-- Assigning adds the key. -/
theorem mem_assign : k' ∈ L.assign t k v ↔ k' = k ∨ k' ∈ t := by
  rw [← AList.lookup_isSome, ← AList.lookup_isSome]
  by_cases h : k' = k
  · subst h
    rw [lookup_assign]
    exact iff_of_true rfl (Or.inl rfl)
  · rw [lookup_assign_ne L t v h, or_iff_right h]

/-! ## Iteration -/

/-- The entry after the key visited last, if there is one; none for a key the table does not
have. -/
def next (l : List (Sigma ν)) : Option κ → Option (Option (Sigma ν))
  | none => some l.head?
  | some k =>
      match l.dropWhile (fun e => e.1 ≠ k) with
      | [] => none
      | _ :: rest => some rest.head?

/-- `while next`, for so many calls of the iterator. -/
def loop (entries : σ → List (Sigma ν)) (body : σ → Sigma ν → Except ε σ) (invalid unfinished : ε) :
    Nat → Option κ → σ → Except ε σ
  | 0, _, _ => .error unfinished
  | n + 1, k, s =>
      match next (entries s) k with
      | none => .error invalid
      | some none => .ok s
      | some (some e) => body s e >>= loop entries body invalid unfinished n (some e.1)

/-- The entry after the key of the entries visited so far. -/
theorem next_append {l l' : List (Sigma ν)} (h : (l ++ l').keys.Nodup) :
    next (l ++ l') (l.getLast?.map Sigma.fst) = some l'.head? := by
  rcases List.eq_nil_or_concat l with rfl | ⟨l, e, rfl⟩
  · rfl
  · rw [List.concat_eq_append, List.getLast?_append, List.append_assoc, List.singleton_append]
    have hdrop : (l ++ e :: l').dropWhile (fun e' => e'.1 ≠ e.1) = e :: l' := by
      rw [List.concat_eq_append, List.append_assoc, List.singleton_append, List.keys,
        List.map_append, List.map_cons, List.nodup_middle, List.nodup_cons] at h
      have hne : ∀ e' ∈ l, decide (e'.1 ≠ e.1) = true := by
        intro e' he'
        refine decide_eq_true fun heq => h.1 (List.mem_append_left _ ?_)
        exact heq ▸ List.mem_map_of_mem he'
      rw [List.dropWhile_append_of_pos hne, List.dropWhile_cons_of_neg (by simp)]
    show next (l ++ e :: l') (some e.1) = _
    rw [next, hdrop]

variable {entries : σ → List (Sigma ν)} {body : σ → Sigma ν → Except ε σ} {invalid unfinished : ε}

/-- The loop from where `l` has been visited. -/
theorem loop_append {s₀ : σ} {l l' : List (Sigma ν)} (hnodup : (l ++ l').keys.Nodup)
    (hkeep : ∀ l₁ l₂ s, l₁ ++ l₂ = l ++ l' → l₁.foldlM body s₀ = .ok s → entries s = l ++ l')
    {n : Nat} (hn : l'.length < n) {s : σ} (hs : l.foldlM body s₀ = .ok s) :
    loop entries body invalid unfinished n (l.getLast?.map Sigma.fst) s = l'.foldlM body s := by
  obtain ⟨n, rfl⟩ : ∃ m, n = m + 1 := ⟨n - 1, by omega⟩
  induction l' generalizing l s n with
  | nil =>
      rw [loop, hkeep l [] s rfl hs, next_append hnodup]
      rfl
  | cons e l' ih =>
      rw [loop, hkeep l (e :: l') s rfl hs, next_append hnodup]
      simp only [List.head?_cons, List.foldlM_cons]
      cases hbody : body s e with
      | error err => rfl
      | ok s' =>
          have happend : l ++ e :: l' = (l ++ [e]) ++ l' := by simp
          obtain ⟨m, rfl⟩ : ∃ m, n = m + 1 := by
            rw [List.length_cons] at hn
            exact ⟨n - 1, by omega⟩
          have hs' : (l ++ [e]).foldlM body s₀ = .ok s' := by
            rw [List.foldlM_append, hs]
            show List.foldlM body s [e] = _
            rw [List.foldlM_cons, hbody]
            rfl
          have hrest := ih (happend ▸ hnodup) (happend ▸ hkeep) hs' m (by simpa using hn)
          rw [List.getLast?_append] at hrest
          exact hrest

/-- **The loop rule**: as long as the fold over the entries leaves the entries alone, the loop is
that fold, given a call of the iterator for each entry and one more. -/
theorem loop_eq_foldlM (t : AList ν) {s : σ}
    (hkeep : ∀ l₁ l₂ s', l₁ ++ l₂ = t.entries → l₁.foldlM body s = .ok s' →
      entries s' = t.entries)
    {n : Nat} (hn : t.entries.length < n) :
    loop entries body invalid unfinished n none s = t.entries.foldlM body s := by
  have hstart : ([] : List (Sigma ν)).foldlM body s = .ok s := rfl
  have hnodup : ([] ++ t.entries).keys.Nodup := t.keys_nodup
  exact loop_append hnodup hkeep hn hstart

end Traversal

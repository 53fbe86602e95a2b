import LuaPosix.Lib.LuaPattern

/-! # What Lua patterns match

`Derives` says which ways of reading a subject the items allow, with no order among them.
The backtracking matcher only finds such readings and finds one whenever there is one. Where
every repetition stops at a character outside its class, the matcher's greedy first try is
the reading it returns; `gsub`'s loop is given by one equation for a match and one for a
skipped character, independent of the fuel.
-/

namespace LuaPattern

variable {α σ : Type}

/-! ## Classes -/

/-- `.` matches every character. -/
@[simp] theorem mem_any (c : Char) : CharClass.any.mem c = true := rfl

/-- A character matches itself. -/
@[simp] theorem mem_lit (c d : Char) : (CharClass.lit d).mem c = (d == c) := rfl

/-- `%a`. -/
@[simp] theorem mem_alpha (c : Char) : (CharClass.esc 'a').mem c = c.isAlpha := rfl

/-- `%s`. -/
@[simp] theorem mem_space (c : Char) : (CharClass.esc 's').mem c = isspace c := rfl

/-- A set matches what one of its items does. -/
@[simp] theorem mem_set (c : Char) (items : List SetItem) :
    (CharClass.set false items).mem c = items.any (SetItem.mem c) := by
  simp [CharClass.mem]

/-! ## Readings of a subject -/

/-- `items` can read `s` from the captures `caps`, leaving `rest` and the captures `caps'`. -/
def Derives : List Item → LStr → List Cap → LStr → List Cap → Prop
  | [], s, caps, rest, caps' => s = rest ∧ caps = caps'
  | .single cc :: items, s, caps, rest, caps' =>
      ∃ c t, s = c :: t ∧ cc.mem c ∧ Derives items t caps rest caps'
  | .star cc :: items, s, caps, rest, caps' =>
      ∃ w t, s = w ++ t ∧ (∀ c ∈ w, cc.mem c) ∧ Derives items t caps rest caps'
  | .plus cc :: items, s, caps, rest, caps' =>
      ∃ w t, s = w ++ t ∧ w ≠ [] ∧ (∀ c ∈ w, cc.mem c) ∧ Derives items t caps rest caps'
  | .minus cc :: items, s, caps, rest, caps' =>
      ∃ w t, s = w ++ t ∧ (∀ c ∈ w, cc.mem c) ∧ Derives items t caps rest caps'
  | .opt cc :: items, s, caps, rest, caps' =>
      ∃ w t, s = w ++ t ∧ w.length ≤ 1 ∧ (∀ c ∈ w, cc.mem c) ∧ Derives items t caps rest caps'
  | .openCap :: items, s, caps, rest, caps' => Derives items s (.opened s :: caps) rest caps'
  | .closeCap :: items, s, caps, rest, caps' => Derives items s (closeCapture s caps) rest caps'
  | .eos :: items, s, caps, rest, caps' => s = [] ∧ Derives items s caps rest caps'

/-- What a reading leaves is a suffix of the subject. -/
theorem Derives.suffix {items : List Item} {s rest : LStr} {caps caps' : List Cap}
    (h : Derives items s caps rest caps') : rest <:+ s := by
  induction items generalizing s caps with
  | nil =>
      obtain ⟨rfl, -⟩ := h
      exact List.suffix_refl _
  | cons item items ih =>
      cases item with
      | single cc =>
          obtain ⟨c, t, rfl, -, h⟩ := h
          exact (ih h).trans (List.suffix_cons c t)
      | star cc =>
          obtain ⟨w, t, rfl, -, h⟩ := h
          exact (ih h).trans (List.suffix_append w t)
      | plus cc =>
          obtain ⟨w, t, rfl, -, -, h⟩ := h
          exact (ih h).trans (List.suffix_append w t)
      | minus cc =>
          obtain ⟨w, t, rfl, -, h⟩ := h
          exact (ih h).trans (List.suffix_append w t)
      | opt cc =>
          obtain ⟨w, t, rfl, -, -, h⟩ := h
          exact (ih h).trans (List.suffix_append w t)
      | openCap => exact ih (s := s) h
      | closeCap => exact ih (s := s) h
      | eos => exact ih h.2

/-! ## Expansion -/

/-- A greedy expansion that succeeds split the subject and ran the continuation there. -/
theorem maxExpand_eq_some {cc : CharClass} {k : LStr → Option α} {s : LStr} {a : α}
    (h : maxExpand cc k s = some a) :
    ∃ w t, s = w ++ t ∧ (∀ c ∈ w, cc.mem c) ∧ k t = some a := by
  -- By induction on the subject: the first character is taken, or given back.
  induction s with
  | nil => exact ⟨[], [], rfl, by simp, h⟩
  | cons c s ih =>
      rw [maxExpand] at h
      split at h
      case isTrue hc =>
        rw [Option.or_eq_some_iff] at h
        rcases h with h | ⟨-, h⟩
        · obtain ⟨w, t, rfl, hw, hk⟩ := ih h
          exact ⟨c :: w, t, rfl, by simpa [hc] using hw, hk⟩
        · exact ⟨[], c :: s, rfl, by simp, h⟩
      case isFalse => exact ⟨[], c :: s, rfl, by simp, h⟩

/-- A greedy expansion succeeds when some split it may try does. -/
theorem maxExpand_isSome {cc : CharClass} {k : LStr → Option α} {w t : LStr}
    (hw : ∀ c ∈ w, cc.mem c) (hk : (k t).isSome) : (maxExpand cc k (w ++ t)).isSome := by
  induction w with
  | nil =>
      cases t with
      | nil => exact hk
      | cons c t =>
          rw [List.nil_append, maxExpand]
          split
          · rw [Option.isSome_or, hk, Bool.or_true]
          · exact hk
  | cons c w ih =>
      rw [List.cons_append, maxExpand, if_pos (hw c (by simp)), Option.isSome_or,
        ih fun d hd => hw d (by simp [hd]), Bool.true_or]

/-- A lazy expansion that succeeds split the subject and ran the continuation there. -/
theorem minExpand_eq_some {cc : CharClass} {k : LStr → Option α} {s : LStr} {a : α}
    (h : minExpand cc k s = some a) :
    ∃ w t, s = w ++ t ∧ (∀ c ∈ w, cc.mem c) ∧ k t = some a := by
  induction s with
  | nil => exact ⟨[], [], rfl, by simp, h⟩
  | cons c s ih =>
      rw [minExpand, Option.or_eq_some_iff] at h
      rcases h with h | ⟨-, h⟩
      · exact ⟨[], c :: s, rfl, by simp, h⟩
      · split at h
        case isTrue hc =>
          obtain ⟨w, t, rfl, hw, hk⟩ := ih h
          exact ⟨c :: w, t, rfl, by simpa [hc] using hw, hk⟩
        case isFalse => cases h

/-- A lazy expansion succeeds when some split it may try does. -/
theorem minExpand_isSome {cc : CharClass} {k : LStr → Option α} {w t : LStr}
    (hw : ∀ c ∈ w, cc.mem c) (hk : (k t).isSome) : (minExpand cc k (w ++ t)).isSome := by
  induction w with
  | nil =>
      cases t with
      | nil => exact hk
      | cons c t => rw [List.nil_append, minExpand, Option.isSome_or, hk, Bool.true_or]
  | cons c w ih =>
      rw [List.cons_append, minExpand, if_pos (hw c (by simp)), Option.isSome_or,
        ih fun d hd => hw d (by simp [hd]), Bool.or_true]

/-! ## Soundness and completeness -/

/-- **The matcher is sound**: it only returns readings of the subject. -/
theorem derives_of_matchItems {items : List Item} {s rest : LStr} {caps caps' : List Cap}
    (h : matchItems items s caps = some (rest, caps')) : Derives items s caps rest caps' := by
  induction items generalizing s caps with
  | nil => simpa [matchItems, Derives] using h
  | cons item items ih =>
      cases item with
      | single cc =>
          cases s with
          | nil => simp [matchItems] at h
          | cons c s =>
              rw [matchItems] at h
              split at h
              case isTrue hc => exact ⟨c, s, rfl, hc, ih h⟩
              case isFalse => cases h
      | star cc =>
          obtain ⟨w, t, rfl, hw, h⟩ := maxExpand_eq_some h
          exact ⟨w, t, rfl, hw, ih h⟩
      | plus cc =>
          cases s with
          | nil => simp [matchItems] at h
          | cons c s =>
              rw [matchItems] at h
              split at h
              case isTrue hc =>
                obtain ⟨w, t, rfl, hw, h⟩ := maxExpand_eq_some h
                exact ⟨c :: w, t, rfl, by simp, by simpa [hc] using hw, ih h⟩
              case isFalse => cases h
      | minus cc =>
          obtain ⟨w, t, rfl, hw, h⟩ := minExpand_eq_some h
          exact ⟨w, t, rfl, hw, ih h⟩
      | opt cc =>
          cases s with
          | nil => exact ⟨[], [], rfl, by simp, by simp, ih h⟩
          | cons c s =>
              rw [matchItems] at h
              split at h
              case isTrue hc =>
                rw [Option.or_eq_some_iff] at h
                rcases h with h | ⟨-, h⟩
                · exact ⟨[c], s, rfl, by simp, by simpa using hc, ih h⟩
                · exact ⟨[], c :: s, rfl, by simp, by simp, ih h⟩
              case isFalse => exact ⟨[], c :: s, rfl, by simp, by simp, ih h⟩
      | openCap => exact ih h
      | closeCap => exact ih h
      | eos =>
          rw [matchItems] at h
          split at h
          case isTrue hs => exact ⟨hs, ih h⟩
          case isFalse => cases h

/-- **The matcher is complete**: it succeeds when the subject has a reading. -/
theorem matchItems_isSome {items : List Item} {s rest : LStr} {caps caps' : List Cap}
    (h : Derives items s caps rest caps') : (matchItems items s caps).isSome := by
  induction items generalizing s caps with
  | nil => rfl
  | cons item items ih =>
      cases item with
      | single cc =>
          obtain ⟨c, t, rfl, hc, h⟩ := h
          rw [matchItems, if_pos hc]
          exact ih h
      | star cc =>
          obtain ⟨w, t, rfl, hw, h⟩ := h
          exact maxExpand_isSome hw (ih h)
      | plus cc =>
          obtain ⟨w, t, rfl, hne, hw, h⟩ := h
          cases w with
          | nil => exact absurd rfl hne
          | cons c w =>
              rw [List.cons_append, matchItems, if_pos (hw c (by simp))]
              exact maxExpand_isSome (fun d hd => hw d (by simp [hd])) (ih h)
      | minus cc =>
          obtain ⟨w, t, rfl, hw, h⟩ := h
          exact minExpand_isSome hw (ih h)
      | opt cc =>
          obtain ⟨w, t, rfl, hlen, hw, h⟩ := h
          -- The optional character is read or left out.
          match w, hlen with
          | [], _ =>
              cases t with
              | nil => exact ih h
              | cons c t =>
                  rw [List.nil_append, matchItems]
                  split
                  · rw [Option.isSome_or, ih h, Bool.or_true]
                  · exact ih h
          | [c], _ =>
              rw [List.singleton_append, matchItems, if_pos (hw c (by simp)), Option.isSome_or,
                ih h, Bool.true_or]
      | openCap => exact ih h
      | closeCap => exact ih h
      | eos =>
          rw [matchItems, if_pos h.1]
          exact ih h.2

/-- The matcher fails exactly when the subject has no reading. -/
theorem matchItems_eq_none_iff {items : List Item} {s : LStr} {caps : List Cap} :
    matchItems items s caps = none ↔ ∀ rest caps', ¬ Derives items s caps rest caps' := by
  constructor
  · intro h rest caps' hd
    have hsome := matchItems_isSome hd
    rw [h] at hsome
    cases hsome
  · intro h
    cases hm : matchItems items s caps with
    | none => rfl
    | some r => exact absurd (derives_of_matchItems hm) (h r.1 r.2)

/-- The matcher succeeds exactly when the subject has a reading. -/
theorem matchItems_isSome_iff {items : List Item} {s : LStr} {caps : List Cap} :
    (matchItems items s caps).isSome ↔ ∃ rest caps', Derives items s caps rest caps' := by
  rw [Option.isSome_iff_ne_none, Ne, matchItems_eq_none_iff]
  push Not
  rfl

/-! ## The greedy reading -/

/-- A repetition of `cc` cannot take the first character of `t`. -/
def StopsAt (cc : CharClass) (t : LStr) : Prop := ∀ c ∈ t.head?, cc.mem c = false

/-- At the end nothing goes on. -/
@[simp] theorem stopsAt_nil (cc : CharClass) : StopsAt cc [] := by simp [StopsAt]

/-- A text stops a class where its first character is not in it. -/
@[simp] theorem stopsAt_cons (cc : CharClass) (c : Char) (t : LStr) :
    StopsAt cc (c :: t) ↔ cc.mem c = false := by
  simp [StopsAt]

/-- A prefix outside the class stops the repetition where it starts. -/
theorem StopsAt.append {cc : CharClass} {w t : LStr} (hw : ∀ c ∈ w, cc.mem c = false)
    (ht : StopsAt cc t) : StopsAt cc (w ++ t) := by
  cases w with
  | nil => exact ht
  | cons c w => simpa using hw c (by simp)

/-- What is left when a repetition has taken all it can. -/
theorem stopsAt_dropWhile (cc : CharClass) (s : LStr) : StopsAt cc (s.dropWhile cc.mem) := by
  induction s with
  | nil => simp
  | cons c s ih =>
      rw [List.dropWhile_cons]
      split
      · exact ih
      · simpa using ‹¬cc.mem c = true›

/-- Two splits of one text where a repetition stops are the same split. -/
theorem append_inj_of_stopsAt {cc : CharClass} {w w' t t' : LStr} (hw : ∀ c ∈ w, cc.mem c)
    (hw' : ∀ c ∈ w', cc.mem c) (ht : StopsAt cc t) (ht' : StopsAt cc t')
    (h : w ++ t = w' ++ t') : w = w' ∧ t = t' := by
  induction w generalizing w' with
  -- The shorter word would leave a character of the class where the other stops.
  | nil =>
      cases w' with
      | nil => exact ⟨rfl, h⟩
      | cons c w' =>
          rw [List.nil_append] at h
          rw [h, List.cons_append, stopsAt_cons, hw' c (by simp)] at ht
          cases ht
  | cons c w ih =>
      cases w' with
      | nil =>
          rw [List.nil_append] at h
          rw [← h, List.cons_append, stopsAt_cons, hw c (by simp)] at ht'
          cases ht'
      | cons c' w' =>
          rw [List.cons_append, List.cons_append, List.cons.injEq] at h
          obtain ⟨rfl, h⟩ := h
          obtain ⟨rfl, rfl⟩ := ih (fun d hd => hw d (by simp [hd]))
            (fun d hd => hw' d (by simp [hd])) h
          exact ⟨rfl, rfl⟩

/-- When the longest try succeeds, the expansion returns it. -/
theorem maxExpand_greedy {cc : CharClass} {k : LStr → Option α} {w t : LStr} {a : α}
    (hw : ∀ c ∈ w, cc.mem c) (ht : StopsAt cc t) (hk : k t = some a) :
    maxExpand cc k (w ++ t) = some a := by
  induction w with
  | nil =>
      cases t with
      | nil => exact hk
      | cons c t =>
          rw [stopsAt_cons] at ht
          rw [List.nil_append, maxExpand, ht, if_neg Bool.false_ne_true, hk]
  | cons c w ih =>
      rw [List.cons_append, maxExpand, if_pos (hw c (by simp)), ih fun d hd => hw d (by simp [hd]),
        Option.some_or]

/-- `*` takes all it can when the rest of the items accept what is left. -/
theorem matchItems_star_greedy {cc : CharClass} {items : List Item} {w t : LStr}
    {caps : List Cap} {r : LStr × List Cap} (hw : ∀ c ∈ w, cc.mem c) (ht : StopsAt cc t)
    (h : matchItems items t caps = some r) :
    matchItems (.star cc :: items) (w ++ t) caps = some r :=
  maxExpand_greedy hw ht h

/-- `+` takes all it can when the rest of the items accept what is left. -/
theorem matchItems_plus_greedy {cc : CharClass} {items : List Item} {w t : LStr}
    {caps : List Cap} {r : LStr × List Cap} (hne : w ≠ []) (hw : ∀ c ∈ w, cc.mem c)
    (ht : StopsAt cc t) (h : matchItems items t caps = some r) :
    matchItems (.plus cc :: items) (w ++ t) caps = some r := by
  cases w with
  | nil => exact absurd rfl hne
  | cons c w =>
      rw [List.cons_append, matchItems, if_pos (hw c (by simp))]
      exact maxExpand_greedy (fun d hd => hw d (by simp [hd])) ht h

/-- One character of the class. -/
theorem matchItems_single {cc : CharClass} {items : List Item} {c : Char} {t : LStr}
    {caps : List Cap} (hc : cc.mem c) :
    matchItems (.single cc :: items) (c :: t) caps = matchItems items t caps := by
  rw [matchItems, if_pos hc]

/-- A capture around a word: it opens in front of `w ++ t` and closes in front of `t`. -/
theorem closeCapture_opened (w t : LStr) (caps : List Cap) :
    closeCapture t (.opened (w ++ t) :: caps) = .closed w :: caps := by
  simp [closeCapture]

/-- A capture of one character is closed behind it. -/
theorem closeCapture_opened_char (c : Char) (t : LStr) (caps : List Cap) :
    closeCapture t (.opened (c :: t) :: caps) = .closed [c] :: caps :=
  closeCapture_opened [c] t caps

/-! ## Searching -/

/-- An anchored search only matches at the start of the subject. -/
theorem search_anchored {p : Pattern} (hp : p.anchored = true) (s : LStr) :
    search p s = (matchItems p.items s []).map fun r => results s r.1 r.2 := by
  cases s with
  | nil => rfl
  | cons c s =>
      rw [search]
      cases matchItems p.items (c :: s) [] <;> simp [hp]

/-- An anchored pattern is found if it matches at the beginning. -/
theorem search_anchored_isSome {p : Pattern} (hp : p.anchored = true) (s : LStr) :
    (search p s).isSome = (matchItems p.items s []).isSome := by
  rw [search_anchored hp, Option.isSome_map]

/-- Searching for a single character of a class finds one exactly when there is one. -/
theorem search_single_isSome (cc : CharClass) (s : LStr) :
    (search ⟨false, [.single cc]⟩ s).isSome = s.any cc.mem := by
  induction s with
  | nil => rfl
  | cons c s ih =>
      rw [search, List.any_cons]
      by_cases hc : cc.mem c
      · simp [matchItems, hc]
      · simpa [matchItems, hc] using ih

/-- `^[…]+$`: a non-empty word over the class. -/
theorem search_plus_eos_isSome (cc : CharClass) (s : LStr) :
    (search ⟨true, [.plus cc, .eos]⟩ s).isSome ↔ s ≠ [] ∧ ∀ c ∈ s, cc.mem c := by
  rw [search_anchored_isSome rfl, matchItems_isSome_iff]
  constructor
  · rintro ⟨rest, caps, w, t, rfl, hne, hw, rfl, -⟩
    rw [List.append_nil]
    exact ⟨hne, hw⟩
  · rintro ⟨hne, hs⟩
    exact ⟨[], [], s, [], (List.append_nil s).symm, hne, hs, rfl, rfl, rfl⟩

/-! ## The loop of `gsub` -/

section Gsub

variable {p : Pattern} {f : σ → List LStr → σ × Option LStr}

/-- Fuel beyond the length of the subject makes no difference. -/
theorem gsubLoop_fuel {m n : Nat} {s : LStr} (hm : s.length < m) (hn : s.length < n)
    (afterMatch : Bool) (st : σ) :
    gsubLoop p f m s afterMatch st = gsubLoop p f n s afterMatch st := by
  induction m generalizing n s afterMatch st with
  | zero => omega
  | succ m ih =>
      obtain ⟨n, rfl⟩ : ∃ k, n = k + 1 := ⟨n - 1, by omega⟩
      -- By induction on the fuel, for every other amount of it that is enough.
      -- The two rounds agree, and what they go on with is shorter by at least a character.
      have hskip : ∀ (c : Char) (t : LStr), s = c :: t → ∀ st,
          gsubLoop p f m t false st = gsubLoop p f n t false st := by
        rintro c t rfl st
        simp only [List.length_cons] at hm hn
        exact ih (by omega) (by omega) false st
      rw [gsubLoop, gsubLoop]
      cases hmatch : matchItems p.items s [] with
      | none =>
          cases s with
          | nil => rfl
          | cons c t => simp only [hskip c t rfl]
      | some r =>
          obtain ⟨rest, caps⟩ := r
          by_cases hlt : rest.length < s.length
          · have hrest : ∀ st, gsubLoop p f m rest true st = gsubLoop p f n rest true st :=
              fun st => ih (by omega) (by omega) true st
            simp only [if_pos hlt, hrest]
          · cases s with
            | nil => simp only [if_neg hlt]
            | cons c t => simp only [if_neg hlt, hskip c t rfl]

/-- Where a map carries one callback's state to another's at every call, it carries the state
the loop ends in. -/
theorem gsubLoop_map {σ' : Type*} {g : σ' → List LStr → σ' × Option LStr} {φ : σ → σ'}
    (h : ∀ st caps, φ (f st caps).1 = (g (φ st) caps).1) (fuel : Nat) (s : LStr)
    (afterMatch : Bool) (st : σ) :
    φ (gsubLoop p f fuel s afterMatch st).1 = (gsubLoop p g fuel s afterMatch (φ st)).1 := by
  induction fuel generalizing s afterMatch st with
  | zero => rfl
  | succ fuel ih =>
      rw [gsubLoop, gsubLoop]
      -- A skipped character leaves the state to the rest of the loop.
      cases hmatch : matchItems p.items s [] with
      | none =>
          cases p.anchored with
          | true => rfl
          | false =>
              cases s with
              | nil => rfl
              | cons c s => exact ih s false st
      | some r =>
          obtain ⟨rest, caps⟩ := r
          by_cases hlt : rest.length < s.length
          · simp only [if_pos hlt]
            cases p.anchored with
            | true => exact h st _
            | false =>
                show φ (gsubLoop p f fuel rest true (f st (results s rest caps)).1).1 = _
                rw [ih, h]
                rfl
          · simp only [if_neg hlt]
            cases afterMatch with
            | true =>
                cases p.anchored with
                | true => rfl
                | false =>
                    cases s with
                    | nil => rfl
                    | cons c s => exact ih s false st
            | false =>
                cases p.anchored with
                | true => exact h st _
                | false =>
                    cases s with
                    | nil => exact h st _
                    | cons c s =>
                        show φ (gsubLoop p f fuel s false (f st (results (c :: s) rest caps)).1).1
                          = _
                        rw [ih, h]
                        rfl

/-- The matches do not depend on what the callback makes of them: the loop is a fold over their
captures. -/
theorem exists_gsubLoop_eq_foldl (p : Pattern) (fuel : Nat) (s : LStr) (afterMatch : Bool) :
    ∃ calls : List (List LStr), ∀ (f : σ → List LStr → σ × Option LStr) (st : σ),
      (gsubLoop p f fuel s afterMatch st).1 = calls.foldl (fun st caps => (f st caps).1) st := by
  -- The calls are what a callback finds that only writes them down.
  let record (calls : List (List LStr)) (caps : List LStr) :=
    (calls ++ [caps], (none : Option LStr))
  refine ⟨(gsubLoop p record fuel s afterMatch []).1, fun f st => ?_⟩
  have hstep (calls : List (List LStr)) (caps : List LStr) :
      (record calls caps).1.foldl (fun st caps => (f st caps).1) st
        = (f (calls.foldl (fun st caps => (f st caps).1) st) caps).1 := by
    rw [List.foldl_append, List.foldl_cons, List.foldl_nil]
  exact (gsubLoop_map hstep fuel s afterMatch []).symm

/-- Replacing every character of a class by nothing keeps the others. -/
theorem gsubLoop_erase (cc : CharClass) {fuel : Nat} {s : LStr} (h : s.length < fuel)
    (afterMatch : Bool) :
    (gsubLoop ⟨false, [.single cc]⟩ (fun (_ : Unit) _ => ((), some [])) fuel s afterMatch ()).2.1
      = s.filter fun c => !cc.mem c := by
  induction fuel generalizing s afterMatch with
  | zero => omega
  | succ fuel ih =>
      cases s with
      | nil => rfl
      | cons c s =>
          have hlt : s.length < fuel := by simpa using h
          rw [gsubLoop]
          cases hc : cc.mem c with
          | true =>
              simp only [matchItems, hc, if_true, List.length_cons, Nat.lt_succ_self,
                Bool.false_eq_true, if_false, replacement, List.nil_append]
              rw [ih hlt, List.filter_cons_of_neg (by simp [hc])]
          | false =>
              simp only [matchItems, hc, Bool.false_eq_true, if_false, List.nil_append]
              rw [ih hlt, List.filter_cons_of_pos (by simp [hc])]

/-- The state `gsub`'s callback has reached when the subject is used up. -/
def gsubState (p : Pattern) (f : σ → List LStr → σ × Option LStr) (s : LStr)
    (afterMatch : Bool) (st : σ) : σ :=
  (gsubLoop p f (s.length + 1) s afterMatch st).1

/-- At the end, where the pattern does not match, the loop is over. -/
theorem gsubState_nil (afterMatch : Bool) (st : σ) (h : matchItems p.items [] [] = none) :
    gsubState p f [] afterMatch st = st := by
  simp [gsubState, gsubLoop, h]

/-- A non-empty match runs the callback and goes on behind it. -/
theorem gsubState_match {s rest : LStr} {caps : List Cap} (hp : p.anchored = false)
    (h : matchItems p.items s [] = some (rest, caps)) (hlt : rest.length < s.length)
    (afterMatch : Bool) (st : σ) :
    gsubState p f s afterMatch st
      = gsubState p f rest true (f st (results s rest caps)).1 := by
  rw [gsubState, gsubLoop, h]
  simp only [if_pos hlt, hp, Bool.false_eq_true, if_false]
  rw [gsubLoop_fuel hlt (Nat.lt_succ_self rest.length)]
  rfl

/-- Where nothing matches one character is skipped. -/
theorem gsubState_skip {c : Char} {s : LStr} (hp : p.anchored = false)
    (h : matchItems p.items (c :: s) [] = none) (afterMatch : Bool) (st : σ) :
    gsubState p f (c :: s) afterMatch st = gsubState p f s false st := by
  rw [gsubState, gsubLoop, h]
  simp only [hp, Bool.false_eq_true, if_false]
  rfl

/-- **The invariant rule of the loop**: where every match in a text of `D` is not empty, leaves
the callback's state alone and leaves a text of `D`, and so does a skipped character, the loop
ends in the state it started in. -/
theorem gsubState_of_invariant {D : LStr → Prop} {st : σ} (hp : p.anchored = false)
    (hmatch : ∀ s rest caps, D s → matchItems p.items s [] = some (rest, caps) →
      rest.length < s.length ∧ (f st (results s rest caps)).1 = st ∧ D rest)
    (hskip : ∀ c s, D (c :: s) → matchItems p.items (c :: s) [] = none → D s)
    {s : LStr} (hs : D s) (afterMatch : Bool) : gsubState p f s afterMatch st = st := by
  -- By induction on the length: a match and a skipped character both shorten the text.
  induction hn : s.length using Nat.strongRecOn generalizing s afterMatch with
  | ind n ih =>
      subst hn
      cases h : matchItems p.items s [] with
      | some r =>
          obtain ⟨rest, caps⟩ := r
          obtain ⟨hlt, hst, hrest⟩ := hmatch s rest caps hs h
          rw [gsubState_match hp h hlt, hst]
          exact ih rest.length hlt hrest true rfl
      | none =>
          cases s with
          | nil => exact gsubState_nil afterMatch st h
          | cons c s =>
              rw [gsubState_skip hp h]
              exact ih s.length (Nat.lt_succ_self _) (hskip c s hs h) false rfl

end Gsub

end LuaPattern

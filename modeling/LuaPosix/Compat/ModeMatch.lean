import LuaPosix.Compat.ModeString

/-! # The patterns of `mode_munch` on mode strings

What the three guards accept, and what the clause pattern picks out of a text: on a clause it
captures exactly `who`, `op` and `what`, and the next match starts where the next clause does,
so the loop of `gsub` is a fold over the clauses. -/

namespace LuaPosix

open LuaPattern MaskEdit

/-! ## The guards -/

/-- A letter of the longhand guard. -/
def isLonghandLetter (c : Char) : Bool :=
  '-' == c || 'r' == c || 's' == c || 'w' == c || 'x' == c

/-- The pattern of longhands. -/
theorem matched_longhand (s : LStr) :
    matched s "^[-rswx]+$" ↔ s ≠ [] ∧ ∀ c ∈ s, isLonghandLetter c := by
  have hparse : parse "^[-rswx]+$".toList = some ⟨true, [.plus (.set false
      [.lit '-', .lit 'r', .lit 's', .lit 'w', .lit 'x']), .eos]⟩ := by decide
  rw [matched, luaMatch, hparse]
  simp only [Option.bind_eq_bind, Option.bind_some, search_plus_eos_isSome]
  simp [SetItem.mem, isLonghandLetter, or_assoc]

/-- The pattern of octal numbers. -/
theorem matched_octal (s : LStr) :
    matched s "^[0-7]+$" ↔ s ≠ [] ∧ ∀ c ∈ s, isOctal c := by
  have hparse : parse "^[0-7]+$".toList = some ⟨true, [.plus (.set false
      [.range '0' '7']), .eos]⟩ := by decide
  rw [matched, luaMatch, hparse]
  simp only [Option.bind_eq_bind, Option.bind_some, search_plus_eos_isSome]
  simp [SetItem.mem, isOctal]

/-- The pattern of clauses, as its items. -/
theorem matched_clauseGuard (s : LStr) :
    matched s clauseGuard = (matchItems guardItems s []).isSome := by
  rw [matched, luaMatch, parse_clauseGuard]
  exact search_anchored_isSome rfl s

/-- A one-class pattern matches a word that has a letter of the class. -/
theorem matched_single (pattern : String) (cc : CharClass)
    (h : parse pattern.toList = some ⟨false, [.single cc]⟩) (s : LStr) :
    matched s pattern = s.any cc.mem := by
  rw [matched, luaMatch, h]
  exact search_single_isSome cc s

/-! ## The branches of `mode_munch` -/

section Branches

variable {ν : Type} (B : Bitwise ν) (m : ν) {s : LStr}

/-- Nine letters of a longhand go to `rwxrwxrwx`. -/
theorem modeMunch_longhand (hlen : s.length = 9) (hs : ∀ c ∈ s, isLonghandLetter c) :
    modeMunch B m (some s) = .ok (match rwxrwxrwx B s with
      | some mode => .mode mode
      | none => .bad none) := by
  have hne : s ≠ [] := List.ne_nil_of_length_eq_add_one hlen
  simp only [modeMunch]
  rw [if_pos ⟨hlen, (matched_longhand s).mpr ⟨hne, hs⟩⟩]
  cases rwxrwxrwx B s <;> rfl

/-- A text whose first character is no longhand letter does not take the longhand branch. -/
theorem not_matched_longhand {c : Char} {t : LStr} (hc : isLonghandLetter c = false) :
    ¬ ((c :: t).length = 9 ∧ matched (c :: t) "^[-rswx]+$") := by
  rw [matched_longhand]
  rintro ⟨-, -, h⟩
  rw [h c (by simp)] at hc
  cases hc

/-- What does not begin with an octal digit is no octal number. -/
theorem not_matched_octal {c : Char} {t : LStr} (hc : isOctal c = false) :
    ¬ matched (c :: t) "^[0-7]+$" := by
  rw [matched_octal]
  rintro ⟨-, h⟩
  rw [h c (by simp)] at hc
  cases hc

/-- An octal digit is no letter of a longhand. -/
theorem isLonghandLetter_of_isOctal {c : Char} (hc : isOctal c) : isLonghandLetter c = false := by
  obtain ⟨d, rfl⟩ := exists_digit (isDigit_of_isOctal hc)
  clear hc
  revert d
  decide

/-- Octal digits go to `octal_mode`. -/
theorem modeMunch_octal (hne : s ≠ []) (hs : ∀ c ∈ s, isOctal c) :
    modeMunch B m (some s) = (octalMode B s).map .mode := by
  obtain ⟨c, t, rfl⟩ := List.exists_cons_of_ne_nil hne
  simp only [modeMunch]
  rw [if_neg (not_matched_longhand (isLonghandLetter_of_isOctal (hs c (by simp)))),
    if_pos ((matched_octal _).mpr ⟨hne, hs⟩)]

/-- A text whose first character is a class letter is decided by the clause guard. -/
theorem modeMunch_clause_branch {w : Who} {t : LStr} (hguard : matched (w.char :: t) clauseGuard) :
    modeMunch B m (some (w.char :: t))
      = .ok (.mode (gsubState ⟨false, clauseItems⟩ (mungeClause B) (w.char :: t) false m)) := by
  have hlong : isLonghandLetter w.char = false := by cases w <;> decide
  have hoct : isOctal w.char = false := by cases w <;> decide
  simp only [modeMunch]
  rw [if_neg (not_matched_longhand hlong), if_neg (not_matched_octal hoct), if_pos hguard, gsub,
    parse_clausePattern]
  rfl

end Branches

/-! ## Matching a clause -/

/-- White space stops at a letter. -/
theorem stopsAt_space_of_isAlpha {w : LStr} (hne : w ≠ []) (hw : ∀ d ∈ w, d.isAlpha) (t : LStr) :
    StopsAt (.esc 's') (w ++ t) := by
  obtain ⟨d, w, rfl⟩ := List.exists_cons_of_ne_nil hne
  rw [List.cons_append, stopsAt_cons, mem_space]
  by_contra hd
  have hd' := isAlpha_of_isspace (Bool.not_eq_false _ ▸ hd)
  rw [hw d (by simp)] at hd'
  cases hd'

/-- **The clause pattern on a clause-shaped text**: two words of letters around one character
that is neither a letter nor white space, white space allowed before each of the three, and
commas behind. The greedy reading is the only one tried. -/
theorem matchItems_clauseItems {sp₀ w₁ sp₁ sp₂ w₂ commas t : LStr} {c : Char}
    (hsp₀ : ∀ d ∈ sp₀, isspace d) (hw₁ : ∀ d ∈ w₁, d.isAlpha) (hw₁_ne : w₁ ≠ [])
    (hsp₁ : ∀ d ∈ sp₁, isspace d) (hc_alpha : c.isAlpha = false) (hc_space : isspace c = false)
    (hsp₂ : ∀ d ∈ sp₂, isspace d) (hw₂ : ∀ d ∈ w₂, d.isAlpha) (hw₂_ne : w₂ ≠ [])
    (hcommas : ∀ d ∈ commas, d = ',') (halpha : StopsAt (.esc 'a') (commas ++ t))
    (ht : StopsAt (.lit ',') t) :
    matchItems clauseItems
        (sp₀ ++ (w₁ ++ (sp₁ ++ c :: (sp₂ ++ (w₂ ++ (commas ++ t)))))) []
      = some (t, [.closed w₂, .closed [c], .closed w₁]) := by
  have halpha_stop : StopsAt (.esc 'a') (sp₁ ++ c :: (sp₂ ++ (w₂ ++ (commas ++ t)))) := by
    cases sp₁ with
    | nil => simpa using hc_alpha
    | cons d sp₁ => simpa using isAlpha_of_isspace (hsp₁ d (by simp))
  -- Item by item: each repetition takes all it can, and stops where the next part starts.
  refine matchItems_star_greedy hsp₀ (stopsAt_space_of_isAlpha hw₁_ne hw₁ _) ?_
  rw [matchItems]
  refine matchItems_plus_greedy hw₁_ne hw₁ halpha_stop ?_
  rw [matchItems, closeCapture_opened]
  refine matchItems_star_greedy hsp₁ (by simpa using hc_space) ?_
  rw [matchItems, matchItems_single (mem_any c), matchItems, closeCapture_opened_char]
  refine matchItems_star_greedy hsp₂ (stopsAt_space_of_isAlpha hw₂_ne hw₂ _) ?_
  rw [matchItems]
  refine matchItems_plus_greedy hw₂_ne hw₂ halpha ?_
  rw [matchItems, closeCapture_opened]
  exact matchItems_star_greedy (fun d hd => by simp [hcommas d hd]) ht rfl

/-! ## The loop over a clause list -/

/-- What the clause pattern captures on a clause. -/
def Clause.captures (c : Clause) : List LStr :=
  [c.who.map Who.char, [opChar c.op], c.what.map Perm.char]

/-- No text that starts with white space or a clause starts with a comma. -/
theorem stopsAt_comma (sp : Spaces) (c : Clause) (t : LStr) :
    StopsAt (.lit ',') (sp.chars ++ (c.text ++ t)) := by
  have hspace : ∀ sp : Spaces, ∀ d ∈ sp.chars, (CharClass.lit ',').mem d = false := by
    intro sp d hd
    have hd := sp.isspace_of_mem d hd
    by_contra hcomma
    rw [Bool.not_eq_false, mem_lit, beq_iff_eq] at hcomma
    subst hcomma
    revert hd
    decide
  rw [Clause.text, Clause.opText, List.append_assoc, List.append_assoc, List.cons_append]
  -- White space, class letters, white space and the operator: none of them is a comma.
  refine StopsAt.append (hspace sp) (StopsAt.append ?_ (StopsAt.append (hspace c.beforeOp) ?_))
  · intro d hd
    obtain ⟨w, -, rfl⟩ := List.mem_map.mp hd
    cases w <;> decide
  · rw [stopsAt_cons]
    cases c.op <;> decide

section Loop

variable {ν : Type} (B : Bitwise ν)

/-- The loop on a clause with class letters: the callback runs on the clause's three parts and
the loop goes on behind the commas. -/
theorem gsubState_clause (sp : Spaces) {c : Clause} (commas t : LStr) (hwho : c.who ≠ [])
    (hcommas : ∀ d ∈ commas, d = ',') (halpha : StopsAt (.esc 'a') (commas ++ t))
    (ht : StopsAt (.lit ',') t) (afterMatch : Bool) (m : ν) :
    gsubState ⟨false, clauseItems⟩ (mungeClause B) (sp.chars ++ (c.text ++ (commas ++ t)))
        afterMatch m
      = gsubState ⟨false, clauseItems⟩ (mungeClause B) t true (mungeClause B m c.captures).1 := by
  have hmatch := matchItems_clauseItems sp.isspace_of_mem (fun d => isAlpha_of_mem_who)
    (mt List.map_eq_nil_iff.mp hwho) c.beforeOp.isspace_of_mem (isAlpha_opChar c.op)
    (isspace_opChar c.op) c.afterOp.isspace_of_mem (fun d => isAlpha_of_mem_perm)
    (mt List.map_eq_nil_iff.mp c.what_ne_nil) hcommas halpha ht
  have htext : sp.chars ++ (c.text ++ (commas ++ t)) = sp.chars ++ (c.who.map Who.char ++
      (c.beforeOp.chars ++ opChar c.op :: (c.afterOp.chars ++
        (c.what.map Perm.char ++ (commas ++ t))))) := by
    simp [Clause.text, Clause.opText]
  rw [htext, gsubState_match rfl hmatch (by simp; omega)]
  rfl

/-- **The loop of `gsub` is a fold over the clauses**, in any back-end: clauses with class
letters are edited one by one, and the loop goes on behind the commas that follow them. -/
theorem gsubState_clauses (sp : Spaces) {c : Clause} {rest : List (Spaces × Clause)}
    (commas t : LStr) (hwho : ∀ d ∈ c :: rest.map Prod.snd, d.who ≠ [])
    (hcommas : ∀ d ∈ commas, d = ',') (halpha : StopsAt (.esc 'a') (commas ++ t))
    (ht : StopsAt (.lit ',') t) (afterMatch : Bool) (m : ν) :
    gsubState ⟨false, clauseItems⟩ (mungeClause B)
        (sp.chars ++ (c.text ++ (ClauseList.tailText rest ++ (commas ++ t)))) afterMatch m
      = gsubState ⟨false, clauseItems⟩ (mungeClause B) t true
          ((c :: rest.map Prod.snd).foldl (fun m c => (mungeClause B m c.captures).1) m) := by
  induction rest generalizing sp c afterMatch m with
  | nil =>
      rw [ClauseList.tailText_nil, List.nil_append,
        gsubState_clause B sp commas t (hwho c (by simp)) hcommas halpha ht]
      rfl
  | cons next rest ih =>
      obtain ⟨sp', c'⟩ := next
      -- The comma in front of the next clause ends this match.
      have hstep := gsubState_clause B sp [','] _ (hwho c (by simp)) (by simp) (by simp)
        (stopsAt_comma sp' c' (ClauseList.tailText rest ++ (commas ++ t))) afterMatch m
      have htext : ClauseList.tailText ((sp', c') :: rest) ++ (commas ++ t) = [','] ++
          (sp'.chars ++ (c'.text ++ (ClauseList.tailText rest ++ (commas ++ t)))) := by
        simp [ClauseList.tailText_cons]
      rw [htext, hstep, ih sp' fun d hd => hwho d (List.mem_cons_of_mem _ hd)]
      rfl

end Loop

end LuaPosix

import LuaPosix.Compat.ClauseBits
import LuaPosix.Compat.ModeAccepted

/-! # The documented mode formats

The documentation of `chmod` lists longhand, clauses with class letters and clauses without.
The clause guard wants class letters in front, so a list that starts with a clause without them
is refused. Further on such a clause is not refused but ignored, together with every clause
behind it: from there on the clause pattern only ever picks out texts whose middle character is
no operator. -/

namespace LuaPosix

open LuaPattern MaskEdit

/-! ## What the clause pattern picks out -/

/-- Every match of the clause pattern has its three parts, and the captures are those parts. -/
theorem exists_parts_of_match {s t : LStr} {caps : List Cap}
    (h : matchItems clauseItems s [] = some (t, caps)) :
    ∃ sp₀ w₁ sp₁ c sp₂ w₂ commas,
      s = sp₀ ++ (w₁ ++ (sp₁ ++ c :: (sp₂ ++ (w₂ ++ (commas ++ t))))) ∧
      (∀ d ∈ sp₀, isspace d) ∧ (w₁ ≠ [] ∧ ∀ d ∈ w₁, d.isAlpha) ∧ (∀ d ∈ sp₁, isspace d) ∧
      (∀ d ∈ sp₂, isspace d) ∧ (w₂ ≠ [] ∧ ∀ d ∈ w₂, d.isAlpha) ∧ (∀ d ∈ commas, d = ',') ∧
      captureTexts caps = [w₁, [c], w₂] := by
  obtain ⟨sp₀, s₁, rfl, hsp₀, w₁, s₂, rfl, hw₁_ne, hw₁, sp₁, s₃, rfl, hsp₁, c, s₄, rfl, -, sp₂,
    s₅, rfl, hsp₂, w₂, s₆, rfl, hw₂_ne, hw₂, commas, s₇, rfl, hcommas, rfl, hcaps⟩ :=
    derives_of_matchItems h
  rw [closeCapture_opened, closeCapture_opened_char, closeCapture_opened] at hcaps
  refine ⟨sp₀, w₁, sp₁, c, sp₂, w₂, commas, rfl, hsp₀, ⟨hw₁_ne, hw₁⟩, hsp₁, hsp₂, ⟨hw₂_ne, hw₂⟩,
    ?_, by rw [← hcaps]; rfl⟩
  intro d hd
  have hcomma := hcommas d hd
  rw [mem_lit, beq_iff_eq] at hcomma
  exact hcomma.symm

/-- White space in front of a text that does not go on with it. -/
theorem spaces_append_inj {sp sp' t t' : LStr} (hsp : ∀ d ∈ sp, isspace d)
    (hsp' : ∀ d ∈ sp', isspace d) (ht : StopsAt (.esc 's') t) (ht' : StopsAt (.esc 's') t')
    (h : sp ++ t = sp' ++ t') : sp = sp' ∧ t = t' :=
  append_inj_of_stopsAt (by simpa using hsp) (by simpa using hsp') ht ht' h

/-- No match starts in front of a character that is neither a letter nor white space. -/
theorem matchItems_eq_none_of_op {sp t : LStr} (hsp : ∀ d ∈ sp, isspace d) {c : Char}
    (halpha : c.isAlpha = false) (hspace : isspace c = false) :
    matchItems clauseItems (sp ++ c :: t) [] = none := by
  cases h : matchItems clauseItems (sp ++ c :: t) [] with
  | none => rfl
  | some r =>
      obtain ⟨sp₀, w₁, sp₁, d, sp₂, w₂, commas, htext, hsp₀, ⟨hne, hw₁⟩, -⟩ :=
        exists_parts_of_match h
      obtain ⟨-, hrest⟩ := spaces_append_inj hsp hsp₀ (by simpa using hspace)
        (stopsAt_space_of_isAlpha hne hw₁ _) htext
      obtain ⟨e, w₁, rfl⟩ := List.exists_cons_of_ne_nil hne
      rw [List.cons_append, List.cons.injEq] at hrest
      rw [hrest.1, hw₁ e (by simp)] at halpha
      cases halpha

/-- A text that a word of letters can end in front of: nothing, or a comma with no letter ahead. -/
def EndsWord (v : LStr) : Prop :=
  v = [] ∨ ∃ sp e u, v = ',' :: (sp ++ e :: u) ∧ (∀ d ∈ sp, isspace d) ∧ e.isAlpha = false ∧
    isspace e = false ∧ StopsAt (.lit ',') (sp ++ e :: u)

/-- There is no operator-and-word to read in such a text. -/
theorem EndsWord.ne_read {v sp₁ sp₂ w₂ u : LStr} {c : Char} (hv : EndsWord v)
    (hsp₁ : ∀ d ∈ sp₁, isspace d) (hsp₂ : ∀ d ∈ sp₂, isspace d)
    (hw₂ : w₂ ≠ [] ∧ ∀ d ∈ w₂, d.isAlpha) : v ≠ sp₁ ++ c :: (sp₂ ++ (w₂ ++ u)) := by
  rintro rfl
  rcases hv with hv | ⟨sp, e, u', hv, hsp, halpha, hspace, -⟩
  · simp at hv
  · cases sp₁ with
    -- The text starts with a comma, which is no white space.
    | cons d sp₁ =>
        rw [List.cons_append, List.cons.injEq] at hv
        exact absurd (hv.1 ▸ hsp₁ d (by simp)) (by decide)
    | nil =>
        rw [List.nil_append, List.cons.injEq] at hv
        obtain ⟨-, hrest⟩ := spaces_append_inj hsp₂ hsp
          (stopsAt_space_of_isAlpha hw₂.1 hw₂.2 _) (by simpa using hspace) hv.2
        obtain ⟨d, w, rfl⟩ := List.exists_cons_of_ne_nil hw₂.1
        rw [List.cons_append, List.cons.injEq] at hrest
        rw [← hrest.1, hw₂.2 d (by simp)] at halpha
        cases halpha

/-- Such a text is stopped by no letter. -/
theorem EndsWord.stopsAt_alpha {v : LStr} (hv : EndsWord v) : StopsAt (.esc 'a') v := by
  rcases hv with rfl | ⟨sp, e, u, rfl, -⟩
  · exact stopsAt_nil _
  · rw [stopsAt_cons]
    rfl

/-- A word before such a text is stopped by no space. -/
theorem EndsWord.stopsAt_space {v w : LStr} (hv : EndsWord v) (hw : ∀ d ∈ w, d.isAlpha) :
    StopsAt (.esc 's') (w ++ v) := by
  by_cases hne : w = []
  · rcases hv with rfl | ⟨sp, e, u, rfl, -⟩
    · simp [hne]
    · rw [hne, List.nil_append, stopsAt_cons]
      rfl
  · exact stopsAt_space_of_isAlpha hne hw v

/-- Two words of letters in front of texts, the first of which ends a word. -/
theorem EndsWord.append_eq {v w w' t : LStr} (hv : EndsWord v) (hw' : ∀ d ∈ w', d.isAlpha)
    (h : w ++ v = w' ++ t) : ∃ w'', w = w' ++ w'' ∧ t = w'' ++ v := by
  rcases List.append_eq_append_iff.mp h with ⟨x, rfl, rfl⟩ | ⟨x, rfl, rfl⟩
  · -- The second word would go on into `v`, but `v` does not start with a letter.
    cases x with
    | nil => exact ⟨[], by simp, by simp⟩
    | cons d x =>
        have hd := hv.stopsAt_alpha
        rw [List.cons_append, stopsAt_cons, mem_alpha, hw' d (by simp)] at hd
        cases hd
  · exact ⟨x, rfl, rfl⟩

/-- The commas in front of what follows a word are one comma. -/
theorem EndsWord.comma_eq {v commas t : LStr} (hv : EndsWord v) (hcommas : ∀ d ∈ commas, d = ',')
    (h : v = ',' :: (commas ++ t)) : v = ',' :: t := by
  rcases hv with rfl | ⟨sp, e, u, rfl, -, -, -, hstop⟩
  · cases h
  · rw [List.cons.injEq] at h
    cases commas with
    | nil => rw [h.2, List.nil_append]
    | cons d commas =>
        have hd := hcommas d (by simp)
        rw [h.2, List.cons_append, stopsAt_cons, hd] at hstop
        cases hstop

/-- **A match inside a word** has a letter for its operator, and ends in the word or behind the
comma. -/
theorem EndsWord.match_inside {sp w v t : LStr} {caps : List Cap} (hv : EndsWord v)
    (hsp : ∀ d ∈ sp, isspace d) (hw : ∀ d ∈ w, d.isAlpha)
    (h : matchItems clauseItems (sp ++ (w ++ v)) [] = some (t, caps)) :
    (∃ w₁ c w₂, captureTexts caps = [w₁, [c], w₂] ∧ c.isAlpha) ∧
    ((∃ w', (∀ d ∈ w', d.isAlpha) ∧ t = w' ++ v) ∨ v = ',' :: t) := by
  obtain ⟨sp₀, w₁, sp₁, c, sp₂, w₂, commas, htext, hsp₀, hw₁, hsp₁, hsp₂, hw₂, hcommas, hcaps⟩ :=
    exists_parts_of_match h
  obtain ⟨-, hrest⟩ := spaces_append_inj hsp hsp₀ (hv.stopsAt_space hw)
    (stopsAt_space_of_isAlpha hw₁.1 hw₁.2 _) htext
  obtain ⟨x, rfl, hx⟩ := hv.append_eq hw₁.2 hrest
  cases x with
  -- The match's first word is a prefix of `w`; what is left of `w` cannot be empty.
  | nil => exact absurd hx.symm (hv.ne_read hsp₁ hsp₂ hw₂)
  | cons d x =>
      have hd : d.isAlpha := hw d (by simp)
      have hx_alpha : ∀ e ∈ x, e.isAlpha := fun e he => hw e (by simp [he])
      cases sp₁ with
      | cons e sp₁ =>
          rw [List.cons_append, List.cons_append, List.cons.injEq] at hx
          have he := isAlpha_of_isspace (hsp₁ e (by simp))
          rw [hx.1, hd] at he
          cases he
      | nil =>
          rw [List.nil_append, List.cons_append, List.cons.injEq] at hx
          obtain ⟨rfl, hx⟩ := hx
          obtain ⟨-, hx⟩ := spaces_append_inj hsp₂ (by simp)
            (stopsAt_space_of_isAlpha hw₂.1 hw₂.2 _) (hv.stopsAt_space hx_alpha)
            (show _ = [] ++ (x ++ v) from hx)
          -- The operator is the letter behind the first word, and the second word is in `w` too.
          obtain ⟨y, rfl, hy⟩ := hv.append_eq hw₂.2 hx.symm
          have hy_alpha : ∀ e ∈ y, e.isAlpha := fun e he => hx_alpha e (by simp [he])
          refine ⟨⟨w₁, c, w₂, hcaps, hd⟩, ?_⟩
          cases commas with
          | nil => exact .inl ⟨y, hy_alpha, hy⟩
          | cons e commas =>
              have he := hcommas e (by simp)
              subst he
              cases y with
              | cons e y =>
                  rw [List.cons_append, List.cons_append, List.cons.injEq] at hy
                  exact absurd (hy.1 ▸ hy_alpha e (by simp)) (by decide)
              | nil => exact .inr (hv.comma_eq (fun d hd => hcommas d (by simp [hd])) hy.symm)

/-! ## Texts that edit nothing -/

open ClauseList (tailText)

/-- What is left of a clause list from a clause without class letters on: the loop stands in
front of an operator with no class letters, in the word behind one, or in front of a clause
whose class letters that word will take for its own. -/
inductive Idle : LStr → Prop
  | beforeOp {sp sp' : LStr} (op : Op) (what : List Perm) (rest : List (Spaces × Clause))
      (spaces : ∀ d ∈ sp, isspace d) (spaces' : ∀ d ∈ sp', isspace d) (what_ne_nil : what ≠ []) :
      Idle (sp ++ opChar op :: (sp' ++ (what.map Perm.char ++ tailText rest)))
  | inWord {sp w : LStr} (rest : List (Spaces × Clause)) (spaces : ∀ d ∈ sp, isspace d)
      (letters : ∀ d ∈ w, d.isAlpha) (next : ∀ n ∈ rest.head?, n.2.who = []) :
      Idle (sp ++ (w ++ tailText rest))
  | beforeClause {sp w : LStr} (sp' : Spaces) (c : Clause) (rest : List (Spaces × Clause))
      (spaces : ∀ d ∈ sp, isspace d) (letters : ∀ d ∈ w, d.isAlpha) (ne_nil : w ≠ [])
      (who_ne_nil : c.who ≠ []) : Idle (sp ++ (w ++ tailText ((sp', c) :: rest)))

/-- A word with clauses behind it that name no users leaves the state as it is. -/
theorem idle_word {w : LStr} (rest : List (Spaces × Clause)) (hw : ∀ d ∈ w, d.isAlpha)
    (hnext : ∀ n ∈ rest.head?, n.2.who = []) : Idle (w ++ tailText rest) := by
  have h : Idle ([] ++ (w ++ tailText rest)) := .inWord rest (by simp) hw hnext
  exact h

/-- Behind the operator of a clause comes its word. -/
theorem idle_afterOp {sp : LStr} (hsp : ∀ d ∈ sp, isspace d) {what : List Perm} (hwhat : what ≠ [])
    (rest : List (Spaces × Clause)) : Idle (sp ++ (what.map Perm.char ++ tailText rest)) := by
  have hletters : ∀ d ∈ what.map Perm.char, d.isAlpha := fun d => isAlpha_of_mem_perm
  cases rest with
  | nil => exact .inWord [] hsp hletters (by simp)
  | cons next rest =>
      obtain ⟨sp', c⟩ := next
      by_cases hwho : c.who = []
      · exact .inWord _ hsp hletters (by simpa using hwho)
      · exact .beforeClause sp' c rest hsp hletters (mt List.map_eq_nil_iff.mp hwhat) hwho

/-- What is left of a clause behind its class letters. -/
theorem idle_opText (c : Clause) (rest : List (Spaces × Clause)) {sp : LStr}
    (hsp : ∀ d ∈ sp, isspace d) : Idle (sp ++ (c.opText ++ tailText rest)) := by
  have h := Idle.beforeOp c.op c.what rest hsp c.afterOp.isspace_of_mem c.what_ne_nil
  rwa [show c.opText ++ tailText rest = opChar c.op :: (c.afterOp.chars ++
    (c.what.map Perm.char ++ tailText rest)) by simp [Clause.opText]]

/-- A clause without class letters. -/
theorem idle_text (sp : Spaces) {c : Clause} (hwho : c.who = []) (rest : List (Spaces × Clause)) :
    Idle (sp.chars ++ (c.text ++ tailText rest)) := by
  have hspaces : ∀ d ∈ sp.chars ++ c.beforeOp.chars, isspace d := by
    intro d hd
    rcases List.mem_append.mp hd with hd | hd
    · exact sp.isspace_of_mem d hd
    · exact c.beforeOp.isspace_of_mem d hd
  have h := idle_opText c rest hspaces
  rwa [Clause.text, hwho, List.map_nil, List.nil_append, List.append_assoc,
    ← List.append_assoc sp.chars]

/-- In front of a clause without class letters a word ends. -/
theorem endsWord_tailText {rest : List (Spaces × Clause)} (h : ∀ n ∈ rest.head?, n.2.who = []) :
    EndsWord (tailText rest) := by
  cases rest with
  | nil => exact .inl rfl
  | cons next rest =>
      obtain ⟨sp, c⟩ := next
      have hwho : c.who = [] := h (sp, c) rfl
      have hstop := stopsAt_comma sp c (tailText rest)
      have htext : sp.chars ++ (c.text ++ tailText rest) = (sp.chars ++ c.beforeOp.chars) ++
          opChar c.op :: (c.afterOp.chars ++ (c.what.map Perm.char ++ tailText rest)) := by
        simp [Clause.text, Clause.opText, hwho]
      rw [htext] at hstop
      refine .inr ⟨_, _, _, by rw [ClauseList.tailText_cons, htext], ?_, isAlpha_opChar c.op,
        isspace_opChar c.op, hstop⟩
      intro d hd
      rcases List.mem_append.mp hd with hd | hd
      · exact sp.isspace_of_mem d hd
      · exact c.beforeOp.isspace_of_mem d hd

/-- A word swallows the class letters behind the next comma: the word, the comma and those
letters read as one clause. -/
theorem matchItems_swallow {sp w : LStr} (hsp : ∀ d ∈ sp, isspace d) (hw : ∀ d ∈ w, d.isAlpha)
    (hne : w ≠ []) (sp' : Spaces) {c : Clause} (hwho : c.who ≠ []) (rest : List (Spaces × Clause)) :
    matchItems clauseItems (sp ++ (w ++ tailText ((sp', c) :: rest))) []
      = some (c.beforeOp.chars ++ (c.opText ++ tailText rest),
          [.closed (c.who.map Who.char), .closed [','], .closed w]) := by
  have halpha : StopsAt (.esc 'a') (c.beforeOp.chars ++ (c.opText ++ tailText rest)) := by
    refine StopsAt.append (fun d hd => isAlpha_of_isspace (c.beforeOp.isspace_of_mem d hd)) ?_
    rw [Clause.opText, List.cons_append, stopsAt_cons]
    exact isAlpha_opChar c.op
  have hcomma : StopsAt (.lit ',') (c.beforeOp.chars ++ (c.opText ++ tailText rest)) := by
    have hstop := stopsAt_comma .empty { c with who := [] } (tailText rest)
    simpa [Clause.text, Clause.opText, Spaces.empty] using hstop
  have hmatch : matchItems clauseItems (sp ++ (w ++ ([] ++ ',' :: (sp'.chars ++
      (c.who.map Who.char ++ ([] ++ (c.beforeOp.chars ++ (c.opText ++ tailText rest)))))))) []
      = some (c.beforeOp.chars ++ (c.opText ++ tailText rest),
        [.closed (c.who.map Who.char), .closed [','], .closed w]) :=
    matchItems_clauseItems hsp hw hne (by simp) (by decide) (by decide) sp'.isspace_of_mem
      (fun d => isAlpha_of_mem_who) (mt List.map_eq_nil_iff.mp hwho) (by simp) halpha hcomma
  rw [← hmatch]
  simp [Clause.text]

section Loop

variable {ν : Type} (B : Bitwise ν)

/-- The callback does nothing where the middle character is no operator. -/
theorem mungeClause_noOp (m : ν) (who what : LStr) {c : Char} (hc : c ≠ '+' ∧ c ≠ '-' ∧ c ≠ '=') :
    (mungeClause B m [who, [c], what]).1 = m := by
  simp [mungeClause, hc]

/-- A match in an idle text edits nothing and leaves an idle text. -/
theorem Idle.match_step {s t : LStr} {caps : List Cap} (hs : Idle s)
    (h : matchItems clauseItems s [] = some (t, caps)) (m : ν) :
    (mungeClause B m (captureTexts caps)).1 = m ∧ Idle t := by
  cases hs with
  | beforeOp op what rest hsp hsp' hwhat =>
      rw [matchItems_eq_none_of_op hsp (isAlpha_opChar op) (isspace_opChar op)] at h
      cases h
  | @inWord sp w rest hsp hw hnext =>
      obtain ⟨⟨w₁, c, w₂, hcaps, hc⟩, ht⟩ := (endsWord_tailText hnext).match_inside hsp hw h
      -- A letter for an operator edits nothing.
      have hop : c ≠ '+' ∧ c ≠ '-' ∧ c ≠ '=' :=
        ⟨by rintro rfl; exact absurd hc (by decide), by rintro rfl; exact absurd hc (by decide),
          by rintro rfl; exact absurd hc (by decide)⟩
      refine ⟨by rw [hcaps, mungeClause_noOp B m w₁ w₂ hop], ?_⟩
      rcases ht with ⟨w, hw, rfl⟩ | ht
      · exact idle_word rest hw hnext
      · cases rest with
        | nil => cases ht
        | cons next rest =>
            obtain ⟨sp, c⟩ := next
            rw [ClauseList.tailText_cons, List.cons.injEq] at ht
            rw [← ht.2]
            exact idle_text sp (hnext (sp, c) rfl) rest
  | beforeClause sp' c rest hsp hw hne hwho =>
      rw [matchItems_swallow hsp hw hne sp' hwho rest] at h
      obtain ⟨rfl, rfl⟩ := Prod.mk.inj (Option.some.inj h)
      exact ⟨mungeClause_noOp B m _ _ (by decide), idle_opText c rest c.beforeOp.isspace_of_mem⟩

/-- A character skipped in an idle text leaves an idle text. -/
theorem Idle.skip_step {d : Char} {s : LStr} (hs : Idle (d :: s))
    (h : matchItems clauseItems (d :: s) [] = none) : Idle s := by
  generalize htext : d :: s = text at hs
  cases hs with
  | @beforeOp sp sp' op what rest hsp hsp' hwhat =>
      cases sp with
      | nil =>
          obtain ⟨-, rfl⟩ := List.cons.inj htext
          exact idle_afterOp hsp' hwhat rest
      | cons e sp =>
          obtain ⟨-, rfl⟩ := List.cons.inj htext
          exact .beforeOp op what rest (fun e he => hsp e (by simp [he])) hsp' hwhat
  | @inWord sp w rest hsp hw hnext =>
      cases sp with
      | cons e sp =>
          obtain ⟨-, rfl⟩ := List.cons.inj htext
          exact .inWord rest (fun e he => hsp e (by simp [he])) hw hnext
      | nil =>
          cases w with
          | cons e w =>
              obtain ⟨-, rfl⟩ := List.cons.inj htext
              exact idle_word rest (fun e he => hw e (by simp [he])) hnext
          | nil =>
              cases rest with
              | nil => cases htext
              | cons next rest =>
                  obtain ⟨sp, c⟩ := next
                  rw [ClauseList.tailText_cons] at htext
                  obtain ⟨-, rfl⟩ := List.cons.inj htext
                  exact idle_text sp (hnext (sp, c) rfl) rest
  | beforeClause sp' c rest hsp hw hne hwho =>
      rw [htext, matchItems_swallow hsp hw hne sp' hwho rest] at h
      cases h

/-- **An idle text edits nothing.** -/
theorem Idle.gsubState_eq {s : LStr} (hs : Idle s) (afterMatch : Bool) (m : ν) :
    gsubState ⟨false, clauseItems⟩ (mungeClause B) s afterMatch m = m := by
  refine gsubState_of_invariant (D := Idle) rfl ?_ (fun c s => Idle.skip_step) hs afterMatch
  intro s t caps hs h
  obtain ⟨hm, ht⟩ := hs.match_step B h m
  obtain ⟨sp₀, w₁, sp₁, c, sp₂, w₂, commas, rfl, -, -, -, -, -, -, hcaps⟩ :=
    exists_parts_of_match h
  refine ⟨by simp; omega, ?_, ht⟩
  rw [results, if_neg (by rintro rfl; cases hcaps)]
  exact hm

/-- Whether a clause has class letters. -/
def Clause.hasWho (c : Clause) : Bool := !c.who.isEmpty

/-- A clause names users if its list of them is not empty. -/
theorem Clause.hasWho_iff (c : Clause) : c.hasWho ↔ c.who ≠ [] := by simp [hasWho]

namespace ClauseList

/-- The clauses in front of the first one without class letters. -/
def heard (cs : ClauseList) : List Clause := cs.clauses.takeWhile Clause.hasWho

/-- The first clause without class letters and those behind it. -/
def unheard (cs : ClauseList) : List Clause := cs.clauses.dropWhile Clause.hasWho

/-- The clauses that are heard and those that are not are all of them. -/
theorem heard_append_unheard (cs : ClauseList) : cs.heard ++ cs.unheard = cs.clauses :=
  List.takeWhile_append_dropWhile

/-- The text of clauses behind each other. -/
theorem tailText_append (rest rest' : List (Spaces × Clause)) :
    tailText (rest ++ rest') = tailText rest ++ tailText rest' := by simp [tailText]

end ClauseList

/-- **The loop hears the clauses up to the first without class letters.** -/
theorem gsubState_heard {cs : ClauseList} (hwho : cs.first.who ≠ []) (m : ν) :
    gsubState ⟨false, clauseItems⟩ (mungeClause B) cs.text false m
      = cs.heard.foldl (fun m c => (mungeClause B m c.captures).1) m := by
  obtain ⟨first, rest⟩ := cs
  -- The clauses with class letters in front are edited; what is behind them is idle.
  let front := rest.takeWhile (Clause.hasWho ∘ Prod.snd)
  have hheard : ClauseList.heard ⟨first, rest⟩ = first :: front.map Prod.snd := by
    rw [ClauseList.heard, ClauseList.clauses,
      List.takeWhile_cons_of_pos ((Clause.hasWho_iff first).mpr hwho), List.takeWhile_map]
  have hfront : ∀ c ∈ first :: front.map Prod.snd, c.who ≠ [] := by
    intro c hc
    rw [← hheard] at hc
    exact (Clause.hasWho_iff c).mp (List.mem_takeWhile_imp hc)
  have htext : ClauseList.text ⟨first, rest⟩ = Spaces.empty.chars ++ (first.text ++
      (tailText front ++ tailText (rest.dropWhile (Clause.hasWho ∘ Prod.snd)))) := by
    rw [← ClauseList.tailText_append, List.takeWhile_append_dropWhile]
    rfl
  rw [htext, hheard]
  cases hback : rest.dropWhile (Clause.hasWho ∘ Prod.snd) with
  | nil =>
      have hloop := gsubState_clauses B .empty [] [] hfront (by simp) (stopsAt_nil _)
        (stopsAt_nil _) false m
      rw [List.append_nil] at hloop
      rw [ClauseList.tailText_nil, hloop, gsubState_nil true _ (by decide)]
  | cons next back =>
      obtain ⟨sp, c⟩ := next
      have hc : c.who = [] := by
        have hhead := List.head?_dropWhile_not (Clause.hasWho ∘ Prod.snd) rest
        rw [hback] at hhead
        simpa [Clause.hasWho] using hhead
      have hloop := gsubState_clauses B .empty [','] _ hfront (by simp) (by simp)
        (stopsAt_comma sp c (tailText back)) false m
      rw [ClauseList.tailText_cons, ← List.singleton_append, hloop,
        (idle_text sp hc back).gsubState_eq B]

end Loop

/-! ## The documented meaning -/

/-- A clause as documented: without class letters it acts on user, group and other. -/
def Clause.documented (c : Clause) : Clause := if c.who = [] then { c with who := [.a] } else c

/-- The documented meaning of a clause list: `mode_munch` returns the mode the clauses make,
one without class letters acting on user, group and other alike. -/
def ClauseList.AsDocumented (cs : ClauseList) : Prop :=
  ∀ m, modeMunch posixBitwise m (some cs.text)
    = .ok (.mode ((cs.clauses.map Clause.documented).foldl Clause.apply m))

/-- A clause list starts with class letters, and every bit that the clauses from the first one
without class letters on settle has been settled to the same by the clauses before. -/
def ClauseList.UnheardRedundant (cs : ClauseList) : Prop :=
  cs.first.who ≠ [] ∧ ∀ k < 64, ∀ v,
    settled (cs.unheard.map fun c => c.documented.bitEdit k) = some v →
      settled (cs.heard.map (Clause.bitEdit k)) = some v

/-- With class letters in front, the clauses heard are what counts. -/
theorem modeMunch_heard (m : LuaInteger) {cs : ClauseList} (hwho : cs.first.who ≠ []) :
    modeMunch posixBitwise m (some cs.text) = .ok (.mode (cs.heard.foldl Clause.apply m)) := by
  have hloop := gsubState_heard posixBitwise hwho m
  simp only [mungeClause_captures] at hloop
  rw [ClauseList.text] at hloop ⊢
  rw [modeMunch_clause_append posixBitwise m hwho, hloop]

/-- The documented meaning goes on from the clauses heard. -/
theorem foldl_documented (m : LuaInteger) (cs : ClauseList) :
    (cs.clauses.map Clause.documented).foldl Clause.apply m
      = (cs.unheard.map Clause.documented).foldl Clause.apply
          (cs.heard.foldl Clause.apply m) := by
  have hheard : cs.heard.map Clause.documented = cs.heard := by
    refine (List.map_congr_left fun c hc => ?_).trans (List.map_id _)
    have hwho : c.who ≠ [] := (Clause.hasWho_iff c).mp (List.mem_takeWhile_imp hc)
    rw [Clause.documented, if_neg hwho, id]
  rw [← cs.heard_append_unheard, List.map_append, List.foldl_append, hheard]

/-- No class holds the sign bit of an integer. -/
theorem sel_sign (c : Clause) : c.sel.getLsbD 63 = false := by
  have hwho : ∀ w : Who, w.mask.getLsbD 63 = false := by
    intro w
    cases w <;> decide
  rw [Clause.sel, getLsbD_foldr_or, List.any_eq_false]
  intro w _
  rw [hwho w]
  exact Bool.false_ne_true

/-- White space is no octal digit. -/
theorem isOctal_of_isspace {d : Char} (h : isspace d) : isOctal d = false := by
  by_contra hoct
  have hle := toNat_of_isOctal ((Bool.not_eq_false _).mp hoct)
  simp only [isspace, Bool.or_eq_true, beq_iff_eq, Bool.and_eq_true, decide_eq_true_eq] at h
  rcases h with rfl | h
  · exact absurd hle.1 (by decide)
  · omega

/-- A clause list without class letters in front starts with white space or an operator. -/
theorem exists_cons_of_who_nil {cs : ClauseList} (hwho : cs.first.who = []) :
    ∃ d t, cs.text = d :: t ∧ d.isAlpha = false ∧ isOctal d = false := by
  have htext : cs.text = cs.first.beforeOp.chars ++ (cs.first.opText ++ tailText cs.rest) := by
    simp [ClauseList.text, Clause.text, hwho]
  rw [htext]
  cases hsp : cs.first.beforeOp.chars with
  | nil =>
      refine ⟨_, _, rfl, isAlpha_opChar _, ?_⟩
      cases cs.first.op <;> rfl
  | cons d sp =>
      have hspace := cs.first.beforeOp.isspace_of_mem d (by simp [hsp])
      exact ⟨d, _, rfl, isAlpha_of_isspace hspace, isOctal_of_isspace hspace⟩

/-- A clause list is read as longhand or not at all when it starts without class letters: its
starting mode is lost. -/
theorem not_asDocumented_of_who_nil {cs : ClauseList} (hwho : cs.first.who = []) :
    ¬ cs.AsDocumented := by
  intro h
  have hlong : LonghandLetters cs.text := by
    obtain ⟨d, t, htext, halpha, hoctal⟩ := exists_cons_of_who_nil hwho
    rcases (modeMunch_accepts_iff posixBitwise 0 cs.text).mp ⟨_, h 0⟩ with hs | ⟨-, hoct⟩ | hguard
    · exact hs
    · rw [htext] at hoct
      exact absurd (hoct d (by simp)) (by simp [hoctal])
    · obtain ⟨w, u, hw⟩ := exists_cons_of_clauseGuard hguard
      rw [htext] at hw
      rw [(List.cons.inj hw).1, w.isAlpha_char] at halpha
      cases halpha
  -- The longhand branch ignores the starting mode, the documented meaning keeps its sign bit.
  have hsame := (h 0).symm.trans ((modeMunch_longhand posixBitwise 0 hlong.length_eq
    hlong.letters).trans ((modeMunch_longhand posixBitwise (BitVec.twoPow 64 63)
      hlong.length_eq hlong.letters).symm.trans (h (BitVec.twoPow 64 63))))
  have hfold : (cs.clauses.map Clause.documented).foldl Clause.apply 0
      = (cs.clauses.map Clause.documented).foldl Clause.apply (BitVec.twoPow 64 63) := by
    exact Munched.mode.inj (Except.ok.inj hsame)
  have hbit := congrArg (fun m => m.getLsbD 63) hfold
  simp only [foldl_apply_unselected _ (show 63 < 64 by decide) fun c _ => sel_sign c] at hbit
  exact absurd hbit (by decide)

/-- **The documented formats**: a longhand is always accepted, and a clause list means what is
documented, for every starting mode, exactly where it starts with class letters and ignoring
the clauses from the first one without them on makes no difference. -/
theorem modeMunch_documented_iff (h : Longhand) (cs : ClauseList) :
    (∀ m, ∃ bits, modeMunch posixBitwise m (some h.text) = .ok (.mode bits)) ∧
    (cs.AsDocumented ↔ cs.UnheardRedundant) := by
  refine ⟨fun m => ⟨h.bits, modeMunch_text_longhand m h⟩, ?_⟩
  by_cases hwho : cs.first.who = []
  · -- The list starts without class letters, and is no documented list as it is read.
    exact ⟨fun h => absurd h (not_asDocumented_of_who_nil hwho), fun h => absurd hwho h.1⟩
  · have habsorbs := foldl_apply_absorbs_iff cs.heard (cs.unheard.map Clause.documented)
    simp only [List.map_map] at habsorbs
    rw [ClauseList.UnheardRedundant, and_iff_right hwho]
    refine Iff.trans ?_ habsorbs
    refine forall_congr' fun m => ?_
    rw [modeMunch_heard m hwho, foldl_documented]
    constructor
    · intro h
      injection h with h
      injection h with h
      exact h.symm
    · intro h
      rw [h]

/-- `+x`, the documentation's example, is a bad mode, and `u+x,+w` does what `u+x` does. -/
theorem modeMunch_plus_x :
    modeMunch posixBitwise 0o644 (some "+x".toList) = .ok (.bad (some "bad mode")) ∧
    modeMunch posixBitwise 0o444 (some "u+x,+w".toList) = .ok (.mode 0o544) := by
  decide

end LuaPosix

import LuaPosix.Posix.FieldNames

/-! # The buffer of `strftime`

`Pstrftime` gives `strftime` 256 bytes and does not ask for the length of what was written, which
is 0 where the expansion did not fit. -/

namespace LuaPosix.Time

open LuaPattern (LStr)

variable {σ : Type} {S : System σ} {expand : LStr → Tm → σ → LStr} {args : List LuaValue}
  {w : World σ Call}

/-- The C library writes an expansion that fits in the 256 bytes with a zero after it. What is in
the buffer where the expansion does not fit is not said. -/
def System.Expands (S : System σ) (expand : LStr → Tm → σ → LStr) : Prop :=
  ∀ fmt t sys, (expand fmt t sys).length < 256 →
    cstring (S.strftime fmt t sys).1 = expand fmt t sys

/-- What `Pstrftime` accepts: a format and the table of a time. -/
structure StrftimeArgs (S : System σ) (args : List LuaValue) (H : Heap) (fmt : LStr) (t : Tm) :
    Prop where
  fmt : checklstring args S.num.numberText 1 = .ok fmt
  tm : totm S.num args 2 H = .ok t
  nargs : checknargs args 2 = .ok ()

/-- The whole expansion is returned, or an error raised. -/
def WholeExpansion (S : System σ) (expand : LStr → Tm → σ → LStr) (args : List LuaValue)
    (w : World σ Call) : Prop :=
  (∃ e w', (Pstrftime S args).run w = .error (.raises e) w') ∨
  ∃ fmt t w', StrftimeArgs S args w.heap fmt t ∧
    (Pstrftime S args).run w = .ok [.string (expand (cstring fmt) t w.sys)] w'

/-- What is accepted is expanded, and pushed from the buffer. -/
theorem run_Pstrftime {fmt : LStr} {t : Tm} (h : StrftimeArgs S args w.heap fmt t) :
    ∃ w', (Pstrftime S args).run w = (liftM (pushbuffer 256
      (S.strftime (cstring fmt) t w.sys).1) : BindingM σ Call (List LuaValue)).run w' := by
  rw [Pstrftime, h.fmt, h.nargs]
  simp only [EStateM.run_bind, BindingM.run_lua_ok, BindingM.run_read, h.tm,
    BindingM.run_lift_ok, BindingM.run_libcall]
  exact ⟨_, rfl⟩

/-- A table that `totm` does not accept raises an error. -/
theorem totm_eq_error {N : Numerals} {index : Nat} {H : Heap} {e : Fault}
    (h : totm N args index H = .error e) : ∃ e', e = .raises e' := by
  rw [totm] at h
  cases htable : checktable args index with
  | error e' =>
      rw [htable] at h
      cases h
      exact ⟨e', rfl⟩
  | ok p =>
      rw [htable, CallM.lift_ok, CallM.ok_bind] at h
      rcases FieldNames.checks_tmFields (N := N) (H := H) (t := p)
        with ⟨-, t, hok⟩ | ⟨-, narg, msg, herr⟩
      · rw [hok] at h
        cases h
      · rw [herr] at h
        cases h
        exact ⟨_, rfl⟩

/-- What is not accepted raises an error. -/
theorem raises_Pstrftime (h : ¬∃ fmt t, StrftimeArgs S args w.heap fmt t) :
    ∃ e w', (Pstrftime S args).run w = .error (.raises e) w' := by
  rw [Pstrftime]
  cases hfmt : checklstring args S.num.numberText 1 with
  | error e => exact ⟨e, w, rfl⟩
  | ok fmt =>
      simp only [EStateM.run_bind, BindingM.run_lua_ok, BindingM.run_read]
      cases htm : totm S.num args 2 w.heap with
      | error e =>
          obtain ⟨e', rfl⟩ := totm_eq_error htm
          exact ⟨e', w, rfl⟩
      | ok t =>
          cases hnargs : checknargs args 2 with
          | error e => exact ⟨e, w, rfl⟩
          | ok u => exact absurd ⟨fmt, t, hfmt, htm, hnargs⟩ h

/-- **`strftime` returns the whole expansion if and only if** it has at most 255 bytes. -/
theorem wholeExpansion_iff (hexpands : S.Expands expand) : WholeExpansion S expand args w ↔
    ∀ fmt t, StrftimeArgs S args w.heap fmt t → (expand (cstring fmt) t w.sys).length < 256 := by
  constructor
  · intro hwhole fmt t h
    obtain ⟨w', hrun⟩ := run_Pstrftime h
    rw [pushbuffer] at hrun
    split_ifs at hrun with hlt
    · rcases hwhole with ⟨e, w₁, herr⟩ | ⟨fmt', t', w₁, h', hok⟩
      · rw [hrun] at herr
        cases herr
      · -- The arguments were read alike.
        have hfmt : fmt' = fmt := Except.ok.inj (h'.fmt.symm.trans h.fmt)
        have ht : t' = t := Except.ok.inj (h'.tm.symm.trans h.tm)
        rw [hrun, hfmt, ht, BindingM.run_lift_ok] at hok
        injection hok with hstring
        rw [← LuaValue.string.inj (List.cons.inj hstring).1]
        exact hlt
    · rcases hwhole with ⟨e, w₁, herr⟩ | ⟨fmt', t', w₁, -, hok⟩
      · rw [hrun, BindingM.run_lift_error] at herr
        injection herr with hfault
        cases hfault
      · rw [hrun, BindingM.run_lift_error] at hok
        cases hok
  · intro hlt
    by_cases hargs : ∃ fmt t, StrftimeArgs S args w.heap fmt t
    · obtain ⟨fmt, t, h⟩ := hargs
      obtain ⟨w', hrun⟩ := run_Pstrftime h
      have hbuffer := hexpands (cstring fmt) t w.sys (hlt fmt t h)
      have hpush : pushbuffer 256 (S.strftime (cstring fmt) t w.sys).1
          = .ok [.string (expand (cstring fmt) t w.sys)] := by
        rw [pushbuffer, hbuffer, if_pos (hlt fmt t h)]
      rw [hpush] at hrun
      exact .inr ⟨fmt, t, w', h, hrun⟩
    · exact .inl (raises_Pstrftime hargs)

/-- Formats without conversions, which are expanded to themselves. -/
def plainText (fmt : LStr) (_ : Tm) (_ : Unit) : LStr := cstring fmt

/-- A system that expands them, and leaves nothing in the buffer where they do not fit. -/
def System.plain : System Unit where
  __ := System.newYear
  strftime fmt _ sys := (if (cstring fmt).length < 256 then cstring fmt else [], sys)

/-- The plain system expands as its formats say. -/
theorem expands_plainText : System.plain.Expands plainText := by
  intro fmt t sys hlt
  show cstring (if (cstring fmt).length < 256 then cstring fmt else []) = cstring fmt
  rw [plainText] at hlt
  rw [if_pos hlt, cstring_cstring]

/-- A format of so many letters, and an empty table. -/
def letterArgs (n : Nat) : List LuaValue := [.string (List.replicate n 'x'), .table 0]

/-- A world with an empty table. -/
def emptyTable : World Unit Call := ⟨0, Heap.empty.createtable.2, (), []⟩

/-- On it the expansion is whole where it is shorter than the buffer. -/
theorem wholeExpansion_plainText :
    WholeExpansion System.plain plainText (letterArgs 3) emptyTable ↔
      ∀ fmt t, StrftimeArgs System.plain (letterArgs 3) emptyTable.heap fmt t →
        (plainText (cstring fmt) t emptyTable.sys).length < 256 :=
  wholeExpansion_iff expands_plainText

/-- Letters have no zero among them. -/
theorem cstring_letters (n : Nat) :
    cstring (List.replicate n 'x') = List.replicate n 'x' := by
  rw [cstring, List.takeWhile_replicate, if_pos (by decide)]

/-- The system leaves nothing in the buffer for so many letters. -/
theorem strftime_letters {n : Nat} (hn : 256 ≤ n) (t : Tm) :
    (System.plain.strftime (cstring (List.replicate n 'x')) t ()).1 = [] := by
  show (if (cstring (cstring (List.replicate n 'x'))).length < 256 then _ else _) = _
  rw [cstring_letters, cstring_letters, if_neg (by rw [List.length_replicate]; omega)]

/-- The empty string is returned for them. -/
theorem run_letters {n : Nat} (hn : 256 ≤ n) :
    ∃ w', (Pstrftime System.plain (letterArgs n)).run emptyTable = .ok [.string []] w' := by
  obtain ⟨t, htm⟩ : ∃ t, totm System.plain.num (letterArgs n) 2 emptyTable.heap = .ok t :=
    ⟨_, rfl⟩
  obtain ⟨w', hrun⟩ := run_Pstrftime (S := System.plain)
    (w := emptyTable) ⟨rfl, htm, rfl⟩
  have hempty : (System.plain.strftime (cstring (List.replicate n 'x')) t emptyTable.sys).1 = [] :=
    strftime_letters hn t
  rw [hempty] at hrun
  exact ⟨w', hrun⟩

/-- From 256 letters on the expansion is lost. -/
theorem not_wholeExpansion_letters {n : Nat} (hn : 256 ≤ n) :
    ¬WholeExpansion System.plain plainText (letterArgs n) emptyTable := by
  obtain ⟨w', hrun⟩ := run_letters hn
  rintro (⟨e, w₁, herr⟩ | ⟨fmt, t', w₁, hargs, hwhole⟩)
  · rw [hrun] at herr
    cases herr
  · rw [hrun] at hwhole
    injection hwhole with hstring
    have hfmt : List.replicate n 'x' = fmt := Except.ok.inj hargs.fmt
    have hlength := congrArg List.length (LuaValue.string.inj (List.cons.inj hstring).1)
    rw [plainText, ← hfmt, cstring_letters, cstring_letters, List.length_replicate] at hlength
    exact absurd hlength.symm (by rw [List.length_nil]; omega)

/-- Of a format of 256 letters nothing is returned, and no error is raised. -/
theorem letters_lost :
    System.plain.Expands plainText ∧
    (∃ w', (Pstrftime System.plain (letterArgs 256)).run emptyTable = .ok [.string []] w') ∧
    ¬WholeExpansion System.plain plainText (letterArgs 256) emptyTable :=
  ⟨expands_plainText, run_letters (Nat.le_refl 256), not_wholeExpansion_letters (Nat.le_refl 256)⟩

end LuaPosix.Time

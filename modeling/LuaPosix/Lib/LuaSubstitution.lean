import LuaPosix.Lib.LuaPatternMatching

/-! # Substitutions that may raise

A callback of `string.gsub` that raises leaves the call at once. The loop of the library keeps a
state for its callback; here the state is the error, after which the callback is not asked any
more. The call is then described by what happens at the start of the subject: a match is replaced,
and a character that begins none is copied. -/

namespace LuaPattern

variable {ε : Type}

/-- A callback that is not called again after it has raised. -/
def raising (f : List LStr → Except ε (Option LStr)) (st : Except ε Unit) (caps : List LStr) :
    Except ε Unit × Option LStr :=
  match st with
  | .error e => (.error e, none)
  | .ok () =>
      match f caps with
      | .ok text => (.ok (), text)
      | .error e => (.error e, none)

/-- The loop of `string.gsub` with such a callback: the text and the number of matches. -/
def substitute (p : Pattern) (f : List LStr → Except ε (Option LStr)) (s : LStr)
    (afterMatch : Bool) : Except ε (LStr × Nat) :=
  match gsubLoop p (raising f) (s.length + 1) s afterMatch (.ok ()) with
  | (.ok (), text, n) => .ok (text, n)
  | (.error e, _) => .error e

/-- `string.gsub(s, pattern, f)`, none for a malformed pattern. -/
def gsubRaising (s pattern : LStr) (f : List LStr → Except ε (Option LStr)) :
    Option (Except ε (LStr × Nat)) :=
  (parse pattern).map fun p => substitute p f s false

section Loop

variable {p : Pattern} {f : List LStr → Except ε (Option LStr)} {s rest : LStr} {caps : List Cap}

/-- An error stays. -/
theorem gsubLoop_raised (e : ε) (fuel : Nat) (s : LStr) (afterMatch : Bool) :
    (gsubLoop p (raising f) fuel s afterMatch (.error e)).1 = .error e := by
  obtain ⟨calls, hcalls⟩ := exists_gsubLoop_eq_foldl p fuel s afterMatch (σ := Except ε Unit)
  rw [hcalls]
  clear hcalls
  induction calls with
  | nil => rfl
  | cons caps calls ih => exact ih

/-- The end of the subject. -/
theorem substitute_nil (h : matchItems p.items [] [] = none) (afterMatch : Bool) :
    substitute p f [] afterMatch = .ok ([], 0) := by
  rw [substitute, gsubLoop, h]
  cases p.anchored <;> rfl

/-- A match that is not empty. -/
theorem substitute_match (hp : p.anchored = false)
    (h : matchItems p.items s [] = some (rest, caps)) (hlt : rest.length < s.length)
    (afterMatch : Bool) :
    substitute p f s afterMatch = (do
      let text ← f (results s rest caps)
      let (tail, n) ← substitute p f rest true
      return (replacement s rest text ++ tail, n + 1)) := by
  rw [substitute, gsubLoop, h]
  simp only [if_pos hlt, hp, Bool.false_eq_true, if_false]
  cases hf : f (results s rest caps) with
  | error e =>
      -- the state is the error from here on
      have hraised := @gsubLoop_raised ε p f e s.length rest true
      simp only [raising, hf, hraised]
      rfl
  | ok text =>
      simp only [raising, hf, substitute]
      rw [gsubLoop_fuel hlt (Nat.lt_succ_self rest.length)]
      cases hloop : gsubLoop p (raising f) (rest.length + 1) rest true (.ok ()) with
      | mk st out =>
          cases st <;> rfl

/-- A character that begins no match. -/
theorem substitute_skip {c : Char} (hp : p.anchored = false)
    (h : matchItems p.items (c :: s) [] = none) (afterMatch : Bool) :
    substitute p f (c :: s) afterMatch = (do
      let (tail, n) ← substitute p f s false
      return (c :: tail, n)) := by
  rw [substitute, gsubLoop, h]
  simp only [hp, Bool.false_eq_true, if_false, substitute, List.length_cons]
  cases hloop : gsubLoop p (raising f) (s.length + 1) s false (.ok ()) with
  | mk st out =>
      cases st with
      | error e => rfl
      | ok u => simp

end Loop

end LuaPattern

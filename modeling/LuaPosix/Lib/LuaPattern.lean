import Mathlib.Data.List.Basic

/-! # Lua patterns

The matcher behind `string.match` and `string.gsub`. A Lua string is a list of
characters, one a byte; the character classes are those of the C locale. A pattern is
parsed once into a list of items and matched by backtracking in the order the reference
implementation tries the alternatives. The fragment leaves out `%b`, `%f`, back references
and position captures: `parse` refuses them.

* `parse` reads a pattern's text.
* `matchItems` matches at one position, `luaMatch` searches for the first position.
* `gsub` threads a callback's state through the successive matches.
-/

namespace LuaPattern

/-- A Lua string: one character a byte. -/
abbrev LStr := List Char

/-! ## Character classes -/

/-- `isspace` of the C locale. -/
def isspace (c : Char) : Bool := c == ' ' || (9 ≤ c.toNat && c.toNat ≤ 13)

/-- White space is not a letter. -/
theorem isAlpha_of_isspace {c : Char} (h : isspace c) : c.isAlpha = false := by
  have hc : c.toNat = 32 ∨ 9 ≤ c.toNat ∧ c.toNat ≤ 13 := by
    simp only [isspace, Bool.or_eq_true, beq_iff_eq, Bool.and_eq_true, decide_eq_true_eq] at h
    rcases h with rfl | h
    · exact .inl rfl
    · exact .inr h
  obtain ⟨d, rfl⟩ : ∃ d : Fin 33, c = Char.ofNat d :=
    ⟨⟨c.toNat, by omega⟩, (Char.ofNat_toNat c).symm⟩
  clear h hc
  revert d
  decide

/-- `isgraph` of the C locale. -/
def isgraph (c : Char) : Bool := 33 ≤ c.toNat && c.toNat ≤ 126

/-- `isxdigit` of the C locale. -/
def isxdigit (c : Char) : Bool :=
  c.isDigit || ('a' ≤ c && c ≤ 'f') || ('A' ≤ c && c ≤ 'F')

/-- The predicate a lower-case class letter names, when it names one. -/
def namedClass : Char → Option (Char → Bool)
  | 'a' => some Char.isAlpha
  | 'c' => some fun c => c.toNat < 32 || c.toNat == 127
  | 'd' => some Char.isDigit
  | 'g' => some isgraph
  | 'l' => some Char.isLower
  | 'p' => some fun c => isgraph c && !c.isAlphanum
  | 's' => some isspace
  | 'u' => some Char.isUpper
  | 'w' => some Char.isAlphanum
  | 'x' => some isxdigit
  | _ => none

/-- `%cl`: a class letter, its upper-case complement, or any other character escaped. -/
def matchClass (cl c : Char) : Bool :=
  match namedClass cl.toLower with
  | some p => if cl.isUpper then !p c else p c
  | none => cl == c

/-- One element of a bracketed set. -/
inductive SetItem where
  /-- A character that stands for itself. -/
  | lit (c : Char)
  /-- An escape `%cl`. -/
  | esc (cl : Char)
  /-- A range `lo-hi`. -/
  | range (lo hi : Char)
  deriving DecidableEq, Repr

/-- Whether a set element contains a character. -/
def SetItem.mem (c : Char) : SetItem → Bool
  | .lit d => d == c
  | .esc cl => matchClass cl c
  | .range lo hi => lo ≤ c && c ≤ hi

/-- What matches a single character. -/
inductive CharClass where
  /-- `.`, any character. -/
  | any
  /-- A character that stands for itself. -/
  | lit (c : Char)
  /-- An escape `%cl`. -/
  | esc (cl : Char)
  /-- A set `[…]`, complemented when written `[^…]`. -/
  | set (complement : Bool) (items : List SetItem)
  deriving DecidableEq, Repr

/-- Whether a class contains a character. -/
def CharClass.mem (c : Char) : CharClass → Bool
  | .any => true
  | .lit d => d == c
  | .esc cl => matchClass cl c
  | .set complement items => complement != items.any (SetItem.mem c)

/-! ## Patterns -/

/-- One pattern item. -/
inductive Item where
  /-- One character of the class. -/
  | single (cc : CharClass)
  /-- `*`: as many characters of the class as possible. -/
  | star (cc : CharClass)
  /-- `+`: as many as possible, at least one. -/
  | plus (cc : CharClass)
  /-- `-`: as few as possible. -/
  | minus (cc : CharClass)
  /-- `?`: one if possible. -/
  | opt (cc : CharClass)
  /-- `(`: a capture starts. -/
  | openCap
  /-- `)`: the innermost open capture ends. -/
  | closeCap
  /-- A final `$`: the end of the subject. -/
  | eos
  deriving DecidableEq, Repr

/-- A pattern: an optional `^` anchor and its items. -/
structure Pattern where
  /-- Whether the pattern starts with `^`. -/
  anchored : Bool
  /-- The items in order. -/
  items : List Item
  deriving DecidableEq, Repr

/-- Read a set's elements up to its closing bracket; the first character cannot close it. -/
def parseSet : (first : Bool) → LStr → Option (List SetItem × LStr)
  | _, [] => none
  | first, ']' :: rest =>
      if first then (parseSet false rest).map fun (is, r) => (.lit ']' :: is, r)
      else some ([], rest)
  | _, ['%'] => none
  | _, '%' :: cl :: rest => (parseSet false rest).map fun (is, r) => (.esc cl :: is, r)
  | _, [_] => none
  | _, [c, d] => (parseSet false [d]).map fun (is, r) => (.lit c :: is, r)
  | _, lo :: '-' :: hi :: rest =>
      -- A dash right before the closing bracket stands for itself.
      if hi = ']' then (parseSet false ('-' :: hi :: rest)).map fun (is, r) => (.lit lo :: is, r)
      else (parseSet false rest).map fun (is, r) => (.range lo hi :: is, r)
  | _, c :: rest => (parseSet false rest).map fun (is, r) => (.lit c :: is, r)

/-- Attach the repetition suffix that follows a class, if there is one. -/
def parseSuffix (cc : CharClass) : LStr → Item × LStr
  | '*' :: rest => (.star cc, rest)
  | '+' :: rest => (.plus cc, rest)
  | '-' :: rest => (.minus cc, rest)
  | '?' :: rest => (.opt cc, rest)
  | rest => (.single cc, rest)

/-- Read one class. `%b`, `%f` and `%1` … `%9` are outside the fragment. -/
def parseClass : LStr → Option (CharClass × LStr)
  | [] => none
  | '.' :: rest => some (.any, rest)
  | '%' :: cl :: rest =>
      if cl = 'b' ∨ cl = 'f' ∨ cl.isDigit then none else some (.esc cl, rest)
  | ['%'] => none
  | '[' :: '^' :: rest => (parseSet true rest).map fun (is, r) => (.set true is, r)
  | '[' :: rest => (parseSet true rest).map fun (is, r) => (.set false is, r)
  | c :: rest => some (.lit c, rest)

/-- Read the items; `depth` counts the open captures, and each step uses one unit of fuel. -/
def parseItems : (fuel depth : Nat) → LStr → Option (List Item)
  | 0, _, _ => none
  | _ + 1, depth, [] => if depth = 0 then some [] else none
  | _ + 1, depth, ['$'] => if depth = 0 then some [.eos] else none
  -- `()` is a position capture.
  | _ + 1, _, '(' :: ')' :: _ => none
  | fuel + 1, depth, '(' :: rest => (parseItems fuel (depth + 1) rest).map (.openCap :: ·)
  | fuel + 1, depth, ')' :: rest =>
      if depth = 0 then none else (parseItems fuel (depth - 1) rest).map (.closeCap :: ·)
  | fuel + 1, depth, s => do
      let (cc, rest) ← parseClass s
      let (item, rest) := parseSuffix cc rest
      (parseItems fuel depth rest).map (item :: ·)

/-- Read a pattern's text. -/
def parse : LStr → Option Pattern
  | '^' :: rest => (parseItems (rest.length + 1) 0 rest).map (Pattern.mk true)
  | s => (parseItems (s.length + 1) 0 s).map (Pattern.mk false)

/-! ## Matching -/

/-- A capture: what was left of the subject where it opened, or its text. -/
inductive Cap where
  /-- Opened in front of `rest`. -/
  | opened (rest : LStr)
  /-- Closed around `text`. -/
  | closed (text : LStr)
  deriving DecidableEq, Repr

/-- Close the innermost open capture in front of `s`; the latest capture comes first. -/
def closeCapture (s : LStr) : List Cap → List Cap
  | [] => []
  | .opened start :: caps => .closed (start.take (start.length - s.length)) :: caps
  | .closed text :: caps => .closed text :: closeCapture s caps

/-- The texts of the captures, in the order they opened. -/
def captureTexts (caps : List Cap) : List LStr :=
  caps.reverse.map fun
    | .opened rest => rest
    | .closed text => text

section Expand

variable {α : Type*}

/-- Longest first: take characters of the class while there are any, then give them back. -/
def maxExpand (cc : CharClass) (k : LStr → Option α) : LStr → Option α
  | [] => k []
  | c :: s => if cc.mem c then (maxExpand cc k s).or (k (c :: s)) else k (c :: s)

/-- Shortest first: try the rest of the pattern, then take one more character of the class. -/
def minExpand (cc : CharClass) (k : LStr → Option α) : LStr → Option α
  | [] => k []
  | c :: s => (k (c :: s)).or (if cc.mem c then minExpand cc k s else none)

end Expand

/-- Match the items at the start of the subject: what is left of it, and the captures. -/
def matchItems : List Item → LStr → List Cap → Option (LStr × List Cap)
  | [], s, caps => some (s, caps)
  | .single cc :: items, s, caps =>
      match s with
      | [] => none
      | c :: s => if cc.mem c then matchItems items s caps else none
  | .star cc :: items, s, caps => maxExpand cc (fun s => matchItems items s caps) s
  | .plus cc :: items, s, caps =>
      match s with
      | [] => none
      | c :: s => if cc.mem c then maxExpand cc (fun s => matchItems items s caps) s else none
  | .minus cc :: items, s, caps => minExpand cc (fun s => matchItems items s caps) s
  | .opt cc :: items, s, caps =>
      match s with
      | [] => matchItems items [] caps
      | c :: s =>
          if cc.mem c then (matchItems items s caps).or (matchItems items (c :: s) caps)
          else matchItems items (c :: s) caps
  | .openCap :: items, s, caps => matchItems items s (.opened s :: caps)
  | .closeCap :: items, s, caps => matchItems items s (closeCapture s caps)
  | .eos :: items, s, caps => if s = [] then matchItems items s caps else none

/-- What a successful match yields: its captures, or its whole text when it has none. -/
def results (s rest : LStr) (caps : List Cap) : List LStr :=
  if caps = [] then [s.take (s.length - rest.length)] else captureTexts caps

/-- Match at the first position that allows it; an anchored pattern only tries the start. -/
def search (p : Pattern) : LStr → Option (List LStr)
  | [] => (matchItems p.items [] []).map fun (rest, caps) => results [] rest caps
  | c :: s =>
      match matchItems p.items (c :: s) [] with
      | some (rest, caps) => some (results (c :: s) rest caps)
      | none => if p.anchored then none else search p s

/-- `string.match(s, pattern)`: the captures of the first match. -/
def luaMatch (s pattern : LStr) : Option (List LStr) := do search (← parse pattern) s

section Gsub

variable {σ : Type*}

/-- The text that replaces a match: what the callback gave, or the match itself for nil. -/
def replacement (s rest : LStr) : Option LStr → LStr
  | some text => text
  | none => s.take (s.length - rest.length)

/-- The loop of `string.gsub`. `afterMatch` says that a match ended just here, where an empty
match no longer counts. Every round but the last takes a character, so fuel beyond the length
of the subject is never used up. -/
def gsubLoop (p : Pattern) (f : σ → List LStr → σ × Option LStr) :
    (fuel : Nat) → LStr → (afterMatch : Bool) → σ → σ × LStr × Nat
  | 0, s, _, st => (st, s, 0)
  | fuel + 1, s, afterMatch, st =>
      let skip (st : σ) (out : LStr) (n : Nat) : σ × LStr × Nat :=
        if p.anchored then (st, out ++ s, n)
        else match s with
          | [] => (st, out, n)
          | c :: s =>
              let (st, tail, m) := gsubLoop p f fuel s false st
              (st, out ++ c :: tail, n + m)
      match matchItems p.items s [] with
      | none => skip st [] 0
      | some (rest, caps) =>
          if rest.length < s.length then
            let (st, out) := f st (results s rest caps)
            if p.anchored then (st, replacement s rest out ++ rest, 1)
            else
              let (st, tail, m) := gsubLoop p f fuel rest true st
              (st, replacement s rest out ++ tail, m + 1)
          -- An empty match right behind a match is not a match.
          else if afterMatch then skip st [] 0
          else
            let (st, out) := f st (results s rest caps)
            skip st (replacement s rest out) 1

/-- `string.gsub(s, pattern, f)` with the state `f` keeps made explicit: that state, the
resulting string and the number of matches. -/
def gsub (s pattern : LStr) (f : σ → List LStr → σ × Option LStr) (st : σ) :
    Option (σ × LStr × Nat) :=
  (parse pattern).map fun p => gsubLoop p f (s.length + 1) s false st

end Gsub

end LuaPattern

import LuaPosix.Posix.ArgvSlots
import LuaPosix.Posix.Environment

/-! # Reading a command line

The iterator of `getopt` calls `getopt` of the C library, which keeps in its own variables how far
it has come: in the list the index of a word, and in a word the letters still to be read. Every
list of words is the writing of some options, letters in clusters, arguments in the same word or
the next, up to `--` or an operand; a loop over the iterator gives these options and ends before
the operands. What the C library does is a parameter: a library that does as POSIX documents it,
for specifiers that POSIX knows. -/

namespace LuaPosix.Getopt

open LuaPattern (LStr)
open Stdlib (pushstring)
open Unistd (Call GetoptArgs element)

/-! ## The C library -/

/-- Letters and digits, some followed by a colon. -/
def specified : LStr → Bool
  | [] => true
  | c :: ':' :: ds => c.isAlphanum && specified ds
  | c :: ds => c.isAlphanum && specified ds

/-- The specifiers of POSIX: there may be a colon before them. -/
def Specifiers : LStr → Prop
  | ':' :: ds => specified ds = true
  | ds => specified ds = true

/-- What the upvalues of an iterator say. -/
structure Iterator where
  argv : List LStr
  opts : LStr

/-- The variables of the C library, in a state of its own, and `getopt`: -1 is none. -/
structure Library (σ : Type) where
  getopt : Iterator → σ → Option Char × σ
  optarg : σ → Option LStr
  optind : σ → Int
  setoptind : Int → σ → σ
  setopterr : Int → σ → σ
  /-- `optind` counts an argument that is missing. -/
  past : Bool

/-- An option as it is given to a program: the letter or mark, its argument, and the index of the
next word. -/
structure Opt where
  letter : Char
  arg : Option LStr
  next : Nat

/-- A letter among the specifiers: whether it takes an argument. -/
def lookup : LStr → Char → Option Bool
  | [], _ => none
  | d :: ds, c => if d = c ∧ c ≠ ':' then some (ds.head? = some ':') else lookup ds c

/-- The result for a missing argument. -/
def missing (opts : LStr) : Char := if opts.head? = some ':' then ':' else '?'

/-- What a letter of the `n`-th word stands for, with the letters behind it, and which of these are
left. -/
def readLetter (past : Bool) (it : Iterator) (n : Nat) (c : Char) (rest : LStr) : Opt × LStr :=
  match lookup it.opts c with
  | none => (⟨'?', none, if rest = [] then n + 1 else n⟩, rest)
  | some false => (⟨c, none, if rest = [] then n + 1 else n⟩, rest)
  | some true =>
      if rest = [] then
        match it.argv[n + 1]? with
        | some arg => (⟨c, some arg, n + 2⟩, [])
        | none => (⟨missing it.opts, none, if past then n + 2 else n + 1⟩, [])
      else (⟨c, some rest, n + 1⟩, [])

/-- A word is the beginning of options. -/
def Begins (word : LStr) : Prop := ∃ c rest, word = '-' :: c :: rest

/-- The next letters: those left over, or those of a word that has not been begun. -/
def Letters (it : Iterator) (n : Nat) (place letters : LStr) : Prop :=
  place = letters ∨ place = [] ∧ it.argv[n]? = some ('-' :: letters) ∧ letters ≠ ['-']

/-- **What POSIX documents** of `getopt`. Operands are not moved, and an argument that a letter
takes is never optional; nothing is said about `optarg` where there is none. -/
structure Documented {σ : Type} (G : Library σ) where
  /-- A scan can be begun, as it can when the program starts. -/
  Idle : σ → Prop
  /-- The scan of a vector has come to its `n`-th word, of which these letters are left: none where
  the word has not been begun. -/
  At : Iterator → (n : Nat) → (place : LStr) → σ → Prop
  idle_setopterr : ∀ {s}, Idle s → ∀ i, Idle (G.setopterr i s)
  at_setoptind : ∀ {it s} {n : Nat}, Idle s → Specifiers it.opts → 0 < n → n ≤ it.argv.length →
    At it n [] (G.setoptind n s)
  optind_eq : ∀ {it n place s}, At it n place s → G.optind s = n
  letter : ∀ {it n place c rest s}, At it n place s → Letters it n place (c :: rest) →
    ∃ s', G.getopt it s = (some (readLetter G.past it n c rest).1.letter, s') ∧
      At it (readLetter G.past it n c rest).1.next (readLetter G.past it n c rest).2 s' ∧
      ∀ arg, (readLetter G.past it n c rest).1.arg = some arg → G.optarg s' = some arg
  ends : ∀ {it n s}, At it n [] s → (∀ word ∈ it.argv[n]?, ¬Begins word) →
    ∃ s', G.getopt it s = (none, s') ∧ G.optind s' = n
  stops : ∀ {it n s}, At it n [] s → it.argv[n]? = some ['-', '-'] →
    ∃ s', G.getopt it s = (none, s') ∧ G.optind s' = n + 1

section Model

variable {σ : Type} (G : Library σ) (it : Iterator)

/-- `iter_getopt`. Its vector is never NULL. -/
def iter_getopt (s : σ) : List LuaValue × σ :=
  match G.getopt it s with
  | (none, s') => ([], s')
  | (some c, s') =>
      ([.string [c], pushstring (G.optarg s'), .integer (BitVec.ofInt 64 (G.optind s'))], s')

/-- A loop over the iterator, of at most so many calls: what they return. -/
def forLoop : Nat → σ → CallM (List (List LuaValue) × σ)
  | 0, _ => .error .unfinished
  | fuel + 1, s =>
      match iter_getopt G it s with
      | ([], s') => return ([], s')
      | (vs, s') => do
          let (rest, s'') ← forLoop fuel s'
          return (vs :: rest, s'')

/-- The calls from one state to another return these options. -/
def Gives : σ → List Opt → σ → Prop
  | s, [], s' => s' = s
  | s, o :: os, s' => ∃ v s₁, iter_getopt G it s
      = ([.string [o.letter], v, .integer (BitVec.ofInt 64 o.next)], s₁) ∧
      (∀ arg, o.arg = some arg → v = .string arg) ∧ Gives s₁ os s'

end Model

/-- The values returned show the option. Where it has no argument nothing is said about the second
one. -/
def Shows (vs : List LuaValue) (o : Opt) : Prop :=
  ∃ v, vs = [.string [o.letter], v, .integer (BitVec.ofInt 64 o.next)] ∧
    ∀ arg, o.arg = some arg → v = .string arg

/-! ## Command lines -/

/-- The last letter of a word. -/
inductive Last where
  | flag (c : Char)
  /-- With its argument in the same word. -/
  | attached (c : Char) (arg : LStr)
  /-- With its argument in the next word. -/
  | separate (c : Char) (arg : LStr)

/-- A word with options. -/
structure Word where
  /-- The letters before the last one. -/
  before : LStr
  last : Last

/-- How the options end. -/
inductive Ending where
  | nothing
  | stop (operands : List LStr)
  | operand (word : LStr) (operands : List LStr)
  /-- The last letter lacks its argument. -/
  | missing (before : LStr) (c : Char)

/-- What is written on a command line. -/
structure Line where
  options : List Word
  ending : Ending

section Lines

variable (opts : LStr)

/-- The letters of the last option, and the word for its argument. -/
def Last.letters : Last → LStr
  | .flag c => [c]
  | .attached c arg => c :: arg
  | .separate c _ => [c]

/-- The words behind its own. -/
def Last.more : Last → List LStr
  | .separate _ arg => [arg]
  | _ => []

/-- All letters of a word. -/
def Word.letters (w : Word) : LStr := w.before ++ w.last.letters

/-- The words that are written. -/
def Word.words (w : Word) : List LStr := ('-' :: w.letters) :: w.last.more

/-- The words that are left. -/
def Ending.words : Ending → List LStr
  | .nothing => []
  | .stop operands => ['-', '-'] :: operands
  | .operand word operands => word :: operands
  | .missing before c => ['-' :: (before ++ [c])]

/-- All words. -/
def Line.words (line : Line) : List LStr := line.options.flatMap Word.words ++ line.ending.words

/-- A letter that takes no argument, or is no option. -/
def Plain (c : Char) : Prop := lookup opts c ≠ some true

/-- The last letter is written as the specifiers allow it. -/
def Last.Valid : Last → Prop
  | .flag c => Plain opts c
  | .attached c arg => lookup opts c = some true ∧ arg ≠ []
  | .separate c _ => lookup opts c = some true

/-- And so are all letters of a word. `--` is no such word. -/
structure Word.Valid (w : Word) : Prop where
  before : ∀ c ∈ w.before, Plain opts c
  last : w.last.Valid opts
  letters : w.letters ≠ ['-']

/-- The options end as the specifiers allow it. -/
def Ending.Valid : Ending → Prop
  | .nothing | .stop _ => True
  | .operand word _ => ¬Begins word
  | .missing before c =>
      (∀ c ∈ before, Plain opts c) ∧ lookup opts c = some true ∧ before ++ [c] ≠ ['-']

/-- The line is one that the specifiers allow to be written so. -/
structure Line.Valid (line : Line) : Prop where
  options : ∀ w ∈ line.options, w.Valid opts
  ending : line.ending.Valid opts

/-- What is given for a letter. -/
def shown (c : Char) : Char := if lookup opts c = none then '?' else c

/-- The options of letters that are not the last of the `i`-th word. -/
def flags (i : Nat) (letters : LStr) : List Opt :=
  letters.map fun c => ⟨shown opts c, none, i⟩

/-- The option of the last letter. -/
def Last.opt (i : Nat) : Last → Opt
  | .flag c => ⟨shown opts c, none, i + 1⟩
  | .attached c arg => ⟨c, some arg, i + 1⟩
  | .separate c arg => ⟨c, some arg, i + 2⟩

/-- The options of a word. -/
def Word.given (i : Nat) (w : Word) : List Opt := flags opts i w.before ++ [w.last.opt opts i]

/-- The index of the word after it. -/
def Word.next (i : Nat) (w : Word) : Nat := i + 1 + w.last.more.length

/-- The index of the word behind a missing argument. -/
def behind (past : Bool) (i : Nat) : Nat := if past then i + 2 else i + 1

/-- What is given where the options end. -/
def Ending.given (past : Bool) (i : Nat) : Ending → List Opt
  | .missing before _ => flags opts i before ++ [⟨Getopt.missing opts, none, behind past i⟩]
  | _ => []

/-- The index of the first operand. -/
def Ending.operands (past : Bool) (i : Nat) : Ending → Nat
  | .nothing | .operand _ _ => i
  | .stop _ => i + 1
  | .missing _ _ => behind past i

/-- The options of some words, from the `n`-th on, and the index of the word after them. -/
def givenBy : Nat → List Word → List Opt
  | _, [] => []
  | n, w :: ws => w.given opts n ++ givenBy (w.next n) ws

/-- The index of the word after some words. -/
def nextAfter : Nat → List Word → Nat
  | n, [] => n
  | n, w :: ws => nextAfter (w.next n) ws

/-- **What is written on a line**, from the `n`-th word on. -/
def Line.given (past : Bool) (n : Nat) (line : Line) : List Opt :=
  givenBy opts n line.options ++ line.ending.given opts past (nextAfter n line.options)

/-- The index of its first operand. -/
def Line.operands (past : Bool) (n : Nat) (line : Line) : Nat :=
  line.ending.operands past (nextAfter n line.options)

end Lines

/-! ## Every list of words is written so -/

section Written

variable {opts : LStr}

variable (opts) in
/-- The letters of a word up to the first that takes an argument. -/
theorem split_letters (letters : LStr) : (∀ c ∈ letters, Plain opts c) ∨
    ∃ before c after, letters = before ++ c :: after ∧ (∀ c ∈ before, Plain opts c) ∧
      lookup opts c = some true := by
  induction letters with
  | nil => exact .inl fun _ h => absurd h List.not_mem_nil
  | cons d letters ih =>
      by_cases hd : lookup opts d = some true
      · exact .inr ⟨[], d, letters, rfl, fun _ h => absurd h List.not_mem_nil, hd⟩
      · rcases ih with hplain | ⟨before, c, after, rfl, hbefore, hc⟩
        · exact .inl (List.forall_mem_cons.mpr ⟨hd, hplain⟩)
        · exact .inr ⟨d :: before, c, after, rfl, List.forall_mem_cons.mpr ⟨hd, hbefore⟩, hc⟩

variable (opts) in
/-- A word that begins options is a whole word, or lacks an argument at the end of the list. -/
theorem word_or_missing {letters : LStr} (words : List LStr) (hne : letters ≠ [])
    (hstop : letters ≠ ['-']) :
    (∃ w : Word, w.Valid opts ∧ ∃ rest, w.words ++ rest = ('-' :: letters) :: words ∧
      rest.length ≤ words.length) ∨
    ∃ e : Ending, e.Valid opts ∧ e.words = ('-' :: letters) :: words := by
  rcases split_letters opts letters with hplain | ⟨before, c, after, rfl, hbefore, hc⟩
  · -- only letters without arguments
    have hsplit := List.dropLast_append_getLast hne
    refine .inl ⟨⟨letters.dropLast, .flag (letters.getLast hne)⟩, ⟨?_, ?_, ?_⟩, words, ?_, le_rfl⟩
    · intro c hc
      exact hplain c (List.mem_of_mem_dropLast hc)
    · exact hplain _ (List.getLast_mem hne)
    · exact fun h => hstop (hsplit.symm.trans h)
    · exact congrArg (fun l => ('-' :: l) :: words) hsplit
  · -- the argument is the rest of the word, the next word, or missing
    cases after with
    | cons d after =>
        refine .inl ⟨⟨before, .attached c (d :: after)⟩, ⟨hbefore, ⟨hc, ?_⟩, hstop⟩, words, rfl,
          le_rfl⟩
        exact List.cons_ne_nil d after
    | nil =>
        cases words with
        | nil => exact .inr ⟨.missing before c, ⟨hbefore, hc, hstop⟩, rfl⟩
        | cons arg words =>
            exact .inl ⟨⟨before, .separate c arg⟩, ⟨hbefore, hc, hstop⟩, words, rfl,
              Nat.le_succ _⟩

/-- **Every list of words is the writing of a line.** -/
theorem exists_line (opts : LStr) (words : List LStr) :
    ∃ line : Line, line.Valid opts ∧ line.words = words := by
  -- on the number of words, as an option can take two of them
  induction hn : words.length using Nat.strong_induction_on generalizing words with
  | _ n ih =>
      subst hn
      have hnone : ∀ w ∈ ([] : List Word), w.Valid opts := fun _ h => absurd h List.not_mem_nil
      cases words with
      | nil => exact ⟨⟨[], .nothing⟩, ⟨hnone, trivial⟩, rfl⟩
      | cons word words =>
          by_cases hbegins : Begins word
          · obtain ⟨c, rest, rfl⟩ := hbegins
            by_cases hstop : c :: rest = ['-']
            · rw [hstop]
              exact ⟨⟨[], .stop words⟩, ⟨hnone, trivial⟩, rfl⟩
            · rcases word_or_missing opts words (List.cons_ne_nil c rest) hstop
                with ⟨w, hw, more, hwords, hlength⟩ | ⟨e, he, hwords⟩
              · obtain ⟨line, hline, hmore⟩ := ih more.length (Nat.lt_succ_of_le hlength) more rfl
                refine ⟨⟨w :: line.options, line.ending⟩,
                  ⟨List.forall_mem_cons.mpr ⟨hw, hline.options⟩, hline.ending⟩, ?_⟩
                rw [← hwords, ← hmore]
                exact List.append_assoc _ _ _
              · exact ⟨⟨[], e⟩, ⟨hnone, he⟩, hwords⟩
          · exact ⟨⟨[], .operand word words⟩, ⟨hnone, hbegins⟩, rfl⟩

end Written

/-! ## What the iterator returns -/

section Calls

variable {σ : Type} {G : Library σ} {D : Documented G} {it : Iterator} {s s' s₁ : σ} {n : Nat}
  {c : Char} {letters rest : LStr} {os os' : List Opt}

/-- Calls are followed by calls. -/
theorem Gives.append (h : Gives G it s os s₁) (h' : Gives G it s₁ os' s') :
    Gives G it s (os ++ os') s' := by
  induction os generalizing s with
  | nil =>
      obtain rfl : s₁ = s := h
      exact h'
  | cons o os ih =>
      obtain ⟨v, s₂, hcall, hv, h⟩ := h
      exact ⟨v, s₂, hcall, hv, ih h⟩

/-- Calls can be told apart at any point. -/
theorem Gives.split (h : Gives G it s (os ++ os') s') :
    ∃ s₁, Gives G it s os s₁ ∧ Gives G it s₁ os' s' := by
  induction os generalizing s with
  | nil => exact ⟨s, rfl, h⟩
  | cons o os ih =>
      obtain ⟨v, s₂, hcall, hv, h⟩ := h
      obtain ⟨s₁, hos, hos'⟩ := ih h
      exact ⟨s₁, ⟨v, s₂, hcall, hv, hos⟩, hos'⟩

/-- These letters are to be read next, in the `n`-th word. -/
def Reads (D : Documented G) (it : Iterator) (n : Nat) (letters : LStr) (s : σ) : Prop :=
  ∃ place, D.At it n place s ∧ Letters it n place letters

/-- Before a word that begins options its letters are to be read. -/
theorem reads_of_at (h : D.At it n [] s) (hword : it.argv[n]? = some ('-' :: letters))
    (hstop : letters ≠ ['-']) : Reads D it n letters s := ⟨[], h, .inr ⟨rfl, hword, hstop⟩⟩

/-! ### One letter -/

/-- **A letter** is given as what it stands for. -/
theorem gives_letter {o : Opt} {left : LStr} (h : Reads D it n (c :: rest) s)
    (hread : readLetter G.past it n c rest = (o, left)) :
    ∃ s', Gives G it s [o] s' ∧ D.At it o.next left s' := by
  obtain ⟨place, hat, hletters⟩ := h
  obtain ⟨s', hcall, hnext, harg⟩ := D.letter hat hletters
  rw [hread] at hcall hnext harg
  refine ⟨s', ⟨pushstring (G.optarg s'), s', ?_, fun arg h => ?_, rfl⟩, hnext⟩
  · have hoptind : G.optind s' = o.next := D.optind_eq hnext
    rw [iter_getopt, hcall, ← hoptind]
  · rw [harg arg h]
    rfl

/-- A letter without an argument. -/
theorem readLetter_plain (past : Bool) (hc : Plain it.opts c) : readLetter past it n c rest
    = (⟨shown it.opts c, none, if rest = [] then n + 1 else n⟩, rest) := by
  rw [readLetter, shown]
  cases hlookup : lookup it.opts c with
  | none => rfl
  | some takes =>
      cases takes with
      | false => rfl
      | true => exact absurd hlookup hc

/-- A letter with its argument behind it. -/
theorem readLetter_attached (past : Bool) (hc : lookup it.opts c = some true) (hrest : rest ≠ []) :
    readLetter past it n c rest = (⟨c, some rest, n + 1⟩, []) := by
  simp only [readLetter, hc, if_neg hrest]

/-- A letter with its argument in the next word. -/
theorem readLetter_separate (past : Bool) {arg : LStr} (hc : lookup it.opts c = some true)
    (harg : it.argv[n + 1]? = some arg) :
    readLetter past it n c [] = (⟨c, some arg, n + 2⟩, []) := by
  simp [readLetter, hc, harg]

/-- A letter that lacks its argument. -/
theorem readLetter_missing (past : Bool) (hc : lookup it.opts c = some true)
    (harg : it.argv[n + 1]? = none) :
    readLetter past it n c [] = (⟨missing it.opts, none, behind past n⟩, []) := by
  simp [readLetter, hc, harg, behind]

/-! ### One word -/

/-- The letters before the last. -/
theorem gives_flags {before tail : LStr} (h : Reads D it n (before ++ tail) s) (htail : tail ≠ [])
    (hplain : ∀ c ∈ before, Plain it.opts c) :
    ∃ s', Gives G it s (flags it.opts n before) s' ∧ Reads D it n tail s' := by
  induction before generalizing s with
  | nil => exact ⟨s, rfl, h⟩
  | cons c before ih =>
      have hne : before ++ tail ≠ [] := List.append_ne_nil_of_right_ne_nil _ htail
      have hread : readLetter G.past it n c (before ++ tail) = _ :=
        readLetter_plain G.past (hplain c List.mem_cons_self)
      rw [if_neg hne] at hread
      obtain ⟨s₁, hgives, hat⟩ := gives_letter h hread
      obtain ⟨s', hrest, hreads⟩ := ih ⟨before ++ tail, hat, .inl rfl⟩
        fun d hd => hplain d (List.mem_cons_of_mem c hd)
      exact ⟨s', hgives.append hrest, hreads⟩

/-- **A word** gives its options, and the next one is to be read. -/
theorem gives_word {w : Word} {words : List LStr} (hat : D.At it n [] s) (hw : w.Valid it.opts)
    (hwords : it.argv.drop n = w.words ++ words) :
    ∃ s', Gives G it s (w.given it.opts n) s' ∧ D.At it (w.next n) [] s' ∧
      it.argv.drop (w.next n) = words := by
  have hget : ∀ k, it.argv[n + k]? = (w.words ++ words)[k]? := by
    intro k
    rw [← hwords, List.getElem?_drop]
  have hdrop : it.argv.drop (w.next n) = words := by
    have hlength : w.next n = n + w.words.length := by
      simp [Word.next, Word.words]
      omega
    rw [hlength, ← List.drop_drop, hwords, List.drop_left]
  have hreads := reads_of_at hat (hget 0) hw.letters
  have hlast : w.last.letters ≠ [] := by
    cases w.last <;> exact List.cons_ne_nil _ _
  obtain ⟨s₁, hflags, hreads⟩ := gives_flags hreads hlast hw.before
  have hvalid := hw.last
  have hmore := hget 1
  -- only the last letter can take an argument
  obtain ⟨before, last⟩ := w
  cases last with
  | flag c =>
      obtain ⟨s', hgives, hat⟩ := gives_letter hreads (readLetter_plain G.past hvalid)
      exact ⟨s', hflags.append hgives, hat, hdrop⟩
  | attached c arg =>
      obtain ⟨s', hgives, hat⟩ :=
        gives_letter hreads (readLetter_attached G.past hvalid.1 hvalid.2)
      exact ⟨s', hflags.append hgives, hat, hdrop⟩
  | separate c arg =>
      obtain ⟨s', hgives, hat⟩ := gives_letter hreads (readLetter_separate G.past hvalid hmore)
      exact ⟨s', hflags.append hgives, hat, hdrop⟩

/-- **Some words** give their options. -/
theorem gives_words {ws : List Word} {words : List LStr} (hat : D.At it n [] s)
    (hws : ∀ w ∈ ws, w.Valid it.opts) (hwords : it.argv.drop n = ws.flatMap Word.words ++ words) :
    ∃ s', Gives G it s (givenBy it.opts n ws) s' ∧ D.At it (nextAfter n ws) [] s' ∧
      it.argv.drop (nextAfter n ws) = words := by
  induction ws generalizing n s with
  | nil => exact ⟨s, rfl, hat, hwords⟩
  | cons w ws ih =>
      rw [List.flatMap_cons, List.append_assoc] at hwords
      obtain ⟨s₁, hword, hat, hrest⟩ := gives_word hat (hws w List.mem_cons_self) hwords
      obtain ⟨s', hgives, hat, hrest⟩ :=
        ih hat (fun w' hw' => hws w' (List.mem_cons_of_mem w hw')) hrest
      exact ⟨s', hword.append hgives, hat, hrest⟩

/-! ### The end -/

/-- A call that ends the loop. -/
theorem iter_of_end (h : G.getopt it s = (none, s')) : iter_getopt G it s = ([], s') := by
  rw [iter_getopt, h]

/-- **How the options end.** -/
theorem gives_ending {e : Ending} (hat : D.At it n [] s) (he : e.Valid it.opts)
    (hwords : it.argv.drop n = e.words) :
    ∃ s₁ s', Gives G it s (e.given it.opts G.past n) s₁ ∧ iter_getopt G it s₁ = ([], s') ∧
      G.optind s' = e.operands G.past n := by
  have hget : ∀ k, it.argv[n + k]? = e.words[k]? := by
    intro k
    rw [← hwords, List.getElem?_drop]
  cases e with
  | nothing =>
      obtain ⟨s', hend, hoptind⟩ := D.ends hat fun word hword => nomatch (hget 0).symm.trans hword
      exact ⟨s, s', rfl, iter_of_end hend, hoptind⟩
  | operand word operands =>
      obtain ⟨s', hend, hoptind⟩ := D.ends hat fun w hword => by
        obtain rfl := Option.some.inj ((hget 0).symm.trans hword)
        exact he
      exact ⟨s, s', rfl, iter_of_end hend, hoptind⟩
  | stop operands =>
      obtain ⟨s', hend, hoptind⟩ := D.stops hat (hget 0)
      exact ⟨s, s', rfl, iter_of_end hend, hoptind⟩
  | missing before c =>
      obtain ⟨hplain, hc, hstop⟩ := he
      have hreads := reads_of_at hat (hget 0) hstop
      obtain ⟨s₁, hflags, hreads⟩ := gives_flags hreads (List.cons_ne_nil c []) hplain
      obtain ⟨s₂, hgives, hat⟩ := gives_letter hreads (readLetter_missing G.past hc (hget 1))
      -- the list is at its end, whether or not the scan goes past it
      have hbehind : it.argv[behind G.past n]? = none := by
        have hlength : it.argv.length ≤ n + 1 := List.getElem?_eq_none_iff.mp (hget 1)
        rw [List.getElem?_eq_none_iff, behind]
        split_ifs <;> omega
      obtain ⟨s', hend, hoptind⟩ := D.ends hat fun word hword => nomatch hbehind.symm.trans hword
      exact ⟨s₂, s', hflags.append hgives, iter_of_end hend, hoptind⟩

/-! ### The loop -/

/-- **A line** gives what is written on it. -/
theorem gives_line {line : Line} (hat : D.At it n [] s) (hline : line.Valid it.opts)
    (hwords : it.argv.drop n = line.words) :
    ∃ s₁ s', Gives G it s (line.given it.opts G.past n) s₁ ∧ iter_getopt G it s₁ = ([], s') ∧
      G.optind s' = line.operands G.past n := by
  obtain ⟨s₁, hgives, hat, hrest⟩ := gives_words hat hline.options hwords
  obtain ⟨s₂, s', hending, hend, hoptind⟩ := gives_ending hat hline.ending hrest
  exact ⟨s₂, s', hgives.append hending, hend, hoptind⟩

/-- A loop with enough calls returns what they give. -/
theorem forLoop_of_gives (h : Gives G it s os s₁) (hend : iter_getopt G it s₁ = ([], s'))
    {fuel : Nat} (hfuel : os.length < fuel) :
    ∃ rs, forLoop G it fuel s = .ok (rs, s') ∧ List.Forall₂ Shows rs os := by
  induction os generalizing s fuel with
  | nil =>
      obtain rfl : s₁ = s := h
      obtain ⟨fuel, rfl⟩ := Nat.exists_eq_succ_of_ne_zero (Nat.ne_of_gt hfuel)
      refine ⟨[], ?_, .nil⟩
      rw [forLoop, hend]
      rfl
  | cons o os ih =>
      obtain ⟨v, s₂, hcall, hv, h⟩ := h
      obtain ⟨fuel, rfl⟩ := Nat.exists_eq_succ_of_ne_zero (Nat.ne_of_gt (Nat.zero_lt_of_lt hfuel))
      obtain ⟨rs, hloop, hrs⟩ := ih h (Nat.lt_of_succ_lt_succ hfuel)
      refine ⟨_ :: rs, ?_, .cons ⟨v, rfl, hv⟩ hrs⟩
      rw [forLoop, hcall]
      show (forLoop G it fuel s₂ >>= _) = _
      rw [hloop]
      rfl

end Calls

/-! ## The iterator that `Pgetopt` makes -/

section Made

variable {N : Numerals} {objlen : Heap → Nat → BitVec 64} {E : Environment Call} {H : Heap}
  {args : List LuaValue} {f : LuaValue} {t : Nat} {optstring : LStr} {opterr optind : LuaInteger}

/-- What the upvalues of `iter_getopt` say: behind `argc`, the specifiers and the vector there are
the strings that the vector points to. -/
def Iterator.of (N : Numerals) (upvalues : List LuaValue) : Iterator where
  argv := (upvalues.drop 3).map fun v => cstring ((N.tolstring v).getD [])
  opts := match upvalues[1]?.getD .nil with
    | .string s => cstring s
    | _ => []

/-- The C library after an assignment. -/
def Library.assign {σ : Type} (G : Library σ) (s : σ) : Call → σ
  | .optind i => G.setoptind i s
  | .opterr i => G.setopterr i s
  | _ => s

/-- The words of a list, the name of the program first. -/
def wordsOf (N : Numerals) (H : Heap) (t argc : Nat) : List LStr :=
  (List.range argc).map fun i => cstring ((N.tolstring (element H t i)).getD [])

/-- There are as many words as are counted. -/
theorem length_wordsOf (N : Numerals) (H : Heap) (t argc : Nat) :
    (wordsOf N H t argc).length = argc := by
  rw [wordsOf, List.length_map, List.length_range]

/-- What a list must be to become a vector: short enough for the stack, with memory for it, and of
strings and numbers. -/
structure Vector (N : Numerals) (E : Environment Call) (H : Heap) (t : Nat) (len : Int)
    (id : Nat) : Prop where
  sized : Unistd.Sized len
  memory : E.block (BitVec.ofInt 64 (len + 1 + 1) * 8#64) = some id
  slots : 3 + (len + 1).toNat ≤ E.slots
  upvalues : (3 + (len + 1)).toNat ≤ MAXUPVAL
  texts : ∀ i < (len + 1).toNat, N.tolstring (element H t i) ≠ none

/-- **`Pgetopt`** returns an iterator over the words of its list. -/
theorem exists_run_Pgetopt (h : GetoptArgs N args t optstring opterr optind) {id : Nat}
    (hvector : Vector N E H t (cint (objlen H t)) id) :
    ∃ upvalues s, (Unistd.Pgetopt N objlen E H args f).run FrameM.start = .ok upvalues s ∧
      Iterator.of N upvalues
        = ⟨wordsOf N H t (cint (objlen H t) + 1).toNat, cstring optstring⟩ ∧
      s.rest = [.opterr (toInt opterr), .optind (toInt optind)] := by
  have hle := hvector.sized.1
  let s₀ : BoundedStack.State LuaValue (List Call) :=
    ⟨[], [.opterr (toInt opterr), .optind (toInt optind)]⟩
  let s₁ := Unistd.beforeLoop objlen H t optstring id s₀
  have hlength : s₁.values.length = 3 := Unistd.length_beforeLoop rfl
  let words := (List.range (cint (objlen H t) + 1).toNat).map fun i =>
    FrameM.asText N (element H t i)
  have hround : ∀ i ∈ List.range (cint (objlen H t) + 1).toNat,
      BoundedStack.Round E.slots .stackOverflow (Unistd.checkarg N E H t i)
        (.ok (FrameM.asText N (element H t i), (N.tolstring (element H t i)).getD [])) := by
    intro i hi
    rw [← Unistd.checked_of_text (hvector.texts i (List.mem_range.mp hi))]
    exact Unistd.round_checkarg i
  have hloop := BoundedStack.run_mapM_of_room (s := s₁) hround
    (by rw [hlength, List.length_range]; exact hvector.slots)
  have hrun : (Unistd.Pgetopt N objlen E H args f).run FrameM.start
      = .ok ((s₁.pushAll words).values.take (3 + (cint (objlen H t) + 1)).toNat).reverse
          { s₁.pushAll words with values :=
              f :: (s₁.pushAll words).values.drop (3 + (cint (objlen H t) + 1)).toNat } := by
    rw [Unistd.run_Pgetopt h, Unistd.run_getoptClosure rfl hvector.sized hvector.memory,
      BoundedStack.run_bind_of_ok (BoundedStack.run_discard_of_ok hloop),
      FrameM.run_pushcclosure hvector.upvalues]
  -- the whole stack goes into the closure
  have htake : (s₁.pushAll words).values.take (3 + (cint (objlen H t) + 1)).toNat
      = (s₁.pushAll words).values := by
    refine List.take_of_length_le ?_
    rw [BoundedStack.State.length_pushAll, hlength, List.length_map, List.length_range]
    omega
  have hvalues : (s₁.pushAll words).values.reverse
      = [.integer (BitVec.ofInt 64 (cint (objlen H t) + 1)), .string (cstring optstring),
          .userdata id] ++ words := by
    show (words.reverse ++ s₁.values).reverse = _
    rw [List.reverse_append, List.reverse_reverse]
    rfl
  refine ⟨_, _, hrun, ?_, rfl⟩
  rw [htake, hvalues, Iterator.of]
  simp only [Iterator.mk.injEq]
  refine ⟨?_, cstring_cstring optstring⟩
  show words.map _ = wordsOf N H t _
  rw [List.map_map, wordsOf]
  refine List.map_congr_left fun i hi => ?_
  have htext := hvector.texts i (List.mem_range.mp hi)
  show cstring ((N.tolstring (FrameM.asText N (element H t i))).getD []) = _
  rw [FrameM.asText]
  cases hstring : N.tolstring (element H t i) with
  | none => exact absurd hstring htext
  | some text => rfl

section Loops

variable {σ : Type} {G : Library σ} {s : σ} {n : Nat}

/-- Once `Pgetopt` has set the variables the scan of its list begins. -/
theorem at_assign (D : Documented G) (it : Iterator) (hs : D.Idle s) (hopts : Specifiers it.opts)
    (hn : 0 < n) (hle : n ≤ it.argv.length) (i : Int) :
    D.At it n [] ([.opterr i, .optind n].foldl G.assign s) :=
  D.at_setoptind (D.idle_setopterr hs i) hopts hn hle

variable (objlen s) in
/-- **A loop over `getopt`** gives what is written on the command line: every list of words is the
writing of a line, and however it is written the loop returns the options of the line, in order,
each with its argument, and leaves the index of the first operand. -/
theorem getopt_loop (h : GetoptArgs N args t optstring opterr optind) {id : Nat}
    (hvector : Vector N E H t (cint (objlen H t)) id) (hn : 0 < n)
    (hle : n ≤ (cint (objlen H t) + 1).toNat) (hoptind : toInt optind = n)
    (hopts : Specifiers (cstring optstring)) (D : Documented G) (hs : D.Idle s) :
    ∃ upvalues st, (Unistd.Pgetopt N objlen E H args f).run FrameM.start = .ok upvalues st ∧
      let words := (wordsOf N H t (cint (objlen H t) + 1).toNat).drop n
      let opts := cstring optstring
      (∃ line : Line, line.Valid opts ∧ line.words = words) ∧
      ∀ line : Line, line.Valid opts → line.words = words → ∃ rs s',
        forLoop G (.of N upvalues) ((line.given opts G.past n).length + 1)
            (st.rest.foldl G.assign s) = .ok (rs, s') ∧
        List.Forall₂ Shows rs (line.given opts G.past n) ∧
        G.optind s' = line.operands G.past n := by
  obtain ⟨upvalues, st, hrun, hit, hrest⟩ := exists_run_Pgetopt (f := f) h hvector
  refine ⟨upvalues, st, hrun, exists_line _ _, fun line hline hwords => ?_⟩
  let it : Iterator := ⟨wordsOf N H t (cint (objlen H t) + 1).toNat, cstring optstring⟩
  have hlength : it.argv.length = (cint (objlen H t) + 1).toNat := length_wordsOf _ _ _ _
  have hat := at_assign D it hs hopts hn (hlength ▸ hle) (toInt opterr)
  obtain ⟨s₁, s', hgives, hend, hoperands⟩ := gives_line hat hline hwords.symm
  obtain ⟨rs, hloop, hrs⟩ := forLoop_of_gives hgives hend (Nat.lt_succ_self _)
  rw [hit, hrest, hoptind]
  exact ⟨rs, s', hloop, hrs, hoperands⟩

variable (objlen s) in
/-- **A loop that is broken off** behind any number of options: a loop over the same iterator gives
the others. -/
theorem getopt_resumed (h : GetoptArgs N args t optstring opterr optind) {id : Nat}
    (hvector : Vector N E H t (cint (objlen H t)) id) (hn : 0 < n)
    (hle : n ≤ (cint (objlen H t) + 1).toNat) (hoptind : toInt optind = n)
    (hopts : Specifiers (cstring optstring)) (D : Documented G) (hs : D.Idle s) {line : Line}
    (hline : line.Valid (cstring optstring))
    (hwords : line.words = (wordsOf N H t (cint (objlen H t) + 1).toNat).drop n) (k : Nat) :
    ∃ upvalues st, (Unistd.Pgetopt N objlen E H args f).run FrameM.start = .ok upvalues st ∧
      let given := line.given (cstring optstring) G.past n
      ∃ s₁, Gives G (.of N upvalues) (st.rest.foldl G.assign s) (given.take k) s₁ ∧ ∃ rs s',
        forLoop G (.of N upvalues) ((given.drop k).length + 1) s₁ = .ok (rs, s') ∧
        List.Forall₂ Shows rs (given.drop k) ∧ G.optind s' = line.operands G.past n := by
  obtain ⟨upvalues, st, hrun, hit, hrest⟩ := exists_run_Pgetopt (f := f) h hvector
  refine ⟨upvalues, st, hrun, ?_⟩
  let it : Iterator := ⟨wordsOf N H t (cint (objlen H t) + 1).toNat, cstring optstring⟩
  have hlength : it.argv.length = (cint (objlen H t) + 1).toNat := length_wordsOf _ _ _ _
  have hat := at_assign D it hs hopts hn (hlength ▸ hle) (toInt opterr)
  obtain ⟨s₂, s', hgives, hend, hoperands⟩ := gives_line hat hline hwords.symm
  -- the loop that was broken off has made the first `k` calls
  rw [← List.take_append_drop k (line.given _ _ _)] at hgives
  obtain ⟨s₁, htake, hdrop⟩ := hgives.split
  obtain ⟨rs, hloop, hrs⟩ := forLoop_of_gives hdrop hend (Nat.lt_succ_self _)
  rw [hit, hrest, hoptind]
  exact ⟨s₁, htake, rs, s', hloop, hrs, hoperands⟩

end Loops

end Made

/-! ## A small instance -/

/-- The variables of `getopt`. -/
structure Vars where
  optind : Int
  optarg : Option LStr
  /-- The letters of a word that are still to be read. -/
  place : LStr

/-- The variables once a letter has been read. -/
def Vars.read (it : Iterator) (n : Nat) (c : Char) (rest : LStr) : Option Char × Vars :=
  let r := readLetter false it n c rest
  (some r.1.letter, ⟨r.1.next, r.1.arg, r.2⟩)

/-- `getopt` with these variables. -/
def Vars.getopt (it : Iterator) (v : Vars) : Option Char × Vars :=
  match v.place with
  | c :: rest => Vars.read it v.optind.toNat c rest
  | [] =>
      match it.argv[v.optind.toNat]? with
      | some ('-' :: c :: rest) =>
          if c :: rest = ['-'] then (none, ⟨v.optind + 1, none, []⟩)
          else Vars.read it v.optind.toNat c rest
      | _ => (none, ⟨v.optind, none, []⟩)

/-- The library with these variables. -/
def Library.small : Library Vars where
  getopt := Vars.getopt
  optarg := Vars.optarg
  optind := Vars.optind
  setoptind i v := { v with optind := i }
  setopterr _ v := v
  past := false

/-- It does as POSIX documents it. -/
def documented_small : Documented Library.small where
  Idle v := v.place = []
  At _ n place v := v.optind = n ∧ v.place = place
  idle_setopterr h _ := h
  at_setoptind h _ _ _ := ⟨rfl, h⟩
  optind_eq h := h.1
  letter := by
    rintro it n place c rest ⟨optind, optarg, place'⟩ ⟨hn, hplace⟩ hletters
    obtain rfl : optind = n := hn
    obtain rfl : place' = place := hplace
    refine ⟨(Vars.read it n c rest).2, ?_, ⟨rfl, rfl⟩, fun _ h => h⟩
    show Vars.getopt it _ = Vars.read it n c rest
    rcases hletters with rfl | ⟨rfl, hword, hstop⟩
    · rfl
    · simp only [Vars.getopt, Int.toNat_natCast, hword, if_neg hstop]
  ends := by
    rintro it n ⟨optind, optarg, place⟩ ⟨hn, hplace⟩ hends
    obtain rfl : optind = n := hn
    obtain rfl : place = [] := hplace
    refine ⟨⟨n, none, []⟩, ?_, rfl⟩
    show Vars.getopt it ⟨n, optarg, []⟩ = _
    simp only [Vars.getopt, Int.toNat_natCast]
    split
    · rename_i c rest hword
      exact absurd ⟨c, rest, rfl⟩ (hends _ hword)
    · rfl
  stops := by
    rintro it n ⟨optind, optarg, place⟩ ⟨hn, hplace⟩ hword
    obtain rfl : optind = n := hn
    obtain rfl : place = [] := hplace
    refine ⟨⟨n + 1, none, []⟩, ?_, rfl⟩
    show Vars.getopt it ⟨n, optarg, []⟩ = _
    simp only [Vars.getopt, Int.toNat_natCast, hword, if_true]

/-- `arg` of a program that is called as `p -ab x y`. -/
def argHeap : Heap :=
  (Unistd.listHeap (["-ab", "x", "y"].map fun word => .string word.toList)).set Heap.newestFirst 0
    (.integer 0) (.string "p".toList)

/-- What is written there, where `b` takes an argument. -/
def abxLine : Line := ⟨[⟨['a'], .separate 'b' "x".toList⟩], .operand "y".toList []⟩

/-- The line is one that the specifiers allow. -/
theorem valid_abx : abxLine.Valid "ab:".toList := by
  refine ⟨fun w hw => ?_, ?_⟩
  · obtain rfl := List.mem_singleton.mp hw
    refine ⟨fun c hc => ?_, rfl, by decide⟩
    obtain rfl := List.mem_singleton.mp hc
    exact nofun
  · rintro ⟨c, rest, h⟩
    cases h

/-- The list becomes a vector. -/
theorem vector_arg :
    Vector .zero (.returning LUA_MINSTACK (Nat.le_refl _)) argHeap 0 (cint 3#64) 0 :=
  ⟨⟨by decide, by decide⟩, rfl, by decide, by decide, by decide⟩

/-- The arguments of the call. -/
theorem getoptArgs_arg : GetoptArgs .zero [.table 0, .string "ab:".toList] 0 "ab:".toList 0 1 :=
  ⟨by decide, rfl, rfl, rfl, rfl⟩

/-- Wherever `optind` is, a scan can be begun. -/
theorem idle_small : documented_small.Idle ⟨5, none, []⟩ := rfl

/-- The loop returns `a` and `b`, which has `x`. -/
theorem getopt_loop_abx : ∃ upvalues s rs s', (Unistd.Pgetopt .zero (fun _ _ => 3)
      (.returning LUA_MINSTACK (Nat.le_refl _)) argHeap [.table 0, .string "ab:".toList] .nil).run
        FrameM.start = .ok upvalues s ∧
    forLoop Library.small (.of .zero upvalues) 3 (s.rest.foldl Library.small.assign ⟨5, none, []⟩)
      = .ok (rs, s') ∧
    List.Forall₂ Shows rs [⟨'a', none, 1⟩, ⟨'b', some "x".toList, 3⟩] ∧ s'.optind = 3 := by
  obtain ⟨upvalues, s, hrun, -, hloop⟩ := getopt_loop (fun _ _ => 3) ⟨5, none, []⟩ (f := .nil)
    getoptArgs_arg vector_arg Nat.one_pos (by decide) rfl rfl documented_small idle_small
  obtain ⟨rs, s', hrs, hshows, hoptind⟩ := hloop abxLine valid_abx rfl
  exact ⟨upvalues, s, rs, s', hrun, hrs, hshows, hoptind⟩

/-- Broken off behind `a`, the next loop returns `b`. -/
theorem getopt_resumed_abx : ∃ upvalues s s₁ rs s', (Unistd.Pgetopt .zero (fun _ _ => 3)
      (.returning LUA_MINSTACK (Nat.le_refl _)) argHeap [.table 0, .string "ab:".toList] .nil).run
        FrameM.start = .ok upvalues s ∧
    Gives Library.small (.of .zero upvalues) (s.rest.foldl Library.small.assign ⟨5, none, []⟩)
      [⟨'a', none, 1⟩] s₁ ∧
    forLoop Library.small (.of .zero upvalues) 2 s₁ = .ok (rs, s') ∧
    List.Forall₂ Shows rs [⟨'b', some "x".toList, 3⟩] := by
  obtain ⟨upvalues, s, hrun, s₁, hgives, rs, s', hloop, hshows, -⟩ :=
    getopt_resumed (fun _ _ => 3) ⟨5, none, []⟩ (f := .nil) getoptArgs_arg vector_arg Nat.one_pos
      (by decide) rfl rfl documented_small idle_small valid_abx rfl 1
  exact ⟨upvalues, s, s₁, rs, s', hrun, hgives, hloop, hshows⟩

end LuaPosix.Getopt

import Mathlib.Data.List.Basic

/-!
# Words and commands of a shell

How a POSIX shell takes a text apart, as far as it concerns quotes, blanks and the ends of
commands; parameters, comments and other operators are not covered. The text is read from
left to right: `Lexer.step` treats one character, and `commands` gives what is executed. A
line is executed when it is complete, so a quote that stays open keeps its line from being
executed, but not the lines before it.

A word is a list of characters that know whether they were quoted. After that, a word with a
question mark that is not quoted is replaced by the file names that it matches, if there are
any.
-/

namespace Shell

/-- What the next character may mean. -/
inductive Mode where
  | plain
  | escaped
  | single
  | double
  | doubleEscaped
  | refused
  deriving DecidableEq

structure Cell where
  char : Char
  quoted : Bool
  deriving DecidableEq

/-- The word that is open, the words before it in its command, the commands before that on
its line, and the commands of the lines before. -/
structure Lexer where
  mode : Mode
  word : Option (List Cell)
  words : List (List Cell)
  line : List (List (List Cell))
  before : List (List (List Cell))
  deriving DecidableEq

namespace Lexer

def start : Lexer := ⟨.plain, none, [], [], []⟩

def append (s : Lexer) : List Cell → Lexer
  | [] => s
  | cells => { s with word := some (s.word.getD [] ++ cells) }

/-- A quote opens a word, which may stay empty. -/
def quote (s : Lexer) (mode : Mode) : Lexer :=
  { s with mode := mode, word := some (s.word.getD []) }

def closeWord (s : Lexer) : Lexer := { s with word := none, words := s.words ++ s.word.toList }

def closeCommand (s : Lexer) : Lexer :=
  let s := s.closeWord
  if s.words = [] then s else { s with words := [], line := s.line ++ [s.words] }

def closeLine (s : Lexer) : Lexer :=
  let s := s.closeCommand
  { s with line := [], before := s.before ++ s.line }

/-- One character. A semicolon without a command before it is a syntax error. -/
def step (s : Lexer) (c : Char) : Lexer :=
  match s.mode with
  | .plain =>
      if c = '\'' then s.quote .single
      else if c = '"' then s.quote .double
      else if c = '\\' then { s with mode := .escaped }
      else if c = ' ' ∨ c = '\t' then s.closeWord
      else if c = '\n' then s.closeLine
      else if c = ';' then
        if s.closeWord.words = [] then { s with mode := .refused } else s.closeCommand
      else s.append [⟨c, false⟩]
  | .escaped =>
      if c = '\n' then { s with mode := .plain }
      else { s.append [⟨c, true⟩] with mode := .plain }
  | .single => if c = '\'' then { s with mode := .plain } else s.append [⟨c, true⟩]
  | .double =>
      if c = '"' then { s with mode := .plain }
      else if c = '\\' then { s with mode := .doubleEscaped }
      else s.append [⟨c, true⟩]
  | .doubleEscaped =>
      if c = '\n' then { s with mode := .double }
      else if c ∈ ['$', '\x60', '"', '\\'] then { s.append [⟨c, true⟩] with mode := .double }
      else { s.append [⟨'\\', true⟩, ⟨c, true⟩] with mode := .double }
  | .refused => s

def run (s : Lexer) (text : List Char) : Lexer := text.foldl step s

/-- The commands at the end of the text. A backslash at the end stands for itself. -/
def finish (s : Lexer) : List (List (List Cell)) :=
  match s.mode with
  | .plain => s.closeLine.before
  | .escaped => (s.append [⟨'\\', true⟩]).closeLine.before
  | .single | .double | .doubleEscaped | .refused => s.before

end Lexer

/-- The word matches the file name: a question mark that is not quoted stands for any
character but a slash, and not for a period in front. -/
def matchesName : List Cell → List Char → Bool
  | [], [] => true
  | cell :: word, c :: name =>
      (if cell = ⟨'?', false⟩ then c ≠ '/' else cell.char = c) && matchesName word name
  | _, _ => false

/-- What a word stands for among the given file names. -/
def expand (names : List (List Char)) (word : List Cell) : List (List Char) :=
  let found := names.filter fun name =>
    matchesName word name && !(word.head? = some ⟨'?', false⟩ && name.head? = some '.')
  if ⟨'?', false⟩ ∈ word ∧ found ≠ [] then found else [word.map Cell.char]

def commands (names : List (List Char)) (text : List Char) : List (List (List Char)) :=
  (Lexer.start.run text).finish.map fun words => words.flatMap (expand names)

/-! ## Words without quotes -/

def Literal (c : Char) : Prop := c ∉ ['\'', '"', '\\', ' ', '\t', '\n', ';']

instance (c : Char) : Decidable (Literal c) := inferInstanceAs (Decidable (_ ∉ _))

def LiteralWord (word : List Char) : Prop := word ≠ [] ∧ ∀ c ∈ word, Literal c

instance (word : List Char) : Decidable (LiteralWord word) :=
  have : Decidable (∀ c ∈ word, Literal c) := List.decidableBAll _ word
  inferInstanceAs (Decidable (_ ∧ _))

def unquoted (word : List Char) : List Cell := word.map fun c => ⟨c, false⟩

namespace Lexer

variable {s : Lexer}

@[simp] theorem mode_append (s : Lexer) (cells : List Cell) : (s.append cells).mode = s.mode := by
  cases cells <;> rfl

theorem append_append (s : Lexer) (cells cells' : List Cell) :
    (s.append cells).append cells' = s.append (cells ++ cells') := by
  cases cells with
  | nil => rfl
  | cons cell cells =>
      cases cells' with
      | nil => rw [List.append_nil]; rfl
      | cons cell' cells' => simp [append]

theorem append_of_word {word : List Cell} (h : s.word = some word) (cells : List Cell) :
    s.append cells = { s with word := some (word ++ cells) } := by
  obtain ⟨mode, word', words, line, before⟩ := s
  obtain rfl : word' = some word := h
  cases cells with
  | nil => rw [List.append_nil]; rfl
  | cons cell cells => rfl

theorem run_append (s : Lexer) (text text' : List Char) :
    s.run (text ++ text') = (s.run text).run text' :=
  List.foldl_append

theorem step_literal (hmode : s.mode = .plain) {c : Char} (hc : Literal c) :
    s.step c = s.append [⟨c, false⟩] := by
  simp only [Literal, List.mem_cons, List.not_mem_nil, or_false, not_or] at hc
  simp [step, hmode, hc]

/-- Pieces of text that each extend the open word extend it one after another. -/
theorem run_flatMap {α : Type*} {mode : Mode} {f : α → List Char} {g : α → List Cell} {l : List α}
    (h : ∀ a ∈ l, ∀ s : Lexer, s.mode = mode → s.run (f a) = s.append (g a))
    (hmode : s.mode = mode) : s.run (l.flatMap f) = s.append (l.flatMap g) := by
  induction l generalizing s with
  | nil => rfl
  | cons a l ih =>
      rw [List.forall_mem_cons] at h
      rw [List.flatMap_cons, run_append, h.1 s hmode,
        ih h.2 ((mode_append s (g a)).trans hmode), append_append, List.flatMap_cons]

theorem run_literal (hmode : s.mode = .plain) {word : List Char} (h : ∀ c ∈ word, Literal c) :
    s.run word = s.append (unquoted word) := by
  have hrun := run_flatMap (f := fun c => [c]) (g := fun c => [⟨c, false⟩])
    (fun c hc s hmode => step_literal hmode (h c hc)) hmode
  rwa [List.flatMap_singleton', ← List.map_eq_flatMap] at hrun

theorem run_words {words : List (List Char)} (h : ∀ word ∈ words, LiteralWord word)
    (hmode : s.mode = .plain) (hword : s.word = none) :
    s.run (words.flatMap fun word => word ++ [' ']) =
      { s with words := s.words ++ words.map unquoted } := by
  induction words generalizing s with
  | nil => simp [run]
  | cons word words ih =>
      rw [List.forall_mem_cons] at h
      obtain ⟨c, rest, hcons⟩ := List.exists_cons_of_ne_nil h.1.1
      have hblank : (s.run word).run [' '] = { s with words := s.words ++ [unquoted word] } := by
        rw [run_literal hmode h.1.2]
        simp [run, step, hmode, closeWord, append, hword, unquoted, hcons]
      rw [List.flatMap_cons, run_append, run_append, hblank]
      refine (ih (s := { s with words := s.words ++ [unquoted word] }) h.2 hmode hword).trans ?_
      simp

theorem finish_plain {words : List (List Cell)} {word : Option (List Cell)}
    (h : words ++ word.toList ≠ []) :
    (⟨.plain, word, words, [], []⟩ : Lexer).finish = [words ++ word.toList] := by
  simp [finish, closeLine, closeCommand, closeWord, h]

/-- A newline at the end of a text changes nothing. -/
theorem finish_newline (hmode : s.mode = .plain) : (s.run ['\n']).finish = s.finish := by
  have hrun : s.run ['\n'] = s.closeLine := by simp [run, step, hmode]
  have hclosed : s.closeLine.mode = .plain := by
    unfold closeLine closeCommand closeWord
    dsimp only
    split_ifs <;> exact hmode
  have hagain : s.closeLine.closeLine.before = s.closeLine.before := by
    unfold closeLine closeCommand closeWord
    dsimp only
    split_ifs <;> simp_all
  rw [hrun, finish, finish, hclosed, hmode]
  exact hagain

end Lexer

/-! ## Words that stay as they are -/

theorem expand_of_quoted (names : List (List Char)) {word : List Cell}
    (h : ⟨'?', false⟩ ∉ word) : expand names word = [word.map Cell.char] := by
  rw [expand, if_neg fun hfound => h hfound.1]

theorem expand_of_unmatched {names : List (List Char)} {word : List Cell}
    (h : ∀ name ∈ names, matchesName word name = false) :
    expand names word = [word.map Cell.char] := by
  have hnone : names.filter (fun name => matchesName word name &&
      !(word.head? = some ⟨'?', false⟩ && name.head? = some '.')) = [] := by
    refine List.filter_eq_nil_iff.mpr fun name hname => ?_
    rw [h name hname]
    exact Bool.false_ne_true
  rw [expand, hnone, if_neg fun hfound => hfound.2 rfl]

theorem expand_unquoted (names : List (List Char)) {word : List Char} (h : '?' ∉ word) :
    expand names (unquoted word) = [word] := by
  have hmark : (⟨'?', false⟩ : Cell) ∉ unquoted word := by
    simpa [unquoted] using h
  rw [expand_of_quoted names hmark]
  simp [unquoted, Function.comp_def]

/-- Words without a question mark are the words of the command. -/
theorem flatMap_expand_unquoted (names : List (List Char)) {words : List (List Char)}
    (h : ∀ word ∈ words, '?' ∉ word) :
    (words.map unquoted).flatMap (expand names) = words := by
  induction words with
  | nil => rfl
  | cons word words ih =>
      rw [List.forall_mem_cons] at h
      rw [List.map_cons, List.flatMap_cons, expand_unquoted names h.1, ih h.2]
      rfl

end Shell

import Matador.Library.Shell
import Matador.Phone.Adb

/-!
# The sentences that are typed

A message is a line of a file, which `pick-sentence-from-play.sh` picks with `$RANDOM`, and
`send_message` prepares it for the shell of this host, the shell of the phone and the
`input text` of Android, which takes `%s` for a blank. The text that is typed is what remains
of the output of the script behind all three.

The script prints the first `$RANDOM % lines` lines and takes the last of them. So nothing is
printed if this is 0, and the last line of the file is never picked. A line is typed as it is,
with typographic apostrophes and dashes replaced, if it has neither an apostrophe nor a
double quote of ASCII in it and if its question marks match no file name: the first is a
quote for the phone, and the second ends the quotes around the text.
-/

namespace Matador

namespace Phone

/-! ## The model -/

/-- The output of `pick-sentence-from-play.sh` on a file with the given lines. -/
def pickSentence (lines : List (List Char)) (random : ℕ) : List Char :=
  match (lines.take (random % lines.length)).getLast? with
  | none => []
  | some line => line ++ ['\n']

/-- A device, whose name is one word for a shell, and the names of the files in the working
directories of this host and of the phone. -/
structure Setting where
  device : List Char
  literal : Shell.LiteralWord device
  unmarked : '?' ∉ device
  names : List (List Char)
  phoneNames : List (List Char)

def inputCommand (device text : List Char) : List Char :=
  "adb -s ".toList ++ device ++ " shell input text ".toList ++
    (escape (String.ofList text)).toList

/-- `adb -s device shell` gives its remaining arguments, with blanks between them, to the
shell of the phone. -/
def adbShell : List (List Char) → Option (List Char)
  | adb :: s :: _ :: shell :: rest =>
      if adb = "adb".toList ∧ s = "-s".toList ∧ shell = "shell".toList then
        some (List.intercalate [' '] rest)
      else none
  | _ => none

def blanks : List Char → List Char
  | '%' :: 's' :: rest => ' ' :: blanks rest
  | c :: rest => c :: blanks rest
  | [] => []

def inputText : List (List Char) → Option (List Char)
  | [input, text, argument] =>
      if input = "input".toList ∧ text = "text".toList then some (blanks argument) else none
  | _ => none

/-- The texts that are entered on the phone when `send_message` gets the given output of the
script. -/
def typed (setting : Setting) (output : List Char) : List (List Char) :=
  (Shell.commands setting.names (inputCommand setting.device output)).flatMap fun words =>
    (adbShell words).toList.flatMap fun text =>
      (Shell.commands setting.phoneNames text).filterMap inputText

/-! ## Real sentences -/

/-- Letters and digits, the blank and the ASCII punctuation of the sentences, and everything
beyond ASCII, such as typographic apostrophes, dashes and quotes. -/
def Allowed (c : Char) : Prop :=
  c.isAlphanum ∨ c ∈ [' ', '.', ',', '-', '?', ';', '\'', '"'] ∨ 127 < c.toNat

instance (c : Char) : Decidable (Allowed c) := inferInstanceAs (Decidable (_ ∨ _))

theorem Allowed.ne {c d : Char} (hc : Allowed c) (hd : ¬ Allowed d) : c ≠ d := by
  rintro rfl
  exact hd hc

def ascii (c : Char) : Char :=
  if c = '’' ∨ c = '‘' then '\'' else if c = '—' ∨ c = '–' then '-' else c

/-- For every value of `$RANDOM`, a line of the file is typed. -/
def TypesLines (setting : Setting) (lines : List (List Char)) : Prop :=
  ∀ random < 32768, ∃ line ∈ lines,
    typed setting (pickSentence lines random) = [line.map ascii]

/-- Each of the first 32768 lines is the last of those that `head` prints for some value of
`$RANDOM`. -/
def PicksLines (lines : List (List Char)) : Prop :=
  ∀ k < lines.length, k < 32768 → ∃ random < 32768, random % lines.length = k + 1

def encode (c : Char) : List Char :=
  if c = ' ' then ['%', 's']
  else if c = '’' ∨ c = '‘' then ['\\', '\'']
  else if c = '—' then ['-']
  else if c = ';' then ['\\', ';']
  else [c]

def cells (c : Char) : List Shell.Cell :=
  if c = ' ' then [⟨'%', false⟩, ⟨'s', false⟩]
  else if c = '’' ∨ c = '‘' then [⟨'\'', true⟩]
  else if c = '—' then [⟨'-', false⟩]
  else if c = ';' then [⟨';', true⟩]
  else [⟨c, false⟩]

/-- A line that arrives: it is not empty, has no quote of ASCII and no dash that is not
replaced, and its question marks match no file name on the phone. -/
structure Enterable (phoneNames : List (List Char)) (line : List Char) : Prop where
  nonempty : line ≠ []
  quotes : ∀ c ∈ line, c ≠ '\'' ∧ c ≠ '"' ∧ c ≠ '–'
  unmatched : ∀ name ∈ phoneNames, Shell.matchesName (line.flatMap cells) name = false

/-! ## The replacements -/

theorem toList_replaceChar (c : Char) (new : String) (text : String) :
    (replaceChar c new text).toList =
      text.toList.flatMap fun x => if x = c then new.toList else [x] := by
  rw [replaceChar, String.toList_ofList]

/-- No replacement makes a character that a later one replaces. -/
theorem toList_escape (text : List Char) :
    (escape (String.ofList text)).toList = '"' :: (text.flatMap encode ++ ['"']) := by
  have hquote : "\"".toList.flatMap (fun x => if x = ';' then "\\;".toList else [x]) = ['"'] := rfl
  simp only [escape, toList_replaceChar, String.toList_append, String.toList_ofList,
    List.flatMap_append, List.flatMap_assoc, hquote]
  rw [List.cons_append, List.cons_append, List.nil_append]
  congr 2
  refine List.flatMap_congr fun c _ => ?_
  unfold encode
  by_cases hblank : c = ' '
  · subst hblank
    rfl
  · by_cases hright : c = '’'
    · subst hright
      rfl
    · by_cases hleft : c = '‘'
      · subst hleft
        rfl
      · by_cases hdash : c = '—'
        · subst hdash
          rfl
        · by_cases hsemicolon : c = ';'
          · subst hsemicolon
            rfl
          · simp [hblank, hright, hleft, hdash, hsemicolon]

/-- Between double quotes, the escapes are kept for the phone. -/
theorem run_encode_double {s : Shell.Lexer} (hmode : s.mode = .double) {c : Char}
    (hquote : c ≠ '"') (hbackslash : c ≠ '\\') :
    s.run (encode c) = s.append ((encode c).map fun x => ⟨x, true⟩) := by
  obtain ⟨mode, word, words, line, before⟩ := s
  obtain rfl : mode = .double := hmode
  unfold encode
  split_ifs <;> simp_all [Shell.Lexer.run, Shell.Lexer.step, Shell.Lexer.append]

/-- Outside of quotes, the escapes of the phone are resolved. -/
theorem run_encode_plain {s : Shell.Lexer} (hmode : s.mode = .plain) {c : Char}
    (hc : Allowed c) (hsingle : c ≠ '\'') (hdouble : c ≠ '"') :
    s.run (encode c) = s.append (cells c) := by
  unfold encode cells
  split_ifs with hblank happostrophe hdash hsemicolon
  · have hliteral : Shell.LiteralWord ['%', 's'] := by decide
    exact Shell.Lexer.run_literal hmode hliteral.2
  · obtain ⟨mode, word, words, line, before⟩ := s
    obtain rfl : mode = .plain := hmode
    rfl
  · have hliteral : Shell.LiteralWord ['-'] := by decide
    exact Shell.Lexer.run_literal hmode hliteral.2
  · obtain ⟨mode, word, words, line, before⟩ := s
    obtain rfl : mode = .plain := hmode
    rfl
  · have hbackslash : c ≠ '\\' := hc.ne (by decide)
    have htab : c ≠ '\t' := hc.ne (by decide)
    have hnewline : c ≠ '\n' := hc.ne (by decide)
    have hliteral : Shell.Literal c := by
      simp [Shell.Literal, hsingle, hdouble, hbackslash, hblank, htab, hnewline, hsemicolon]
    exact Shell.Lexer.step_literal hmode hliteral

/-! ## Two shells -/

def phoneWords : List (List Char) := ["input".toList, "text".toList]

def commandWords (device : List Char) : List (List Char) :=
  ["adb".toList, "-s".toList, device, "shell".toList] ++ phoneWords

theorem literal_phoneWords : ∀ word ∈ phoneWords, Shell.LiteralWord word ∧ '?' ∉ word := by
  have hinput : Shell.LiteralWord "input".toList ∧ '?' ∉ "input".toList := by decide
  have htext : Shell.LiteralWord "text".toList ∧ '?' ∉ "text".toList := by decide
  simp only [phoneWords, List.forall_mem_cons]
  exact ⟨hinput, htext, by simp⟩

theorem literal_commandWords (setting : Setting) :
    ∀ word ∈ commandWords setting.device, Shell.LiteralWord word ∧ '?' ∉ word := by
  have hadb : Shell.LiteralWord "adb".toList ∧ '?' ∉ "adb".toList := by decide
  have hs : Shell.LiteralWord "-s".toList ∧ '?' ∉ "-s".toList := by decide
  have hshell : Shell.LiteralWord "shell".toList ∧ '?' ∉ "shell".toList := by decide
  simp only [commandWords, List.cons_append, List.nil_append, List.forall_mem_cons]
  exact ⟨hadb, hs, ⟨setting.literal, setting.unmarked⟩, hshell, literal_phoneWords⟩

theorem inputCommand_eq (device text : List Char) :
    inputCommand device text = ((commandWords device).flatMap fun word => word ++ [' ']) ++
      '"' :: (text.flatMap encode ++ ['"']) := by
  have hblanks : ∀ a b c d e f rest : List Char,
      a ++ [' '] ++ (b ++ [' ']) ++ c ++ ([' '] ++ (d ++ [' '] ++ (e ++ [' '] ++ (f ++ [' '])))) ++
        rest = ([a, b, c, d, e, f].flatMap fun word => word ++ [' ']) ++ rest := by
    simp
  have hfront : "adb -s ".toList = "adb".toList ++ [' '] ++ ("-s".toList ++ [' ']) := by decide
  have hback : " shell input text ".toList = [' '] ++ ("shell".toList ++ [' '] ++
      ("input".toList ++ [' '] ++ ("text".toList ++ [' ']))) := by decide
  -- The texts stay closed: unfolding them is what makes a `simp` slow here.
  refine Eq.trans ?_ (hblanks _ _ device _ _ _ _)
  exact congrArg₂ (· ++ ·) (congrArg₂ (· ++ ·) (congrArg (· ++ device) hfront) hback)
    (toList_escape text)

theorem commands_inputCommand (setting : Setting) {text : List Char}
    (h : ∀ c ∈ text, c ≠ '"' ∧ c ≠ '\\') :
    Shell.commands setting.names (inputCommand setting.device text) =
      [commandWords setting.device ++ [text.flatMap encode]] := by
  have hwords := literal_commandWords setting
  have hcommand := inputCommand_eq setting.device text
  generalize commandWords setting.device = words at hwords hcommand ⊢
  have hrun : Shell.Lexer.start.run (inputCommand setting.device text) =
      ⟨.plain, some (text.flatMap fun c => (encode c).map fun x => ⟨x, true⟩),
        words.map Shell.unquoted, [], []⟩ := by
    rw [hcommand, Shell.Lexer.run_append,
      Shell.Lexer.run_words (fun word hword => (hwords word hword).1) rfl rfl]
    -- The quotation mark opens an empty word.
    change Shell.Lexer.run ⟨.double, some [], words.map Shell.unquoted, [], []⟩ _ = _
    rw [Shell.Lexer.run_append, Shell.Lexer.run_flatMap
      (fun c hc s hmode => run_encode_double hmode (h c hc).1 (h c hc).2) rfl,
      Shell.Lexer.append_of_word rfl]
    rfl
  have hquoted : (⟨'?', false⟩ : Shell.Cell) ∉
      text.flatMap fun c => (encode c).map fun x => ⟨x, true⟩ := by
    simp
  rw [Shell.commands, hrun, Shell.Lexer.finish_plain (by simp), List.map_singleton,
    List.flatMap_append,
    Shell.flatMap_expand_unquoted _ fun word hword => (hwords word hword).2]
  simp [Shell.expand_of_quoted _ hquoted, List.map_flatMap, Function.comp_def]

theorem adbShell_commandWords (device text : List Char) :
    adbShell (commandWords device ++ [text]) =
      some ((phoneWords.flatMap fun word => word ++ [' ']) ++ text) := by
  have hjoin : ∀ a b : List Char, List.intercalate [' '] [a, b, text] =
      ([a, b].flatMap fun word => word ++ [' ']) ++ text := by
    simp [List.intercalate]
  simp only [commandWords, List.cons_append, List.nil_append]
  rw [adbShell, if_pos ⟨rfl, rfl, rfl⟩]
  exact congrArg some (hjoin _ _)

theorem inputText_phoneWords (argument : List Char) :
    inputText (phoneWords ++ [argument]) = some (blanks argument) := by
  rw [phoneWords, List.cons_append, List.cons_append, List.nil_append, inputText,
    if_pos ⟨rfl, rfl⟩]

/-- Behind the shell of this host, the text stands in the command of the phone as `escape` has
made it. -/
theorem typed_eq (setting : Setting) {output : List Char}
    (h : ∀ c ∈ output, c ≠ '"' ∧ c ≠ '\\') :
    typed setting output =
      (Shell.commands setting.phoneNames ((phoneWords.flatMap fun word => word ++ [' ']) ++
        output.flatMap encode)).filterMap inputText := by
  rw [typed, commands_inputCommand setting h, List.flatMap_singleton, adbShell_commandWords]
  exact List.flatMap_singleton _ _

theorem run_phoneWords (text : List Char) :
    Shell.Lexer.start.run ((phoneWords.flatMap fun word => word ++ [' ']) ++ text) =
      Shell.Lexer.run ⟨.plain, none, phoneWords.map Shell.unquoted, [], []⟩ text := by
  rw [Shell.Lexer.run_append,
    Shell.Lexer.run_words (fun word hword => (literal_phoneWords word hword).1) rfl rfl]
  rfl

theorem flatMap_expand_phoneWords (names : List (List Char)) :
    (phoneWords.map Shell.unquoted).flatMap (Shell.expand names) = phoneWords :=
  Shell.flatMap_expand_unquoted names fun word hword => (literal_phoneWords word hword).2

theorem typed_nil (setting : Setting) : typed setting [] = [] := by
  have hrun := run_phoneWords []
  rw [typed_eq setting (by simp), List.flatMap_nil, Shell.commands, hrun]
  have hfinish : (Shell.Lexer.run ⟨.plain, none, phoneWords.map Shell.unquoted, [], []⟩ []).finish =
      [phoneWords.map Shell.unquoted] := by
    refine (Shell.Lexer.finish_plain ?_).trans ?_ <;> simp [phoneWords]
  rw [hfinish, List.map_singleton, flatMap_expand_phoneWords]
  rfl

/-! ## What is typed -/

theorem blanks_cons {c : Char} (h : c ≠ '%') (rest : List Char) :
    blanks (c :: rest) = c :: blanks rest := by
  rw [blanks]
  intro _ hc
  exact absurd hc h

/-- Behind `input text`, the text of the phone's word is the line again. -/
theorem blanks_flatMap_cells {line : List Char} (hallowed : ∀ c ∈ line, Allowed c)
    (hdash : ∀ c ∈ line, c ≠ '–') :
    blanks ((line.flatMap cells).map Shell.Cell.char) = line.map ascii := by
  induction line with
  | nil => rfl
  | cons c line ih =>
      rw [List.forall_mem_cons] at hallowed hdash
      rw [List.flatMap_cons, List.map_append, List.map_cons, ← ih hallowed.2 hdash.2]
      unfold cells ascii
      by_cases hblank : c = ' '
      · subst hblank
        rfl
      · by_cases happostrophe : c = '’' ∨ c = '‘'
        · rw [if_neg hblank, if_pos happostrophe, if_pos happostrophe]
          exact blanks_cons (by decide) _
        · rw [if_neg hblank, if_neg happostrophe, if_neg happostrophe]
          by_cases hlong : c = '—'
          · rw [if_pos hlong, if_pos (Or.inl hlong)]
            exact blanks_cons (by decide) _
          · rw [if_neg hlong, if_neg (not_or.mpr ⟨hlong, hdash.1⟩)]
            by_cases hsemicolon : c = ';'
            · subst hsemicolon
              exact blanks_cons (by decide) _
            · rw [if_neg hsemicolon]
              exact blanks_cons (hallowed.1.ne (by decide)) _

theorem flatMap_cells_ne_nil {line : List Char} (h : line ≠ []) : line.flatMap cells ≠ [] := by
  obtain ⟨c, rest, rfl⟩ := List.exists_cons_of_ne_nil h
  have hcells : cells c ≠ [] := by
    unfold cells
    split_ifs <;> exact List.cons_ne_nil _ _
  rw [List.flatMap_cons]
  exact List.append_ne_nil_of_left_ne_nil hcells _

theorem typed_line (setting : Setting) {line : List Char} (hallowed : ∀ c ∈ line, Allowed c)
    (h : Enterable setting.phoneNames line) :
    typed setting (line ++ ['\n']) = [line.map ascii] := by
  have houtput : ∀ c ∈ line ++ ['\n'], c ≠ '"' ∧ c ≠ '\\' := by
    intro c hc
    rcases List.mem_append.mp hc with hmem | hmem
    · exact ⟨(h.quotes c hmem).2.1, (hallowed c hmem).ne (by decide)⟩
    · obtain rfl := List.mem_singleton.mp hmem
      decide
  have hnewline : (line ++ ['\n']).flatMap encode = line.flatMap encode ++ ['\n'] := by
    rw [List.flatMap_append]
    rfl
  obtain ⟨cell, rest, hcells⟩ := List.exists_cons_of_ne_nil (flatMap_cells_ne_nil h.nonempty)
  have hrun : Shell.Lexer.run ⟨.plain, none, phoneWords.map Shell.unquoted, [], []⟩
      (line.flatMap encode) =
      ⟨.plain, some (line.flatMap cells), phoneWords.map Shell.unquoted, [], []⟩ := by
    rw [Shell.Lexer.run_flatMap (fun c hc s hmode => run_encode_plain hmode (hallowed c hc)
      (h.quotes c hc).1 (h.quotes c hc).2.1) rfl, hcells]
    rfl
  have hfinish : (Shell.Lexer.start.run ((phoneWords.flatMap fun word => word ++ [' ']) ++
      (line.flatMap encode ++ ['\n']))).finish =
      [phoneWords.map Shell.unquoted ++ [line.flatMap cells]] := by
    rw [run_phoneWords, Shell.Lexer.run_append, hrun, Shell.Lexer.finish_newline rfl]
    exact Shell.Lexer.finish_plain (by simp)
  rw [typed_eq setting houtput, hnewline, Shell.commands, hfinish, List.map_singleton,
    List.flatMap_append, flatMap_expand_phoneWords, List.flatMap_singleton,
    Shell.expand_of_unmatched h.unmatched]
  have hinput := inputText_phoneWords ((line.flatMap cells).map Shell.Cell.char)
  rw [blanks_flatMap_cells hallowed fun c hc => (h.quotes c hc).2.2] at hinput
  rw [List.filterMap_cons, hinput]
  rfl

/-! ## The line that is picked -/

theorem pickSentence_zero {lines : List (List Char)} {random : ℕ}
    (h : random % lines.length = 0) : pickSentence lines random = [] := by
  rw [pickSentence, h]
  rfl

theorem pickSentence_succ {lines : List (List Char)} {random k : ℕ} {line : List Char}
    (h : random % lines.length = k + 1) (hline : lines[k]? = some line) :
    pickSentence lines random = line ++ ['\n'] := by
  have hlast : (lines.take (k + 1)).getLast? = some line := by
    rw [List.take_add_one, hline]
    exact List.getLast?_concat
  rw [pickSentence, h, hlast]

/-- The lines that can be picked are all but the last, and of these the first 32767. -/
theorem exists_random_iff {n : ℕ} (hn : 0 < n) (k : ℕ) :
    (∃ random < 32768, random % n = k + 1) ↔ k + 1 < n ∧ k + 1 < 32768 := by
  constructor
  · rintro ⟨random, hrandom, hmod⟩
    have hlt := Nat.mod_lt random hn
    have hle := Nat.mod_le random n
    omega
  · rintro ⟨hlt, hrandom⟩
    exact ⟨k + 1, hrandom, Nat.mod_eq_of_lt hlt⟩

/-- For no file the phones type a line for every value of `$RANDOM`, and for no file all lines
can be picked. Nothing is typed if `$RANDOM` is a multiple of the number of lines, which 0
always is; otherwise the line before is picked, and it is typed if it arrives. The last line
is never picked. -/
theorem sentences_not_typed (setting : Setting) {lines : List (List Char)} (hne : lines ≠ [])
    (hallowed : ∀ line ∈ lines, ∀ c ∈ line, Allowed c) :
    ¬ TypesLines setting lines ∧ ¬ PicksLines lines ∧
      (∀ random, random % lines.length = 0 →
        typed setting (pickSentence lines random) = []) ∧
      (∀ random k line, random % lines.length = k + 1 → lines[k]? = some line →
        Enterable setting.phoneNames line →
          typed setting (pickSentence lines random) = [line.map ascii]) ∧
      ∀ k, (∃ random < 32768, random % lines.length = k + 1) ↔
        k + 1 < lines.length ∧ k + 1 < 32768 := by
  have hpos : 0 < lines.length := List.length_pos_iff.mpr hne
  have hzero : ∀ random, random % lines.length = 0 →
      typed setting (pickSentence lines random) = [] := by
    intro random hrandom
    rw [pickSentence_zero hrandom]
    exact typed_nil setting
  refine ⟨?_, ?_, hzero, ?_, exists_random_iff hpos⟩
  · intro htyped
    obtain ⟨line, -, hline⟩ := htyped 0 (by decide)
    rw [hzero 0 (Nat.zero_mod _)] at hline
    cases hline
  · intro hpicks
    -- The last line, or the last of the first 32768.
    have hpicked := (exists_random_iff hpos _).mp
      (hpicks (min (lines.length - 1) 32767) (by omega) (by omega))
    omega
  · intro random k line hrandom hline hentered
    rw [pickSentence_succ hrandom hline]
    exact typed_line setting (hallowed line (List.mem_of_getElem? hline)) hentered

def emulator : Setting where
  device := "emulator-5554".toList
  literal := by decide
  unmarked := by decide
  names := []
  phoneNames := ["sdcard".toList]

def threeSentences : List (List Char) :=
  ["Is anyone there?".toList, "I can't believe that".toList, "Why?".toList]

theorem sentences_not_typed_three :
    ¬ TypesLines emulator threeSentences ∧ ¬ PicksLines threeSentences ∧
      typed emulator (pickSentence threeSentences 1) = ["Is anyone there?".toList.map ascii] := by
  have hall : threeSentences.all (fun line => line.all fun c => Allowed c) = true := by
    decide +kernel
  have hallowed : ∀ line ∈ threeSentences, ∀ c ∈ line, Allowed c := by
    intro line hline c hc
    exact of_decide_eq_true (List.all_eq_true.mp (List.all_eq_true.mp hall line hline) c hc)
  have hquotes : "Is anyone there?".toList.all
      (fun c => c ≠ '\'' ∧ c ≠ '"' ∧ c ≠ '–') = true := by decide +kernel
  have hentered : Enterable emulator.phoneNames "Is anyone there?".toList := by
    refine ⟨by decide, fun c hc => of_decide_eq_true (List.all_eq_true.mp hquotes c hc), ?_⟩
    intro name hname
    obtain rfl := List.mem_singleton.mp hname
    decide +kernel
  have htyped := sentences_not_typed emulator (by decide) hallowed
  exact ⟨htyped.1, htyped.2.1, htyped.2.2.2.1 1 0 _ rfl rfl hentered⟩

/-- Nothing is typed if `$RANDOM` is 0, and nothing for the second sentence, whose apostrophe
opens a quote for the phone. The third sentence is never picked. -/
theorem apostrophe_and_zero_not_typed :
    pickSentence threeSentences 0 = [] ∧ typed emulator (pickSentence threeSentences 0) = [] ∧
      pickSentence threeSentences 2 = "I can't believe that\n".toList ∧
      typed emulator (pickSentence threeSentences 2) = [] ∧
      ¬ TypesLines emulator threeSentences ∧ ¬ PicksLines threeSentences := by
  have hzero : typed emulator (pickSentence threeSentences 0) = [] := by decide +kernel
  refine ⟨by decide +kernel, hzero, by decide +kernel, by decide +kernel, ?_, ?_⟩
  · intro htyped
    obtain ⟨line, -, hline⟩ := htyped 0 (by decide)
    rw [hzero] at hline
    cases hline
  · intro hpicks
    obtain ⟨random, -, hrandom⟩ := hpicks 2 (by decide) (by decide)
    have hlt : random % 3 < 3 := Nat.mod_lt random (by decide)
    have hthree : random % 3 = 3 := hrandom
    omega

end Phone

end Matador

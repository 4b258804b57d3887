import Idk.Model.Quoting
import Idk.Verified.Git.Texts

/-!
# Quoted words are read as they were

**Main result:** `parseEditorArgv_quoted`: words quoted by either function and joined with
spaces are the arguments that `parse_editor_argv` reads, whatever characters they hold.

The loop is followed one character at a time: a lemma for each branch, one for an escape,
one for the inside of a word, one for a word and one for the words.
-/

namespace Idk.Model

/-! ## The functions that quote -/

inductive Quoter where
  | argument
  | command

/-- What stands for a quote inside of the quotes. -/
def Quoter.escape : Quoter → String
  | .argument => "'\\''"
  | .command => "'\"'\"'"

def Quoter.quote : Quoter → String → Result String
  | .argument, value => quoteArg value
  | .command, value => commandWord (Git.bytesOf value)

theorem containsNul_of_visible {value : String} (visible : hasControl value = false) :
    containsNul value = false := by
  rw [containsNul, List.contains_eq_mem, decide_eq_false_iff_not]
  intro mem
  have control := List.any_eq_false.mp visible _ mem
  exact control (by decide)

theorem Quoter.quote_visible (quoter : Quoter) {value : String}
    (visible : hasControl value = false) :
    quoter.quote value = .ok (singleQuoted quoter.escape value) := by
  cases quoter with
  | argument =>
    simp only [Quoter.quote, quoteArg, containsNul_of_visible visible]
    rfl
  | command =>
    simp only [Quoter.quote, commandWord, Git.fromUTF8?_bytesOf, context]
    change ensure (!hasControl value) _ >>= _ = _
    rw [visible]
    rfl

theorem replaceAll_quote {escape chars : List Char} :
    replaceAll ['\''] escape 0 chars =
      chars.flatMap fun char => if char = '\'' then escape else [char] := by
  induction chars with
  | nil => rfl
  | cons char rest inductionHypothesis =>
    by_cases quote : char = '\''
    · subst quote
      simp [replaceAll, inductionHypothesis]
    · have other : ('\'' == char) = false := by simpa using Ne.symm quote
      simp [replaceAll, List.isPrefixOf, other, quote, inductionHypothesis]

theorem toList_singleQuoted {escape value : String} :
    (singleQuoted escape value).toList =
      '\'' :: replaceAll ['\''] escape.toList 0 value.toList ++ ['\''] := by
  simp [singleQuoted]

/-! ## One round of the loop -/

/-- The bounds of the loop. -/
def Fits (args : List String) (current : List Char) : Prop :=
  args.length ≤ 64 ∧ (String.ofList current).utf8ByteSize ≤ 8192

theorem Fits.left {args : List String} {before after : List Char}
    (fits : Fits args (before ++ after)) : Fits args before := by
  refine ⟨fits.1, ?_⟩
  have sum := fits.2
  rw [String.ofList_append, String.utf8ByteSize_append] at sum
  omega

section Rounds

variable {args : List String} {current rest : List Char} {active : Bool}

theorem bounded_of_fits (fits : Fits args current) {quote : Option Char} :
    ArgvState.bounded ⟨args, current, active, quote⟩ = .ok ⟨args, current, active, quote⟩ := by
  simp only [ArgvState.bounded, fits.1, fits.2]
  rfl

theorem parseArgv_open (fits : Fits args current) {quote : Char}
    (mark : quote = '\'' ∨ quote = '"') :
    parseArgv ⟨args, current, active, none⟩ (quote :: rest) =
      parseArgv ⟨args, current, true, some quote⟩ rest := by
  rw [parseArgv.eq_def]
  simp only [mark, if_true, bounded_of_fits fits]
  rfl

theorem parseArgv_close (fits : Fits args current) {quote : Char} :
    parseArgv ⟨args, current, active, some quote⟩ (quote :: rest) =
      parseArgv ⟨args, current, active, none⟩ rest := by
  rw [parseArgv.eq_def]
  simp only [if_true, bounded_of_fits fits]
  rfl

/-- Inside of quotes a character stands for itself. -/
theorem parseArgv_literal {quote char : Char} (fits : Fits args (current ++ [char]))
    (inside : char ≠ quote) (plain : quote = '\'' ∨ char ≠ '\\') :
    parseArgv ⟨args, current, active, some quote⟩ (char :: rest) =
      parseArgv ⟨args, current ++ [char], active, some quote⟩ rest := by
  have unescaped : ¬(quote = '"' ∧ char = '\\') := by
    rintro ⟨rfl, rfl⟩
    exact plain.elim (by decide) (· rfl)
  rw [parseArgv.eq_def]
  simp only [inside, unescaped, if_false, bounded_of_fits fits]
  rfl

theorem parseArgv_backslash {char : Char} (fits : Fits args (current ++ [char])) :
    parseArgv ⟨args, current, active, none⟩ ('\\' :: char :: rest) =
      parseArgv ⟨args, current ++ [char], true, none⟩ rest := by
  have unquoted : ¬('\\' = '\'' ∨ '\\' = '"') := by decide
  rw [parseArgv.eq_def]
  simp only [unquoted, if_false, if_true, ArgvState.take, bounded_of_fits fits]
  rfl

/-- A space ends the word. -/
theorem parseArgv_space (fits : Fits (args ++ [String.ofList current]) []) :
    parseArgv ⟨args, current, true, none⟩ (' ' :: rest) =
      parseArgv ⟨args ++ [String.ofList current], [], false, none⟩ rest := by
  have unquoted : ¬(' ' = '\'' ∨ ' ' = '"') := by decide
  have unescaped : ' ' ≠ '\\' := by decide
  have blank : isWhitespace ' ' = true := by decide
  rw [parseArgv.eq_def]
  simp only [unquoted, unescaped, blank, if_false, if_true, bounded_of_fits fits]
  rfl

/-! ## Words -/

/-- An escape leaves the quotes, reads one quote, and goes on inside of quotes. -/
theorem parseArgv_escape (quoter : Quoter) (fits : Fits args (current ++ ['\''])) :
    parseArgv ⟨args, current, true, some '\''⟩ (quoter.escape.toList ++ rest) =
      parseArgv ⟨args, current ++ ['\''], true, some '\''⟩ rest := by
  cases quoter with
  | argument =>
    have chars : Quoter.argument.escape.toList ++ rest = '\'' :: '\\' :: '\'' :: '\'' :: rest := by
      simp [Quoter.escape]
    rw [chars, parseArgv_close fits.left, parseArgv_backslash fits,
      parseArgv_open fits (.inl rfl)]
  | command =>
    have chars : Quoter.command.escape.toList ++ rest =
        '\'' :: '"' :: '\'' :: '"' :: '\'' :: rest := by
      simp [Quoter.escape]
    rw [chars, parseArgv_close fits.left, parseArgv_open fits.left (.inr rfl),
      parseArgv_literal fits (by decide) (.inr (by decide)), parseArgv_close fits,
      parseArgv_open fits (.inl rfl)]

/-- Inside of the quotes what was replaced is read back, up to the closing quote. -/
theorem parseArgv_inside (quoter : Quoter) {chars : List Char}
    (fits : Fits args (current ++ chars)) :
    parseArgv ⟨args, current, true, some '\''⟩
        (replaceAll ['\''] quoter.escape.toList 0 chars ++ '\'' :: rest) =
      parseArgv ⟨args, current ++ chars, true, none⟩ rest := by
  rw [replaceAll_quote]
  induction chars generalizing current with
  | nil =>
    rw [List.append_nil] at fits ⊢
    exact parseArgv_close fits
  | cons char others inductionHypothesis =>
    have whole : Fits args ((current ++ [char]) ++ others) := by simpa using fits
    have others := inductionHypothesis whole
    rw [List.append_assoc, List.singleton_append] at others
    rw [← others, List.flatMap_cons, List.append_assoc]
    by_cases quote : char = '\''
    · subst quote
      exact parseArgv_escape quoter whole.left
    · rw [if_neg quote, List.singleton_append]
      exact parseArgv_literal whole.left quote (.inl rfl)

theorem parseArgv_word (quoter : Quoter) {value : String} (fits : Fits args value.toList) :
    parseArgv ⟨args, [], false, none⟩ ((singleQuoted quoter.escape value).toList ++ rest) =
      parseArgv ⟨args, value.toList, true, none⟩ rest := by
  have empty : Fits args [] := @Fits.left _ [] _ fits
  rw [toList_singleQuoted, List.cons_append, List.cons_append, List.append_assoc,
    List.singleton_append, parseArgv_open empty (.inl rfl)]
  exact parseArgv_inside quoter fits

end Rounds

/-! ## A command line -/

/-- The arguments, when the text ends here. -/
def ArgvState.finished (state : ArgvState) : List String :=
  if state.active then state.args ++ [String.ofList state.current] else state.args

/-- Every word ends where it was quoted. -/
theorem parseArgv_words {words : List (Quoter × String)} {args : List String}
    (count : args.length + words.length ≤ 64)
    (short : ∀ word ∈ words, word.2.utf8ByteSize ≤ 8192) :
    ∃ state, state.quote = none ∧ state.finished = args ++ words.map Prod.snd ∧
      parseArgv ⟨args, [], false, none⟩ (" ".intercalate (words.map fun word =>
        singleQuoted word.1.escape word.2)).toList = .ok state := by
  induction words generalizing args with
  | nil => exact ⟨⟨args, [], false, none⟩, rfl, by simp [ArgvState.finished], rfl⟩
  | cons word others inductionHypothesis =>
    rw [List.length_cons] at count
    have fits : Fits args word.2.toList := by
      refine ⟨by omega, ?_⟩
      rw [String.ofList_toList]
      exact short word List.mem_cons_self
    cases others with
    | nil =>
      refine ⟨⟨args, word.2.toList, true, none⟩, rfl, by simp [ArgvState.finished], ?_⟩
      have read := @parseArgv_word args [] word.1 word.2 fits
      rw [List.append_nil, parseArgv] at read
      simpa using read
    | cons next others =>
      have ended : Fits (args ++ [String.ofList word.2.toList]) [] := by
        refine ⟨?_, by simp⟩
        rw [List.length_append, List.length_singleton]
        omega
      obtain ⟨state, unquoted, finished, read⟩ :=
        @inductionHypothesis (args ++ [String.ofList word.2.toList])
          (by rw [List.length_append, List.length_singleton]; omega)
          fun later listed => short later (List.mem_cons_of_mem _ listed)
      refine ⟨state, unquoted, by simpa using finished, ?_⟩
      rw [List.map_cons, String.intercalate_cons_of_ne_nil (by simp), String.toList_append,
        String.toList_append, List.append_assoc, parseArgv_word word.1 fits]
      exact (parseArgv_space ended).trans read

/-- A quoted word holds the characters of the argument, quotes and backslashes. -/
theorem mem_singleQuoted (quoter : Quoter) {value : String} {char : Char}
    (mem : char ∈ (singleQuoted quoter.escape value).toList) :
    char ∈ value.toList ∨ char ∈ ['\'', '"', '\\'] := by
  rw [toList_singleQuoted, replaceAll_quote] at mem
  simp only [List.cons_append, List.mem_cons, List.mem_append, List.mem_flatMap,
    List.not_mem_nil, or_false] at mem
  obtain rfl | ⟨source, held, mem⟩ | rfl := mem
  · simp
  · by_cases quote : source = '\''
    · rw [if_pos quote] at mem
      right
      cases quoter <;> simp [Quoter.escape] at mem <;> grind
    · rw [if_neg quote, List.mem_singleton] at mem
      exact .inl (mem ▸ held)
  · simp

theorem visible_joined {words : List (Quoter × String)}
    (visible : ∀ word ∈ words, hasControl word.2 = false) :
    hasControl (" ".intercalate (words.map fun word =>
      singleQuoted word.1.escape word.2)) = false := by
  induction words with
  | nil => rfl
  | cons word others inductionHypothesis =>
    have later := inductionHypothesis fun other listed =>
      visible other (List.mem_cons_of_mem _ listed)
    have here : hasControl (singleQuoted word.1.escape word.2) = false := by
      refine List.any_eq_false.mpr fun char mem => ?_
      cases mem_singleQuoted word.1 mem with
      | inl held => exact List.any_eq_false.mp (visible word List.mem_cons_self) char held
      | inr mark =>
        have marks : ['\'', '"', '\\'].all (!isControl ·) = true := by decide
        simpa using List.all_eq_true.mp marks char mark
    cases others with
    | nil => simpa using here
    | cons next others =>
      have space : isControl ' ' = false := by decide
      rw [List.map_cons, String.intercalate_cons_of_ne_nil (by simp)]
      simp only [hasControl, String.toList_append, List.any_append, Bool.or_eq_false_iff]
      exact ⟨⟨here, by simp [space]⟩, later⟩

/-- Nothing inside of an argument is interpreted, split or lost: what is read is the list of
    the arguments, unless the command line as a whole is too long. -/
theorem parseEditorArgv_quoted {words : List (Quoter × String)} (count : words.length ≤ 64)
    (visible : ∀ word ∈ words, hasControl word.2 = false)
    (short : ∀ word ∈ words, word.2.utf8ByteSize ≤ 8192) :
    ∃ quoted, words.mapM (fun word => word.1.quote word.2) = .ok quoted ∧
      parseEditorArgv (" ".intercalate quoted) =
        if (" ".intercalate quoted).utf8ByteSize ≤ 16 * 1024 then .ok (words.map Prod.snd)
        else .error "editor command is too long or contains control characters" := by
  have quoted : words.mapM (fun word => word.1.quote word.2) =
      .ok (words.map fun word => singleQuoted word.1.escape word.2) := by
    clear count short
    induction words with
    | nil => rfl
    | cons word others inductionHypothesis =>
      rw [List.mapM_cons, Quoter.quote_visible word.1 (visible word List.mem_cons_self),
        inductionHypothesis fun other listed => visible other (List.mem_cons_of_mem _ listed)]
      rfl
  refine ⟨_, quoted, ?_⟩
  obtain ⟨state, unquoted, finished, read⟩ :=
    @parseArgv_words words [] (by simpa using count) short
  rw [List.nil_append] at finished
  rw [parseEditorArgv, visible_joined visible]
  split
  case isFalse long =>
    simp only [long]
    rfl
  case isTrue fits =>
    simp only [fits, decide_true, Bool.not_false, Bool.and_true, ensure_true, read]
    change ensure state.quote.isNone _ >>= (fun _ =>
      ensure (state.finished.length ≤ 64) _ >>= fun _ => .ok state.finished) = _
    rw [unquoted, finished, List.length_map]
    simp only [count, Option.isNone_none, decide_true, ensure_true]
    rfl

/-- Words of quotes, backslashes and blanks, and an empty one. -/
def sampleWords : List (Quoter × String) :=
  [(.argument, "it's"), (.command, ""), (.command, "'\\\" $x"), (.argument, "\\'\u00a0")]

theorem parseEditorArgv_quoted_sample :
    ∃ quoted, sampleWords.mapM (fun word => word.1.quote word.2) = .ok quoted ∧
      parseEditorArgv (" ".intercalate quoted) =
        if (" ".intercalate quoted).utf8ByteSize ≤ 16 * 1024
        then .ok ["it's", "", "'\\\" $x", "\\'\u00a0"]
        else .error "editor command is too long or contains control characters" :=
  @parseEditorArgv_quoted sampleWords (by decide) (by decide) (by decide)

end Idk.Model

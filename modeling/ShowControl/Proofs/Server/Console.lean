import ShowControl.Proofs.Text.Words
import ShowControl.Server.Console

/-!
# The grammar of the console

What is typed is read by its words alone, and the lines that can be read are those that can be
written down: a text stands for a line exactly if its words are the words of the line
(`ofWords_eq_ok_some_iff`). There is one line at most, since the first word tells the target from
the commands and the commands from each other (`words_injective`), whatever the names are: a
renderer may be called `to`, and a scene `list`.

The only line that cannot be typed is a list of the renderers for one of them. All this is one
statement about every text (`ConsoleLine.console_grammar`).
-/

namespace ShowControl

open Text (HasWords Spaced hasWords_iff weave words_spaced)

theorem map_eq_ok_iff {ε α β : Type} {x : Except ε α} {f : α → β} {b : β} :
    x.map f = .ok b ↔ ∃ a, x = .ok a ∧ f a = b := by
  cases x <;> simp [Except.map]

namespace ConsoleCommand

/-- The words of a command are read as this command, and no others are. -/
theorem ofWords_eq_ok_iff {targeted : Bool} {words : List String} {command : ConsoleCommand} :
    ofWords targeted words = .ok command ↔
      words = command.words ∧ (command = .list → targeted = false) := by
  constructor
  · intro h
    unfold ofWords at h
    split at h
    · cases h
    · split at h <;> cases h
      next free => exact ⟨rfl, fun _ ↦ by simpa using free⟩
    · cases h
      exact ⟨rfl, nofun⟩
    · cases h
      exact ⟨rfl, nofun⟩
    · cases h
      exact ⟨rfl, nofun⟩
    · cases h
      exact ⟨rfl, nofun⟩
    · cases h
  · rintro ⟨rfl, free⟩
    cases command with
    | list => simp [words, ofWords, free rfl]
    | _ => rfl

/-- No command begins with the word that names a target. -/
theorem head?_words_ne (command : ConsoleCommand) : command.words.head? ≠ some "to" := by
  cases command <;> simp [words]

theorem words_injective : Function.Injective words := by
  intro left right h
  cases left <;> cases right <;> simp_all [words]

end ConsoleCommand

namespace ConsoleLine

variable {line : ConsoleLine} {words : List String}

/-- An operator can type the line: to list the renderers is for none of them in particular. -/
def IsTypable (line : ConsoleLine) : Prop := line.command = .list → line.target = none

theorem ofWords_eq_ok_none_iff : ofWords words = .ok none ↔ words = [] := by
  constructor
  · intro h
    unfold ofWords at h
    split at h
    · rfl
    · cases h
    all_goals
      obtain ⟨command, -, none⟩ := map_eq_ok_iff.1 h
      cases none
  · rintro rfl
    rfl

/-- The words of a line that can be typed are read as this line, and no others are. -/
theorem ofWords_eq_ok_some_iff :
    ofWords words = .ok (some line) ↔ line.IsTypable ∧ words = line.words := by
  constructor
  · intro h
    unfold ofWords at h
    split at h
    · cases h
    · cases h
    · next name rest =>
      obtain ⟨command, read, ⟨⟩⟩ := map_eq_ok_iff.1 h
      obtain ⟨rfl, free⟩ := ConsoleCommand.ofWords_eq_ok_iff.1 read
      exact ⟨fun list ↦ absurd (free list) (by simp), rfl⟩
    · obtain ⟨command, read, ⟨⟩⟩ := map_eq_ok_iff.1 h
      exact ⟨fun _ ↦ rfl, (ConsoleCommand.ofWords_eq_ok_iff.1 read).1⟩
  · obtain ⟨target, command⟩ := line
    rintro ⟨typable, rfl⟩
    cases target with
    | none =>
      have read : ConsoleCommand.ofWords false command.words = .ok command :=
        ConsoleCommand.ofWords_eq_ok_iff.2 ⟨rfl, fun _ ↦ rfl⟩
      -- no command begins with the word that names a target
      have form : ofWords command.words =
          (ConsoleCommand.ofWords false command.words).map fun command ↦ some ⟨none, command⟩ := by
        cases command <;> rfl
      exact form.trans (map_eq_ok_iff.2 ⟨command, read, rfl⟩)
    | some name =>
      have read : ConsoleCommand.ofWords true command.words = .ok command :=
        ConsoleCommand.ofWords_eq_ok_iff.2 ⟨rfl, fun list ↦ absurd (typable list) (by simp)⟩
      exact map_eq_ok_iff.2 ⟨command, read, rfl⟩

/-- The words of a line tell its target and its command. -/
theorem words_injective : Function.Injective ConsoleLine.words := by
  rintro ⟨_ | name, command⟩ ⟨_ | name', command'⟩ h
  · have same : command.words = command'.words := h
    rw [ConsoleCommand.words_injective same]
  · exact absurd (congrArg List.head? h) command.head?_words_ne
  · exact absurd (congrArg List.head? h).symm command'.head?_words_ne
  · obtain ⟨rfl, same⟩ : name = name' ∧ command.words = command'.words := by
      simpa [ConsoleLine.words] using h
    rw [ConsoleCommand.words_injective same]

/-- What a console reads in a text, told by the words of the text alone. -/
structure Grammar : Prop where
  /-- A text without words is blank, -/
  blank (text : String) : parse text = .ok none ↔ HasWords text []
  /-- a text stands for a line if its words are those of the line, -/
  line (text : String) (line : ConsoleLine) :
    parse text = .ok (some line) ↔ line.IsTypable ∧ HasWords text line.words
  /-- and every other text is refused. -/
  refused (text : String) : (∃ reason, parse text = .error reason) ↔
    ¬HasWords text [] ∧ ∀ line : ConsoleLine, line.IsTypable → ¬HasWords text line.words
  /-- Words are those of one line at most, -/
  unique (left right : ConsoleLine) : left.words = right.words → left = right
  /-- and so each line can be typed, with any blanks between its words and around them. -/
  typed (line : ConsoleLine) (lead : String) (pieces : List (String × String)) :
    line.IsTypable → Spaced lead pieces → pieces.map Prod.fst = line.words →
      parse (lead ++ weave pieces) = .ok (some line)

theorem console_grammar : Grammar := by
  have blank (text : String) : parse text = .ok none ↔ HasWords text [] := by
    rw [parse, ofWords_eq_ok_none_iff, hasWords_iff]
  have line (text : String) (line : ConsoleLine) :
      parse text = .ok (some line) ↔ line.IsTypable ∧ HasWords text line.words := by
    rw [parse, ofWords_eq_ok_some_iff, hasWords_iff]
  refine ⟨blank, line, fun text ↦ ?_, fun left right same ↦ words_injective same, ?_⟩
  · simp only [← blank, ← not_and, ← line]
    cases parse text with
    | error reason => simp
    | ok read => cases read <;> simp
  · intro line' lead pieces typable spaced words
    exact (line _ line').2 ⟨typable, lead, pieces, spaced, rfl, words⟩

/-- A surface may be called `list` and a feed `to`, and so may a renderer. -/
theorem console_grammar_to : parse "\tto\u3000to\u00A0\u2028set-feed  list\u0085to\r\n" =
    .ok (some ⟨some "to", .setFeed "list" "to"⟩) :=
  console_grammar.typed ⟨some "to", .setFeed "list" "to"⟩ "\t"
    [("to", "\u3000"), ("to", "\u00A0\u2028"), ("set-feed", "  "), ("list", "\u0085"),
      ("to", "\r\n")]
    nofun (by decide) rfl

end ConsoleLine

end ShowControl

import ShowControl.Text.Blank
import Mathlib.Data.List.Basic

/-!
# Words as runs

The words of a text are its maximal runs of characters that are no blanks: cut at every blank, a
text falls into pieces, and those that are not empty are its runs (`words_eq`). All that is needed
of them is the equation `runs_append_cons`, that a blank between two texts keeps their runs apart.

So words may be set apart by any blanks, and blanks may stand in front of them and behind them: they
are the words of the text that they make up (`words_spaced`). Every text is made up so
(`hasWords_words`), and therefore its words are what `HasWords` says they are.
-/

namespace ShowControl.Text

/-- The maximal runs of characters that are no blanks. -/
def runs (cs : List Char) : List (List Char) := (cs.splitOnP isBlank).filter (· ≠ [])

/-- All characters of the text are blanks. -/
def IsBlanks (text : String) : Prop := ∀ c ∈ text.toList, isBlank c = true

/-- The text may be a word. -/
structure IsWord (text : String) : Prop where
  nonempty : text ≠ ""
  solid : ∀ c ∈ text.toList, isBlank c = false

instance (text : String) : Decidable (IsBlanks text) :=
  decidable_of_iff (text.toList.all isBlank = true) List.all_eq_true

instance (text : String) : Decidable (IsWord text) :=
  decidable_of_iff (text ≠ "" ∧ (text.toList.all fun c ↦ !isBlank c) = true)
    ⟨fun ⟨nonempty, solid⟩ ↦ ⟨nonempty, by simpa using solid⟩,
      fun ⟨nonempty, solid⟩ ↦ ⟨nonempty, by simpa using solid⟩⟩

/-! ### Runs -/

section Runs

variable {c : Char} {cs left right : List Char}

/-- A blank keeps runs apart. -/
theorem runs_append_cons (blank : isBlank c = true) (left right : List Char) :
    runs (left ++ c :: right) = runs left ++ runs right := by
  rw [runs, List.splitOnP_append_cons left right blank, List.filter_append, runs, runs]

theorem runs_nil : runs [] = [] := by simp [runs]

theorem runs_of_solid (solid : ∀ c ∈ cs, isBlank c = false) (nonempty : cs ≠ []) :
    runs cs = [cs] := by
  rw [runs, List.splitOnP_eq_singleton solid, List.filter_cons_of_pos (by simpa using nonempty),
    List.filter_nil]

/-- Blanks in front do not matter. -/
theorem runs_append_of_blanks (blanks : ∀ c ∈ left, isBlank c = true) (right : List Char) :
    runs (left ++ right) = runs right := by
  induction left with
  | nil => rfl
  | cons c left ih =>
    obtain ⟨blank, blanks⟩ := List.forall_mem_cons.1 blanks
    have first := runs_append_cons blank [] (left ++ right)
    rw [runs_nil, List.nil_append, List.nil_append] at first
    rw [List.cons_append, first, ih blanks]

/-- The word that is being read goes on with the text. -/
theorem wordsFrom_eq {word : List Char} (solid : ∀ c ∈ word, isBlank c = false) (cs : List Char) :
    wordsFrom word cs = (runs (word.reverse ++ cs)).map String.ofList := by
  have solid' (word : List Char) (solid : ∀ c ∈ word, isBlank c = false) :
      ∀ c ∈ word.reverse, isBlank c = false :=
    fun c mem ↦ solid c (List.mem_reverse.1 mem)
  induction cs generalizing word with
  | nil =>
    rw [wordsFrom, List.append_nil]
    by_cases empty : word = []
    · rw [empty, List.isEmpty_nil, if_pos rfl, List.reverse_nil, runs_nil, List.map_nil]
    · rw [if_neg (by simpa using empty),
        runs_of_solid (solid' word solid) (by simpa using empty), List.map_singleton]
  | cons c cs ih =>
    rw [wordsFrom]
    split
    · next blank =>
      have rest : wordsFrom [] cs = (runs cs).map String.ofList := ih (List.forall_mem_nil _)
      rw [runs_append_cons blank, rest]
      by_cases empty : word = []
      · rw [empty, List.isEmpty_nil, if_pos rfl, List.reverse_nil, runs_nil, List.nil_append]
      · rw [if_neg (by simpa using empty),
          runs_of_solid (solid' word solid) (by simpa using empty), List.singleton_append,
          List.map_cons]
    · next letter =>
      have longer : ∀ a ∈ c :: word, isBlank a = false :=
        List.forall_mem_cons.2 ⟨by simpa using letter, solid⟩
      rw [ih longer, List.reverse_cons, List.append_assoc, List.singleton_append]

end Runs

/-- The words of a text are its runs. -/
theorem words_eq (text : String) : words text = (runs text.toList).map String.ofList :=
  wordsFrom_eq (by simp) text.toList

/-! ### Words set apart -/

/-- Words, each with the blanks behind it. -/
def weave (pieces : List (String × String)) : String :=
  String.ofList (pieces.flatMap fun piece ↦ piece.1.toList ++ piece.2.toList)

/-- Words with blanks between any two of them, and perhaps in front and behind. -/
structure Spaced (lead : String) (pieces : List (String × String)) : Prop where
  lead : IsBlanks lead
  words : ∀ piece ∈ pieces, IsWord piece.1
  blanks : ∀ piece ∈ pieces, IsBlanks piece.2
  apart : ∀ piece ∈ pieces.dropLast, piece.2 ≠ ""

instance (lead : String) (pieces : List (String × String)) : Decidable (Spaced lead pieces) :=
  decidable_of_iff (IsBlanks lead ∧ (∀ piece ∈ pieces, IsWord piece.1) ∧
      (∀ piece ∈ pieces, IsBlanks piece.2) ∧ ∀ piece ∈ pieces.dropLast, piece.2 ≠ "")
    ⟨fun ⟨lead, words, blanks, apart⟩ ↦ ⟨lead, words, blanks, apart⟩,
      fun ⟨lead, words, blanks, apart⟩ ↦ ⟨lead, words, blanks, apart⟩⟩

theorem runs_weave {pieces : List (String × String)} (words : ∀ piece ∈ pieces, IsWord piece.1)
    (blanks : ∀ piece ∈ pieces, IsBlanks piece.2)
    (apart : ∀ piece ∈ pieces.dropLast, piece.2 ≠ "") :
    runs (weave pieces).toList = pieces.map fun piece ↦ piece.1.toList := by
  rw [weave, String.toList_ofList]
  induction pieces with
  | nil => exact runs_nil
  | cons piece pieces ih =>
    obtain ⟨word, words⟩ := List.forall_mem_cons.1 words
    obtain ⟨blank, blanks⟩ := List.forall_mem_cons.1 blanks
    have run : runs piece.1.toList = [piece.1.toList] :=
      runs_of_solid word.solid (by simpa using word.nonempty)
    rw [List.flatMap_cons, List.map_cons]
    cases gap : piece.2.toList with
    | nil =>
      -- only behind the last word there may be no blank
      have last : pieces = [] := by
        by_contra more
        refine apart piece ?_ (by simpa using gap)
        rw [List.dropLast_cons_of_ne_nil more]
        exact List.mem_cons_self
      simp [last, run]
    | cons c cs =>
      rw [IsBlanks, gap, List.forall_mem_cons] at blank
      have apart' : ∀ piece ∈ pieces.dropLast, piece.2 ≠ "" := by
        intro other mem
        refine apart other ?_
        cases pieces with
        | nil => cases mem
        | cons next pieces =>
          rw [List.dropLast_cons_of_ne_nil (List.cons_ne_nil _ _)]
          exact List.mem_cons_of_mem _ mem
      rw [List.append_assoc, List.cons_append, runs_append_cons blank.1, run,
        runs_append_of_blanks blank.2, ih words blanks apart', List.singleton_append]

/-- The words of words set apart are these words. -/
theorem words_spaced {lead : String} {pieces : List (String × String)}
    (spaced : Spaced lead pieces) : words (lead ++ weave pieces) = pieces.map Prod.fst := by
  rw [words_eq, String.toList_append, runs_append_of_blanks spaced.lead,
    runs_weave spaced.words spaced.blanks spaced.apart, List.map_map]
  exact List.map_congr_left fun piece _ ↦ String.ofList_toList

/-- The text is these words, in this order, set apart by blanks. -/
def HasWords (text : String) (words : List String) : Prop :=
  ∃ lead pieces, Spaced lead pieces ∧ text = lead ++ weave pieces ∧ pieces.map Prod.fst = words

theorem weave_cons (piece : String × String) (pieces : List (String × String)) :
    weave (piece :: pieces) = piece.1 ++ piece.2 ++ weave pieces := by
  simp [weave, String.append_assoc]

section Apart

variable {c : Char} {cs : List Char} {text : String}

/-- A blank in front is one more blank before the first word. -/
theorem HasWords.cons_blank {words : List String} (blank : isBlank c = true)
    (has : HasWords (String.ofList cs) words) : HasWords (String.ofList (c :: cs)) words := by
  obtain ⟨lead, pieces, spaced, made, rfl⟩ := has
  refine ⟨String.singleton c ++ lead, pieces, { spaced with lead := ?_ }, ?_, rfl⟩
  · simpa [IsBlanks] using ⟨blank, spaced.lead⟩
  · rw [String.append_assoc, ← made]
    simp [String.ofList_cons]

/-- A letter in front belongs to the first word if no blank follows it, else it is a word. -/
theorem HasWords.cons_letter {words : List String} (letter : isBlank c = false)
    (has : HasWords (String.ofList cs) words) :
    ∃ words, HasWords (String.ofList (c :: cs)) words := by
  obtain ⟨lead, pieces, spaced, made, rfl⟩ := has
  have single : IsWord (String.singleton c) := ⟨by simp, by simpa using letter⟩
  rw [String.ofList_cons, made]
  by_cases gap : lead = ""
  · subst gap
    cases pieces with
    | nil =>
      refine ⟨_, "", [(String.singleton c, "")], ?_, by simp [weave], rfl⟩
      constructor <;> simp [IsBlanks, single]
    | cons piece pieces =>
      obtain ⟨⟨-, solid⟩, words⟩ := List.forall_mem_cons.1 spaced.words
      obtain ⟨blank, blanks⟩ := List.forall_mem_cons.1 spaced.blanks
      have longer : IsWord (String.singleton c ++ piece.1) :=
        ⟨by simp, by simpa using ⟨letter, solid⟩⟩
      refine ⟨_, "", (String.singleton c ++ piece.1, piece.2) :: pieces,
        ⟨spaced.lead, ?_, ?_, ?_⟩, ?_, rfl⟩
      · exact List.forall_mem_cons.2 ⟨longer, words⟩
      · exact List.forall_mem_cons.2 ⟨blank, blanks⟩
      · cases pieces with
        | nil => simp
        | cons next pieces =>
          obtain ⟨behind, apart⟩ := List.forall_mem_cons.1 spaced.apart
          exact List.forall_mem_cons.2 ⟨behind, apart⟩
      · simp [weave_cons, String.append_assoc]
  · refine ⟨_, "", (String.singleton c, lead) :: pieces, ⟨by simp [IsBlanks], ?_, ?_, ?_⟩, ?_, rfl⟩
    · exact List.forall_mem_cons.2 ⟨single, spaced.words⟩
    · exact List.forall_mem_cons.2 ⟨spaced.lead, spaced.blanks⟩
    · cases pieces with
      | nil => simp
      | cons next pieces => exact List.forall_mem_cons.2 ⟨gap, spaced.apart⟩
    · simp [weave_cons, String.append_assoc]

end Apart

/-- Every text is its words set apart by blanks. -/
theorem hasWords_words (text : String) : HasWords text (words text) := by
  obtain ⟨words, has⟩ : ∃ words, HasWords text words := by
    rw [← String.ofList_toList (s := text)]
    induction text.toList with
    | nil => exact ⟨[], "", [], ⟨by simp [IsBlanks], nofun, nofun, nofun⟩, by simp [weave], rfl⟩
    | cons c cs ih =>
      obtain ⟨words, has⟩ := ih
      cases blank : isBlank c with
      | true => exact ⟨words, has.cons_blank blank⟩
      | false => exact has.cons_letter blank
  obtain ⟨lead, pieces, spaced, rfl, rfl⟩ := has
  rw [words_spaced spaced]
  exact ⟨lead, pieces, spaced, rfl, rfl⟩

/-- A text has no other words than its own. -/
theorem hasWords_iff {text : String} {ws : List String} : HasWords text ws ↔ words text = ws := by
  constructor
  · rintro ⟨lead, pieces, spaced, rfl, rfl⟩
    exact words_spaced spaced
  · rintro rfl
    exact hasWords_words text

end ShowControl.Text

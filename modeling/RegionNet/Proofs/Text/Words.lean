import Mathlib.Data.List.Basic
import RegionNet.Text.Blank

/-!
# Words

Cutting a text at white space is the list library's split, so that its laws apply. All that is said
about words follows from one of them: where white space stands, the words before it and the words
after it are the words of the whole.
-/

namespace RegionNet.Text

theorem splitAt_eq_splitOnP (p : Char → Bool) (cs : List Char) : splitAt p cs = cs.splitOnP p := by
  induction cs with
  | nil => rw [splitAt, List.splitOnP_nil]
  | cons c cs ih =>
    rw [splitAt, ih, List.splitOnP_cons_eq_if_modifyHead]
    cases pieces : cs.splitOnP p with
    | nil => exact absurd pieces (List.splitOnP_ne_nil p cs)
    | cons piece rest => rfl

theorem words_append_cons (cs : List Char) (c : Char) (cs' : List Char) (blank : isBlank c = true) :
    words (cs ++ c :: cs') = words cs ++ words cs' := by
  simp only [words, splitAt_eq_splitOnP, List.splitOnP_append_cons cs cs' blank, List.filter_append]

@[simp] theorem words_nil : words [] = [] := by
  simp [words, splitAt]

theorem words_of_solid (word : List Char) (inhabited : word ≠ [])
    (solid : ∀ c ∈ word, isBlank c = false) : words word = [word] := by
  rw [words, splitAt_eq_splitOnP, List.splitOnP_eq_singleton solid]
  simp [inhabited]

/-! ### Words from the front -/

theorem words_append_of_blank (gap cs : List Char) (blank : ∀ c ∈ gap, isBlank c = true) :
    words (gap ++ cs) = words cs := by
  induction gap with
  | nil => rfl
  | cons c gap ih =>
    have first := words_append_cons [] c (gap ++ cs) (blank c List.mem_cons_self)
    rw [words_nil] at first
    exact first.trans (ih fun c' member => blank c' (List.mem_cons_of_mem _ member))

/-- A run of other characters that white space ends is a word. -/
theorem words_append_gap (word gap cs : List Char) (inhabited : word ≠ [])
    (solid : ∀ c ∈ word, isBlank c = false) (separated : gap ≠ [])
    (blank : ∀ c ∈ gap, isBlank c = true) : words (word ++ gap ++ cs) = word :: words cs := by
  cases gap with
  | nil => exact absurd rfl separated
  | cons c gap =>
    -- the first character of the gap ends the word, and the others are passed over
    rw [List.append_assoc, List.cons_append,
      words_append_cons word c _ (blank c List.mem_cons_self), words_of_solid word inhabited solid,
      words_append_of_blank gap cs fun c' member => blank c' (List.mem_cons_of_mem _ member)]
    rfl

/-- The first word of a text that starts with no white space has the first character of the text. -/
theorem words_cons_of_solid (c : Char) (cs : List Char) (solid : isBlank c = false) :
    ∃ word rest, words (c :: cs) = (c :: word) :: rest := by
  cases pieces : cs.splitOnP isBlank with
  | nil => exact absurd pieces (List.splitOnP_ne_nil isBlank cs)
  | cons piece rest =>
    refine ⟨piece, rest.filter fun w => !w.isEmpty, ?_⟩
    simp [words, splitAt_eq_splitOnP, List.splitOnP_cons_eq_if_modifyHead, solid, pieces]

end RegionNet.Text

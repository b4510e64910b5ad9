import Mathlib.Data.List.TakeWhile
import RegionNet.Text.Pieces

/-!
# Runs of characters and joined pieces
-/

namespace RegionNet.Text

/-! ### Runs -/

theorem takeWhile_run {p : Char → Bool} (run rest : List Char) (all : ∀ c ∈ run, p c = true)
    (stop : ∀ c ∈ rest.head?, p c = false) : (run ++ rest).takeWhile p = run := by
  rw [List.takeWhile_append_of_pos all]
  cases rest with
  | nil => simp
  | cons c rest => simp [stop c rfl]

theorem dropWhile_run {p : Char → Bool} (run rest : List Char) (all : ∀ c ∈ run, p c = true)
    (stop : ∀ c ∈ rest.head?, p c = false) : (run ++ rest).dropWhile p = rest := by
  rw [List.dropWhile_append_of_pos all]
  cases rest with
  | nil => rfl
  | cons c rest => simp [stop c rfl]

/-! ### Pieces -/

theorem joinWith_cons (separator piece : List Char) {pieces : List (List Char)}
    (more : pieces ≠ []) :
    joinWith separator (piece :: pieces) = piece ++ (separator ++ joinWith separator pieces) := by
  rw [joinWith, List.append_assoc]
  exact more

theorem joinWith_eq_intercalate (separator : List Char) (pieces : List (List Char)) :
    joinWith separator pieces = separator.intercalate pieces := by
  induction pieces with
  | nil => rfl
  | cons piece pieces ih =>
    rcases eq_or_ne pieces [] with rfl | more
    · rw [List.intercalate_singleton, joinWith]
    · rw [joinWith_cons _ _ more, List.intercalate_cons_of_ne_nil more, ih, List.append_assoc]

theorem joinWith_append (separator : List Char) {pieces pieces' : List (List Char)}
    (some : pieces ≠ []) (more : pieces' ≠ []) :
    joinWith separator (pieces ++ pieces') =
      joinWith separator pieces ++ (separator ++ joinWith separator pieces') := by
  induction pieces with
  | nil => exact absurd rfl some
  | cons piece pieces ih =>
    rcases eq_or_ne pieces [] with rfl | rest
    · exact joinWith_cons separator piece more
    · rw [List.cons_append, joinWith_cons _ _ (List.append_ne_nil_of_left_ne_nil rest _),
        joinWith_cons _ _ rest, ih rest]
      simp only [List.append_assoc]

theorem length_le_joinWith (separator : List Char) {piece : List Char} {pieces : List (List Char)}
    (member : piece ∈ pieces) : piece.length ≤ (joinWith separator pieces).length := by
  induction pieces with
  | nil => cases member
  | cons head pieces ih =>
    rcases eq_or_ne pieces [] with rfl | more
    · rw [List.mem_singleton.1 member]
      exact le_rfl
    rw [joinWith_cons _ _ more, List.length_append, List.length_append]
    rcases List.mem_cons.1 member with rfl | member
    · omega
    · have := ih member
      omega

/-- Pieces are no more than their characters. -/
theorem length_le_length_joinWith (separator : List Char) {pieces : List (List Char)}
    (filled : ∀ p ∈ pieces, p ≠ []) : pieces.length ≤ (joinWith separator pieces).length := by
  induction pieces with
  | nil => exact Nat.zero_le _
  | cons piece pieces ih =>
    have front := List.length_pos_iff.2 (filled piece List.mem_cons_self)
    have back := ih fun p member => filled p (List.mem_cons_of_mem _ member)
    rcases eq_or_ne pieces [] with rfl | more
    · exact front
    · rw [joinWith_cons _ _ more, List.length_append, List.length_append, List.length_cons]
      omega

end RegionNet.Text

import RegionNet.Proofs.Text.Words

/-!
# Lines without the white space at their ends

Trimming takes white space from both ends of a line, however much of it there is. The carriage
return of a line end is white space, too, so that a trimmed line does not show how it was ended.
-/

namespace RegionNet.Text

theorem trim_append_left (gap cs : List Char) (blank : ∀ c ∈ gap, isBlank c = true) :
    trim (gap ++ cs) = trim cs := by
  rw [trim, trimLeft, List.dropWhile_append_of_pos blank]
  rfl

theorem trimRight_append (cs gap : List Char) (blank : ∀ c ∈ gap, isBlank c = true) :
    trimRight (cs ++ gap) = trimRight cs := by
  have backwards : ∀ c ∈ gap.reverse, isBlank c = true := fun c member =>
    blank c (List.mem_reverse.1 member)
  rw [trimRight, List.reverse_append, List.dropWhile_append_of_pos backwards]
  rfl

theorem trim_append_right (cs gap : List Char) (blank : ∀ c ∈ gap, isBlank c = true) :
    trim (cs ++ gap) = trim cs := by
  induction cs with
  | nil =>
    have all := trim_append_left gap [] blank
    rwa [List.append_nil] at all
  | cons c cs ih =>
    cases solid : isBlank c with
    | true =>
      have first : ∀ d ∈ [c], isBlank d = true := by simpa using solid
      exact (trim_append_left [c] (cs ++ gap) first).trans
        (ih.trans (trim_append_left [c] cs first).symm)
    | false =>
      have kept (cs : List Char) : trimLeft (c :: cs) = c :: cs := by
        rw [trimLeft, List.dropWhile_cons_of_neg (by simp [solid])]
      rw [trim, List.cons_append, kept, ← List.cons_append, trimRight_append _ _ blank, trim, kept]

theorem trim_dropReturn (line : List Char) : trim (dropReturn line) = trim line := by
  rw [dropReturn]
  split
  next ending =>
    obtain ⟨cs, rfl⟩ := List.getLast?_eq_some_iff.1 ending
    rw [List.dropLast_concat, trim_append_right cs ['\r'] (List.forall_mem_singleton.2 rfl)]
  next => rfl

end RegionNet.Text

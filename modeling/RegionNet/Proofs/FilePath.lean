import Mathlib.Data.List.DropRight
import RegionNet.FilePath
import RegionNet.Proofs.Text.Pieces
import RegionNet.Proofs.Text.Words

/-!
# What paths name

A path names its components, and two paths that name the same components lead to the same place. The
text of a path is cut at its separators; the first piece decides whether the path starts at the root
or with a dot, and the pieces that name something are the rest of its components. A join puts the
names of a relative path after those of its base, and the parent of a path that ends in a name has
all components but this one.
-/

namespace RegionNet

open Text

namespace FilePath

/-- What the pieces of a text name, whatever they start from. -/
def named (pieces : List (List Char)) : List Component :=
  (pieces.filter fun piece => !namesNothing piece).map Component.ofPiece

def names (cs : List Char) : List Component :=
  named (pieces cs)

/-- Where a path starts from. -/
def Component.ofStart (start : List Char) : List Component :=
  match start with
  | ['/'] => [.root]
  | ['.'] => [.here]
  | _ => []

def leading (cs : List Char) : List Component :=
  Component.ofStart (splitStart cs).1

/-- The name at the end of a path. -/
def fileName? (path : String) : Option (List Char) :=
  match (components path).getLast? with
  | some (.name text) => some text
  | _ => none

/-! ### Pieces -/

theorem named_append (l l' : List (List Char)) : named (l ++ l') = named l ++ named l' := by
  rw [named, List.filter_append, List.map_append]
  rfl

theorem pieces_append_separator (cs cs' : List Char) :
    pieces (cs ++ separator :: cs') = pieces cs ++ pieces cs' := by
  simp only [pieces, splitAt_eq_splitOnP]
  exact List.splitOnP_append_cons cs cs' (beq_self_eq_true separator)

theorem names_append_separator (cs cs' : List Char) :
    names (cs ++ separator :: cs') = names cs ++ names cs' := by
  rw [names, pieces_append_separator, named_append]
  rfl

theorem joinWith_pieces (cs : List Char) : joinWith [separator] (pieces cs) = cs := by
  rw [joinWith_eq_intercalate, pieces, splitAt_eq_splitOnP, ← List.splitOn_eq_splitOnP]
  exact List.intercalate_splitOn separator

theorem separator_notMem {piece cs : List Char} (member : piece ∈ pieces cs) :
    separator ∉ piece := by
  induction cs generalizing piece with
  | nil => simp_all [pieces, splitAt]
  | cons c cs ih =>
    simp only [pieces, splitAt_eq_splitOnP, List.splitOnP_cons_eq_if_modifyHead] at member ih
    split at member
    · rcases List.mem_cons.1 member with rfl | member
      · exact List.not_mem_nil
      · exact ih member
    next other =>
      cases rest : cs.splitOnP (· == separator) with
      | nil => exact absurd rest (List.splitOnP_ne_nil _ _)
      | cons head tail =>
        rw [rest, List.modifyHead_cons] at member
        rw [rest] at ih
        rcases List.mem_cons.1 member with rfl | member
        · have before : separator ∉ head := ih List.mem_cons_self
          have differs : separator ≠ c := fun same => other (beq_iff_eq.2 same.symm)
          exact List.not_mem_cons_of_ne_of_not_mem differs before
        · exact ih (List.mem_cons_of_mem _ member)

theorem names_joinWith (l : List (List Char)) (whole : ∀ piece ∈ l, separator ∉ piece) :
    names (joinWith [separator] l) = named l := by
  rcases eq_or_ne l [] with rfl | some
  · rfl
  · rw [names, pieces, splitAt_eq_splitOnP, ← List.splitOn_eq_splitOnP, joinWith_eq_intercalate,
      List.splitOn_intercalate separator whole some]

/-- The first pieces of a text, put together again, are the text up to a separator. -/
theorem exists_rest_of_prefix {l : List (List Char)} {cs : List Char} (front : l <+: pieces cs) :
    ∃ rest, cs = joinWith [separator] l ++ rest ∧
      (l = [] ∨ rest = [] ∨ rest.head? = some separator) := by
  obtain ⟨more, all⟩ := front
  rcases eq_or_ne l [] with rfl | some
  · exact ⟨cs, rfl, .inl rfl⟩
  rcases eq_or_ne more [] with rfl | others
  · refine ⟨[], ?_, .inr (.inl rfl)⟩
    rw [← List.append_nil l, all, joinWith_pieces, List.append_nil]
  · refine ⟨separator :: joinWith [separator] more, ?_, .inr (.inr rfl)⟩
    rw [← joinWith_pieces cs, ← all, joinWith_append _ some others]
    rfl

/-! ### Components -/

/-- A text that starts neither at the root nor with a dot. -/
theorem splitStart_plain {cs : List Char} (root : ∀ rest, cs ≠ '/' :: rest) (dot : cs ≠ ['.'])
    (dotted : ∀ rest, cs ≠ '.' :: '/' :: rest) : splitStart cs = ([], cs) := by
  rw [splitStart]
  · exact root
  · exact dot
  · exact dotted

theorem names_splitStart (cs : List Char) : names (splitStart cs).2 = names cs := by
  fun_cases splitStart cs with
  | case1 rest => exact (names_append_separator [] rest).symm
  | case2 => rfl
  | case3 rest =>
    exact (names_append_separator [] rest).trans (names_append_separator ['.'] rest).symm
  | case4 => rfl

theorem components_eq (path : String) :
    components path = leading path.toList ++ names path.toList := by
  rw [← names_splitStart]
  rfl

theorem isAbsolute_iff (path : String) :
    isAbsolute path = true ↔ leading path.toList = [.root] := by
  rw [isAbsolute, leading]
  fun_cases splitStart path.toList with
  | case1 | case2 | case3 => simp [Component.ofStart, separator]
  | case4 cs relative =>
    refine ⟨fun absolute => ?_, fun none => by cases none⟩
    obtain ⟨rest, rfl⟩ := List.head?_eq_some_iff.1 (beq_iff_eq.1 absolute)
    exact absurd rfl (relative rest)

/-- A path ends in a name if the last of its names is one. -/
theorem fileName?_eq_some_iff (path : String) (text : List Char) :
    fileName? path = some text ↔ (names path.toList).getLast? = some (.name text) := by
  have front : ∀ c ∈ leading path.toList, c = .root ∨ c = .here := by
    intro c member
    simp only [leading, Component.ofStart] at member
    split at member <;> simp_all
  rw [fileName?, components_eq, List.getLast?_append]
  cases last : (names path.toList).getLast? with
  | some c => cases c <;> simp
  | none =>
    cases first : (leading path.toList).getLast? with
    | none => simp
    | some c => rcases front c (List.mem_of_getLast? first) with rfl | rfl <;> simp

/-! ### Joins -/

/-- A join leaves such a path as it is. -/
def Stays (base path : String) : Prop :=
  isAbsolute path = true ∨ base = ""

theorem join_of_stays {base path : String} (stays : Stays base path) : join base path = path := by
  rw [join]
  split
  · rfl
  next relative =>
    obtain rfl : base = "" := stays.resolve_left relative
    simp

/-- The start of a path is not changed by what comes after a separator. -/
theorem leading_append {cs rest : List Char} (given : cs ≠ [])
    (ends : cs.getLast? = some separator ∨ rest.head? = some separator) :
    leading (cs ++ rest) = leading cs := by
  -- a start is told by two characters at most
  rcases cs with _ | ⟨c, _ | ⟨d, cs⟩⟩
  · exact absurd rfl given
  · rcases ends with last | next
    · cases last
      rfl
    · obtain ⟨rest, rfl⟩ := List.head?_eq_some_iff.1 next
      by_cases root : c = '/'
      · subst root
        rfl
      by_cases dot : c = '.'
      · subst dot
        rfl
      simp [leading, splitStart, root, dot]
  · by_cases root : c = '/'
    · subst root
      rfl
    by_cases dot : c = '.' ∧ d = '/'
    · obtain ⟨rfl, rfl⟩ := dot
      rfl
    · have plain (tail : List Char) : leading (c :: d :: tail) = [] := by
        rw [leading, splitStart_plain]
        · rfl
        · simp [root]
        · simp
        · simpa using fun first second => dot ⟨first, second⟩
      rw [List.cons_append, List.cons_append, plain, plain]

/-- Every other path is joined by its names. -/
theorem join_of_moves {base path : String} (moves : ¬Stays base path) :
    leading (join base path).toList = leading base.toList ∧
      names (join base path).toList = names base.toList ++ names path.toList := by
  obtain ⟨relative, nonempty⟩ := not_or.1 moves
  have given : base.toList ≠ [] := by simpa using nonempty
  rw [join, if_neg relative]
  split
  next needed =>
    have text : (base ++ "/" ++ path).toList = base.toList ++ separator :: path.toList := by
      simp [separator]
    rw [text]
    exact ⟨leading_append given (.inr rfl), names_append_separator _ _⟩
  next ready =>
    have last : base.toList.getLast? = some separator := by
      obtain ⟨c, last⟩ := Option.isSome_iff_exists.1 (List.getLast?_isSome.2 given)
      rw [last] at ready ⊢
      simpa using ready
    obtain ⟨front, text⟩ := List.getLast?_eq_some_iff.1 last
    rw [String.toList_append]
    refine ⟨leading_append given (.inl last), ?_⟩
    -- the separator at the end of the base is the one between the two
    rw [text, List.append_assoc]
    change names (front ++ separator :: path.toList) = names (front ++ separator :: []) ++ _
    have nothing : names [] = [] := rfl
    rw [names_append_separator, names_append_separator, nothing, List.append_nil]

theorem isAbsolute_congr {path path' : String}
    (same : leading path.toList = leading path'.toList) : isAbsolute path = isAbsolute path' := by
  rw [Bool.eq_iff_iff, isAbsolute_iff, isAbsolute_iff, same]

theorem isAbsolute_join (base path : String) (absolute : isAbsolute base = true) :
    isAbsolute (join base path) = true := by
  by_cases stays : Stays base path
  · rw [join_of_stays stays]
    apply stays.resolve_right
    rintro rfl
    cases absolute
  · rw [isAbsolute_congr (join_of_moves stays).1]
    exact absolute

theorem fileName?_join (base : String) {path : String} {text : List Char}
    (ends : fileName? path = some text) : fileName? (join base path) = some text := by
  by_cases stays : Stays base path
  · rwa [join_of_stays stays]
  · rw [fileName?_eq_some_iff] at ends ⊢
    rw [(join_of_moves stays).2, List.getLast?_append, ends]
    rfl

/-! ### Parents -/

theorem named_dropTail (l : List (List Char)) : named (dropTail l) = named l := by
  induction l using List.reverseRecOn with
  | nil => rfl
  | append_singleton l piece ih =>
    change named ((l ++ [piece]).rdropWhile namesNothing) = _
    by_cases nothing : namesNothing piece = true
    · rw [List.rdropWhile_concat_pos _ _ _ nothing, named_append]
      have dropped : named [piece] = [] := by simp [named, nothing]
      rw [dropped, List.append_nil]
      exact ih
    · rw [List.rdropWhile_concat_neg _ _ _ nothing]

/-- Without the last of the pieces that name something, the last name is missing. -/
theorem exists_dropTail {l : List (List Char)} (nonempty : named l ≠ []) :
    ∃ front piece, dropTail l = front ++ [piece] ∧ front <+: l ∧
      named front = (named l).dropLast := by
  have parts : l.rdropWhile namesNothing ≠ [] := by
    intro none
    rw [← named_dropTail, dropTail, ← List.rdropWhile, none] at nonempty
    exact nonempty rfl
  have solid := List.rdropWhile_last_not namesNothing l parts
  have kept : dropTail l = (l.rdropWhile namesNothing).dropLast ++
      [(l.rdropWhile namesNothing).getLast parts] :=
    (List.dropLast_concat_getLast parts).symm
  refine ⟨_, _, kept, (List.dropLast_prefix _).trans (List.rdropWhile_prefix namesNothing l), ?_⟩
  rw [← named_dropTail l, kept, named_append]
  have one : named [(l.rdropWhile namesNothing).getLast parts] =
      [Component.ofPiece ((l.rdropWhile namesNothing).getLast parts)] := by
    simp [named, solid]
  rw [one, List.dropLast_concat]

theorem splitStart_front (cs : List Char) {l : List (List Char)}
    (front : l <+: pieces (splitStart cs).2) :
    splitStart ((splitStart cs).1 ++ joinWith [separator] l) =
      ((splitStart cs).1, joinWith [separator] l) := by
  obtain ⟨rest, text, ends⟩ := exists_rest_of_prefix front
  have short : l = [] → joinWith [separator] l = [] := by
    rintro rfl
    rfl
  generalize joinWith [separator] l = body at text short
  fun_cases splitStart cs with
  | case1 => rfl
  | case2 =>
    obtain ⟨rfl, _⟩ := List.append_eq_nil_iff.1 text.symm
    rfl
  | case3 =>
    rcases body with _ | ⟨c, body⟩
    · rfl
    · obtain ⟨rfl, _⟩ := List.cons.inj text
      rfl
  | case4 cs root dot dotted =>
    have same : splitStart cs = ([], cs) := splitStart_plain root dot dotted
    rw [same] at text
    apply splitStart_plain
    · rintro body rfl
      exact root _ text
    · -- a piece that is a dot ends where the text does, or before a separator
      rintro rfl
      rcases ends with none | rfl | next
      · cases short none
      · exact dot text
      · obtain ⟨rest, rfl⟩ := List.head?_eq_some_iff.1 next
        exact dotted rest text
    · rintro body rfl
      exact dotted _ text

theorem parent?_eq {path : String} {front : List (List Char)} {piece : List Char}
    (kept : dropTail (pieces (splitStart path.toList).2) = front ++ [piece]) :
    parent? path = some (String.ofList ((splitStart path.toList).1 ++
      joinWith [separator] (dropTail front))) := by
  have shorter : (front ++ [piece]).dropLast = front := List.dropLast_concat
  rw [← shorter, ← kept, parent?]
  cases parts : dropTail (pieces (splitStart path.toList).2) with
  | nil => simp [parts] at kept
  | cons first rest => simp only [parts]

/-- The parent of a path that ends in a name has all but this name. -/
theorem exists_parent {path : String} {text : List Char} (ends : fileName? path = some text) :
    ∃ parent, parent? path = some parent ∧ leading parent.toList = leading path.toList ∧
      names parent.toList = (names path.toList).dropLast := by
  have last := (fileName?_eq_some_iff path text).1 ends
  have whole : named (pieces (splitStart path.toList).2) = names path.toList :=
    names_splitStart path.toList
  have nonempty : named (pieces (splitStart path.toList).2) ≠ [] := by
    rw [whole]
    intro none
    simp [none] at last
  obtain ⟨front, piece, kept, cut, shorter⟩ := exists_dropTail nonempty
  have cut : dropTail front <+: pieces (splitStart path.toList).2 :=
    (List.rdropWhile_prefix namesNothing front).trans cut
  have start := splitStart_front path.toList cut
  refine ⟨_, parent?_eq kept, ?_, ?_⟩
  · rw [String.toList_ofList, leading, start]
    rfl
  · rw [String.toList_ofList, ← names_splitStart, start,
      names_joinWith _ fun piece member => separator_notMem (cut.subset member), named_dropTail,
      shorter, whole]

/-- The parent may be taken before a join or after it. -/
theorem exists_parent_join (base : String) {path : String} {text : List Char}
    (ends : fileName? path = some text) :
    ∃ before after, parent? path = some before ∧ parent? (join base path) = some after ∧
      components after = components (join base before) ∧
      isAbsolute after = isAbsolute (join base path) := by
  obtain ⟨before, found, start, names_before⟩ := exists_parent ends
  obtain ⟨after, found', start', names_after⟩ := exists_parent (fileName?_join base ends)
  have stays_iff : Stays base before ↔ Stays base path := by
    rw [Stays, isAbsolute_congr start, Stays]
  have some : names path.toList ≠ [] := by
    intro none
    have last := (fileName?_eq_some_iff path text).1 ends
    simp [none] at last
  refine ⟨before, after, found, found', ?_, isAbsolute_congr start'⟩
  rw [components_eq, components_eq, start', names_after]
  by_cases stays : Stays base path
  · rw [join_of_stays stays, join_of_stays (stays_iff.2 stays), start, names_before]
  · obtain ⟨front, rest⟩ := join_of_moves stays
    obtain ⟨front', rest'⟩ := join_of_moves (mt stays_iff.1 stays)
    rw [front, front', rest, rest', names_before, List.dropLast_append_of_ne_nil some]

end FilePath

end RegionNet

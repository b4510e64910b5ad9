import Mathlib.Data.List.Infix

/-!
# Patterns with groups

A pattern is tried at a place of a text. Where it can go on in more than one way, the ways have an
order: a run takes as many characters as it can, and gives back the last one each time that the rest
of the pattern fails behind it. The search tries all places from the left, and its answer is the
first way at the first place that has one.

The ways are the readings of the text by the grammar of the pattern, no more and no less. A pattern
is certain if it has no second way anywhere. Runs do not prevent that: what a run gives back starts
with a character of the run, which is of no use if the rest of the pattern cannot start with one.
Where there is more than one way, a part that is greedy takes the longest text that lets the rest of
the pattern go on.
-/

namespace RegionNet.Text

inductive Pattern
  /-- The start of the text. -/
  | start
  /-- The end of the text. -/
  | finish
  | literal (cs : List Char)
  /-- One character of a class or more. -/
  | run (p : Char → Bool)
  /-- A part without groups, or nothing where the part fails or the rest fails behind it. -/
  | option (part : Pattern)
  | seq (first second : Pattern)
  /-- A part of which the text is kept. -/
  | group (part : Pattern)

namespace Pattern

/-! ### Readings -/

/-- The pattern reads `taken` between what is passed and what is ahead. The groups are kept in the
order in which they open. -/
inductive Reads :
    Pattern → (passed taken ahead : List Char) → (kept : List (List Char)) → Prop
  | start {ahead} : Reads start [] [] ahead []
  | finish {passed} : Reads finish passed [] [] []
  | literal {cs passed ahead} : Reads (literal cs) passed cs ahead []
  | run {p passed taken ahead} (begun : taken ≠ []) (all : ∀ c ∈ taken, p c = true) :
      Reads (run p) passed taken ahead []
  | option {a passed taken ahead kept} (part : Reads a passed taken ahead kept) :
      Reads (option a) passed taken ahead kept
  | nothing {a passed ahead} : Reads (option a) passed [] ahead []
  | seq {a b passed taken taken' ahead kept kept'}
      (first : Reads a passed taken (taken' ++ ahead) kept)
      (second : Reads b (passed ++ taken) taken' ahead kept') :
      Reads (seq a b) passed (taken ++ taken') ahead (kept ++ kept')
  | group {a passed taken ahead kept} (part : Reads a passed taken ahead kept) :
      Reads (group a) passed taken ahead (taken :: kept)

theorem reads_run_iff {p : Char → Bool} {passed taken ahead : List Char}
    {kept : List (List Char)} :
    (run p).Reads passed taken ahead kept ↔
      (taken ≠ [] ∧ ∀ c ∈ taken, p c = true) ∧ kept = [] := by
  constructor
  · intro reads
    cases reads with
    | run begun all => exact ⟨⟨begun, all⟩, rfl⟩
  · rintro ⟨⟨begun, all⟩, rfl⟩
    exact .run begun all

theorem reads_group_run_iff {p : Char → Bool} {passed taken ahead : List Char}
    {kept : List (List Char)} :
    (group (run p)).Reads passed taken ahead kept ↔
      (taken ≠ [] ∧ ∀ c ∈ taken, p c = true) ∧ kept = [taken] := by
  constructor
  · intro reads
    cases reads with
    | group part =>
      obtain ⟨run, rfl⟩ := reads_run_iff.1 part
      exact ⟨run, rfl⟩
  · rintro ⟨⟨begun, all⟩, rfl⟩
    exact .group (.run begun all)

/-! ### Ways -/

/-- What a way takes, what is ahead where it ends, and what its groups keep. -/
structure Way where
  taken : List Char
  ahead : List Char
  kept : List (List Char)

/-- A way and, from where it ends, another one. -/
def Way.andThen (w v : Way) : Way := ⟨w.taken ++ v.taken, v.ahead, w.kept ++ v.kept⟩

theorem map_andThen_nil (ahead : List Char) (l : List Way) :
    l.map (⟨[], ahead, []⟩ : Way).andThen = l :=
  List.map_id' l

/-- The runs that a text starts with, the longest first. -/
def runs (p : Char → Bool) : List Char → List Way
  | [] => []
  | c :: cs =>
    if p c then ((runs p cs).map fun w => { w with taken := c :: w.taken }) ++ [⟨[c], cs, []⟩]
    else []

/-- The ways at a place, in the order in which they are tried. -/
def ways : Pattern → (passed ahead : List Char) → List Way
  | start, passed, ahead => if passed = [] then [⟨[], ahead, []⟩] else []
  | finish, _, ahead => if ahead = [] then [⟨[], [], []⟩] else []
  | literal cs, _, ahead => if cs <+: ahead then [⟨cs, ahead.drop cs.length, []⟩] else []
  | run p, _, ahead => runs p ahead
  | option a, passed, ahead => a.ways passed ahead ++ [⟨[], ahead, []⟩]
  | seq a b, passed, ahead =>
    (a.ways passed ahead).flatMap fun w => (b.ways (passed ++ w.taken) w.ahead).map w.andThen
  | group a, passed, ahead =>
    (a.ways passed ahead).map fun w => { w with kept := w.taken :: w.kept }

section

variable (passed ahead : List Char)

theorem runs_cons (p : Char → Bool) (c : Char) (cs : List Char) :
    runs p (c :: cs) =
      if p c then ((runs p cs).map fun w => { w with taken := c :: w.taken }) ++ [⟨[c], cs, []⟩]
      else [] := rfl

theorem ways_start :
    start.ways passed ahead = if passed = [] then [⟨[], ahead, []⟩] else [] := rfl

theorem ways_finish :
    finish.ways passed ahead = if ahead = [] then [⟨[], [], []⟩] else [] := rfl

theorem ways_literal (cs : List Char) :
    (literal cs).ways passed ahead =
      if cs <+: ahead then [⟨cs, ahead.drop cs.length, []⟩] else [] := rfl

theorem ways_run (p : Char → Bool) : (run p).ways passed ahead = runs p ahead := rfl

theorem ways_option (a : Pattern) :
    (option a).ways passed ahead = a.ways passed ahead ++ [⟨[], ahead, []⟩] := rfl

theorem ways_seq (a b : Pattern) :
    (seq a b).ways passed ahead =
      (a.ways passed ahead).flatMap fun w =>
        (b.ways (passed ++ w.taken) w.ahead).map w.andThen := rfl

theorem ways_group (a : Pattern) :
    (group a).ways passed ahead =
      (a.ways passed ahead).map fun w => { w with kept := w.taken :: w.kept } := rfl

end

/-- The ways at a place and at all places after it. -/
def search (p : Pattern) : (passed ahead : List Char) → List Way
  | passed, [] => p.ways passed []
  | passed, c :: ahead => p.ways passed (c :: ahead) ++ search p (passed ++ [c]) ahead

/-- What the groups keep, if the pattern is found in the text. -/
def captures? (p : Pattern) (text : List Char) : Option (List (List Char)) :=
  (p.search [] text).head?.map Way.kept

/-! ### The ways are the readings -/

theorem reads_of_mem_runs {p : Char → Bool} {passed cs : List Char} {w : Way}
    (member : w ∈ runs p cs) :
    w.taken ++ w.ahead = cs ∧ (run p).Reads passed w.taken w.ahead w.kept := by
  induction cs generalizing w with
  | nil => cases member
  | cons c cs ih =>
    rw [runs_cons] at member
    split at member
    next first =>
      rcases List.mem_append.1 member with longer | shortest
      · obtain ⟨v, found, rfl⟩ := List.mem_map.1 longer
        obtain ⟨joined, reads⟩ := ih found
        obtain ⟨⟨-, all⟩, none⟩ := reads_run_iff.1 reads
        refine ⟨congrArg (c :: ·) joined, reads_run_iff.2 ⟨⟨List.cons_ne_nil c _, ?_⟩, none⟩⟩
        exact List.forall_mem_cons.2 ⟨first, all⟩
      · cases List.mem_singleton.1 shortest
        exact ⟨rfl, .run (List.cons_ne_nil c []) (List.forall_mem_singleton.2 first)⟩
    next => cases member

theorem mem_runs {p : Char → Bool} {taken : List Char} (ahead : List Char) (begun : taken ≠ [])
    (all : ∀ c ∈ taken, p c = true) : ⟨taken, ahead, []⟩ ∈ runs p (taken ++ ahead) := by
  induction taken with
  | nil => exact absurd rfl begun
  | cons c taken ih =>
    obtain ⟨first, all⟩ := List.forall_mem_cons.1 all
    rw [List.cons_append, runs_cons, if_pos first]
    apply List.mem_append.2
    -- the shortest run is tried last, and every other one goes on after its first character
    rcases eq_or_ne taken [] with rfl | more
    · exact .inr (List.mem_singleton_self _)
    · exact .inl (List.mem_map.2 ⟨_, ih more all, rfl⟩)

/-- The longest run is tried first. -/
example : (runs Char.isDigit "12a".toList).map Way.taken = ["12".toList, "1".toList] := by decide

theorem head_of_mem_runs {p : Char → Bool} {cs : List Char} {w : Way} (member : w ∈ runs p cs) :
    ∃ c ∈ cs.head?, p c = true := by
  cases cs with
  | nil => cases member
  | cons c cs =>
    rw [runs_cons] at member
    split at member
    next inside => exact ⟨c, rfl, inside⟩
    next => cases member

/-- Every way that is tried is a reading. -/
theorem reads_of_mem_ways {p : Pattern} {passed ahead : List Char} {w : Way}
    (member : w ∈ p.ways passed ahead) :
    w.taken ++ w.ahead = ahead ∧ p.Reads passed w.taken w.ahead w.kept := by
  induction p generalizing passed ahead w with
  | start =>
    rw [ways_start] at member
    split at member
    next bare =>
      subst bare
      cases List.mem_singleton.1 member
      exact ⟨rfl, .start⟩
    next => cases member
  | finish =>
    rw [ways_finish] at member
    split at member
    next bare =>
      cases List.mem_singleton.1 member
      exact ⟨bare.symm, .finish⟩
    next => cases member
  | literal cs =>
    rw [ways_literal] at member
    split at member
    next starts =>
      obtain ⟨rest, rfl⟩ := starts
      rw [List.drop_left] at member
      cases List.mem_singleton.1 member
      exact ⟨rfl, .literal⟩
    next => cases member
  | run p => exact reads_of_mem_runs member
  | option a ih =>
    rcases List.mem_append.1 member with some | none
    · exact (ih some).imp_right .option
    · cases List.mem_singleton.1 none
      exact ⟨rfl, .nothing⟩
  | seq a b ihFirst ihSecond =>
    obtain ⟨u, found, later⟩ := List.mem_flatMap.1 member
    obtain ⟨v, found', rfl⟩ := List.mem_map.1 later
    obtain ⟨joined, first⟩ := ihFirst found
    obtain ⟨joined', second⟩ := ihSecond found'
    constructor
    · calc (u.taken ++ v.taken) ++ v.ahead
        _ = u.taken ++ (v.taken ++ v.ahead) := List.append_assoc _ _ _
        _ = ahead := by rw [joined', joined]
    · rw [← joined'] at first
      exact .seq first second
  | group a ih =>
    obtain ⟨v, found, rfl⟩ := List.mem_map.1 member
    obtain ⟨joined, part⟩ := ih found
    exact ⟨joined, .group part⟩

/-- No reading is left out. -/
theorem Reads.mem_ways {p : Pattern} {passed taken ahead : List Char} {kept : List (List Char)}
    (reads : p.Reads passed taken ahead kept) :
    ⟨taken, ahead, kept⟩ ∈ p.ways passed (taken ++ ahead) := by
  induction reads with
  | start => exact List.mem_singleton_self _
  | finish => exact List.mem_singleton_self _
  | literal =>
    rw [ways_literal, if_pos (List.prefix_append _ _), List.drop_left]
    exact List.mem_singleton_self _
  | run begun all => exact mem_runs _ begun all
  | option _ ih => exact List.mem_append_left _ ih
  | nothing => exact List.mem_append_right _ (List.mem_singleton_self _)
  | seq _ _ ihFirst ihSecond =>
    rw [List.append_assoc]
    exact List.mem_flatMap.2 ⟨_, ihFirst, List.mem_map.2 ⟨_, ihSecond, rfl⟩⟩
  | group _ ih => exact List.mem_map.2 ⟨_, ih, rfl⟩

/-! ### Patterns without a second way -/

/-- There is no more than one way at any place. -/
def Certain (p : Pattern) : Prop :=
  ∀ passed ahead, (p.ways passed ahead).length ≤ 1

/-- There is no way where a character of the class comes next. -/
def Refuses (p : Pattern) (q : Char → Bool) : Prop :=
  ∀ passed c ahead, q c = true → p.ways passed (c :: ahead) = []

/-- After every way but the first, a character of the class comes next. -/
def Hoards (p : Pattern) (q : Char → Bool) : Prop :=
  ∀ passed ahead, ∀ w ∈ (p.ways passed ahead).tail, ∃ c ∈ w.ahead.head?, q c = true

section

variable {a b : Pattern} {p q : Char → Bool}

theorem refuses_literal {c : Char} (cs : List Char) (other : q c = false) :
    (literal (c :: cs)).Refuses q := by
  intro passed c' ahead inside
  rw [ways_literal, if_neg]
  intro starts
  rw [(List.cons_prefix_cons.1 starts).1, inside] at other
  cases other

theorem refuses_run (p : Char → Bool) (apart : ∀ c, q c = true → p c = false) :
    (run p).Refuses q := by
  intro passed c ahead inside
  rw [ways_run, runs_cons, apart c inside]
  rfl

theorem Refuses.seq (first : a.Refuses q) (b : Pattern) : (a.seq b).Refuses q := by
  intro passed c ahead inside
  rw [ways_seq, first passed c ahead inside]
  rfl

theorem Refuses.group (part : a.Refuses q) : (group a).Refuses q := by
  intro passed c ahead inside
  rw [ways_group, part passed c ahead inside]
  rfl

theorem hoards_run (p : Char → Bool) : (run p).Hoards p := by
  intro passed ahead
  rw [ways_run]
  induction ahead with
  | nil =>
    intro w later
    cases later
  | cons c cs ih =>
    intro w later
    rw [runs_cons] at later
    split at later
    next =>
      -- with no run behind the first character, that character is the only run
      cases found : runs p cs with
      | nil =>
        rw [found] at later
        cases later
      | cons longest others =>
        rw [found] at later ih
        rcases List.mem_append.1 later with longer | shortest
        · obtain ⟨v, member, rfl⟩ := List.mem_map.1 longer
          exact ih v member
        · cases List.mem_singleton.1 shortest
          apply head_of_mem_runs (w := longest)
          rw [found]
          exact List.mem_cons_self
    next => cases later

theorem Hoards.group (part : a.Hoards q) : (group a).Hoards q := by
  intro passed ahead w later
  rw [ways_group, ← List.map_tail] at later
  obtain ⟨v, member, rfl⟩ := List.mem_map.1 later
  exact part passed ahead v member

theorem Certain.hoards (certain : a.Certain) (q : Char → Bool) : a.Hoards q := by
  intro passed ahead w later
  have one := certain passed ahead
  cases found : a.ways passed ahead with
  | nil =>
    rw [found] at later
    cases later
  | cons first others =>
    rw [found] at later one
    have := List.length_pos_of_mem later
    simp only [List.tail_cons, List.length_cons] at this one
    omega

theorem certain_start : start.Certain := by
  intro passed ahead
  rw [ways_start]
  split <;> simp

theorem certain_finish : finish.Certain := by
  intro passed ahead
  rw [ways_finish]
  split <;> simp

theorem certain_literal (cs : List Char) : (literal cs).Certain := by
  intro passed ahead
  rw [ways_literal]
  split <;> simp

/-- What the first part gives back is of no use to the second one, so that only its first way is
left. -/
theorem Certain.seq (first : a.Hoards q) (refuses : b.Refuses q) (second : b.Certain) :
    (a.seq b).Certain := by
  intro passed ahead
  have useless := first passed ahead
  rw [ways_seq]
  cases found : a.ways passed ahead with
  | nil => exact Nat.zero_le 1
  | cons w others =>
    rw [found] at useless
    have none : others.flatMap (fun v => (b.ways (passed ++ v.taken) v.ahead).map v.andThen) =
        [] := by
      refine List.flatMap_eq_nil_iff.2 fun v member => ?_
      obtain ⟨c, next, inside⟩ := useless v member
      obtain ⟨rest, next⟩ := List.head?_eq_some_iff.1 next
      rw [next, refuses _ c rest inside]
      rfl
    rw [List.flatMap_cons, none, List.append_nil, List.length_map]
    exact second _ _

theorem Certain.seq_certain (first : a.Certain) (second : b.Certain) : (a.seq b).Certain :=
  .seq (first.hoards fun _ => false) (fun _ _ _ none => absurd none Bool.false_ne_true) second

end

/-! ### Patterns that take as much as they can -/

/-- Of the ways that take one of the allowed texts, the first one takes the longest. -/
def LongestFirst (l : List Way) : Prop :=
  ∀ allowed : List Char → Bool, ∀ u ∈ l.find? (fun w => allowed w.taken),
    ∀ v ∈ l, allowed v.taken = true → v.taken.length ≤ u.taken.length

/-- Whatever comes after the pattern, it takes the longest text that lets the rest go on. -/
def Greedy (p : Pattern) : Prop :=
  ∀ passed ahead, LongestFirst (p.ways passed ahead)

section

variable {l l' : List Way}

theorem longestFirst_nil : LongestFirst [] := by
  rintro allowed u ⟨⟩

theorem LongestFirst.map (longest : LongestFirst l) {f : Way → Way} {front : List Char}
    (taken : ∀ w, (f w).taken = front ++ w.taken) : LongestFirst (l.map f) := by
  intro allowed u first v member allows
  rw [List.find?_map, Option.mem_def, Option.map_eq_some_iff] at first
  obtain ⟨u, first, rfl⟩ := first
  obtain ⟨v, here, rfl⟩ := List.mem_map.1 member
  simp only [Function.comp_def, taken, List.length_append] at first allows ⊢
  exact Nat.add_le_add_left (longest (fun text => allowed (front ++ text)) u first v here allows) _

theorem LongestFirst.map_cons (longest : LongestFirst l) (c : Char) :
    LongestFirst (l.map fun w => { w with taken := c :: w.taken }) := by
  have taken (w : Way) : (⟨c :: w.taken, w.ahead, w.kept⟩ : Way).taken = [c] ++ w.taken := rfl
  exact longest.map taken

/-- Ways that are tried later do not matter, if they take what an earlier one takes, or nothing. -/
theorem LongestFirst.append (longest : LongestFirst l)
    (again : ∀ v ∈ l', v.taken = [] ∨ ∃ w ∈ l, w.taken = v.taken) : LongestFirst (l ++ l') := by
  intro allowed u first v member allows
  rw [List.find?_append] at first
  have earlier (v : Way) (member : v ∈ l ++ l') (allows : allowed v.taken = true) :
      v.taken = [] ∨ ∃ w ∈ l, w.taken = v.taken ∧ allowed w.taken = true := by
    rcases List.mem_append.1 member with here | later
    · exact .inr ⟨v, here, rfl, allows⟩
    · rcases again v later with none | ⟨w, here, same⟩
      · exact .inl none
      · exact .inr ⟨w, here, same, same ▸ allows⟩
  rcases earlier v member allows with none | ⟨w, here, same, allows'⟩
  · rw [none]
    exact Nat.zero_le _
  · cases found : l.find? (fun w => allowed w.taken) with
    | none => exact absurd allows' (by simpa using List.find?_eq_none.1 found w here)
    | some u' =>
      rw [found, Option.some_or, Option.mem_some] at first
      rw [← same, ← first]
      exact longest allowed u' found w here allows'

theorem runs_cons_option (p : Char → Bool) (c : Char) (cs : List Char) :
    runs p (c :: cs) =
      if p c then
        (runs p cs ++ [(⟨[], cs, []⟩ : Way)]).map fun w => { w with taken := c :: w.taken }
      else [] := by
  rw [runs_cons, List.map_append]
  rfl

theorem longestFirst_option_run (p : Char → Bool) (cs : List Char) :
    LongestFirst (runs p cs ++ [⟨[], cs, []⟩]) := by
  have runs_longest : LongestFirst (runs p cs) := by
    induction cs with
    | nil => exact longestFirst_nil
    | cons c cs ih =>
      have more : LongestFirst (runs p cs ++ [⟨[], cs, []⟩]) := ih.append (by simp)
      rw [runs_cons_option]
      split
      · exact more.map_cons c
      · exact longestFirst_nil
  exact runs_longest.append (by simp)

theorem Greedy.group {a : Pattern} (greedy : a.Greedy) : (group a).Greedy := by
  intro passed ahead
  have taken (w : Way) :
      (⟨w.taken, w.ahead, w.taken :: w.kept⟩ : Way).taken = [] ++ w.taken := rfl
  exact (greedy passed ahead).map taken

/-- The first way of a pattern that starts with a greedy part takes no less with that part than any
other way. -/
theorem Greedy.first_of_seq {a b : Pattern} (greedy : a.Greedy) {passed ahead : List Char} {w : Way}
    (first : ((seq a b).ways passed ahead).head? = some w) :
    ∃ u v, w = u.andThen v ∧ u ∈ a.ways passed ahead ∧ v ∈ b.ways (passed ++ u.taken) u.ahead ∧
      ∀ u' ∈ a.ways passed ahead, ∀ v' ∈ b.ways (passed ++ u'.taken) u'.ahead,
        u'.taken.length ≤ u.taken.length := by
  have rest {u : Way} (member : u ∈ a.ways passed ahead) :
      ahead.drop u.taken.length = u.ahead := by
    rw [← (reads_of_mem_ways member).1, List.drop_left]
  rw [ways_seq, List.head?_flatMap, List.findSome?_eq_some_iff] at first
  obtain ⟨before, u, after, parts, goes_on, stuck⟩ := first
  have member : u ∈ a.ways passed ahead := by simp [parts]
  rw [List.head?_map, Option.map_eq_some_iff] at goes_on
  obtain ⟨v, found, rfl⟩ := goes_on
  refine ⟨u, v, rfl, member, List.mem_of_head? found, fun u' member' v' found' => ?_⟩
  -- the rest of the pattern goes on or fails behind a text, however the text was taken
  let allowed (text : List Char) : Bool :=
    !(b.ways (passed ++ text) (ahead.drop text.length)).isEmpty
  have allows {u : Way} (member : u ∈ a.ways passed ahead) :
      allowed u.taken = !(b.ways (passed ++ u.taken) u.ahead).isEmpty := by
    simp only [allowed, rest member]
  refine greedy passed ahead allowed u ?_ u' member' ?_
  · rw [Option.mem_def, List.find?_eq_some_iff_append]
    refine ⟨?_, before, after, parts, fun w earlier => ?_⟩
    · rw [allows member]
      simpa using List.ne_nil_of_mem (List.mem_of_head? found)
    · rw [allows (by simp [parts, earlier])]
      simpa using stuck w earlier
  · rw [allows member']
    simpa using List.ne_nil_of_mem found'

end

/-! ### Search from the start -/

theorem search_start (p : Pattern) (text : List Char) :
    (start.seq p).search [] text = (start.seq p).ways [] text := by
  have nowhere (passed ahead : List Char) (begun : passed ≠ []) :
      (start.seq p).search passed ahead = [] := by
    induction ahead generalizing passed with
    | nil => rw [search, ways_seq, ways_start, if_neg begun, List.flatMap_nil]
    | cons c ahead ih =>
      rw [search, ih (passed ++ [c]) (by simp), ways_seq, ways_start, if_neg begun]
      rfl
  cases text with
  | nil => rfl
  | cons c text => rw [search, nowhere ([] ++ [c]) text (List.cons_ne_nil c []), List.append_nil]

/-- A certain pattern at the start of a text keeps what its one reading keeps. -/
theorem captures?_eq_some_iff {p : Pattern} (certain : (start.seq p).Certain) (text : List Char)
    (kept : List (List Char)) :
    (start.seq p).captures? text = some kept ↔
      ∃ taken ahead, taken ++ ahead = text ∧ (start.seq p).Reads [] taken ahead kept := by
  rw [captures?, search_start, Option.map_eq_some_iff]
  constructor
  · rintro ⟨w, first, rfl⟩
    exact ⟨w.taken, w.ahead, reads_of_mem_ways (List.mem_of_head? first)⟩
  · rintro ⟨taken, ahead, rfl, reads⟩
    have member := reads.mem_ways
    -- among no more than one way, the way of the reading is the first
    obtain ⟨w, found⟩ := List.length_eq_one_iff.1
      (Nat.le_antisymm (certain [] _) (List.length_pos_of_mem member))
    rw [found] at member ⊢
    exact ⟨w, rfl, by rw [← List.mem_singleton.1 member]⟩

end Pattern

end RegionNet.Text

import RegionNet.Proofs.Json.Number
import RegionNet.Proofs.Text.Pieces

/-!
# JSON values are read as they are written

Strings, arrays and objects are read back from their texts. What is read one value at a time is
stated for every continuation of its text, so that it holds for values inside others.
-/

namespace RegionNet.Json

/-! ### Strings -/

/-- The three ways to write a character in a string. -/
inductive Escaped (c : Char) : List Char → Prop
  | letter {e : Char} (escaped : escapedChar? e = some c) : Escaped c ['\\', e]
  | control (small : c.toNat < 0x20) :
    Escaped c ['\\', 'u', '0', '0', Nat.digitChar (c.toNat / 16), Nat.digitChar (c.toNat % 16)]
  | itself (quote : c ≠ '"') (slash : c ≠ '\\') (printed : 0x20 ≤ c.toNat) : Escaped c [c]

theorem escaped_escape (c : Char) : Escaped c (escape c) := by
  have letter {e d : Char} (same : c = d) (escaped : escapedChar? e = some d) :
      Escaped c ['\\', e] := .letter (same ▸ escaped)
  rw [escape]
  split
  next same => exact letter same rfl
  next quote =>
  split
  next same => exact letter same rfl
  next slash =>
  split
  next same => exact letter same rfl
  split
  next same => exact letter same rfl
  split
  next same => exact letter same rfl
  split
  next same => exact letter same rfl
  split
  next same => exact letter same rfl
  split
  next small => exact .control small
  next printed => exact .itself quote slash (not_lt.1 printed)

theorem hexQuad?_control : ∀ n < 0x20,
    hexQuad? '0' '0' (Nat.digitChar (n / 16)) (Nat.digitChar (n % 16)) = some n := by
  decide

section

variable {c : Char} {written : List Char}

theorem readStringBody_escaped (escaped : Escaped c written) (cs : List Char) :
    readStringBody (written ++ cs) = (readStringBody cs).map fun r => (written ++ r.1, r.2) := by
  cases escaped with
  | @letter e escaped =>
    rw [List.cons_append, List.singleton_append, readStringBody]
    · rw [escaped]
      rfl
    · rintro _ _ _ _ _ rfl
      cases escaped
  | control small =>
    simp [readStringBody, hexQuad?_control _ small]
  | itself quote slash printed =>
    rw [List.singleton_append, readStringBody]
    · simp [slash, printed]
    · exact quote
    · exact fun _ _ _ _ _ same => absurd same slash
    · exact fun _ _ same => absurd same slash

theorem unescape?_escaped (escaped : Escaped c written) (cs : List Char) :
    unescape? (written ++ cs) = (unescape? cs).map (c :: ·) := by
  cases escaped with
  | letter escaped =>
    rw [List.cons_append, List.singleton_append, unescape?]
    · rw [escaped]
    · rintro _ _ _ _ _ rfl
      cases escaped
  | control small =>
    -- a control character is no half of a pair
    have high : isHighSurrogate c.toNat = false := by
      rw [isHighSurrogate, Bool.and_eq_false_iff]
      exact .inl (decide_eq_false (by omega))
    have low : isLowSurrogate c.toNat = false := by
      rw [isLowSurrogate, Bool.and_eq_false_iff]
      exact .inl (decide_eq_false (by omega))
    simp [unescape?, hexQuad?_control _ small, high, low]
  | itself quote slash printed =>
    rw [List.singleton_append, unescape?]
    · exact fun _ _ _ _ _ same => absurd same slash
    · exact fun _ _ same => absurd same slash

end

/-- A string is read back from its text between quotes. -/
theorem readString_escape (s : String) (rest : List Char) :
    readString (s.toList.flatMap escape ++ '"' :: rest) = some (some s, rest) := by
  -- the body is cut off at the quote first, and its escapes are resolved then
  have body (cs : List Char) :
      readStringBody (cs.flatMap escape ++ '"' :: rest) = some (cs.flatMap escape, rest) := by
    induction cs with
    | nil => rfl
    | cons c cs ih =>
      rw [List.flatMap_cons, List.append_assoc, readStringBody_escaped (escaped_escape c), ih]
      rfl
  have inside (cs : List Char) : unescape? (cs.flatMap escape) = some cs := by
    induction cs with
    | nil => rfl
    | cons c cs ih =>
      rw [List.flatMap_cons, unescape?_escaped (escaped_escape c), ih]
      rfl
  rw [readString, body]
  simp [inside]

/-! ### Values -/

/-- The values that are read as they are written, in which at most so many arrays and objects lie
inside one another. -/
inductive Writable : ℕ → Json → Prop
  | null {depth : ℕ} : Writable depth null
  | bool {depth : ℕ} (b : Bool) : Writable depth (bool b)
  | number {depth : ℕ} {n : Number} (writable : n.IsWritable) : Writable depth (number n)
  | string {depth : ℕ} (s : String) : Writable depth (string s)
  | array {depth : ℕ} {items : List Json} (each : ∀ v ∈ items, Writable depth v) :
    Writable (depth + 1) (array items)
  | object {depth : ℕ} {fields : List (String × Json)} (each : ∀ f ∈ fields, Writable depth f.2) :
    Writable (depth + 1) (object fields)

theorem compactItems_eq (items : List Json) : compactItems items = items.map compact := by
  induction items with
  | nil => rfl
  | cons v items ih => rw [compactItems, ih, List.map_cons]

/-- The text of one field. -/
def compactField (f : String × Json) : List Char :=
  quote f.1 ++ ':' :: compact f.2

theorem compactFields_eq (fields : List (String × Json)) :
    compactFields fields = fields.map compactField := by
  induction fields with
  | nil => rfl
  | cons f fields ih => rw [compactFields, ih, List.map_cons, compactField]

theorem skipSpace_cons {c : Char} (solid : isSpace c = false) (cs : List Char) :
    skipSpace (c :: cs) = c :: cs :=
  List.dropWhile_cons_of_neg (by simp [solid])

/-- Neither blank nor a closing bracket. -/
def isFront (c : Char) : Bool :=
  !isSpace c && c != ']' && c != '\x7d'

theorem isSpace_of_isFront {c : Char} (front : isFront c = true) : isSpace c = false := by
  simp only [isFront, Bool.and_eq_true, Bool.not_eq_true'] at front
  exact front.1.1

theorem StartsNumber.isFront {c : Char} (starts : StartsNumber c) : isFront c = true := by
  simp [Json.isFront, isSpace, starts.ne ' ', starts.ne '\t', starts.ne '\n', starts.ne '\r',
    starts.ne ']', starts.ne '\x7d']

/-- What is read after the text of a value or of a field. -/
def endsItem (c : Char) : Bool :=
  c == ',' || c == ']' || c == '\x7d'

theorem endsNumber_cons {c : Char} (ends : endsItem c = true) (rest : List Char) :
    EndsNumber (c :: rest) := by
  rintro _ ⟨⟩
  simp only [endsItem, Bool.or_eq_true, beq_iff_eq] at ends
  rcases ends with (rfl | rfl) | rfl <;> decide

section

variable {read : List Char → Option (Json × List Char)}

/-- The text of a value that is read back wherever the value may end. -/
structure ReadsBack (read : List Char → Option (Json × List Char)) (v : Json) : Prop where
  front : ∃ c cs, compact v = c :: cs ∧ isFront c = true
  reads : ∀ rest, EndsNumber rest → read (compact v ++ rest) = some (v, rest)

theorem ReadsBack.skipSpace {v : Json} (back : ReadsBack read v) (rest : List Char) :
    skipSpace (compact v ++ rest) = compact v ++ rest := by
  obtain ⟨c, cs, text, front⟩ := back.front
  rw [text]
  exact skipSpace_cons (isSpace_of_isFront front) _

theorem readItems_compact {items : List Json} (back : ∀ v ∈ items, ReadsBack read v)
    (nonempty : items ≠ []) {fuel : ℕ} (enough : items.length ≤ fuel) (rest : List Char) :
    readItems read fuel (Text.joinWith [','] (items.map compact) ++ ']' :: rest) =
      (items, some rest) := by
  induction items generalizing fuel with
  | nil => exact absurd rfl nonempty
  | cons v items ih =>
    obtain ⟨fuel, rfl⟩ := Nat.exists_eq_succ_of_ne_zero (Nat.ne_zero_of_lt enough)
    have head := back v List.mem_cons_self
    have comma (cs : List Char) : skipSpace (',' :: cs) = ',' :: cs := skipSpace_cons rfl cs
    rw [readItems]
    rcases eq_or_ne items [] with rfl | more
    · rw [List.map_cons, List.map_nil, Text.joinWith, head.skipSpace,
        head.reads _ (endsNumber_cons rfl _)]
      rfl
    · have tail := ih (fun v member => back v (List.mem_cons_of_mem _ member)) more
        (Nat.le_of_succ_le_succ enough)
      rw [List.map_cons, Text.joinWith_cons _ _ (mt List.map_eq_nil_iff.1 more), List.append_assoc,
        head.skipSpace, List.append_assoc, List.singleton_append,
        head.reads _ (endsNumber_cons rfl _)]
      simp only [comma, tail]

theorem readField_compact {f : String × Json} (back : ReadsBack read f.2) {rest : List Char}
    (ends : EndsNumber rest) :
    readField read (compactField f ++ rest) = some ((some f.1, f.2), rest) := by
  -- a name, a colon and the value, with no white space between them
  have quoted : compactField f ++ rest =
      '"' :: (f.1.toList.flatMap escape ++ '"' :: (':' :: (compact f.2 ++ rest))) := by
    simp [compactField, quote]
  rw [quoted, readField, skipSpace_cons rfl]
  simp only [readString_escape, Option.bind_eq_bind, Option.bind_some]
  rw [skipSpace_cons rfl]
  simp only [back.skipSpace, back.reads rest ends, Option.map_some]

theorem readFields_compact {fields : List (String × Json)}
    (back : ∀ f ∈ fields, ReadsBack read f.2) (nonempty : fields ≠ []) {fuel : ℕ}
    (enough : fields.length ≤ fuel) (rest : List Char) :
    readFields read fuel (Text.joinWith [','] (fields.map compactField) ++ '\x7d' :: rest) =
      (fields.map fun f => (some f.1, f.2), some rest) := by
  induction fields generalizing fuel with
  | nil => exact absurd rfl nonempty
  | cons f fields ih =>
    obtain ⟨fuel, rfl⟩ := Nat.exists_eq_succ_of_ne_zero (Nat.ne_zero_of_lt enough)
    have head := back f List.mem_cons_self
    have comma (cs : List Char) : skipSpace (',' :: cs) = ',' :: cs := skipSpace_cons rfl cs
    rw [readFields]
    rcases eq_or_ne fields [] with rfl | more
    · rw [List.map_cons, List.map_nil, Text.joinWith,
        readField_compact head (endsNumber_cons rfl _)]
      rfl
    · have tail := ih (fun f member => back f (List.mem_cons_of_mem _ member)) more
        (Nat.le_of_succ_le_succ enough)
      rw [List.map_cons, Text.joinWith_cons _ _ (mt List.map_eq_nil_iff.1 more), List.append_assoc,
        List.append_assoc, List.singleton_append, readField_compact head (endsNumber_cons rfl _)]
      simp only [comma, tail, List.map_cons]

/-- Pieces and what follows them start like the first piece, and are no fewer than their
characters. -/
theorem exists_front_joinWith {pieces : List (List Char)} (nonempty : pieces ≠ [])
    (fronts : ∀ p ∈ pieces, ∃ c cs, p = c :: cs ∧ isFront c = true) (rest : List Char) :
    ∃ c cs, Text.joinWith [','] pieces ++ rest = c :: cs ∧ isFront c = true ∧
      pieces.length ≤ (c :: cs).length := by
  have length := Text.length_le_length_joinWith [','] fun p member => by
    obtain ⟨c, cs, rfl, -⟩ := fronts p member
    exact List.cons_ne_nil c cs
  have front : ∃ c cs, Text.joinWith [','] pieces = c :: cs ∧ isFront c = true := by
    obtain ⟨piece, pieces, rfl⟩ := List.exists_cons_of_ne_nil nonempty
    obtain ⟨c, cs, rfl, front⟩ := fronts piece List.mem_cons_self
    rcases eq_or_ne pieces [] with rfl | more
    · exact ⟨c, cs, rfl, front⟩
    · rw [Text.joinWith_cons _ _ more]
      exact ⟨c, _, rfl, front⟩
  obtain ⟨c, cs, text, front⟩ := front
  rw [text] at length ⊢
  refine ⟨c, cs ++ rest, rfl, front, length.trans ?_⟩
  rw [← List.cons_append, List.length_append]
  exact Nat.le_add_right _ _

theorem readArray_compact {items : List Json} (back : ∀ v ∈ items, ReadsBack read v)
    (rest : List Char) :
    readArray read (Text.joinWith [','] (items.map compact) ++ ']' :: rest) =
      (items, some rest) := by
  rcases eq_or_ne items [] with rfl | nonempty
  · rfl
  have fronts : ∀ p ∈ items.map compact, ∃ c cs, p = c :: cs ∧ isFront c = true := by
    intro p member
    obtain ⟨v, inside, rfl⟩ := List.mem_map.1 member
    exact (back v inside).front
  obtain ⟨c, cs, text, front, enough⟩ :=
    exists_front_joinWith (mt List.map_eq_nil_iff.1 nonempty) fronts (']' :: rest)
  rw [List.length_map] at enough
  have items := readItems_compact back nonempty enough rest
  rw [text] at items ⊢
  rw [readArray, skipSpace_cons (isSpace_of_isFront front)]
  split
  next same =>
    cases same
    cases front
  next => exact items

theorem readObject_compact {fields : List (String × Json)}
    (back : ∀ f ∈ fields, ReadsBack read f.2) (rest : List Char) :
    readObject read (Text.joinWith [','] (fields.map compactField) ++ '\x7d' :: rest) =
      (fields.map fun f => (some f.1, f.2), some rest) := by
  rcases eq_or_ne fields [] with rfl | nonempty
  · rfl
  have fronts : ∀ p ∈ fields.map compactField, ∃ c cs, p = c :: cs ∧ isFront c = true := by
    intro p member
    obtain ⟨f, -, rfl⟩ := List.mem_map.1 member
    exact ⟨'"', _, rfl, rfl⟩
  obtain ⟨c, cs, text, front, enough⟩ :=
    exists_front_joinWith (mt List.map_eq_nil_iff.1 nonempty) fronts ('\x7d' :: rest)
  rw [List.length_map] at enough
  have fields := readFields_compact back nonempty enough rest
  rw [text] at fields ⊢
  rw [readObject, skipSpace_cons (isSpace_of_isFront front)]
  split
  next same =>
    cases same
    cases front
  next => exact fields

end

theorem mapM_namedField? (fields : List (String × Json)) :
    (fields.map fun f => (some f.1, f.2)).mapM namedField? = some fields := by
  induction fields with
  | nil => rfl
  | cons f fields ih =>
    rw [List.map_cons, List.mapM_cons, ih]
    rfl

theorem ofWrittenFields_map (fields : List (String × Json)) :
    ofWrittenFields (fields.map fun f => (some f.1, f.2)) = object fields := by
  rw [ofWrittenFields, mapM_namedField?]
  rfl

theorem StartsNumber.readValue {c : Char} (starts : StartsNumber c) (depth : ℕ) (cs : List Char) :
    readValue depth (c :: cs) = readNumber (c :: cs) := by
  have other (d : Char) {ds : List Char} (letter : d ≠ '-' ∧ d.isDigit = false := by decide) :
      c :: cs ≠ d :: ds := fun same => starts.ne d letter (List.cons.inj same).1
  rw [Json.readValue]
  · exact fun _ => other 'n'
  · exact fun _ => other 't'
  · exact fun _ => other 'f'
  · exact fun _ => other '"'
  · exact fun _ _ => other '['
  · exact fun _ _ _ => other '['
  · exact fun _ _ => other '\x7b'
  · exact fun _ _ _ => other '\x7b'

/-- A value is read back from its text, wherever a value may end. -/
theorem readValue_compact {depth : ℕ} {j : Json} (writable : Writable depth j) :
    ReadsBack (readValue depth) j := by
  induction writable with
  | null => exact ⟨⟨'n', _, rfl, rfl⟩, fun rest _ => by simp [compact, readValue, dropWord?]⟩
  | bool b =>
    cases b with
    | true => exact ⟨⟨'t', _, rfl, rfl⟩, fun rest _ => by simp [compact, readValue, dropWord?]⟩
    | false => exact ⟨⟨'f', _, rfl, rfl⟩, fun rest _ => by simp [compact, readValue, dropWord?]⟩
  -- the first character decides what is read, and a number has none of its own
  | @number depth n writable =>
    obtain ⟨c, cs, text, front⟩ := Number.exists_front writable
    refine ⟨⟨c, cs, text, ?_⟩, fun rest ends => ?_⟩
    · exact front.isFront
    · rw [← readNumber_write writable ends, compact, text]
      exact front.readValue depth _
  | string s =>
    refine ⟨⟨'"', _, rfl, rfl⟩, fun rest _ => ?_⟩
    have quoted : compact (.string s) ++ rest =
        '"' :: (s.toList.flatMap escape ++ '"' :: rest) := by simp [compact, quote]
    rw [quoted, readValue, readString_escape]
    rfl
  | @array depth items each ih =>
    refine ⟨⟨'[', _, rfl, rfl⟩, fun rest _ => ?_⟩
    rw [compact, compactItems_eq, List.cons_append, List.append_assoc, readValue,
      List.singleton_append, readArray_compact ih]
    rfl
  | @object depth fields each ih =>
    refine ⟨⟨'\x7b', _, rfl, rfl⟩, fun rest _ => ?_⟩
    rw [compact, compactFields_eq, List.cons_append, List.append_assoc, readValue,
      List.singleton_append, readObject_compact ih]
    exact congrArg (fun v => some (v, rest)) (ofWrittenFields_map fields)

/-! ### Texts -/

theorem Writable.mono {depth depth' : ℕ} {j : Json} (writable : Writable depth j)
    (deeper : depth ≤ depth') : Writable depth' j := by
  induction writable generalizing depth' with
  | null => exact .null
  | bool b => exact .bool b
  | number writable => exact .number writable
  | string s => exact .string s
  | array each ih =>
    obtain ⟨depth', rfl⟩ := Nat.exists_eq_succ_of_ne_zero (Nat.ne_zero_of_lt deeper)
    exact .array fun v member => ih v member (Nat.le_of_succ_le_succ deeper)
  | object each ih =>
    obtain ⟨depth', rfl⟩ := Nat.exists_eq_succ_of_ne_zero (Nat.ne_zero_of_lt deeper)
    exact .object fun f member => ih f member (Nat.le_of_succ_le_succ deeper)

/-- Values lie no deeper inside one another than their text is long. -/
theorem Writable.depth_length {depth : ℕ} {j : Json} (writable : Writable depth j) :
    Writable (compact j).length j := by
  induction writable with
  | null => exact .null
  | bool b => exact .bool b
  | number writable => exact .number writable
  | string s => exact .string s
  | array each ih =>
    rw [compact, compactItems_eq, List.length_cons]
    refine .array fun v member => (ih v member).mono ?_
    rw [List.length_append]
    exact (Text.length_le_joinWith _ (List.mem_map_of_mem member)).trans (Nat.le_add_right _ _)
  | object each ih =>
    rw [compact, compactFields_eq, List.length_cons]
    refine .object fun f member => (ih f member).mono ?_
    have inside := Text.length_le_joinWith [','] (List.mem_map_of_mem (f := compactField) member)
    rw [compactField, List.length_append, List.length_cons] at inside
    rw [List.length_append]
    omega

theorem takeWhile_namedField? (fields : List (String × Json)) :
    ((fields.map fun f => (some f.1, f.2)).map namedField?).takeWhile Option.isSome =
      fields.map some := by
  induction fields with
  | nil => rfl
  | cons f fields ih => simpa [namedField?] using ih

/-- A value that is no array and no object is read as a whole. -/
theorem ofChars_of_ne {c : Char} {cs : List Char} (solid : isSpace c = false) (array : c ≠ '[')
    (object : c ≠ '\x7b') {depth : ℕ} {j : Json}
    (whole : readValue depth (c :: cs) = some (j, [])) :
    Reading.ofChars depth (c :: cs) = ⟨j, true⟩ := by
  rw [Reading.ofChars, skipSpace_cons solid]
  split
  next same => exact absurd (List.cons.inj same).1 array
  next same => exact absurd (List.cons.inj same).1 object
  next =>
    rw [whole]
    rfl

/-- A value is read back from its text. -/
theorem ofChars_compact {depth : ℕ} {j : Json} (writable : Writable depth j) :
    Reading.ofChars depth (compact j) = ⟨j, true⟩ := by
  have whole := (readValue_compact writable).reads [] (by rintro _ ⟨⟩)
  rw [List.append_nil] at whole
  cases writable with
  | null => exact ofChars_of_ne rfl (by decide) (by decide) whole
  | bool b =>
    cases b with
    | true => exact ofChars_of_ne rfl (by decide) (by decide) whole
    | false => exact ofChars_of_ne rfl (by decide) (by decide) whole
  | number writable =>
    obtain ⟨c, cs, text, front⟩ := Number.exists_front writable
    rw [compact, text] at whole ⊢
    exact ofChars_of_ne (isSpace_of_isFront front.isFront) (front.ne '[') (front.ne '\x7b') whole
  | string s => exact ofChars_of_ne rfl (by decide) (by decide) whole
  -- an array or an object is read here item by item, and its items are read as values
  | array each =>
    have items := readArray_compact (fun v member => readValue_compact (each v member)) []
    rw [compact, compactItems_eq, Reading.ofChars, skipSpace_cons rfl]
    simp only [Nat.add_sub_cancel, items]
    rfl
  | object each =>
    have fields := readObject_compact (fun f member => readValue_compact (each f member)) []
    rw [compact, compactFields_eq, Reading.ofChars, skipSpace_cons rfl]
    simp only [Nat.add_sub_cancel, fields, takeWhile_namedField?]
    simp [Reading.endsText, skipSpace]

theorem ofText_compactText {depth : ℕ} {j : Json} (writable : Writable depth j) :
    Reading.ofText (compactText j) = ⟨j, true⟩ := by
  rw [Reading.ofText, compactText, String.toList_ofList, String.length_ofList]
  exact ofChars_compact (writable.depth_length.mono (Nat.le_succ _))

theorem readText?_compactText {depth : ℕ} {j : Json} (writable : Writable depth j) :
    readText? (compactText j) = some j := by
  rw [readText?, ofText_compactText writable]
  rfl

end RegionNet.Json

import RegionNet.Configuration.Duration
import RegionNet.Proofs.Decimal.Numeral
import RegionNet.Proofs.Text.Pieces

/-!
# Durations are read as they are written
-/

namespace RegionNet

open Decimal (digits)

namespace Duration

theorem ext_parts {d d' : Duration} (seconds : d.seconds = d'.seconds)
    (nanoseconds : d.nanoseconds = d'.nanoseconds) : d = d' := by
  cases d
  cases d'
  cases seconds
  cases nanoseconds
  rfl

/-! ### Amounts -/

namespace Amount

def inSeconds : Amount → ℕ
  | seconds n => n
  | nanoseconds _ => 0

def inNanoseconds : Amount → ℕ
  | seconds _ => 0
  | nanoseconds n => n

end Amount

theorem fits_of_lt {n : ℕ} (below : n < UInt64.size) : fits n = .ok n := if_pos below

/-- While the nanoseconds make up no second, nothing is carried. -/
theorem add_of_lt (d : Duration) (a : Amount) (seconds : d.seconds + a.inSeconds < UInt64.size)
    (nanoseconds : d.nanoseconds + a.inNanoseconds < second) :
    d.add a =
      .ok ⟨d.seconds + a.inSeconds, d.nanoseconds + a.inNanoseconds, seconds, nanoseconds⟩ := by
  have parts {s n : ℕ} (s_lt : s < UInt64.size) (n_lt : n < second) :
      ofParts s n = .ok ⟨s, n, s_lt, n_lt⟩ := by
    have carry : n / second = 0 := Nat.div_eq_of_lt n_lt
    simp only [ofParts, carry, Nat.add_zero, dif_pos s_lt, Nat.mod_eq_of_lt n_lt]
  cases a with
  | seconds n =>
    simp only [Amount.inSeconds, Amount.inNanoseconds, Nat.add_zero] at seconds nanoseconds ⊢
    rw [add, fits_of_lt seconds]
    exact parts seconds nanoseconds
  | nanoseconds n =>
    simp only [Amount.inSeconds, Amount.inNanoseconds, Nat.add_zero] at seconds nanoseconds ⊢
    rw [add, fits_of_lt (nanoseconds.trans (by decide))]
    change (if second < d.nanoseconds + n then _ else _) = _
    -- a sum of more than a second would be carried before it is put together
    rw [if_neg nanoseconds.le.not_gt]
    exact parts seconds nanoseconds

/-- A character that ends a number and goes on with a unit. -/
def isLetter (c : Char) : Bool :=
  isUnitChar c && !isNumberChar c && c != '.'

/-- A unit with its spellings in the text of a duration. -/
structure Spells (name : List Char) (plural : Bool) (unit : Amount) : Prop where
  filled : name ≠ []
  letters : ∀ c ∈ name, isLetter c = true
  singular : unit? name = some unit
  plural : plural = true → unit? (name ++ ['s']) = some unit

/-- The spelling that goes with the number of an item. -/
def itemWord (i : ℕ × String × Bool) : List Char :=
  i.2.1.toList ++ if i.2.2 && i.1 ≠ 1 then ['s'] else []

section

variable {i : ℕ × String × Bool} {unit : Amount} (spells : Spells i.2.1.toList i.2.2 unit)
include spells

theorem itemWord_letters : ∀ c ∈ itemWord i, isLetter c = true := by
  intro c member
  rw [itemWord, List.mem_append] at member
  rcases member with member | member
  · exact spells.letters c member
  · split at member
    · rw [List.mem_singleton.1 member]
      rfl
    · cases member

theorem unit?_itemWord : unit? (itemWord i) = some unit := by
  rw [itemWord]
  split
  next several =>
    rw [Bool.and_eq_true] at several
    exact spells.plural several.1
  next =>
    rw [List.append_nil]
    exact spells.singular

/-- An item is read back, in front of white space or of the end. -/
theorem readItem_itemChars (small : i.1 < UInt64.size) (rest : List Char)
    (ends : ∀ c ∈ rest.head?, c = ' ') :
    readItem (itemChars i ++ rest) = .ok (⟨digits i.1, [], unit⟩, rest) := by
  have letters : ∀ c ∈ itemWord i, isUnitChar c = true ∧ isNumberChar c = false ∧ c ≠ '.' := by
    intro c member
    simpa [isLetter, and_assoc] using itemWord_letters spells c member
  obtain ⟨l, ls, word⟩ : ∃ l ls, itemWord i = l :: ls :=
    List.exists_cons_of_ne_nil (by simp [itemWord, spells.filled])
  obtain ⟨-, letter, point⟩ := letters l (word ▸ List.mem_cons_self)
  have text : itemChars i ++ rest = digits i.1 ++ (itemWord i ++ rest) := by
    simp only [itemChars, itemWord, List.append_assoc]
  have digit : ∀ c ∈ digits i.1, c.isDigit = true := fun c => Decimal.isDigit_of_mem_digits
  have run : ∀ c ∈ digits i.1, isNumberChar c = true := fun c member => by
    rw [isNumberChar, digit c member, Bool.true_or]
  have stop : ∀ c ∈ (itemWord i ++ rest).head?, isNumberChar c = false := by
    rw [word]
    rintro c ⟨⟩
    exact letter
  have front : (digits i.1 ++ (itemWord i ++ rest)).head?.any Char.isDigit = true := by
    obtain ⟨d, ds, front⟩ := List.exists_cons_of_length_pos (Decimal.length_digits_pos i.1)
    rw [front]
    exact digit d (front ▸ List.mem_cons_self)
  have whole : takeDigits (digits i.1 ++ (itemWord i ++ rest)) =
      (digits i.1, itemWord i ++ rest) := by
    rw [takeDigits, Text.takeWhile_run _ _ run stop, Text.dropWhile_run _ _ run stop,
      List.filter_eq_self.2 digit]
  -- a unit starts with a letter, so no fraction is read
  have fraction : takeFraction (itemWord i ++ rest) = .ok ([], itemWord i ++ rest) := by
    rw [word, List.cons_append, takeFraction]
    · rfl
    · exact fun _ same => point (List.cons.inj same).1
  have spelled : ∀ c ∈ itemWord i, isUnitChar c = true := fun c member => (letters c member).1
  have ended : ∀ c ∈ rest.head?, isUnitChar c = false := fun c member => by
    rw [ends c member]
    decide
  have apart : rest.head?.all isNumberChar = true := by
    cases rest with
    | nil => rfl
    | cons c rest =>
      rw [ends c rfl]
      rfl
  have value : Decimal.value (digits i.1) = i.1 := Decimal.value_digits i.1
  simp only [text, readItem, front, whole, value, fits_of_lt small, fraction,
    Text.takeWhile_run _ _ spelled ended, Text.dropWhile_run _ _ spelled ended,
    unit?_itemWord spells, ReadFault.orMalformed, apart, Bool.not_true, Bool.false_eq_true,
    if_false, if_true, Except.bind, bind, pure, Except.pure]

end

theorem times_of_lt {unit : Amount} {n : ℕ} (seconds : n * unit.inSeconds < UInt64.size)
    (nanoseconds : n * unit.inNanoseconds < UInt64.size) :
    ∃ a, unit.times n = .ok a ∧ a.inSeconds = n * unit.inSeconds ∧
      a.inNanoseconds = n * unit.inNanoseconds := by
  cases unit with
  | seconds k =>
    refine ⟨.seconds (n * k), ?_, rfl, rfl⟩
    rw [Amount.times, Amount.map, fits_of_lt (by exact seconds)]
    rfl
  | nanoseconds k =>
    refine ⟨.nanoseconds (n * k), ?_, rfl, rfl⟩
    rw [Amount.times, Amount.map, fits_of_lt (by exact nanoseconds)]
    rfl

theorem addItem_of_lt (d : Duration) (unit : Amount) (n : ℕ)
    (seconds : d.seconds + n * unit.inSeconds < UInt64.size)
    (nanoseconds : d.nanoseconds + n * unit.inNanoseconds < second) :
    d.addItem ⟨digits n, [], unit⟩ =
      .ok ⟨d.seconds + n * unit.inSeconds, d.nanoseconds + n * unit.inNanoseconds, seconds,
        nanoseconds⟩ := by
  have room : n * unit.inNanoseconds < UInt64.size :=
    ((Nat.le_add_left _ _).trans_lt nanoseconds).trans (by decide)
  obtain ⟨a, times, whole, part⟩ := times_of_lt ((Nat.le_add_left _ _).trans_lt seconds) room
  rw [← whole] at seconds
  rw [← part] at nanoseconds
  simp only [addItem, Decimal.value_digits, times, bind, Except.bind,
    add_of_lt d a seconds nanoseconds, List.isEmpty_nil, if_true, pure, Except.pure, whole, part]

/-- An item with the unit that it is read with. -/
structure Part where
  count : ℕ
  name : String
  plural : Bool
  unit : Amount

namespace Part

def item (p : Part) : ℕ × String × Bool := (p.count, p.name, p.plural)

def inSeconds (p : Part) : ℕ := p.count * p.unit.inSeconds

def inNanoseconds (p : Part) : ℕ := p.count * p.unit.inNanoseconds

def chars (p : Part) : List Char := itemChars p.item

theorem chars_front (p : Part) : ∃ c cs, p.chars = c :: cs ∧ c.isDigit = true := by
  obtain ⟨d, ds, front⟩ := List.exists_cons_of_length_pos (Decimal.length_digits_pos p.count)
  refine ⟨d, ds ++ _ ++ _, by rw [chars, itemChars, item, front]; rfl, ?_⟩
  exact Decimal.isDigit_of_mem_digits (front ▸ List.mem_cons_self)

/-- An item that can be read. -/
structure Proper (p : Part) : Prop extends Spells p.name.toList p.plural p.unit where
  small : p.count < UInt64.size

theorem Proper.readItem {p : Part} (proper : p.Proper) (rest : List Char)
    (ends : ∀ c ∈ rest.head?, c = ' ') :
    readItem (p.chars ++ rest) = .ok (⟨digits p.count, [], p.unit⟩, rest) :=
  readItem_itemChars (i := p.item) proper.toSpells proper.small rest ends

end Part

theorem isBlank_of_isDigit {c : Char} (digit : c.isDigit = true) : Text.isBlank c = false := by
  simp only [Char.isDigit, Bool.and_eq_true, decide_eq_true_eq, UInt32.le_iff_toNat_le] at digit
  have least : 48 ≤ c.toNat := digit.1
  have most : c.toNat ≤ 57 := digit.2
  simp only [Text.isBlank, Text.blankRanges, List.any_cons, List.any_nil, Bool.or_eq_false_iff,
    Bool.and_eq_false_iff, decide_eq_false_iff_not, Bool.or_false]
  omega

theorem trimLeft_of_isDigit {c : Char} (digit : c.isDigit = true) (cs : List Char) :
    Text.trimLeft (c :: cs) = c :: cs :=
  List.dropWhile_cons_of_neg (by simp [isBlank_of_isDigit digit])

theorem joined_front {parts : List Part} (nonempty : parts ≠ []) :
    ∃ c cs, Text.joinWith [' '] (parts.map Part.chars) = c :: cs ∧ c.isDigit = true := by
  obtain ⟨p, parts, rfl⟩ := List.exists_cons_of_ne_nil nonempty
  obtain ⟨c, cs, front, digit⟩ := p.chars_front
  rcases eq_or_ne parts [] with rfl | more
  · exact ⟨c, cs, front, digit⟩
  · rw [List.map_cons, Text.joinWith_cons _ _ (mt List.map_eq_nil_iff.1 more), front]
    exact ⟨c, _, rfl, digit⟩

/-- The items of a text are added up. -/
theorem sumItems_parts {parts : List Part} (proper : ∀ p ∈ parts, p.Proper)
    (nonempty : parts ≠ []) (sum : Duration) {fuel : ℕ}
    (enough : parts.length ≤ fuel)
    (seconds : sum.seconds + (parts.map Part.inSeconds).sum < UInt64.size)
    (nanoseconds : sum.nanoseconds + (parts.map Part.inNanoseconds).sum < second) :
    sumItems fuel sum (Text.joinWith [' '] (parts.map Part.chars)) =
      .ok ⟨sum.seconds + (parts.map Part.inSeconds).sum,
        sum.nanoseconds + (parts.map Part.inNanoseconds).sum, seconds, nanoseconds⟩ := by
  induction parts generalizing sum fuel with
  | nil => exact absurd rfl nonempty
  | cons p parts ih =>
    obtain ⟨fuel, rfl⟩ := Nat.exists_eq_succ_of_ne_zero (Nat.ne_zero_of_lt enough)
    simp only [List.map_cons, List.sum_cons] at seconds nanoseconds ⊢
    have added := addItem_of_lt sum p.unit p.count
      (by change sum.seconds + p.inSeconds < _; omega)
      (by change sum.nanoseconds + p.inNanoseconds < _; omega)
    rw [sumItems]
    rcases eq_or_ne parts [] with rfl | more
    · have read := (proper p List.mem_cons_self).readItem [] (by rintro _ ⟨⟩)
      rw [List.append_nil] at read
      rw [List.map_nil, Text.joinWith, read]
      simp only [added, bind, Except.bind]
      rfl
    · have read := (proper p List.mem_cons_self).readItem
        (' ' :: Text.joinWith [' '] (parts.map Part.chars)) (by rintro _ ⟨⟩; rfl)
      have rest := ih (fun p member => proper p (List.mem_cons_of_mem _ member)) more
        ⟨sum.seconds + p.inSeconds, sum.nanoseconds + p.inNanoseconds, by omega, by omega⟩
        (Nat.le_of_succ_le_succ enough) (by simp only; omega) (by simp only; omega)
      obtain ⟨c, cs, text, digit⟩ := joined_front more
      -- the next item starts with a digit, so only the space is dropped
      have trimmed : Text.trimLeft (' ' :: Text.joinWith [' '] (parts.map Part.chars)) =
          c :: cs := by
        rw [text]
        exact trimLeft_of_isDigit digit cs
      rw [Text.joinWith_cons _ _ (mt List.map_eq_nil_iff.1 more), List.singleton_append, read]
      simp only [added, bind, Except.bind, trimmed]
      rw [← text]
      refine rest.trans ?_
      simp only [Nat.add_assoc]

/-- All items of a duration, those that are zero as well. -/
def parts (d : Duration) : List Part :=
  let inYear := d.seconds % year
  let inMonth := inYear % month
  let inDay := inMonth % day
  [⟨d.seconds / year, "year", true, .seconds year⟩,
    ⟨inYear / month, "month", true, .seconds month⟩,
    ⟨inMonth / day, "day", true, .seconds day⟩,
    ⟨inDay / hour, "h", false, .seconds hour⟩,
    ⟨inDay % hour / minute, "m", false, .seconds minute⟩,
    ⟨inDay % minute, "s", false, .seconds 1⟩,
    ⟨d.nanoseconds / 1000000, "ms", false, .nanoseconds 1000000⟩,
    ⟨d.nanoseconds / 1000 % 1000, "us", false, .nanoseconds 1000⟩,
    ⟨d.nanoseconds % 1000, "ns", false, .nanoseconds 1⟩]

theorem items_eq (d : Duration) :
    d.items = ((parts d).map Part.item).filter fun i => i.1 ≠ 0 := rfl

-- the lengths of the units are too large to be compared by computation
theorem sum_inSeconds_parts (d : Duration) : ((parts d).map Part.inSeconds).sum = d.seconds := by
  have split (n y m d h k : ℕ) (whole : k ∣ h) :
      n / y * y + (n % y / m * m + (n % y % m / d * d + (n % y % m % d / h * h +
        (n % y % m % d % h / k * k + n % y % m % d % k)))) = n := by
    rw [← Nat.mod_mod_of_dvd _ whole, Nat.div_add_mod', Nat.div_add_mod', Nat.div_add_mod',
      Nat.div_add_mod', Nat.div_add_mod']
  have whole : minute ∣ hour := by decide
  simp -implicitDefEqProofs only [parts, List.map_cons, List.map_nil, List.sum_cons, List.sum_nil,
    Part.inSeconds, Amount.inSeconds, Nat.mul_one, Nat.mul_zero, Nat.add_zero]
  exact split _ _ _ _ _ _ whole

theorem sum_inNanoseconds_parts (d : Duration) :
    ((parts d).map Part.inNanoseconds).sum = d.nanoseconds := by
  simp -implicitDefEqProofs only [parts, List.map_cons, List.map_nil, List.sum_cons, List.sum_nil,
    Part.inNanoseconds, Amount.inNanoseconds, Nat.mul_one, Nat.mul_zero, Nat.add_zero,
    Nat.zero_add]
  have split (n : ℕ) : n / 1000000 * 1000000 + (n / 1000 % 1000 * 1000 + n % 1000) = n := by
    omega
  exact split _

theorem proper_of_mem_parts {d : Duration} {p : Part} (member : p ∈ d.parts) : p.Proper := by
  have within {n : ℕ} (le : n ≤ d.seconds) : n < UInt64.size := le.trans_lt d.seconds_lt
  have rest {n : ℕ} (le : n ≤ d.nanoseconds) : n < UInt64.size :=
    (le.trans_lt d.nanoseconds_lt).trans (by decide)
  have inYear : d.seconds % year ≤ d.seconds := Nat.mod_le _ _
  have inMonth : d.seconds % year % month ≤ d.seconds := (Nat.mod_le _ _).trans inYear
  have inDay : d.seconds % year % month % day ≤ d.seconds := (Nat.mod_le _ _).trans inMonth
  have inHour : d.seconds % year % month % day % hour ≤ d.seconds := (Nat.mod_le _ _).trans inDay
  have proper {count : ℕ} {name : String} {plural : Bool} {unit : Amount}
      (small : count < UInt64.size) (filled : name.toList ≠ [])
      (letters : name.toList.all isLetter = true) (singular : unit? name.toList = some unit)
      (several : plural = true → unit? (name.toList ++ ['s']) = some unit) :
      Part.Proper ⟨count, name, plural, unit⟩ :=
    ⟨⟨filled, List.all_eq_true.1 letters, singular, several⟩, small⟩
  simp only [parts, List.mem_cons, List.not_mem_nil, or_false] at member
  rcases member with rfl | rfl | rfl | rfl | rfl | rfl | rfl | rfl | rfl
  · exact proper (within (Nat.div_le_self _ _)) (by decide) rfl (by decide) fun _ => by decide
  · exact proper (within ((Nat.div_le_self _ _).trans inYear)) (by decide) rfl (by decide)
      fun _ => by decide
  · exact proper (within ((Nat.div_le_self _ _).trans inMonth)) (by decide) rfl (by decide)
      fun _ => by decide
  · exact proper (within ((Nat.div_le_self _ _).trans inDay)) (by decide) rfl (by decide) nofun
  · exact proper (within ((Nat.div_le_self _ _).trans inHour)) (by decide) rfl (by decide) nofun
  · exact proper (within ((Nat.mod_le _ _).trans inDay)) (by decide) rfl (by decide) nofun
  · exact proper (rest (Nat.div_le_self _ _)) (by decide) rfl (by decide) nofun
  · exact proper (rest ((Nat.mod_le _ _).trans (Nat.div_le_self _ _))) (by decide) rfl (by decide)
      nofun
  · exact proper (rest (Nat.mod_le _ _)) (by decide) rfl (by decide) nofun

/-- Items that are zero add nothing. -/
theorem sum_map_filter {f : Part → ℕ} (zero : ∀ p, p.count = 0 → f p = 0) (ps : List Part) :
    ((ps.filter fun p => p.count ≠ 0).map f).sum = (ps.map f).sum := by
  induction ps with
  | nil => rfl
  | cons p ps ih =>
    rw [List.map_cons, List.sum_cons, ← ih]
    by_cases none : p.count = 0
    · rw [List.filter_cons_of_neg (by simp [none]), zero p none, Nat.zero_add]
    · rw [List.filter_cons_of_pos (by simp [none]), List.map_cons, List.sum_cons]

theorem isZero_iff (d : Duration) : d.isZero = true ↔ d.seconds = 0 ∧ d.nanoseconds = 0 := by
  simp [isZero]

/-- Items that add up to a duration are read as it. -/
theorem ofChars_parts {parts : List Part} (proper : ∀ p ∈ parts, p.Proper) (nonempty : parts ≠ [])
    {d : Duration} (seconds : (parts.map Part.inSeconds).sum = d.seconds)
    (nanoseconds : (parts.map Part.inNanoseconds).sum = d.nanoseconds) :
    ofChars (Text.joinWith [' '] (parts.map Part.chars)) = .ok d := by
  obtain ⟨c, cs, text, digit⟩ := joined_front nonempty
  have enough : parts.length ≤ (c :: cs).length := by
    have filled : ∀ p ∈ parts.map Part.chars, p ≠ [] := by
      intro chars member
      obtain ⟨p, -, rfl⟩ := List.mem_map.1 member
      obtain ⟨c, cs, front, -⟩ := p.chars_front
      rw [front]
      exact List.cons_ne_nil c cs
    rw [← text, ← List.length_map Part.chars]
    exact Text.length_le_length_joinWith [' '] filled
  have sum := sumItems_parts proper nonempty zero enough
    (by rw [seconds]; exact (Nat.zero_add d.seconds).trans_lt d.seconds_lt)
    (by rw [nanoseconds]; exact (Nat.zero_add d.nanoseconds).trans_lt d.nanoseconds_lt)
  rw [text] at sum ⊢
  -- a zero without a unit is read apart, and no item is that text
  have alone : c :: cs ≠ ['0'] := by
    intro same
    have refused : sumItems 1 zero ['0'] = .error .malformed := rfl
    rw [same] at sum
    exact nomatch refused.symm.trans sum
  rw [ofChars, if_neg alone, trimLeft_of_isDigit digit]
  refine sum.trans (congrArg Except.ok (ext_parts ?_ ?_))
  · exact (congrArg (zero.seconds + ·) seconds).trans (Nat.zero_add _)
  · exact (congrArg (zero.nanoseconds + ·) nanoseconds).trans (Nat.zero_add _)

/-- A duration is read back from its text. -/
theorem ofText_text (d : Duration) : ofText d.text = .ok d := by
  rw [ofText, text, String.toList_ofList, chars]
  split
  next empty =>
    obtain ⟨seconds, nanoseconds⟩ := d.isZero_iff.1 empty
    have same : zero = d := ext_parts seconds.symm nanoseconds.symm
    rw [← same]
    decide +kernel
  next some =>
    -- only the items that are not zero are written
    have seconds := sum_map_filter (f := Part.inSeconds)
      (fun p none => by rw [Part.inSeconds, none, Nat.zero_mul]) d.parts
    have nanoseconds := sum_map_filter (f := Part.inNanoseconds)
      (fun p none => by rw [Part.inNanoseconds, none, Nat.zero_mul]) d.parts
    rw [sum_inSeconds_parts] at seconds
    rw [sum_inNanoseconds_parts] at nanoseconds
    have written : d.items.map itemChars =
        (d.parts.filter fun p => p.count ≠ 0).map Part.chars := by
      rw [items_eq, List.filter_map, List.map_map]
      rfl
    rw [written]
    refine ofChars_parts (fun p member => proper_of_mem_parts (List.mem_of_mem_filter member)) ?_
      seconds nanoseconds
    intro none
    rw [none] at seconds nanoseconds
    exact some (d.isZero_iff.2 ⟨seconds.symm, nanoseconds.symm⟩)

end Duration

end RegionNet

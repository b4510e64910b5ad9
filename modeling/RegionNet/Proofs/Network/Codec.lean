import Mathlib
import RegionNet.Network.Message
import RegionNet.Proofs.Outcome
import RegionNet.Proofs.SortedMap.Lookup

/-!
# The bytes of a message

A message is read back from its bytes, whatever follows them, and from no proper part of them. The
reader takes more than the writer writes: keys in any order, and repeated ones, of which the last
value counts. It takes exactly the bytes that begin with a message in this wider form, and reading
is stable: what was read is read again from its own bytes.

A word has room for the lengths and counts of whatever can be in memory. Beyond that bound, which
`Fits` states, a length would not be written as it is.
-/

namespace RegionNet

namespace Message

/-! ### Readers of parts -/

/-- A reader reads whatever a writer wrote of the values that fit, in front of anything; if a part
is cut off at the end, it finds that the end came too early. It reads nothing else. -/
structure Reads {α : Type} (read : List UInt8 → Except DecodeError (α × List UInt8))
    (write : α → List UInt8) (Fits : α → Prop) : Prop where
  whole : ∀ a rest, Fits a → read (write a ++ rest) = .ok (a, rest)
  cut : ∀ a part, Fits a → part <+: write a → part ≠ write a → read part = .error .unexpectedEnd
  only : ∀ bytes a rest, read bytes = .ok (a, rest) → Fits a ∧ bytes = write a ++ rest

namespace Reads

open Outcome

variable {α β : Type} {read : List UInt8 → Except DecodeError (α × List UInt8)}
  {write : α → List UInt8} {Fits : α → Prop}

/-- One value after another, where what is first may decide how the second is read. A cut falls into
the first value, or behind it and into the second. -/
theorem chain {read' : α → List UInt8 → Except DecodeError (β × List UInt8)}
    {write' : β → List UInt8} {Fits' : α → β → Prop} (first : Reads read write Fits)
    (second : ∀ a, Fits a → Reads (read' a) write' (Fits' a)) :
    Reads
      (fun bytes => do
        let (a, rest) ← read bytes
        let (b, rest) ← read' a rest
        return ((a, b), rest))
      (fun p => write p.1 ++ write' p.2) (fun p => Fits p.1 ∧ Fits' p.1 p.2) where
  whole p rest fits := by
    obtain ⟨a, b⟩ := p
    obtain ⟨fits₁, fits₂⟩ := fits
    have one := first.whole a (write' b ++ rest) fits₁
    have two := (second a fits₁).whole b rest fits₂
    simp only [List.append_assoc, one, two, ok_bind, pure_eq_ok]
  cut p part fits starts shorter := by
    obtain ⟨a, b⟩ := p
    obtain ⟨fits₁, fits₂⟩ := fits
    have cut₁ (early : part <+: write a) (partly : part ≠ write a) :=
      first.cut a part fits₁ early partly
    rcases List.prefix_or_prefix_of_prefix starts (List.prefix_append (write a) (write' b)) with
      early | ⟨rest, rfl⟩
    · by_cases whole : part = write a
      · -- the first value is there, and nothing of the second one
        have one := first.whole a [] fits₁
        rw [List.append_nil, ← whole] at one
        have some : write' b ≠ [] := fun none => shorter (by simp [whole, none])
        have two := (second a fits₁).cut b [] fits₂ List.nil_prefix some.symm
        simp only [one, two, ok_bind, error_bind]
      · simp only [cut₁ early whole, error_bind]
    · -- the first value is there whole, and the cut falls into the second one or in front of it
      have one := first.whole a rest fits₁
      have late : rest <+: write' b := (List.prefix_append_right_inj (write a)).1 starts
      have two := (second a fits₁).cut b rest fits₂ late fun same => shorter (by rw [same])
      simp only [one, two, ok_bind, error_bind]
  only bytes p rest read := by
    obtain ⟨⟨a, rest₁⟩, one, read⟩ := (bind_eq_ok_iff _ _ _).1 read
    obtain ⟨⟨b, rest₂⟩, two, read⟩ := (bind_eq_ok_iff _ _ _).1 read
    cases read
    -- what either reader took is what its writer writes, so the bytes are determined in turn
    obtain ⟨fits₁, rfl⟩ := first.only bytes a rest₁ one
    obtain ⟨fits₂, rfl⟩ := (second a fits₁).only rest₁ b rest two
    exact ⟨⟨fits₁, fits₂⟩, (List.append_assoc _ _ _).symm⟩

/-- What was read is taken for another value, or refused. -/
theorem translate {read' : List UInt8 → Except DecodeError (β × List UInt8)}
    {write' : β → List UInt8} {Fits' : β → Prop} (reads : Reads read write Fits)
    (translate : α → Except DecodeError β)
    (same : ∀ bytes, read' bytes = do
      let (a, rest) ← read bytes
      let b ← translate a
      return (b, rest))
    (back : ∀ b, Fits' b → ∃ a, Fits a ∧ translate a = .ok b ∧ write' b = write a)
    (forth : ∀ a b, Fits a → translate a = .ok b → Fits' b ∧ write' b = write a) :
    Reads read' write' Fits' where
  whole b rest fits := by
    obtain ⟨a, fits, translated, written⟩ := back b fits
    simp only [same, written, reads.whole a rest fits, translated, ok_bind, pure_eq_ok]
  cut b part fits starts shorter := by
    obtain ⟨a, fits, _, written⟩ := back b fits
    rw [written] at starts shorter
    simp only [same, reads.cut a part fits starts shorter, error_bind]
  only bytes b rest read := by
    rw [same] at read
    obtain ⟨⟨a, rest₁⟩, one, read⟩ := (bind_eq_ok_iff _ _ _).1 read
    obtain ⟨b', translated, read⟩ := (bind_eq_ok_iff _ _ _).1 read
    cases read
    obtain ⟨fits, rfl⟩ := reads.only bytes a rest one
    obtain ⟨fits', written⟩ := forth a b fits translated
    exact ⟨fits', by rw [written]⟩

end Reads

theorem reads_bytes (n : Nat) : Reads (takeBytes n) id fun bytes => bytes.length = n where
  whole bytes rest length := by simp [takeBytes, ← length]
  cut bytes part length starts shorter := by
    have below : part.length < n := by
      rw [← length]
      exact lt_of_le_of_ne starts.length_le fun same => shorter (starts.eq_of_length same)
    simp [takeBytes, Nat.not_le.2 below]
  only bytes text rest read := by
    simp only [takeBytes] at read
    split at read
    next enough =>
      cases read
      exact ⟨by simpa using enough, (List.take_append_drop n bytes).symm⟩
    next => cases read

/-! ### Words -/

theorem length_littleEndian (n w : Nat) : (littleEndian n w).length = n := by
  induction n generalizing w with
  | zero => rfl
  | succ n ih => simp [littleEndian, ih]

theorem ofLittleEndian_littleEndian (n w : Nat) :
    ofLittleEndian (littleEndian n w) = w % 256 ^ n := by
  induction n generalizing w with
  | zero => simp [littleEndian, ofLittleEndian, Nat.mod_one]
  | succ n ih =>
    have digit : (UInt8.ofNat w).toNat = w % 256 := UInt8.toNat_ofNat'
    rw [littleEndian, ofLittleEndian, ih, digit, pow_succ', Nat.mod_mul]

theorem littleEndian_ofLittleEndian (bytes : List UInt8) :
    littleEndian bytes.length (ofLittleEndian bytes) = bytes := by
  induction bytes with
  | nil => rfl
  | cons b bytes ih =>
    have bound : b.toNat < 256 := b.toNat_lt
    have digit : UInt8.ofNat (b.toNat + 256 * ofLittleEndian bytes) = b := by
      apply UInt8.toNat_inj.1
      rw [UInt8.toNat_ofNat']
      omega
    have rest : (b.toNat + 256 * ofLittleEndian bytes) / 256 = ofLittleEndian bytes := by omega
    rw [List.length_cons, ofLittleEndian, littleEndian, digit, rest, ih]

theorem ofLittleEndian_lt (bytes : List UInt8) : ofLittleEndian bytes < 256 ^ bytes.length := by
  have round := ofLittleEndian_littleEndian bytes.length (ofLittleEndian bytes)
  rw [littleEndian_ofLittleEndian] at round
  rw [round]
  exact Nat.mod_lt _ (Nat.pow_pos (by decide))

theorem length_encodeWord (w : UInt64) : (encodeWord w).length = 8 :=
  length_littleEndian 8 w.toNat

/-- The word that eight bytes are read as is the one that they are written of. -/
theorem encodeWord_eq_iff (w : UInt64) (bytes : List UInt8) (length : bytes.length = 8) :
    encodeWord w = bytes ↔ w = UInt64.ofNat (ofLittleEndian bytes) := by
  constructor
  · rintro rfl
    have bound : w.toNat < 256 ^ 8 := w.toNat_lt
    rw [encodeWord, ofLittleEndian_littleEndian, Nat.mod_eq_of_lt bound, UInt64.ofNat_toNat]
  · rintro rfl
    have bound := ofLittleEndian_lt bytes
    rw [length] at bound
    have kept : (UInt64.ofNat (ofLittleEndian bytes)).toNat = ofLittleEndian bytes :=
      UInt64.toNat_ofNat_of_lt' bound
    rw [encodeWord, kept, ← length, littleEndian_ofLittleEndian]

/-- Every word fits. -/
theorem reads_word : Reads decodeWord encodeWord fun _ => True := by
  refine (reads_bytes 8).translate (fun bytes => .ok (UInt64.ofNat (ofLittleEndian bytes)))
    (fun _ => rfl) (fun w _ => ?_) fun bytes w length read => ?_
  · have length := length_encodeWord w
    have read := (encodeWord_eq_iff w _ length).1 rfl
    exact ⟨encodeWord w, length, congrArg Except.ok read.symm, rfl⟩
  · obtain rfl := Except.ok.inj read
    exact ⟨trivial, (encodeWord_eq_iff _ bytes length).2 rfl⟩

/-! ### Strings and tables -/

theorem fromUTF8?_eq_some_iff (bytes : List UInt8) (s : String) :
    String.fromUTF8? ⟨bytes.toArray⟩ = some s ↔ bytes = stringBytes s := by
  rw [String.fromUTF8?]
  constructor
  · intro found
    split at found
    · cases found
      rfl
    · cases found
  · rintro rfl
    have same : (⟨(stringBytes s).toArray⟩ : ByteArray) = s.toByteArray := rfl
    rw [same, dif_pos s.isValidUTF8]
    rfl

/-- The length of the string can be written in a word. -/
def TextFits (s : String) : Prop :=
  (stringBytes s).length < 2 ^ 64

/-- The string of some bytes, if they are UTF-8. -/
def textOf (bytes : List UInt8) : Except DecodeError String :=
  match String.fromUTF8? ⟨bytes.toArray⟩ with
  | some s => .ok s
  | none => .error .invalidUtf8

theorem textOf_eq_ok_iff (bytes : List UInt8) (s : String) :
    textOf bytes = .ok s ↔ bytes = stringBytes s := by
  rw [← fromUTF8?_eq_some_iff, textOf]
  cases String.fromUTF8? ⟨bytes.toArray⟩ <;> simp

open Outcome in
theorem reads_string : Reads decodeString encodeString TextFits := by
  refine (reads_word.chain fun length _ => reads_bytes length.toNat).translate
    (fun p => textOf p.2) (fun bytes => ?_) (fun s fits => ?_) fun p s fits read => ?_
  · simp only [decodeString]
    -- the reader looks at the bytes only after it has taken as many as the length says
    cases decodeWord bytes with
    | error e => rfl
    | ok p =>
      obtain ⟨length, rest⟩ := p
      simp only [ok_bind]
      cases takeBytes length.toNat rest with
      | error e => rfl
      | ok p =>
        simp only [ok_bind, pure_eq_ok, throw_eq_error, textOf]
        cases String.fromUTF8? ⟨p.1.toArray⟩ <;> rfl
  · have size : (UInt64.ofNat (stringBytes s).length).toNat = (stringBytes s).length :=
      UInt64.toNat_ofNat_of_lt' fits
    exact ⟨(UInt64.ofNat (stringBytes s).length, stringBytes s), ⟨trivial, size.symm⟩,
      (textOf_eq_ok_iff _ s).2 rfl, rfl⟩
  · obtain ⟨length, text⟩ := p
    obtain rfl : text = stringBytes s := (textOf_eq_ok_iff _ s).1 read
    have size : (stringBytes s).length = length.toNat := fits.2
    refine ⟨?_, ?_⟩
    · rw [TextFits, size]
      exact length.toNat_lt
    · simp only [encodeString, size, UInt64.ofNat_toNat, id]

/-- Keys with their values, in the order in which they are written. -/
theorem reads_entries (n : Nat) :
    Reads (decodeEntries n) (List.flatMap encodeEntry)
      fun entries => entries.length = n ∧ ∀ e ∈ entries, TextFits e.1 := by
  induction n with
  | zero =>
    refine ⟨fun entries rest fits => ?_, fun entries part fits starts shorter => ?_,
      fun bytes entries rest read => ?_⟩
    · obtain rfl := List.eq_nil_of_length_eq_zero fits.1
      rfl
    · obtain rfl := List.eq_nil_of_length_eq_zero fits.1
      exact absurd (List.prefix_nil.1 starts) shorter
    · cases read
      simp
  | succ n ih =>
    refine ((reads_string.chain fun _ _ => reads_word).chain fun _ _ => ih).translate
      (fun p => .ok (p.1 :: p.2)) (fun bytes => ?_) (fun entries fits => ?_)
      fun p entries fits read => ?_
    · simp only [decodeEntries]
      simp [bind_assoc]
    · cases entries with
      | nil => cases fits.1
      | cons e entries =>
        obtain ⟨length, fits⟩ := fits
        obtain ⟨here, later⟩ := List.forall_mem_cons.1 fits
        exact ⟨(e, entries), ⟨⟨here, trivial⟩, Nat.succ.inj length, later⟩, rfl, rfl⟩
    · obtain rfl := Except.ok.inj read
      obtain ⟨⟨here, _⟩, length, later⟩ := fits
      exact ⟨⟨congrArg Nat.succ length, List.forall_mem_cons.2 ⟨here, later⟩⟩, rfl⟩

/-! ### Messages -/

/-- A message as it stands in its bytes, with its entries in any order and maybe repeated keys. -/
structure Plain where
  sender : NodeName
  round : UInt64
  entries : List (String × UInt64)

namespace Plain

def message (p : Plain) : Message UInt64 :=
  ⟨p.sender, p.round, SortedMap.ofList p.entries⟩

def bytes (p : Plain) : List UInt8 :=
  encodeString p.sender ++ encodeWord p.round ++ encodeWord (UInt64.ofNat p.entries.length) ++
    p.entries.flatMap encodeEntry

structure Fits (p : Plain) : Prop where
  sender : TextFits p.sender
  count : p.entries.length < 2 ^ 64
  keys : ∀ e ∈ p.entries, TextFits e.1

def read (bytes : List UInt8) : Except DecodeError (Plain × List UInt8) := do
  let (sender, rest) ← decodeString bytes
  let (round, rest) ← decodeWord rest
  let (count, rest) ← decodeWord rest
  let (entries, rest) ← decodeEntries count.toNat rest
  return (⟨sender, round, entries⟩, rest)

theorem reads : Reads read bytes Fits := by
  refine (((reads_string.chain fun _ _ => reads_word).chain fun _ _ => reads_word).chain
    fun p _ => reads_entries p.2.toNat).translate (fun p => .ok ⟨p.1.1.1, p.1.1.2, p.2⟩)
    (fun bytes => ?_) (fun p fits => ?_) fun p plain fits read => ?_
  · simp [read, bind_assoc]
  · have count : (UInt64.ofNat p.entries.length).toNat = p.entries.length :=
      UInt64.toNat_ofNat_of_lt' fits.count
    exact ⟨(((p.sender, p.round), UInt64.ofNat p.entries.length), p.entries),
      ⟨⟨⟨fits.sender, trivial⟩, trivial⟩, count.symm, fits.keys⟩, rfl, rfl⟩
  · obtain rfl := Except.ok.inj read
    obtain ⟨⟨⟨sender, _⟩, _⟩, count, keys⟩ := fits
    refine ⟨⟨sender, ?_, keys⟩, ?_⟩
    · rw [count]
      exact p.1.2.toNat_lt
    · simp only [bytes, count, UInt64.ofNat_toNat]

end Plain

/-- Whatever is in memory fits: the lengths of strings and the sizes of tables are words. -/
structure Fits {α : Type} (m : Message α) : Prop where
  sender : TextFits m.sender
  count : m.values.size < 2 ^ 64
  keys : ∀ key ∈ m.values.keys, TextFits key

variable {m : Message UInt64}

/-- A message with its entries in the order of their keys. -/
def plain (m : Message UInt64) : Plain :=
  ⟨m.sender, m.round, m.values.entries⟩

theorem message_plain (m : Message UInt64) : m.plain.message = m := by
  rw [plain, Plain.message, SortedMap.ofList_entries]

theorem Fits.plain (fits : m.Fits) : m.plain.Fits :=
  ⟨fits.sender, fits.count, fun _ member => fits.keys _ (List.mem_map_of_mem member)⟩

/-- Reading drops repeated keys, and makes nothing longer. -/
theorem Plain.Fits.message {p : Plain} (fits : p.Fits) : p.message.Fits where
  sender := fits.sender
  count := (SortedMap.size_ofList_le p.entries).trans_lt fits.count
  keys key member := by
    obtain ⟨⟨key, value⟩, listed, rfl⟩ := List.mem_map.1 member
    have found : (SortedMap.ofList p.entries).get? key = some value :=
      (SortedMap.get?_eq_some_iff _ _ _).2 listed
    rw [SortedMap.get?_ofList, SortedMap.lastValue, Option.map_eq_some_iff] at found
    -- a key that is left comes from one of the entries, the last of those with this key
    obtain ⟨e, last, _⟩ := found
    obtain ⟨entry, same⟩ := List.mem_filter.1 (List.mem_of_getLast? last)
    have key : e.1 = key := by simpa using same
    exact key ▸ fits.keys e entry

open Outcome in
theorem decode_eq_read (bytes : List UInt8) :
    decode bytes = (Plain.read bytes).map fun p => p.1.message := by
  simp only [decode, Plain.read]
  cases decodeString bytes with
  | error e => rfl
  | ok p =>
    simp only [ok_bind]
    cases decodeWord p.2 with
    | error e => rfl
    | ok p =>
      simp only [ok_bind]
      cases decodeWord p.2 with
      | error e => rfl
      | ok p =>
        simp only [ok_bind]
        cases decodeEntries p.1.toNat p.2 <;> rfl

theorem decode_encode_append (fits : m.Fits) (rest : List UInt8) :
    decode (m.encode ++ rest) = .ok m := by
  have read := Plain.reads.whole m.plain rest fits.plain
  rw [decode_eq_read]
  change (Plain.read (m.plain.bytes ++ rest)).map _ = _
  rw [read]
  exact congrArg Except.ok m.message_plain

theorem decode_of_cut (fits : m.Fits) (part : List UInt8) (starts : part <+: m.encode)
    (shorter : part ≠ m.encode) : decode part = .error .unexpectedEnd := by
  rw [decode_eq_read, Plain.reads.cut m.plain part fits.plain starts shorter]
  rfl

theorem decode_eq_ok_iff (bytes : List UInt8) (m : Message UInt64) :
    decode bytes = .ok m ↔ ∃ p : Plain, p.Fits ∧ p.message = m ∧ p.bytes <+: bytes := by
  rw [decode_eq_read]
  constructor
  · intro decoded
    cases read : Plain.read bytes with
    | error e =>
      rw [read] at decoded
      cases decoded
    | ok p =>
      rw [read] at decoded
      cases decoded
      obtain ⟨fits, rfl⟩ := Plain.reads.only bytes p.1 p.2 read
      exact ⟨p.1, fits, rfl, List.prefix_append _ _⟩
  · rintro ⟨p, fits, rfl, rest, rfl⟩
    rw [Plain.reads.whole p rest fits]
    rfl

/-! ### What bytes begin with a message -/

/-- Eight bytes are the digits of a number to the base 256, the lowest first. -/
def IsWord (bytes : List UInt8) (n : Nat) : Prop :=
  bytes.length = 8 ∧ Nat.ofDigits 256 (bytes.map UInt8.toNat) = n

/-- The number of the bytes of a string, and then these bytes in UTF-8. -/
def IsText (bytes : List UInt8) (s : String) : Prop :=
  ∃ length text, bytes = length ++ text ∧ IsWord length text.length ∧ text = s.toUTF8.data.toList

/-- One key after the other, each with its value. -/
inductive IsTable : List UInt8 → List (String × UInt64) → Prop
  | nil : IsTable [] []
  | cons {key value rest : List UInt8} {k : String} {v : UInt64} {entries : List (String × UInt64)}
      (text : IsText key k) (word : IsWord value v.toNat) (table : IsTable rest entries) :
      IsTable (key ++ value ++ rest) ((k, v) :: entries)

/-- A sender, a round, a count, and so many keys with their values. -/
def Begins (bytes : List UInt8) (p : Plain) : Prop :=
  ∃ sender round count table rest, bytes = sender ++ round ++ count ++ table ++ rest ∧
    IsText sender p.sender ∧ IsWord round p.round.toNat ∧ IsWord count p.entries.length ∧
    IsTable table p.entries

theorem ofLittleEndian_eq_ofDigits (bytes : List UInt8) :
    ofLittleEndian bytes = Nat.ofDigits 256 (bytes.map UInt8.toNat) := by
  induction bytes with
  | nil => rfl
  | cons b bytes ih =>
    rw [ofLittleEndian, ih, List.map_cons, Nat.ofDigits_cons]

theorem isWord_iff (bytes : List UInt8) (n : Nat) :
    IsWord bytes n ↔ n < 2 ^ 64 ∧ bytes = encodeWord (UInt64.ofNat n) := by
  rw [IsWord, ← ofLittleEndian_eq_ofDigits]
  constructor
  · rintro ⟨length, rfl⟩
    have bound := ofLittleEndian_lt bytes
    rw [length] at bound
    exact ⟨bound, ((encodeWord_eq_iff _ bytes length).2 rfl).symm⟩
  · rintro ⟨bound, rfl⟩
    refine ⟨length_encodeWord _, ?_⟩
    have kept : (UInt64.ofNat n).toNat = n := UInt64.toNat_ofNat_of_lt' bound
    rw [encodeWord, kept, ofLittleEndian_littleEndian]
    exact Nat.mod_eq_of_lt bound

theorem isWord_toNat_iff (bytes : List UInt8) (w : UInt64) :
    IsWord bytes w.toNat ↔ bytes = encodeWord w := by
  rw [isWord_iff, UInt64.ofNat_toNat]
  exact and_iff_right w.toNat_lt

theorem isText_iff (bytes : List UInt8) (s : String) :
    IsText bytes s ↔ TextFits s ∧ bytes = encodeString s := by
  constructor
  · rintro ⟨length, text, rfl, word, rfl⟩
    obtain ⟨bound, rfl⟩ := (isWord_iff _ _).1 word
    exact ⟨bound, rfl⟩
  · rintro ⟨fits, rfl⟩
    exact ⟨_, stringBytes s, rfl, (isWord_iff _ _).2 ⟨fits, rfl⟩, rfl⟩

theorem isTable_iff (bytes : List UInt8) (entries : List (String × UInt64)) :
    IsTable bytes entries ↔
      (∀ e ∈ entries, TextFits e.1) ∧ bytes = entries.flatMap encodeEntry := by
  constructor
  · intro table
    induction table with
    | nil => simp
    | cons text word _ ih =>
      obtain ⟨fits, rfl⟩ := (isText_iff _ _).1 text
      obtain rfl := (isWord_toNat_iff _ _).1 word
      obtain ⟨later, rfl⟩ := ih
      exact ⟨List.forall_mem_cons.2 ⟨fits, later⟩, rfl⟩
  · rintro ⟨fits, rfl⟩
    induction entries with
    | nil => exact .nil
    | cons e entries ih =>
      obtain ⟨here, later⟩ := List.forall_mem_cons.1 fits
      exact .cons ((isText_iff _ _).2 ⟨here, rfl⟩) ((isWord_toNat_iff _ _).2 rfl) (ih later)

theorem begins_iff (bytes : List UInt8) (p : Plain) :
    Begins bytes p ↔ p.Fits ∧ p.bytes <+: bytes := by
  constructor
  · rintro ⟨sender, round, count, table, rest, rfl, isText, isWord, isCount, isTable⟩
    obtain ⟨fits, rfl⟩ := (isText_iff _ _).1 isText
    obtain rfl := (isWord_toNat_iff _ _).1 isWord
    obtain ⟨bound, rfl⟩ := (isWord_iff _ _).1 isCount
    obtain ⟨keys, rfl⟩ := (isTable_iff _ _).1 isTable
    exact ⟨⟨fits, bound, keys⟩, List.prefix_append _ _⟩
  · rintro ⟨fits, rest, rfl⟩
    exact ⟨_, _, _, _, rest, rfl, (isText_iff _ _).2 ⟨fits.sender, rfl⟩,
      (isWord_toNat_iff _ _).2 rfl, (isWord_iff _ _).2 ⟨fits.count, rfl⟩,
      (isTable_iff _ _).2 ⟨fits.keys, rfl⟩⟩

/-! ### Messages of doubles -/

theorem Fits.mapValues {α β : Type} {m : Message α} (fits : m.Fits) (f : α → β) :
    (m.mapValues f).Fits where
  sender := fits.sender
  count := by
    simpa [Message.mapValues, SortedMap.size, SortedMap.mapValues] using fits.count
  keys := by
    simpa [Message.mapValues, SortedMap.keys, SortedMap.mapValues] using fits.keys

theorem Fits.of_mapValues {α β : Type} {m : Message α} {f : α → β} (fits : (m.mapValues f).Fits) :
    m.Fits where
  sender := fits.sender
  count := by
    simpa [Message.mapValues, SortedMap.size, SortedMap.mapValues] using fits.count
  keys := by
    simpa [Message.mapValues, SortedMap.keys, SortedMap.mapValues] using fits.keys

theorem length_encodeEntry_le (entries : List (String × UInt64)) (e : String × UInt64)
    (member : e ∈ entries) :
    (encodeEntry e).length ≤ (entries.flatMap encodeEntry).length := by
  rw [List.length_flatMap]
  exact List.le_sum_of_mem (List.mem_map_of_mem member)

theorem length_le_encodeEntries (entries : List (String × UInt64)) :
    entries.length ≤ (entries.flatMap encodeEntry).length := by
  induction entries with
  | nil => exact Nat.le_refl 0
  | cons e entries ih =>
    have word : 8 ≤ (encodeEntry e).length := by simp [encodeEntry, length_encodeWord]
    rw [List.flatMap_cons, List.length_append, List.length_cons]
    omega

/-- What has been written in a few bytes fits. -/
theorem fits_of_length_encode (m : Message UInt64) (short : m.encode.length < 2 ^ 64) :
    m.Fits := by
  have length : (stringBytes m.sender).length + (m.values.entries.flatMap encodeEntry).length ≤
      m.encode.length := by
    simp only [encode, encodeString, List.length_append]
    omega
  refine ⟨?_, ?_, fun key member => ?_⟩
  · exact (Nat.le_add_right _ _).trans_lt (length.trans_lt short)
  · have count := length_le_encodeEntries m.values.entries
    rw [SortedMap.size]
    omega
  · obtain ⟨e, entered, rfl⟩ := List.mem_map.1 member
    have entry := length_encodeEntry_le m.values.entries e entered
    simp only [encodeEntry, encodeString, List.length_append] at entry
    rw [TextFits]
    omega

theorem fits_of_length_toBytes (m : Message Float) (short : m.toBytes.length < 2 ^ 64) : m.Fits :=
  (fits_of_length_encode _ short).of_mapValues

/-- A double is the one of its bits. -/
theorem ofBits_toBits (m : Message Float) : (m.mapValues Float.toBits).mapValues Float.ofBits = m := by
  have values : (m.values.map Float.toBits).map Float.ofBits = m.values := by
    rw [SortedMap.map_map]
    apply SortedMap.ext_get?
    intro key
    rw [SortedMap.get?_map]
    cases m.values.get? key <;> simp [Float.ofBits_toBits]
  obtain ⟨sender, round, _⟩ := m
  exact congrArg (Message.mk sender round) values

theorem ofBytes_toBytes_append {m : Message Float} (fits : m.Fits) (rest : List UInt8) :
    ofBytes (m.toBytes ++ rest) = .ok m := by
  rw [ofBytes, toBytes, decode_encode_append (fits.mapValues Float.toBits) rest]
  exact congrArg Except.ok m.ofBits_toBits

theorem ofBytes_of_cut {m : Message Float} (fits : m.Fits) (part : List UInt8)
    (starts : part <+: m.toBytes) (shorter : part ≠ m.toBytes) :
    ofBytes part = .error .unexpectedEnd := by
  rw [ofBytes, decode_of_cut (fits.mapValues Float.toBits) part starts shorter]
  rfl

theorem ofBytes_eq_ok_iff (bytes : List UInt8) (m : Message Float) :
    ofBytes bytes = .ok m ↔ ∃ m', decode bytes = .ok m' ∧ m'.mapValues Float.ofBits = m := by
  rw [ofBytes, Outcome.bind_eq_ok_iff]
  simp

/-- A message is read back from its bytes and whatever follows them, and a part that is cut off is
missed. Whatever begins as a message does is read, and of two values for one key the later stays;
nothing else is read. What was read is read again from its own bytes. Of doubles the bits are
carried. -/
theorem codec_exact :
    (∀ m : Message UInt64, m.Fits → (∀ rest, decode (m.encode ++ rest) = .ok m) ∧
      ∀ part, part <+: m.encode → part ≠ m.encode → decode part = .error .unexpectedEnd) ∧
    (∀ bytes (m : Message UInt64), decode bytes = .ok m ↔
      ∃ entries, Begins bytes ⟨m.sender, m.round, entries⟩ ∧
        ∀ key, m.values.get? key = SortedMap.lastValue entries key) ∧
    (∀ bytes (m : Message UInt64), decode bytes = .ok m →
      ∀ rest, decode (m.encode ++ rest) = .ok m) ∧
    (∀ m : Message Float, m.Fits → (∀ rest, ofBytes (m.toBytes ++ rest) = .ok m) ∧
      ∀ part, part <+: m.toBytes → part ≠ m.toBytes → ofBytes part = .error .unexpectedEnd) ∧
    ∀ bytes (m : Message Float), ofBytes bytes = .ok m →
      ∀ rest, ofBytes (m.toBytes ++ rest) = .ok m := by
  have fits (bytes : List UInt8) (m : Message UInt64) (decoded : decode bytes = .ok m) :
      m.Fits := by
    obtain ⟨p, fits, rfl, _⟩ := (decode_eq_ok_iff bytes m).1 decoded
    exact fits.message
  refine ⟨fun m fits => ⟨decode_encode_append fits, decode_of_cut fits⟩, fun bytes m => ?_,
    fun bytes m decoded => decode_encode_append (fits bytes m decoded),
    fun m fits => ⟨ofBytes_toBytes_append fits, ofBytes_of_cut fits⟩, fun bytes m read => ?_⟩
  · rw [decode_eq_ok_iff]
    constructor
    · rintro ⟨p, fits, rfl, starts⟩
      exact ⟨p.entries, (begins_iff bytes p).2 ⟨fits, starts⟩, SortedMap.get?_ofList p.entries⟩
    · rintro ⟨entries, begins, last⟩
      obtain ⟨fits, starts⟩ := (begins_iff _ _).1 begins
      -- two tables are the same if they answer alike, in whatever order their entries came
      have values : SortedMap.ofList entries = m.values :=
        SortedMap.ext_get? _ _ fun key => by rw [SortedMap.get?_ofList, last]
      exact ⟨_, fits, by rw [Plain.message, values], starts⟩
  · obtain ⟨m', decoded, rfl⟩ := (ofBytes_eq_ok_iff bytes m).1 read
    exact ofBytes_toBytes_append ((fits bytes m' decoded).mapValues Float.ofBits)

/-- The cut falls between the two bytes of a letter. -/
theorem codec_exact_within_letter :
    let m : Message UInt64 := ⟨"a", 7, SortedMap.singleton "é" 1⟩
    m.Fits ∧ decode (m.encode ++ [255]) = .ok m ∧
      m.encode.take 34 <+: m.encode ∧ m.encode.take 34 ≠ m.encode ∧
      decode (m.encode.take 34) = .error .unexpectedEnd := by
  intro m
  have fits : m.Fits := by
    constructor
    · rw [TextFits]
      decide +kernel
    · decide +kernel
    · simp only [TextFits]
      decide +kernel
  have shorter : m.encode.take 34 ≠ m.encode := by decide +kernel
  obtain ⟨whole, cut⟩ := codec_exact.1 m fits
  exact ⟨fits, whole [255], List.take_prefix 34 m.encode, shorter,
    cut _ (List.take_prefix 34 m.encode) shorter⟩

end Message

end RegionNet

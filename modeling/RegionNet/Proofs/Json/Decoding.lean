import RegionNet.Json.Decoding
import RegionNet.Proofs.Json.Text
import RegionNet.Proofs.SortedMap.Lookup

/-!
# Typed values that are read as they are written

Writing a typed value as JSON and reading it back is faithful for a value if the JSON value can be
written as a text and reads as the value it comes from. Tables and lists are faithful if what they
hold is, and a record is if its fields are.
-/

namespace RegionNet.Json

variable {α κ : Type}

/-- Writing and reading keep a value, in whose JSON form at most so many arrays and objects lie
inside one another. -/
structure Faithful (write : α → Json) (read : Json → Option α) (depth : ℕ) (a : α) : Prop where
  writable : Writable depth (write a)
  reads : read (write a) = some a

variable {write : α → Json} {read : Json → Option α} {depth : ℕ}

/-- A value is decoded from the text of its JSON form. -/
theorem Faithful.decodes {a : α} (faithful : Faithful write read depth a) :
    (readText? (compactText (write a))).bind read = some a := by
  rw [readText?_compactText faithful.writable, Option.bind_some, faithful.reads]

/-! ### Scalars -/

theorem faithful_string (depth : ℕ) (s : String) : Faithful string toString? depth s :=
  ⟨.string s, rfl⟩

theorem faithful_ofFloat (depth : ℕ) {x : Float} (finite : x.isFinite = true) :
    Faithful ofFloat toFloat? depth x :=
  ⟨.number finite, rfl⟩

theorem faithful_optional (depth : ℕ) (s : Option String) :
    Faithful (fun s : Option String => (s.map string).getD null) (toOptional? toString?) depth
      s := by
  cases s with
  | none => exact ⟨.null, rfl⟩
  | some s => exact ⟨.string s, rfl⟩

theorem faithful_named {name : α → String} {named : String → Option α} {a : α}
    (known : named (name a) = some a) (depth : ℕ) :
    Faithful (fun a => string (name a)) (toNamed? named) depth a :=
  ⟨.string _, known⟩

theorem faithful_int64 (depth : ℕ) (t : Int64) :
    Faithful (fun t : Int64 => ofInt t.toInt) toInt64? depth t := by
  have least := t.minValue_le_toInt
  have most := t.toInt_le
  refine ⟨.number ⟨least, ?_⟩, ?_⟩
  · exact lt_of_le_of_lt most (by decide)
  · simp only [ofInt, toInt64?]
    rw [if_pos ⟨least, most⟩, Int64.ofInt_toInt]

theorem faithful_uint64 (depth : ℕ) (n : UInt64) :
    Faithful (fun n : UInt64 => ofNat n.toNat) toUInt64? depth n := by
  have below : n.toNat < UInt64.size := n.toNat_lt
  refine ⟨.number ⟨?_, by exact_mod_cast below⟩, ?_⟩
  · exact le_trans (by decide) (Int.natCast_nonneg n.toNat)
  · simp only [ofNat, toUInt64?]
    rw [if_pos ⟨Int.natCast_nonneg _, by exact_mod_cast below⟩, Int.toNat_natCast,
      UInt64.ofNat_toNat]

/-! ### Lists and tables -/

theorem mapM_of_forall {β : Type} {f : α → Option β} {g : α → β} {l : List α}
    (each : ∀ a ∈ l, f a = some (g a)) : l.mapM f = some (l.map g) := by
  induction l with
  | nil => rfl
  | cons a l ih =>
    rw [List.mapM_cons, each a List.mem_cons_self,
      ih fun a member => each a (List.mem_cons_of_mem _ member)]
    rfl

theorem faithful_list {l : List α} (each : ∀ a ∈ l, Faithful write read depth a) :
    Faithful (fun l : List α => array (l.map write)) (toList? read) (depth + 1) l := by
  constructor
  · refine .array fun v member => ?_
    obtain ⟨a, inside, rfl⟩ := List.mem_map.1 member
    exact (each a inside).writable
  · simp only [toList?]
    rw [List.mapM_map]
    exact (mapM_of_forall fun a member => (each a member).reads).trans (by rw [List.map_id'])

theorem faithful_ofTable [Ord κ] [Std.TransOrd κ] [Std.LawfulEqOrd κ] {name : κ → String}
    {key : String → Option κ} (known : ∀ k, key (name k) = some k) {m : SortedMap κ α}
    (each : ∀ e ∈ m.entries, Faithful write read depth e.2) :
    Faithful (ofTable name write) (toTable? key read) (depth + 1) m := by
  constructor
  · refine .object fun f member => ?_
    obtain ⟨e, inside, rfl⟩ := List.mem_map.1 member
    exact (each e inside).writable
  · have entries : (m.entries.map fun e => (name e.1, write e.2)).mapM
        (fun f => do return (← key f.1, ← read f.2)) = some m.entries := by
      rw [List.mapM_map]
      refine (mapM_of_forall fun e member => ?_).trans (by rw [List.map_id'])
      simp [known, (each e member).reads]
    rw [ofTable, toTable?, entries, Option.map_some, SortedMap.ofList_entries]

/-! ### Records -/

theorem fieldOnce?_of_mem {fields : List (String × Json)} (distinct : (fields.map Prod.fst).Nodup)
    {f : String × Json} (member : f ∈ fields) : fieldOnce? fields f.1 = some (some f.2) := by
  -- a field is missing or given twice if not exactly one has its name
  have only : fields.filter (fun g => g.1 == f.1) = [f] := by
    induction fields with
    | nil => cases member
    | cons head fields ih =>
      obtain ⟨other, distinct⟩ := List.nodup_cons.1 distinct
      rcases List.mem_cons.1 member with rfl | member
      · have rest : fields.filter (fun g => g.1 == f.1) = [] :=
          List.filter_eq_nil_iff.2 fun g inside same =>
            other (List.mem_map.2 ⟨g, inside, eq_of_beq same⟩)
        rw [List.filter_cons_of_pos (by simp), rest]
      · have differ : head.1 ≠ f.1 := fun same => other (List.mem_map.2 ⟨f, member, same.symm⟩)
        rw [List.filter_cons_of_neg (by simpa using differ), ih distinct member]
  rw [fieldOnce?, only]

/-- A record without repeated names gives the values of its fields in order. -/
theorem toRecord?_object {fields : List (String × Json)} {names : List String}
    (named : fields.map Prod.fst = names) (distinct : names.Nodup) :
    (object fields).toRecord? names = some (fields.map fun f => some f.2) := by
  subst named
  rw [toRecord?, List.mapM_map]
  exact mapM_of_forall fun f member => fieldOnce?_of_mem distinct member

end RegionNet.Json

import RegionNet.Json
import RegionNet.Proofs.SortedMap.Lookup

/-!
# Values within values

A path of keys leads from a value to one within it, from object to object. In a document every
object lists each of its keys once, which is what reading it as a table comes to. A new entry in an
object is then seen on the paths through the entry and on no other.
-/

namespace RegionNet.Json

theorem field?_object (fields : List (String × Json)) (k : String) :
    (object fields).field? k = SortedMap.lastValue fields k := by
  rw [field?, SortedMap.lastValue, ← List.head?_filter, List.filter_reverse, List.head?_reverse]
  rfl

/-! ### Documents -/

/-- Every object lists each of its keys once. -/
inductive Distinct : Json → Prop
  | meaningless : Distinct .meaningless
  | null : Distinct .null
  | bool (b) : Distinct (.bool b)
  | number (n) : Distinct (.number n)
  | string (s) : Distinct (.string s)
  | array {items} (each : ∀ v ∈ items, Distinct v) : Distinct (.array items)
  | object {fields} (once : (fields.map Prod.fst).Nodup) (each : ∀ f ∈ fields, Distinct f.2) :
      Distinct (.object fields)

mutual

/-- What is read as a table is a document. -/
theorem distinct_canonical : ∀ j : Json, j.canonical.Distinct
  | .meaningless => .meaningless
  | .null => .null
  | .bool b => .bool b
  | .number n => .number n
  | .string s => .string s
  | .array items => by
    rw [canonical]
    exact .array (distinct_canonicalItems items)
  | .object fields => by
    rw [canonical]
    refine .object (SortedMap.ofList (canonicalFields fields)).keys_nodup fun f member => ?_
    -- the table has no entry but those it was filled with
    have present := (SortedMap.get?_eq_some_iff _ f.1 f.2).2 member
    rw [SortedMap.get?_ofList] at present
    exact distinct_canonicalFields fields (f.1, f.2) (SortedMap.mem_of_lastValue present)

theorem distinct_canonicalItems : ∀ (items : List Json), ∀ v ∈ canonicalItems items, v.Distinct
  | [] => by simp [canonicalItems]
  | v :: items => by
    rw [canonicalItems]
    intro v' member
    rcases List.mem_cons.1 member with rfl | member
    · exact distinct_canonical v
    · exact distinct_canonicalItems items v' member

theorem distinct_canonicalFields :
    ∀ (fields : List (String × Json)), ∀ f ∈ canonicalFields fields, f.2.Distinct
  | [] => by simp [canonicalFields]
  | (k, v) :: fields => by
    rw [canonicalFields]
    intro f member
    rcases List.mem_cons.1 member with rfl | member
    · exact distinct_canonical v
    · exact distinct_canonicalFields fields f member

end

/-! ### Paths -/

/-- The value to which a path leads, if every key on the path is one of an object. -/
def at? (j : Json) : List String → Option Json
  | [] => some j
  | k :: path => (j.field? k).bind (at? · path)

theorem at?_append (j : Json) (path path' : List String) :
    j.at? (path ++ path') = (j.at? path).bind (·.at? path') := by
  induction path generalizing j with
  | nil => rfl
  | cons k path ih =>
    rw [List.cons_append, at?, at?, Option.bind_assoc]
    congr 1
    funext v
    exact ih v

theorem at?_singleton (j : Json) (k : String) : j.at? [k] = j.field? k :=
  Option.bind_fun_some _

theorem at?_concat (j : Json) (path : List String) (k : String) :
    j.at? (path ++ [k]) = (j.at? path).bind (·.field? k) := by
  simp only [at?_append, at?_singleton]

theorem Distinct.field? {j v : Json} {k : String} (distinct : j.Distinct)
    (found : j.field? k = some v) : v.Distinct := by
  cases distinct with
  | object _ each =>
    rw [field?_object] at found
    exact each (k, v) (SortedMap.mem_of_lastValue found)
  | _ => cases found

theorem Distinct.at? {j v : Json} {path : List String} (distinct : j.Distinct)
    (found : j.at? path = some v) : v.Distinct := by
  induction path generalizing j with
  | nil =>
    cases found
    exact distinct
  | cons k path ih =>
    obtain ⟨w, entry, rest⟩ := Option.bind_eq_some_iff.1 found
    exact ih (distinct.field? entry) rest

/-! ### New entries -/

/-- The second document has one entry more, in the object to which the path leads. -/
inductive Adds (name : String) (value : Json) : List String → Json → Json → Prop
  | here {before after} (new : name ∉ (before ++ after).map Prod.fst) :
      Adds name value [] (.object (before ++ after)) (.object (before ++ (name, value) :: after))
  | under {k path before after old new} (rest : Adds name value path old new) :
      Adds name value (k :: path) (.object (before ++ (k, old) :: after))
        (.object (before ++ (k, new) :: after))

theorem Distinct.entry {before after : List (String × Json)} {k : String} {v : Json}
    (distinct : (Json.object (before ++ (k, v) :: after)).Distinct) :
    v.Distinct ∧ k ∉ after.map Prod.fst := by
  cases distinct with
  | object once each =>
    rw [List.map_append, List.map_cons] at once
    exact ⟨each (k, v) (by simp), (List.nodup_cons.1 (List.nodup_append.1 once).2.1).1⟩

theorem field?_of_ne {before after : List (String × Json)} {k k' : String} (v : Json)
    (differ : k' ≠ k) :
    (object (before ++ (k, v) :: after)).field? k' = (object (before ++ after)).field? k' := by
  rw [field?_object, field?_object, SortedMap.lastValue_append, SortedMap.lastValue_append,
    SortedMap.lastValue_cons, if_neg differ, Option.or_none]

theorem field?_of_missing {before after : List (String × Json)} {k : String} (v : Json)
    (missing : k ∉ after.map Prod.fst) :
    (object (before ++ (k, v) :: after)).field? k = some v := by
  rw [field?_object, SortedMap.lastValue_append, SortedMap.lastValue_cons,
    SortedMap.lastValue_of_missing missing]
  simp

variable {name : String} {value j j' : Json} {path : List String}

/-- Apart from the entry, a path leads to what it led to, or to an object as before. -/
theorem Adds.at?_of_apart (adds : Adds name value path j j') (distinct : j.Distinct)
    (path' : List String) (apart : ¬ path ++ [name] <+: path') :
    j'.at? path' = j.at? path' ∨
      ∃ fields fields', j.at? path' = some (.object fields) ∧
        j'.at? path' = some (.object fields') := by
  induction adds generalizing path' with
  | @here before after =>
    cases path' with
    -- the object itself has changed, and nothing in it that was there
    | nil => exact .inr ⟨_, _, rfl, rfl⟩
    | cons k path' =>
      have differ : k ≠ name := by
        rintro rfl
        exact apart ⟨path', rfl⟩
      rw [at?, at?, field?_of_ne value differ]
      exact .inl rfl
  | @under k path before after old new rest ih =>
    cases path' with
    | nil => exact .inr ⟨_, _, rfl, rfl⟩
    | cons k' path' =>
      by_cases same : k' = k
      · subst same
        obtain ⟨inner, missing⟩ := distinct.entry
        have apart' : ¬ path ++ [name] <+: path' := fun passes =>
          apart (List.cons_prefix_cons.2 ⟨rfl, passes⟩)
        rw [at?, at?, field?_of_missing old missing, field?_of_missing new missing]
        exact ih inner path' apart'
      · rw [at?, at?, field?_of_ne old same, field?_of_ne new same]
        exact .inl rfl

/-- Through the entry no path led anywhere before. -/
theorem Adds.at?_new (adds : Adds name value path j j') (distinct : j.Distinct)
    (path' : List String) :
    j.at? (path ++ name :: path') = none ∧ j'.at? (path ++ name :: path') = value.at? path' := by
  induction adds with
  | @here before after new =>
    have missing : name ∉ after.map Prod.fst := by
      rw [List.map_append, List.mem_append, not_or] at new
      exact new.2
    rw [List.nil_append, at?, at?, field?_of_missing value missing, field?_object,
      SortedMap.lastValue_of_missing new]
    exact ⟨rfl, rfl⟩
  | @under k path before after old new rest ih =>
    obtain ⟨inner, missing⟩ := distinct.entry
    rw [List.cons_append, at?, at?, field?_of_missing old missing, field?_of_missing new missing]
    exact ih inner

end RegionNet.Json

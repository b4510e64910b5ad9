import RegionNet.Proofs.Json.Path
import RegionNet.Resource.Manager

/-!
# What a manager reports of its document

A manager reports what the usable part of the configuration document says. A number counts under the
name of an attribute and a load if it is an object; everything else is passed over where it stands,
and so it makes no difference whether it is there.
-/

namespace RegionNet

namespace Json

def numberAt? (j : Json) (path : List String) : Option Float :=
  (j.at? path).bind ResourceSection.number?

def IsObjectAt (j : Json) (path : List String) : Prop :=
  ∃ fields, j.at? path = some (.object fields)

theorem numberAt?_nil {j : Json} (useless : ∀ n, j ≠ .number n) : j.numberAt? [] = none := by
  cases j with
  | number n => exact absurd rfl (useless n)
  | _ => rfl

theorem numberAt?_cons {j : Json} {k : String} {path : List String}
    (shapeless : ∀ fields, j ≠ .object fields) : j.numberAt? (k :: path) = none := by
  cases j with
  | object fields => exact absurd rfl (shapeless fields)
  | _ => rfl

end Json

/-- The table has the numbers that stand under names of attributes in the object at the end of the
path. -/
def Filtered {κ : Type} [Ord κ] (name : κ → String) (document : Json) (path : List String)
    (load : SortedMap κ Float) : Prop :=
  document.IsObjectAt path ∧ ∀ a, load.get? a = document.numberAt? (path ++ [name a])

theorem filtered_congr {κ : Type} [Ord κ] {name : κ → String} {document other : Json}
    {path : List String} {load : SortedMap κ Float}
    (objects : other.IsObjectAt path ↔ document.IsObjectAt path)
    (numbers : ∀ a, other.numberAt? (path ++ [name a]) = document.numberAt? (path ++ [name a])) :
    Filtered name other path load ↔ Filtered name document path load := by
  simp only [Filtered, objects, numbers]

/-- The report of a vertex says what the document says, and which links the vertex has. -/
structure Documented (document : Json) (v : Vertex) (r : Report Float) : Prop where
  serverCapacity : ∀ a, r.serverCapacity.get? a =
    document.numberAt? ["resource-report", "serverCapacity", a.name]
  /-- A load counts under the region of the vertex and no other. -/
  serverLoad : ∀ service table, r.serverLoad.get? service = some table ↔
    ∃ load, Filtered NodeAttribute.name document ["resource-report", "serverLoad", service] load ∧
      table = SortedMap.singleton v.region load
  serverDemand : r.serverDemand = r.serverLoad
  networkCapacity : ∀ neighbor, r.networkCapacity.get? neighbor =
    (v.neighbors.get? neighbor).map (SortedMap.singleton .dataRate)
  /-- A load of the name of the neighbor goes before the one for all. -/
  networkLoad : ∀ neighbor load, r.networkLoad.get? neighbor = some load ↔
    v.hasNeighbor neighbor = true ∧
      (Filtered LinkAttribute.name document ["resource-report", "networkLoad", neighbor] load ∨
        ¬ document.IsObjectAt ["resource-report", "networkLoad", neighbor] ∧
          Filtered LinkAttribute.name document ["resource-report", "networkLoad", "*"] load)
  networkDemand : r.networkDemand = r.networkLoad

/-! ### The section of a document -/

namespace ResourceSection

theorem nodeAttribute_of_name (s : String) (a : NodeAttribute) :
    NodeAttribute.ofName? s = some a ↔ s = a.name := by
  constructor
  · intro found
    have written := List.find?_some found
    exact (beq_iff_eq.1 written).symm
  · rintro rfl
    cases a <;> rfl

theorem linkAttribute_of_name (s : String) (a : LinkAttribute) :
    LinkAttribute.ofName? s = some a ↔ s = a.name := by
  constructor
  · intro found
    have written := List.find?_some found
    exact (beq_iff_eq.1 written).symm
  · rintro rfl
    cases a
    rfl

/-- Services and neighbors are keys as they are written. -/
theorem self_of_name (s a : String) : some s = some a ↔ s = id a :=
  Option.some_inj

section Entries

variable {κ α : Type} [Ord κ] [Std.TransOrd κ] [Std.LawfulEqOrd κ] [DecidableEq κ]
  {key : String → Option κ} {name : κ → String}

/-- What is used of an object with distinct keys is read off its fields one by one. -/
theorem get?_usableEntries (named : ∀ s a, key s = some a ↔ s = name a) (read : Json → Option α)
    {fields : List (String × Json)} (once : (fields.map Prod.fst).Nodup) (a : κ) :
    (usableEntries key read fields).get? a =
      ((Json.object fields).field? (name a)).bind read := by
  rw [usableEntries, SortedMap.get?_ofList, Json.field?_object]
  simp only [Option.pure_def, Option.bind_eq_bind]
  induction fields with
  | nil => rfl
  | cons f fields ih =>
    rw [List.map_cons, List.nodup_cons] at once
    have ih := ih once.2
    rw [SortedMap.lastValue_cons, List.filterMap_cons]
    by_cases same : name a = f.1
    · -- the keys that follow are others
      have missing := SortedMap.lastValue_of_missing once.1
      rw [← same] at missing
      rw [missing] at ih ⊢
      rw [(named f.1 a).2 same.symm, if_pos same]
      cases number : read f.2 with
      | none => exact ih.trans number.symm
      | some x =>
        have value : (none.or (some f.2)).bind read = some x := number
        rw [value, Option.bind_some, Option.bind_some, SortedMap.lastValue_cons, ih]
        simp
    · rw [if_neg same, Option.or_none, ← ih]
      cases found : key f.1 with
      | none => rfl
      | some b =>
        have differ : a ≠ b := by
          rintro rfl
          exact same ((named f.1 a).1 found).symm
        cases number : read f.2 with
        | none => rfl
        | some x => simp [SortedMap.lastValue_cons, differ]

end Entries

/-- The fields of the object under a key of the section of a document. -/
def sectionEntries (document : Json) (key : String) : List (String × Json) :=
  ((document.at? ["resource-report", key]).bind Json.fields?).getD []

theorem field?_sectionEntries (document : Json) (key k : String) :
    (Json.object (sectionEntries document key)).field? k =
      document.at? ["resource-report", key, k] := by
  have within : document.at? ["resource-report", key, k] =
      (document.at? ["resource-report", key]).bind (·.field? k) :=
    document.at?_concat ["resource-report", key] k
  rw [within, sectionEntries]
  cases found : document.at? ["resource-report", key] with
  | none => rfl
  | some j => cases j <;> rfl

theorem nodup_sectionEntries {document : Json} (distinct : document.Distinct) (key : String) :
    ((sectionEntries document key).map Prod.fst).Nodup := by
  rw [sectionEntries]
  cases found : document.at? ["resource-report", key] with
  | none => exact List.nodup_nil
  | some j =>
    cases distinct.at? found with
    | object once => exact once
    | _ => exact List.nodup_nil

/-- A section that is no object has the entries of no section: none. -/
theorem ofDocument_eq (document : Json) :
    ofDocument document =
      { serverCapacity :=
          usableEntries NodeAttribute.ofName? number? (sectionEntries document "serverCapacity")
        serverLoad := usableEntries some nodeLoad? (sectionEntries document "serverLoad")
        averageProcessingTime :=
          usableEntries some number? (sectionEntries document "serverAverageProcessingTime")
        networkLoad := usableEntries some linkLoad? (sectionEntries document "networkLoad") } := by
  have within (k : String) : document.at? ["resource-report", k] =
      (document.field? "resource-report").bind (·.field? k) := by
    simp only [Json.at?, Option.bind_fun_some]
  unfold ofDocument sectionEntries
  simp only [within, key]
  cases found : document.field? "resource-report" with
  | none => rfl
  | some j => cases j <;> rfl

section Lookups

variable {κ α : Type} [Ord κ] [Std.TransOrd κ] [Std.LawfulEqOrd κ] [DecidableEq κ]
  {key : String → Option κ} {name : κ → String} {document : Json}

theorem get?_usable_sectionEntries (named : ∀ s a, key s = some a ↔ s = name a)
    (read : Json → Option α) (distinct : document.Distinct) (k : String) (a : κ) :
    (usableEntries key read (sectionEntries document k)).get? a =
      (document.at? ["resource-report", k, name a]).bind read := by
  rw [get?_usableEntries named read (nodup_sectionEntries distinct k), field?_sectionEntries]

/-- What is used of an object in a document is what the object was filtered to. -/
theorem filtered_iff (named : ∀ s a, key s = some a ↔ s = name a) (distinct : document.Distinct)
    (path : List String) (load : SortedMap κ Float) :
    ((document.at? path).bind fun j => j.fields?.map (usableEntries key number?)) = some load ↔
      Filtered name document path load := by
  have numbers {fields} (found : document.at? path = some (.object fields)) (a : κ) :
      (usableEntries key number? fields).get? a = document.numberAt? (path ++ [name a]) := by
    cases distinct.at? found with
    | object once =>
      rw [get?_usableEntries named number? once, Json.numberAt?, Json.at?_concat, found,
        Option.bind_some]
  constructor
  · intro read
    obtain ⟨j, found, used⟩ := Option.bind_eq_some_iff.1 read
    cases j with
    | object fields =>
      cases used
      exact ⟨⟨fields, found⟩, numbers found⟩
    | _ => cases used
  · rintro ⟨⟨fields, found⟩, entries⟩
    rw [found]
    apply congrArg some
    apply SortedMap.ext_get?
    intro a
    rw [numbers found, entries]

end Lookups

variable {document : Json}

theorem get?_serverCapacity (distinct : document.Distinct) (a : NodeAttribute) :
    (ofDocument document).serverCapacity.get? a =
      document.numberAt? ["resource-report", "serverCapacity", a.name] := by
  rw [ofDocument_eq]
  exact get?_usable_sectionEntries nodeAttribute_of_name number? distinct "serverCapacity" a

theorem get?_averageProcessingTime (distinct : document.Distinct) (service : ServiceName) :
    (ofDocument document).averageProcessingTime.get? service =
      document.numberAt? ["resource-report", "serverAverageProcessingTime", service] := by
  rw [ofDocument_eq]
  exact get?_usable_sectionEntries self_of_name number? distinct _ _

theorem get?_serverLoad (distinct : document.Distinct) (service : ServiceName) :
    (ofDocument document).serverLoad.get? service =
      (document.at? ["resource-report", "serverLoad", service]).bind nodeLoad? := by
  rw [ofDocument_eq]
  exact get?_usable_sectionEntries self_of_name nodeLoad? distinct _ _

theorem get?_networkLoad (distinct : document.Distinct) (neighbor : NodeName) :
    (ofDocument document).networkLoad.get? neighbor =
      (document.at? ["resource-report", "networkLoad", neighbor]).bind linkLoad? := by
  rw [ofDocument_eq]
  exact get?_usable_sectionEntries self_of_name linkLoad? distinct _ _

theorem get?_serverLoad_iff (distinct : document.Distinct) (service : ServiceName)
    (load : NodeLoad Float) :
    (ofDocument document).serverLoad.get? service = some load ↔
      Filtered NodeAttribute.name document ["resource-report", "serverLoad", service] load := by
  rw [get?_serverLoad distinct]
  exact filtered_iff nodeAttribute_of_name distinct _ load

/-- Only where nothing is an object does the load for all count. -/
theorem linkLoadOf_iff (distinct : document.Distinct) (neighbor : NodeName)
    (load : LinkLoad Float) :
    (ofDocument document).linkLoadOf neighbor = some load ↔
      Filtered LinkAttribute.name document ["resource-report", "networkLoad", neighbor] load ∨
        ¬ document.IsObjectAt ["resource-report", "networkLoad", neighbor] ∧
          Filtered LinkAttribute.name document ["resource-report", "networkLoad", "*"] load := by
  have filtered (name : NodeName) (load : LinkLoad Float) :
      (ofDocument document).networkLoad.get? name = some load ↔
        Filtered LinkAttribute.name document ["resource-report", "networkLoad", name] load := by
    rw [get?_networkLoad distinct]
    exact filtered_iff linkAttribute_of_name distinct _ load
  rw [linkLoadOf]
  cases own : (ofDocument document).networkLoad.get? neighbor with
  | none =>
    -- an object would have been used, if only for an empty load
    have absent : ¬ document.IsObjectAt ["resource-report", "networkLoad", neighbor] := by
      rintro ⟨fields, found⟩
      rw [get?_networkLoad distinct, found] at own
      cases own
    have unfiltered : ¬ Filtered LinkAttribute.name document
        ["resource-report", "networkLoad", neighbor] load := fun own => absent own.1
    rw [iff_false_intro unfiltered, false_or, and_iff_right absent]
    exact filtered wildcard load
  | some load' =>
    have present := ((filtered neighbor load').1 own).1
    rw [iff_false_intro (not_and.2 fun absent => absurd present absent), or_false, ← filtered, own]

end ResourceSection

/-! ### The report -/

namespace ResourceManager

variable {document other : Json} {v : Vertex}

theorem documented_report (distinct : document.Distinct) (containers : ContainerTable)
    (v : Vertex) (now : Timestamp) (window : EstimationWindow) :
    Documented document v
      ((measured (.ofDocument document) containers).report v now window) where
  serverCapacity := ResourceSection.get?_serverCapacity distinct
  serverLoad service table := by
    simp only [report, SortedMap.get?_mapValues, Option.map_eq_some_iff,
      ResourceSection.get?_serverLoad_iff distinct, @eq_comm _ table]
  serverDemand := rfl
  networkCapacity neighbor := SortedMap.get?_mapValues _ _ neighbor
  networkLoad neighbor load := by
    rw [← ResourceSection.linkLoadOf_iff distinct, Vertex.hasNeighbor, SortedMap.contains_iff]
    simp only [report, SortedMap.get?_filterMap, Option.bind_eq_some_iff, exists_and_right]
  networkDemand := rfl

/-! ### What a report reads -/

/-- Where the report of a vertex looks for a number. -/
inductive ReadsNumber (v : Vertex) : List String → Prop
  | capacity (a : NodeAttribute) :
      ReadsNumber v ["resource-report", "serverCapacity", a.name]
  | nodeLoad (service : ServiceName) (a : NodeAttribute) :
      ReadsNumber v ["resource-report", "serverLoad", service, a.name]
  | processingTime (service : ServiceName) :
      ReadsNumber v ["resource-report", "serverAverageProcessingTime", service]
  | linkLoad {neighbor : NodeName} (linked : v.hasNeighbor neighbor = true ∨ neighbor = "*")
      (a : LinkAttribute) : ReadsNumber v ["resource-report", "networkLoad", neighbor, a.name]

/-- Where it looks for a load. -/
inductive ReadsLoad (v : Vertex) : List String → Prop
  | node (service : ServiceName) : ReadsLoad v ["resource-report", "serverLoad", service]
  | link {neighbor : NodeName} (linked : v.hasNeighbor neighbor = true ∨ neighbor = "*") :
      ReadsLoad v ["resource-report", "networkLoad", neighbor]

/-- The documents say the same wherever the report of the vertex looks. -/
structure Agree (v : Vertex) (document other : Json) : Prop where
  numbers : ∀ path, ReadsNumber v path → other.numberAt? path = document.numberAt? path
  loads : ∀ path, ReadsLoad v path → (other.IsObjectAt path ↔ document.IsObjectAt path)

theorem linkLoadOf_congr (agree : Agree v document other) (distinct : document.Distinct)
    (distinct' : other.Distinct) {neighbor : NodeName} (linked : v.hasNeighbor neighbor = true) :
    (ResourceSection.ofDocument other).linkLoadOf neighbor =
      (ResourceSection.ofDocument document).linkLoadOf neighbor := by
  have same {name : NodeName} (linked : v.hasNeighbor name = true ∨ name = "*")
      (load : LinkLoad Float) :
      Filtered LinkAttribute.name other ["resource-report", "networkLoad", name] load ↔
        Filtered LinkAttribute.name document ["resource-report", "networkLoad", name] load :=
    filtered_congr (agree.loads _ (.link linked)) fun a => agree.numbers _ (.linkLoad linked a)
  apply Option.ext
  intro load
  rw [ResourceSection.linkLoadOf_iff distinct', ResourceSection.linkLoadOf_iff distinct,
    same (.inl linked), same (.inr rfl), agree.loads _ (.link (.inl linked))]

theorem report_congr (agree : Agree v document other) (distinct : document.Distinct)
    (distinct' : other.Distinct) (containers : ContainerTable) (now : Timestamp)
    (window : EstimationWindow) :
    (measured (.ofDocument other) containers).report v now window =
      (measured (.ofDocument document) containers).report v now window := by
  have serverCapacity : (ResourceSection.ofDocument other).serverCapacity =
      (ResourceSection.ofDocument document).serverCapacity := by
    apply SortedMap.ext_get?
    intro a
    rw [ResourceSection.get?_serverCapacity distinct', ResourceSection.get?_serverCapacity distinct]
    exact agree.numbers _ (.capacity a)
  have serverLoad : (ResourceSection.ofDocument other).serverLoad =
      (ResourceSection.ofDocument document).serverLoad := by
    apply SortedMap.ext_get?
    intro service
    apply Option.ext
    intro load
    rw [ResourceSection.get?_serverLoad_iff distinct', ResourceSection.get?_serverLoad_iff distinct]
    exact filtered_congr (agree.loads _ (.node service)) fun a =>
      agree.numbers _ (.nodeLoad service a)
  have processingTime : (ResourceSection.ofDocument other).averageProcessingTime =
      (ResourceSection.ofDocument document).averageProcessingTime := by
    apply SortedMap.ext_get?
    intro service
    rw [ResourceSection.get?_averageProcessingTime distinct',
      ResourceSection.get?_averageProcessingTime distinct]
    exact agree.numbers _ (.processingTime service)
  -- loads of links are looked up for the neighbors alone
  have networkLoad : (v.neighbors.filterMap fun neighbor _ =>
        (ResourceSection.ofDocument other).linkLoadOf neighbor) =
      v.neighbors.filterMap fun neighbor _ =>
        (ResourceSection.ofDocument document).linkLoadOf neighbor := by
    apply SortedMap.ext_get?
    intro neighbor
    rw [SortedMap.get?_filterMap, SortedMap.get?_filterMap]
    cases bandwidth : v.neighbors.get? neighbor with
    | none => rfl
    | some x =>
      have linked : v.hasNeighbor neighbor = true :=
        (SortedMap.contains_iff v.neighbors neighbor).2 ⟨x, bandwidth⟩
      exact linkLoadOf_congr agree distinct distinct' linked
  simp only [report, reportContainer, serverCapacity, serverLoad, processingTime, networkLoad]

/-! ### Entries without use -/

/-- The name is that of no attribute, or the value is no number. -/
def Useless {κ : Type} (label : κ → String) (name : String) (value : Json) : Prop :=
  (∀ a, name ≠ label a) ∨ ∀ n, value ≠ .number n

theorem Useless.numberAt?_nil {κ : Type} {label : κ → String} {name : String} {value : Json}
    (useless : Useless label name value) {a : κ} (named : name = label a) :
    value.numberAt? [] = none :=
  Json.numberAt?_nil (useless.resolve_left fun nameless => nameless a named)

/-- The report of a vertex makes no use of an entry with this name and value in the object to which
the path leads. -/
inductive Unused (v : Vertex) (name : String) (value : Json) : List String → Prop
  | capacity (useless : Useless NodeAttribute.name name value) :
      Unused v name value ["resource-report", "serverCapacity"]
  | nodeLoad (service : ServiceName) (useless : Useless NodeAttribute.name name value) :
      Unused v name value ["resource-report", "serverLoad", service]
  | processingTime (useless : ∀ n, value ≠ .number n) :
      Unused v name value ["resource-report", "serverAverageProcessingTime"]
  | linkLoad (neighbor : NodeName) (useless : Useless LinkAttribute.name name value) :
      Unused v name value ["resource-report", "networkLoad", neighbor]
  /-- A load that is no object is as good as none. -/
  | service (shapeless : ∀ fields, value ≠ .object fields) :
      Unused v name value ["resource-report", "serverLoad"]
  | neighbor (shapeless : ∀ fields, value ≠ .object fields) :
      Unused v name value ["resource-report", "networkLoad"]
  | stranger (unlinked : v.hasNeighbor name = false) (particular : name ≠ "*") :
      Unused v name value ["resource-report", "networkLoad"]

variable {name : String} {value : Json} {path : List String}

theorem Unused.numberAt?_eq_none (unused : Unused v name value path) {rest : List String}
    (reads : ReadsNumber v (path ++ name :: rest)) : value.numberAt? rest = none := by
  -- the keys of the section tell the kinds of entries apart, and one kind of read is left for each
  generalize whole : path ++ name :: rest = path' at reads
  cases unused with
  | capacity useless =>
    cases reads with
    | capacity a =>
      obtain ⟨named, rfl⟩ : name = a.name ∧ rest = [] := by simpa using whole
      exact useless.numberAt?_nil named
    | _ => simp at whole
  | nodeLoad service useless =>
    cases reads with
    | nodeLoad _ a =>
      obtain ⟨-, named, rfl⟩ : service = _ ∧ name = a.name ∧ rest = [] := by simpa using whole
      exact useless.numberAt?_nil named
    | _ => simp at whole
  | processingTime useless =>
    cases reads with
    | processingTime _ =>
      obtain ⟨-, rfl⟩ : name = _ ∧ rest = [] := by simpa using whole
      exact Json.numberAt?_nil useless
    | _ => simp at whole
  | linkLoad neighbor useless =>
    cases reads with
    | linkLoad _ a =>
      obtain ⟨-, named, rfl⟩ : neighbor = _ ∧ name = a.name ∧ rest = [] := by simpa using whole
      exact useless.numberAt?_nil named
    | _ => simp at whole
  | service shapeless =>
    cases reads with
    | nodeLoad _ a =>
      obtain ⟨-, rfl⟩ : name = _ ∧ rest = [a.name] := by simpa using whole
      exact Json.numberAt?_cons shapeless
    | _ => simp at whole
  | neighbor shapeless =>
    cases reads with
    | linkLoad _ a =>
      obtain ⟨-, rfl⟩ : name = _ ∧ rest = [a.name] := by simpa using whole
      exact Json.numberAt?_cons shapeless
    | _ => simp at whole
  | stranger unlinked particular =>
    cases reads with
    | linkLoad linked a =>
      obtain ⟨rfl, -⟩ : name = _ ∧ rest = [a.name] := by simpa using whole
      simp [unlinked, particular] at linked
    | _ => simp at whole

theorem Unused.not_isObjectAt (unused : Unused v name value path) {rest : List String}
    (reads : ReadsLoad v (path ++ name :: rest)) : ¬ value.IsObjectAt rest := by
  generalize whole : path ++ name :: rest = path' at reads
  cases unused with
  | service shapeless =>
    cases reads with
    | node _ =>
      obtain ⟨-, rfl⟩ : name = _ ∧ rest = [] := by simpa using whole
      exact fun ⟨fields, shape⟩ => shapeless fields (Option.some.inj shape)
    | _ => simp at whole
  | neighbor shapeless =>
    cases reads with
    | link _ =>
      obtain ⟨-, rfl⟩ : name = _ ∧ rest = [] := by simpa using whole
      exact fun ⟨fields, shape⟩ => shapeless fields (Option.some.inj shape)
    | _ => simp at whole
  | stranger unlinked particular =>
    cases reads with
    | link linked =>
      obtain ⟨rfl, -⟩ : name = _ ∧ rest = [] := by simpa using whole
      simp [unlinked, particular] at linked
    | _ => simp at whole
  | _ => cases reads <;> simp at whole

theorem agree_of_adds (unused : Unused v name value path)
    (adds : Json.Adds name value path document other) (distinct : document.Distinct) :
    Agree v document other where
  numbers path' reads := by
    by_cases through : path ++ [name] <+: path'
    · -- there was no number before, and the entry has none to give
      obtain ⟨rest, rfl⟩ := through
      rw [List.append_assoc] at reads ⊢
      obtain ⟨before, after⟩ := adds.at?_new distinct rest
      change (other.at? (path ++ name :: rest)).bind _ =
        (document.at? (path ++ name :: rest)).bind _
      rw [before, after]
      exact unused.numberAt?_eq_none reads
    · -- an object around the entry is no number with it or without it
      rcases adds.at?_of_apart distinct path' through with same | ⟨_, _, before, after⟩
      · rw [Json.numberAt?, same, Json.numberAt?]
      · rw [Json.numberAt?, after, Json.numberAt?, before]
        rfl
  loads path' reads := by
    by_cases through : path ++ [name] <+: path'
    · obtain ⟨rest, rfl⟩ := through
      rw [List.append_assoc] at reads ⊢
      obtain ⟨before, after⟩ := adds.at?_new distinct rest
      constructor
      · rintro ⟨fields, found⟩
        exact absurd ⟨fields, after.symm.trans found⟩ (unused.not_isObjectAt reads)
      · rintro ⟨fields, found⟩
        cases before.symm.trans found
    · rcases adds.at?_of_apart distinct path' through with same | ⟨_, _, before, after⟩
      · rw [Json.IsObjectAt, same, Json.IsObjectAt]
      · exact iff_of_true ⟨_, after⟩ ⟨_, before⟩

/-- The report of a vertex is what the document says of what can be used. An entry without use makes
no difference, be it added to a document or taken away from one. -/
theorem report_says_document (document : Json) (distinct : document.Distinct)
    (containers : ContainerTable) (v : Vertex) (now : Timestamp) (window : EstimationWindow) :
    Documented document v
        ((measured (.ofDocument document) containers).report v now window) ∧
      ∀ (name : String) (value : Json) (path : List String) (other : Json), other.Distinct →
        Unused v name value path → Json.Adds name value path document other →
          (measured (.ofDocument other) containers).report v now window =
            (measured (.ofDocument document) containers).report v now window := by
  refine ⟨documented_report distinct containers v now window, ?_⟩
  intro name value path other distinct' unused adds
  exact report_congr (agree_of_adds unused adds distinct) distinct distinct' containers now window

/-- A document with nothing but loads of links. -/
def ofLinkLoads (loads : List (String × Json)) : Json :=
  .object [("resource-report", .object [("networkLoad", .object loads)])]

def between : Vertex :=
  ((Vertex.new "between").addNeighbor "near" 1.0).addNeighbor "side" 2.0

/-- Beside a load for one neighbor and one for all, that of another node makes no difference. -/
theorem report_says_document_of_three_loads :
    let two := ofLinkLoads [("*", .object [("DATARATE", .ofNat 1)]), ("near", .object [])]
    let three := ofLinkLoads
      [("*", .object [("DATARATE", .ofNat 1)]), ("far", .object []), ("near", .object [])]
    Documented two between ((measured (.ofDocument two) .empty).report between 0 .short) ∧
      (measured (.ofDocument three) .empty).report between 0 .short =
        (measured (.ofDocument two) .empty).report between 0 .short := by
  intro two three
  -- both documents are tables as they stand
  have distinct : two.Distinct := Json.distinct_canonical two
  have distinct' : three.Distinct := Json.distinct_canonical three
  obtain ⟨documented, same⟩ := report_says_document two distinct .empty between 0 .short
  refine ⟨documented, ?_⟩
  have adds := @Json.Adds.here "far" (.object []) [("*", .object [("DATARATE", .ofNat 1)])]
    [("near", .object [])] (by decide)
  exact same "far" (.object []) ["resource-report", "networkLoad"] three distinct'
    (.stranger rfl (by decide)) (@Json.Adds.under _ _ _ _ [] [] _ _
      (@Json.Adds.under _ _ _ _ [] [] _ _ adds))

/-- An empty load of its own keeps a neighbor from the load for all. -/
example :
    ((measured (.ofDocument (ofLinkLoads [("*", .object [("DATARATE", .ofNat 1)]),
      ("near", .object [])])) .empty).report between 0 .short).networkLoad.get? "near" = some ∅ :=
  rfl

end ResourceManager

end RegionNet

import RegionNet.Configuration.Document
import RegionNet.Proofs.Configuration.Duration
import RegionNet.Proofs.Report.Document

/-!
# Configurations are read as they are written

Reading gives a draft one field after another. As long as no field comes twice and every value
writes what a configuration has there, the draft is filled with the fields of that configuration.
-/

namespace RegionNet.Configuration

variable {β : Type}

theorem Field.ofName?_name (f : Field) : Field.ofName? f.name = some f := by
  cases f <;> rfl

/-- A value writes what a configuration has in a field. -/
def Writes (r : ValueReader β) (c : Configuration) (value : β) : Field → Prop
  | .topology => r.text value = some c.topology
  | .nodeDataDir => r.optionalText value = some c.nodeDataDir
  | .cycleInterval => ∃ s, r.text value = some s ∧ Duration.ofText s = .ok c.cycleInterval
  | .maxExecutions => r.count value = some c.maxExecutions
  | .window => r.window value = some c.window
  | .logLevel => r.optionalText value = some c.logLevel

namespace Draft

variable {r : ValueReader β} {c : Configuration} {d : Draft}

def Lacks (d : Draft) : Field → Prop
  | .topology => d.topology = none
  | .nodeDataDir => d.nodeDataDir = none
  | .cycleInterval => d.cycleInterval = none
  | .maxExecutions => d.maxExecutions = none
  | .window => d.window = none
  | .logLevel => d.logLevel = none

/-- The draft with one field of a configuration. -/
def fill (d : Draft) (c : Configuration) : Field → Draft
  | .topology => { d with topology := some c.topology }
  | .nodeDataDir => { d with nodeDataDir := some c.nodeDataDir }
  | .cycleInterval => { d with cycleInterval := some c.cycleInterval }
  | .maxExecutions => { d with maxExecutions := some c.maxExecutions }
  | .window => { d with window := some c.window }
  | .logLevel => { d with logLevel := some c.logLevel }

theorem lacks_fill {f g : Field} (lacks : d.Lacks g) (other : f ≠ g) : (d.fill c f).Lacks g := by
  cases f <;> cases g <;> first | exact lacks | exact absurd rfl other

theorem set_of_writes {f : Field} {value : β} (lacks : d.Lacks f) (writes : Writes r c value f) :
    d.set r f value = .ok (d.fill c f) := by
  have once_none {α : Type} {old : Option α} (missing : old = none) (a : α) :
      once old (.ok a) = .ok (some a) := by
    rw [missing]
    rfl
  cases f with
  | topology =>
    rw [set, show r.text value = _ from writes, ReadFault.orMalformed, once_none lacks]
    rfl
  | nodeDataDir =>
    rw [set, show r.optionalText value = _ from writes, ReadFault.orMalformed, once_none lacks]
    rfl
  | cycleInterval =>
    obtain ⟨s, text, interval⟩ := writes
    simp only [set, text, ReadFault.orMalformed, Except.bind, interval, once_none lacks]
    rfl
  | maxExecutions =>
    rw [set, show r.count value = _ from writes, ReadFault.orMalformed, once_none lacks]
    rfl
  | window =>
    rw [set, show r.window value = _ from writes, ReadFault.orMalformed, once_none lacks]
    rfl
  | logLevel =>
    rw [set, show r.optionalText value = _ from writes, ReadFault.orMalformed, once_none lacks]
    rfl

/-- Fields that come once each fill a draft one after another. -/
theorem foldlM_set_of_writes {fields : List (Field × β)} (distinct : (fields.map Prod.fst).Nodup)
    (lacks : ∀ f ∈ fields, d.Lacks f.1) (writes : ∀ f ∈ fields, Writes r c f.2 f.1) :
    fields.foldlM (fun d f => d.setNamed r f.1.name f.2) d =
      .ok (fields.foldl (fun d f => d.fill c f.1) d) := by
  induction fields generalizing d with
  | nil => rfl
  | cons f fields ih =>
    obtain ⟨first, distinct⟩ := List.nodup_cons.1 distinct
    have rest : ∀ g ∈ fields, (d.fill c f.1).Lacks g.1 := fun g member =>
      lacks_fill (lacks g (List.mem_cons_of_mem _ member)) fun same =>
        first (List.mem_map.2 ⟨g, member, same.symm⟩)
    rw [List.foldlM_cons, List.foldl_cons, setNamed, Field.ofName?_name]
    simp only
    rw [set_of_writes (lacks f List.mem_cons_self) (writes f List.mem_cons_self)]
    exact ih distinct rest fun g member => writes g (List.mem_cons_of_mem _ member)

end Draft

open Json

/-- The fields that are written for a configuration. -/
def written (c : Configuration) : List (Field × Json) :=
  [(.topology, string c.topology)] ++
    (c.nodeDataDir.map fun dir => (.nodeDataDir, string dir)).toList ++
    [(.cycleInterval, c.cycleInterval.toJson), (.maxExecutions, ofNat c.maxExecutions.toNat),
      (.window, c.window.toJson)] ++
    (c.logLevel.map fun level => (.logLevel, string level)).toList

theorem toJson_eq (c : Configuration) :
    c.toJson = object (c.written.map fun f => (f.1.name, f.2)) := by
  obtain ⟨_, dir, _, _, _, level⟩ := c
  cases dir <;> cases level <;> rfl

theorem forall_written {c : Configuration} {P : Field × Json → Prop}
    (topology : P (.topology, string c.topology))
    (nodeDataDir : ∀ dir, c.nodeDataDir = some dir → P (.nodeDataDir, string dir))
    (cycleInterval : P (.cycleInterval, c.cycleInterval.toJson))
    (maxExecutions : P (.maxExecutions, ofNat c.maxExecutions.toNat))
    (window : P (.window, c.window.toJson))
    (logLevel : ∀ level, c.logLevel = some level → P (.logLevel, string level)) :
    ∀ f ∈ c.written, P f := by
  simp only [written, List.forall_mem_append, List.forall_mem_cons]
  refine ⟨⟨⟨⟨topology, nofun⟩, fun f member => ?_⟩, cycleInterval, maxExecutions, window, nofun⟩,
    fun f member => ?_⟩
  · obtain ⟨dir, given, rfl⟩ := Option.map_eq_some_iff.1 (Option.mem_toList.1 member)
    exact nodeDataDir dir given
  · obtain ⟨level, given, rfl⟩ := Option.map_eq_some_iff.1 (Option.mem_toList.1 member)
    exact logLevel level given

theorem writes_written (c : Configuration) : ∀ f ∈ c.written, Writes jsonValues c f.2 f.1 := by
  apply forall_written
  case topology => rfl
  case nodeDataDir => exact fun dir given => congrArg some given.symm
  case cycleInterval => exact ⟨c.cycleInterval.text, rfl, Duration.ofText_text _⟩
  case maxExecutions =>
    simp only [Writes, jsonValues]
    exact (faithful_uint64 0 c.maxExecutions).reads
  case window => exact (faithful_window 0 c.window).reads
  case logLevel => exact fun level given => congrArg some given.symm

theorem writable_toJson (c : Configuration) (depth : ℕ) : Writable (depth + 1) c.toJson := by
  have each : ∀ f ∈ c.written, Writable depth f.2 :=
    forall_written (.string _) (fun dir _ => .string dir) (.string _)
      (faithful_uint64 depth c.maxExecutions).writable (faithful_window depth c.window).writable
      (fun level _ => .string level)
  rw [toJson_eq]
  refine .object fun f member => ?_
  obtain ⟨g, inside, rfl⟩ := List.mem_map.1 member
  exact each g inside

/-- Reading puts a configuration together from its JSON form. -/
theorem ofJson_toJson (c : Configuration) : ofJson c.toJson = .ok c := by
  -- which fields are written depends on the two that may be left out
  have distinct : (c.written.map Prod.fst).Nodup := by
    obtain ⟨_, dir, _, _, _, level⟩ := c
    cases dir <;> cases level <;> simp [written]
  have finished : (c.written.foldl (fun d f => d.fill c f.1) Draft.empty).finish = .ok c := by
    obtain ⟨_, dir, _, _, _, level⟩ := c
    cases dir <;> cases level <;> rfl
  rw [toJson_eq, ofJson, List.foldlM_map,
    Draft.foldlM_set_of_writes distinct (fun f _ => by cases f.1 <;> rfl) c.writes_written]
  exact finished

/-- A configuration is read back from its text. -/
theorem ofJsonText_compactText (c : Configuration) : ofJsonText c.toJson.compactText = .ok c := by
  simp only [ofJsonText, ofText_compactText (c.writable_toJson 0), ofJson_toJson, bind, Except.bind,
    if_true, pure, Except.pure]

end RegionNet.Configuration

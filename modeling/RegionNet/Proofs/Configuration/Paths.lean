import RegionNet.Configuration.Load
import RegionNet.Proofs.FilePath

/-!
# Resolved paths keep their meaning

A configuration is checked before its paths are resolved, and where the nodes' documents are may
only be read off afterwards. Neither matters: a path that is joined to another one is no blank text,
and the directory of a topology is found before the join as well as after it.
-/

namespace RegionNet

open FilePath

namespace Configuration

variable {c : Configuration} {base : String}

/-! ### Validity -/

theorem check_eq_ok_iff {ε : Type} {p : Prop} [Decidable p] {e : ε} {rest : Except ε Unit} :
    (if p then .error e else rest) = .ok () ↔ ¬p ∧ rest = .ok () := by
  split <;> simp [*]

theorem validate_eq_ok_iff (c : Configuration) :
    c.validate = .ok () ↔ isBlankText c.topology = false ∧
      c.nodeDataDir.any isBlankText = false ∧ c.maxExecutions ≠ 0 ∧
      c.cycleInterval.isZero = false ∧ c.logLevel.all isLogLevel = true := by
  simp only [validate, check_eq_ok_iff, Bool.not_eq_true]
  cases c.logLevel with
  | none => simp
  | some level => cases known : isLogLevel level <;> simp [Option.filter, known]

theorem isBlankText_join (base : String) {path : String} (solid : isBlankText path = false) :
    isBlankText (join base path) = false := by
  rw [join]
  split
  · exact solid
  · split <;> simp_all [isBlankText]

theorem validate_resolvePaths (valid : c.validate = .ok ()) :
    (c.resolvePaths base).validate = .ok () := by
  rw [validate_eq_ok_iff] at valid ⊢
  obtain ⟨topology, nodeDataDir, others⟩ := valid
  refine ⟨isBlankText_join base topology, ?_, others⟩
  change (c.nodeDataDir.map (join base)).any isBlankText = false
  cases given : c.nodeDataDir with
  | none => rfl
  | some dir =>
    rw [given] at nodeDataDir
    exact isBlankText_join base nodeDataDir

/-- What is read from a file is checked first, but still in order when its paths are resolved. -/
theorem validate_of_ofFile {path : String} {content : FileContent}
    (loaded : ofFile path content = .ok c) : c.validate = .ok () := by
  simp only [ofFile] at loaded
  split at loaded
  · cases loaded
  · split at loaded
    · cases loaded
    · cases loaded
    next read =>
      split at loaded
      · cases loaded
      next valid =>
        cases loaded
        split
        · exact validate_resolvePaths valid
        · exact valid

/-- A computation answers nothing but what satisfies `p`. -/
def Answers {m : Type → Type} [Monad m] {α : Type} (p : α → Prop) (x : m α) : Prop :=
  ∃ checked : m {a : α // p a}, x = checked >>= fun a => pure a.1

/-- A program that loads a configuration gets a valid one or none, however its files are read. -/
theorem answers_load {m : Type → Type} [Monad m] [LawfulMonad m] (files : Files m) (path : String) :
    Answers (fun loaded => ∀ c, loaded = .ok c → c.validate = .ok ()) (load files path) := by
  refine ⟨files.read path >>= fun content =>
    pure ⟨ofFile path content, fun c loaded => validate_of_ofFile loaded⟩, ?_⟩
  simp [load]

/-! ### Meaning -/

/-- The topology and the nodes' documents of a configuration are found at `base` as they were. -/
structure Kept (c : Configuration) (base : String) : Prop where
  valid : c.validate = .ok () → (c.resolvePaths base).validate = .ok ()
  others : (c.resolvePaths base).cycleInterval = c.cycleInterval ∧
    (c.resolvePaths base).maxExecutions = c.maxExecutions ∧
    (c.resolvePaths base).window = c.window ∧ (c.resolvePaths base).logLevel = c.logLevel
  topology : (c.resolvePaths base).topology = join base c.topology
  /-- The documents are where they would be if their directory had been joined as such. -/
  nodeData : components (c.resolvePaths base).nodeDataPath = components (join base c.nodeDataPath)
  absolute : isAbsolute base = true →
    isAbsolute (c.resolvePaths base).topology = true ∧
      isAbsolute (c.resolvePaths base).nodeDataPath = true ∧
      ∀ base', (c.resolvePaths base).resolvePaths base' = c.resolvePaths base

theorem nodeDataPath_resolvePaths (base : String) (named : (fileName? c.topology).isSome = true) :
    components (c.resolvePaths base).nodeDataPath = components (join base c.nodeDataPath) ∧
      (isAbsolute base = true → isAbsolute (c.resolvePaths base).nodeDataPath = true) := by
  simp only [nodeDataPath, resolvePaths]
  cases c.nodeDataDir with
  | some dir => exact ⟨rfl, isAbsolute_join base dir⟩
  | none =>
    obtain ⟨text, ends⟩ := Option.isSome_iff_exists.1 named
    obtain ⟨before, after, found, found', same, start⟩ := exists_parent_join base ends
    simp only [Option.map_none, found, found', Option.getD_some]
    refine ⟨same, fun absolute => ?_⟩
    rw [start]
    exact isAbsolute_join base c.topology absolute

theorem join_join (base base' path : String) (absolute : isAbsolute base = true) :
    join base' (join base path) = join base path :=
  join_of_stays (.inl (isAbsolute_join base path absolute))

theorem resolvePaths_resolvePaths (base' : String) (absolute : isAbsolute base = true) :
    (c.resolvePaths base).resolvePaths base' = c.resolvePaths base := by
  simp only [resolvePaths, Option.map_map, join_join base base' _ absolute, Function.comp_def]

/-- Resolving the paths of a configuration changes where they start from and nothing else, and what
a program loads is valid afterwards. -/
theorem resolvePaths_keeps :
    (∀ (c : Configuration) (base : String), (fileName? c.topology).isSome = true → c.Kept base) ∧
      ∀ (m : Type → Type) [Monad m] [LawfulMonad m] (files : Files m) (path : String),
        Answers (fun loaded => ∀ c, loaded = .ok c → c.validate = .ok ()) (load files path) := by
  refine ⟨fun c base named => ?_, fun m _ _ => answers_load⟩
  obtain ⟨nodeData, start⟩ := nodeDataPath_resolvePaths base named
  exact {
    valid := validate_resolvePaths
    others := ⟨rfl, rfl, rfl, rfl⟩
    topology := rfl
    nodeData := nodeData
    absolute := fun absolute => ⟨isAbsolute_join base c.topology absolute, start absolute,
      fun base' => resolvePaths_resolvePaths base' absolute⟩ }

/-- The directory of a topology that is written with a dot, an empty part and a separator at its
end. -/
theorem resolvePaths_keeps_of_dotted_topology :
    let c : Configuration := ⟨"./net//t.ns/", none, defaultInterval, 3, .short, none⟩
    c.validate = .ok () ∧ c.nodeDataPath = "./net" ∧
      (c.resolvePaths "/sims/").nodeDataPath = "/sims/./net" ∧ c.Kept "/sims/" :=
  ⟨by decide +kernel, by decide +kernel, by decide +kernel,
    resolvePaths_keeps.1 _ "/sims/" (by decide +kernel)⟩

end Configuration

end RegionNet

/-!
What is measured: attributes of servers and of links, and the window over which demand is estimated.
-/

namespace RegionNet

/-- No attribute of the wanted kind is written `name`. -/
structure UnknownAttribute where
  name : String
deriving DecidableEq, Repr

def UnknownAttribute.message (e : UnknownAttribute) : String :=
  s!"'{e.name}' is not a known attribute"

/-- What a server offers. -/
inductive NodeAttribute
  | cpu
  | memory
  | disk
  | taskContainers
deriving DecidableEq, Repr, Ord, Inhabited

/-- What a link offers. -/
inductive LinkAttribute
  | dataRate
deriving DecidableEq, Repr, Ord, Inhabited

instance : Std.TransOrd NodeAttribute where
  eq_swap {a b} := by cases a <;> cases b <;> rfl
  isLE_trans {a b c} := by cases a <;> cases b <;> cases c <;> decide

instance : Std.LawfulEqOrd NodeAttribute where
  compare_self {a} := by cases a <;> rfl
  eq_of_compare {a b} := by cases a <;> cases b <;> decide

instance : Std.TransOrd LinkAttribute where
  eq_swap {a b} := by cases a; cases b; rfl
  isLE_trans {a b c} := by cases a; cases b; cases c; decide

instance : Std.LawfulEqOrd LinkAttribute where
  compare_self {a} := by cases a; rfl
  eq_of_compare {a b} := by cases a; cases b; decide

namespace NodeAttribute

def name : NodeAttribute → String
  | cpu => "CPU"
  | memory => "MEMORY"
  | disk => "DISK"
  | taskContainers => "TASK_CONTAINERS"

def all : List NodeAttribute := [cpu, memory, disk, taskContainers]

def ofName? (s : String) : Option NodeAttribute :=
  all.find? fun a => a.name == s

def ofName (s : String) : Except UnknownAttribute NodeAttribute :=
  match ofName? s with
  | some a => .ok a
  | none => .error ⟨s⟩

end NodeAttribute

namespace LinkAttribute

def name : LinkAttribute → String
  | dataRate => "DATARATE"

def all : List LinkAttribute := [dataRate]

def ofName? (s : String) : Option LinkAttribute :=
  all.find? fun a => a.name == s

def ofName (s : String) : Except UnknownAttribute LinkAttribute :=
  match ofName? s with
  | some a => .ok a
  | none => .error ⟨s⟩

end LinkAttribute

/-- How far back demand was looked at when it was estimated. -/
inductive EstimationWindow
  | short
  | long
deriving DecidableEq, Repr, Inhabited

namespace EstimationWindow

def name : EstimationWindow → String
  | short => "SHORT"
  | long => "LONG"

def all : List EstimationWindow := [short, long]

def ofName? (s : String) : Option EstimationWindow :=
  all.find? fun w => w.name == s

end EstimationWindow

end RegionNet

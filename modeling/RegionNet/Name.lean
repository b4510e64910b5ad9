/-!
Names of the things a simulation talks about. Names are compared and listed by code point.
-/

namespace RegionNet

abbrev NodeName := String

abbrev RegionName := String

abbrev ServiceName := String

abbrev ContainerName := String

/-- The region of a vertex to which no region was assigned. -/
def RegionName.unassigned : RegionName := "__null-region__"

def RegionName.isUnassigned (r : RegionName) : Bool :=
  r == RegionName.unassigned

end RegionNet

import BlockLayers.Event.Filter
import BlockLayers.Host.Directory
import BlockLayers.Store

/-!
# `BlockLayers.Host.Machine`: the world outside the stores

What a stack of stores can reach outside of itself is a directory of
files and a log. The log keeps the events that its filter keeps, in the
order in which they were reported. A level that the filter lets through
for some origin counts as kept: what an event of that level says is put
together before its origin is looked at.
-/

set_option autoImplicit false

namespace BlockLayers.Host

/-- The world outside the stores. -/
structure Machine where
  /-- The files. -/
  directory : Directory
  /-- Which events the log keeps. -/
  filter : Event.Filter
  /-- The events kept so far. -/
  log : Array Event

namespace Machine

/-- A machine with some files and an empty log. -/
def start (directory : Directory) (filter : Event.Filter) : Machine :=
  ⟨directory, filter, #[]⟩

/-- The machine after a change to its files. -/
def onDirectory (f : Directory → Directory) (m : Machine) : Machine :=
  { m with directory := f m.directory }

/-- The machine with an empty log. -/
def clearLog (m : Machine) : Machine := { m with log := #[] }

instance : Journal Machine where
  keeps := fun m level => m.filter.reaches level
  enter := fun event m =>
    if m.filter.keeps event then { m with log := m.log.push event } else m

end Machine

end BlockLayers.Host

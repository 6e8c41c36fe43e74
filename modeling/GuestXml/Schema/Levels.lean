import GuestXml.Schema.Content

/-!
# Levels of a value

How many levels of elements a value takes at most when it is written. All types but backing
chains nest to a fixed depth, which is the rank of the type; each image of a backing chain
adds a level.
-/

namespace GuestXml.Schema

/-- The levels a value of a group takes, apart from those of backing chains. -/
def Group.rank : Group → Nat
  | .domainSnapshot => 7
  | .domain => 6
  | .cpu | .devices => 5
  | .numa | .disk | .snapshotDisks => 4
  | .features | .numaCell | .interface | .snapshotDisk => 3
  | .os | .hyperv | .distances | .cache | .cpuTune | .clock | .powerManagement => 2
  | .networkSource | .backingLayer | .backingLink | .controller | .virtualPort => 2
  | .charDevice | .input | .graphics | .video | .memBalloon | .filterReference => 2
  | _ => 1

/-- The levels a value of a choice takes, apart from those of backing chains. -/
def Choice.rank : Choice → Nat
  | .filterEntry => 3
  | .diskSource | .backingStore | .ruleMatch => 2
  | .deviceAddress | .interfaceSource => 1

/-- The levels a value of a series takes. -/
def Series.rank : Series → Nat
  | .filter => 3
  | .rule => 2

/-- The levels a value of a type takes, apart from those of backing chains. -/
def Content.rank : Content → Nat
  | .group g => g.rank
  | .choice c => c.rank
  | .series s => s.rank

/-! ### Backing chains -/

/-- The length of the longest backing chain among devices. -/
def chainOfDevices (d : Devices) : Nat :=
  d.disks.foldr (fun disk n => max disk.backingDepth n) 0

/-- The length of the longest backing chain in a domain. -/
def chainOfDomain (d : Domain) : Nat :=
  (d.devices.map chainOfDevices).getD 0

/-- The length of the longest backing chain in a value. -/
def Content.chain : (t : Content) → t.Carrier → Nat
  | .group .disk, d => d.backingDepth
  | .group .devices, d => chainOfDevices d
  | .group .domain, d => chainOfDomain d
  | .group .domainSnapshot, s => (s.domain.map chainOfDomain).getD 0
  | .group .backingLayer, l => l.depth
  | .group .backingLink, l => l.depth
  | .choice .backingStore, b => b.depth
  | _, _ => 0

/-- The levels a value takes at most. -/
def Content.levels (t : Content) (v : t.Carrier) : Nat :=
  t.rank + t.chain v

end GuestXml.Schema

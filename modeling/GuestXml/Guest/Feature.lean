import GuestXml.Guest.Quantity

/-!
# Features

What the hypervisor offers to a guest.
-/

namespace GuestXml

/-- A feature that is on or off. -/
structure FeatureState where
  state : OnOff := default
  deriving DecidableEq, Inhabited

/-- How a guest spins on a lock. -/
structure Spinlocks where
  state : OnOff := default
  retries : Option UnsignedInt := none
  deriving DecidableEq, Inhabited

/-- What makes a hypervisor known to its guest. -/
structure Hyperv where
  relaxed : Option FeatureState := none
  vapic : Option FeatureState := none
  spinlocks : Option Spinlocks := none
  vpindex : Option FeatureState := none
  runtime : Option FeatureState := none
  synic : Option FeatureState := none
  stimer : Option FeatureState := none
  reset : Option FeatureState := none
  frequencies : Option FeatureState := none
  reftime : Option FeatureState := none
  tlbflush : Option FeatureState := none
  ipi : Option FeatureState := none
  deriving DecidableEq, Inhabited

/-- What the hypervisor offers beyond the bare machine. -/
structure Features where
  acpi : Bool := false
  apic : Bool := false
  pae : Bool := false
  hyperv : Option Hyperv := none
  vmport : Option FeatureState := none
  smm : Option FeatureState := none
  deriving DecidableEq, Inhabited

/-- A feature that is on. -/
def FeatureState.enabled : FeatureState :=
  { state := .on }

end GuestXml

import GuestXml.Guest.Address
import GuestXml.Guest.Filter

/-!
# Network interfaces

Network interfaces and what they are connected to.
-/

namespace GuestXml

/-- How a network interface is connected. -/
inductive InterfaceType where
  | bridge
  | network
  | direct
  | user
  | ethernet
  | vhostuser
  deriving DecidableEq, Inhabited

instance : Enumeration InterfaceType where
  name := "EInterfaceType"
  first := .bridge
  others := [.network, .direct, .user, .ethernet, .vhostuser]
  spelling
    | .bridge => "bridge"
    | .network => "network"
    | .direct => "direct"
    | .user => "user"
    | .ethernet => "ethernet"
    | .vhostuser => "vhostuser"
  complete := by intro a; cases a <;> decide
  nodup_spellings := by decide

/-- How an interface sits on a device of the host. -/
inductive DirectMode where
  | vepa
  | bridge
  | isolated
  | passthrough
  deriving DecidableEq, Inhabited

instance : Enumeration DirectMode where
  name := "EDirectMode"
  first := .vepa
  others := [.bridge, .isolated, .passthrough]
  spelling
    | .vepa => "vepa"
    | .bridge => "bridge"
    | .isolated => "private"
    | .passthrough => "passthrough"
  complete := by intro a; cases a <;> decide
  nodup_spellings := by decide

/-- The kind of a port of a virtual switch. -/
inductive VirtualPortType where
  | openvswitch
  | midonet
  | vepa8021Qbg
  | vepa8021Qbh
  deriving DecidableEq, Inhabited

instance : Enumeration VirtualPortType where
  name := "EVirtualPortType"
  first := .openvswitch
  others := [.midonet, .vepa8021Qbg, .vepa8021Qbh]
  spelling
    | .openvswitch => "openvswitch"
    | .midonet => "midonet"
    | .vepa8021Qbg => "802.1Qbg"
    | .vepa8021Qbh => "802.1Qbh"
  complete := by intro a; cases a <;> decide
  nodup_spellings := by decide

/-- The hardware address of an interface. -/
structure MacAddress where
  address : UnicastMac := default
  deriving DecidableEq, Inhabited

/-- A bridge of the host. -/
structure BridgeSource where
  bridge : String := ""
  deriving DecidableEq, Inhabited

/-- A virtual network. -/
structure NetworkRef where
  network : String := ""
  portgroup : Option String := none
  deriving DecidableEq, Inhabited

/-- A device of the host that is used directly. -/
structure DirectSource where
  dev : String := ""
  mode : Option DirectMode := none
  deriving DecidableEq, Inhabited

/-- What an interface is connected to. -/
inductive InterfaceSource where
  | bridge (content : BridgeSource)
  | network (content : NetworkRef)
  | direct (content : DirectSource)
  deriving DecidableEq, Inhabited

/-- What names a port of a virtual switch. -/
structure VirtualPortParameters where
  interfaceid : Option String := none
  profileid : Option String := none
  deriving DecidableEq, Inhabited

/-- A port of a virtual switch. -/
structure VirtualPort where
  kind : VirtualPortType := default
  parameters : Option VirtualPortParameters := none
  deriving DecidableEq, Inhabited

/-- The device of the host behind an interface. -/
structure InterfaceTarget where
  dev : String := ""
  deriving DecidableEq, Inhabited

/-- The card that the guest sees. -/
structure InterfaceModel where
  kind : String := ""
  deriving DecidableEq, Inhabited

/-- A network interface. -/
structure Interface where
  kind : InterfaceType := default
  mac : Option MacAddress := none
  source : Option InterfaceSource := none
  virtualport : Option VirtualPort := none
  target : Option InterfaceTarget := none
  model : Option InterfaceModel := none
  filterref : Option FilterReference := none
  address : Option DeviceAddress := none
  deriving DecidableEq, Inhabited

end GuestXml

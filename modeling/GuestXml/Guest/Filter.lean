import GuestXml.Value.Ranged
import GuestXml.Value.Restricted

/-!
# Network filters

Filters of network traffic. A filter is a list of rules and of references to other filters;
a rule matches packets by protocol.
-/

namespace GuestXml

/-- A chain that every host has. -/
inductive ProtocolChain where
  | root
  | mac
  | stp
  | vlan
  | arp
  | rarp
  | ipv4
  | ipv6
  deriving DecidableEq, Inhabited

instance : Enumeration ProtocolChain where
  name := "EChain"
  first := .root
  others := [.mac, .stp, .vlan, .arp, .rarp, .ipv4, .ipv6]
  spelling
    | .root => "root"
    | .mac => "mac"
    | .stp => "stp"
    | .vlan => "vlan"
    | .arp => "arp"
    | .rarp => "rarp"
    | .ipv4 => "ipv4"
    | .ipv6 => "ipv6"
  complete := by intro a; cases a <;> decide
  nodup_spellings := by decide

/-- What becomes of a packet. -/
inductive RuleAction where
  | drop
  | reject
  | accept
  | leave
  | goOn
  deriving DecidableEq, Inhabited

instance : Enumeration RuleAction where
  name := "ERuleAction"
  first := .drop
  others := [.reject, .accept, .leave, .goOn]
  spelling
    | .drop => "drop"
    | .reject => "reject"
    | .accept => "accept"
    | .leave => "return"
    | .goOn => "continue"
  complete := by intro a; cases a <;> decide
  nodup_spellings := by decide

/-- Which way packets go. -/
inductive RuleDirection where
  | inbound
  | outbound
  | both
  deriving DecidableEq, Inhabited

instance : Enumeration RuleDirection where
  name := "ERuleDirection"
  first := .inbound
  others := [.outbound, .both]
  spelling
    | .inbound => "in"
    | .outbound => "out"
    | .both => "inout"
  complete := by intro a; cases a <;> decide
  nodup_spellings := by decide

/-- Whether connections are tracked. -/
inductive StateMatch where
  | no
  | zero
  | yes
  | one
  deriving DecidableEq, Inhabited

instance : Enumeration StateMatch where
  name := "EStateMatch"
  first := .no
  others := [.zero, .yes, .one]
  spelling
    | .no => "false"
    | .zero => "0"
    | .yes => "true"
    | .one => "1"
  complete := by intro a; cases a <;> decide
  nodup_spellings := by decide

/-- A chain: one that every host has, or one of one's own. -/
inductive FilterChain where
  | known (chain : ProtocolChain)
  | custom (name : Restricted .customChain)
  deriving DecidableEq, Inhabited

/-- A value for a parameter of a filter. -/
structure FilterParameter where
  name : String := ""
  value : String := ""
  deriving DecidableEq, Inhabited

/-- A reference to a filter, with values for its parameters. -/
structure FilterReference where
  filter : String := ""
  parameters : List FilterParameter := []
  deriving DecidableEq, Inhabited

/-- What is matched of a frame. -/
structure MacMatch where
  srcmacaddr : Option String := none
  dstmacaddr : Option String := none
  protocolid : Option String := none
  deriving DecidableEq, Inhabited

/-- What is matched of an address resolution. -/
structure ArpMatch where
  srcmacaddr : Option String := none
  opcode : Option String := none
  arpsrcmacaddr : Option String := none
  arpsrcipaddr : Option String := none
  deriving DecidableEq, Inhabited

/-- What is matched of a packet. -/
structure IpMatch where
  srcipaddr : Option String := none
  dstipaddr : Option String := none
  protocol : Option String := none
  srcportstart : Option UnsignedShort := none
  dstportstart : Option UnsignedShort := none
  deriving DecidableEq, Inhabited

/-- What is matched of a packet with ports. -/
structure PortMatch where
  srcipaddr : Option String := none
  dstipaddr : Option String := none
  srcportstart : Option UnsignedShort := none
  dstportstart : Option UnsignedShort := none
  dstportend : Option UnsignedShort := none
  state : Option String := none
  deriving DecidableEq, Inhabited

/-- What is matched of a control message. -/
structure IcmpMatch where
  srcipaddr : Option String := none
  kind : Option UnsignedByte := none
  code : Option UnsignedByte := none
  deriving DecidableEq, Inhabited

/-- What is matched of any packet. -/
structure AllMatch where
  srcipaddr : Option String := none
  dstipaddr : Option String := none
  state : Option String := none
  deriving DecidableEq, Inhabited

/-- What is matched by a rule, by protocol. Texts may name variables. -/
inductive RuleMatch where
  | mac (content : MacMatch)
  | arp (content : ArpMatch)
  | ip (content : IpMatch)
  | ipv6 (content : IpMatch)
  | tcp (content : PortMatch)
  | udp (content : PortMatch)
  | icmp (content : IcmpMatch)
  | all (content : AllMatch)
  deriving DecidableEq, Inhabited

/-- A rule: what becomes of the packets that match. -/
structure Rule where
  action : RuleAction := default
  direction : RuleDirection := default
  priority : Option (Ranged .filterPriority) := none
  statematch : Option StateMatch := none
  criteria : List RuleMatch := []
  deriving DecidableEq, Inhabited

/-- One entry of a filter. -/
inductive FilterEntry where
  | rule (content : Rule)
  | reference (content : FilterReference)
  deriving DecidableEq, Inhabited

/-- A network filter: rules and references to other filters, in order. -/
structure Filter where
  name : Restricted .filterName := default
  chain : Option FilterChain := none
  priority : Option (Ranged .filterPriority) := none
  uuid : Option UuidText := none
  entries : List FilterEntry := []
  deriving DecidableEq, Inhabited

/-- Adds a value for a parameter. -/
def FilterReference.withParameter (r : FilterReference) (name value : String) : FilterReference :=
  { r with parameters := r.parameters ++ [{ name := name, value := value }] }

end GuestXml

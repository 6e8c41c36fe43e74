import GuestXml.Error
import GuestXml.Guest.Snapshot
import GuestXml.Json
import GuestXml.Number.Double

/-!
# Scalars

A scalar is a value that an attribute or the text of an element holds. The scalars of the
schema are listed as codes, each with the type of its values; what a scalar's values are
called, how they are read, written and checked is defined over the codes. `decode` reads and
checks, `encode` checks and writes.
-/

namespace GuestXml.Schema

/-! ### Enumerations -/

/-- The enumerations of the schema. -/
inductive EnumKind where
  | yesNo
  | onOff
  | sizeUnit
  | virtType
  | placement
  | osKind
  | loaderType
  | bootDevice
  | cpuMode
  | cpuMatch
  | cpuCheck
  | fallback
  | featurePolicy
  | memAccess
  | associativityKind
  | cachePolicy
  | clockOffset
  | timerName
  | tickPolicy
  | lifecycleAction
  | crashAction
  | diskType
  | diskDevice
  | diskFormat
  | diskCache
  | diskIo
  | discard
  | diskBus
  | tray
  | networkProtocol
  | controllerType
  | interfaceType
  | directMode
  | virtualPortType
  | charType
  | sourceMode
  | inputType
  | inputBus
  | graphicsType
  | listenType
  | videoKind
  | balloonModel
  | snapshotState
  | snapshotMode
  | protocolChain
  | ruleAction
  | ruleDirection
  | stateMatch
  deriving DecidableEq, Repr

namespace EnumKind

/-- The values of an enumeration. -/
@[reducible] def Carrier : EnumKind → Type
  | yesNo => YesNo
  | onOff => OnOff
  | sizeUnit => SizeUnit
  | virtType => VirtType
  | placement => Placement
  | osKind => OsKind
  | loaderType => LoaderType
  | bootDevice => BootDevice
  | cpuMode => CpuMode
  | cpuMatch => CpuMatch
  | cpuCheck => CpuCheck
  | fallback => Fallback
  | featurePolicy => FeaturePolicy
  | memAccess => MemAccess
  | associativityKind => AssociativityKind
  | cachePolicy => CachePolicy
  | clockOffset => ClockOffset
  | timerName => TimerName
  | tickPolicy => TickPolicy
  | lifecycleAction => LifecycleAction
  | crashAction => CrashAction
  | diskType => DiskType
  | diskDevice => DiskDevice
  | diskFormat => DiskFormat
  | diskCache => DiskCache
  | diskIo => DiskIo
  | discard => Discard
  | diskBus => DiskBus
  | tray => Tray
  | networkProtocol => NetworkProtocol
  | controllerType => ControllerType
  | interfaceType => InterfaceType
  | directMode => DirectMode
  | virtualPortType => VirtualPortType
  | charType => CharType
  | sourceMode => SourceMode
  | inputType => InputType
  | inputBus => InputBus
  | graphicsType => GraphicsType
  | listenType => ListenType
  | videoKind => VideoKind
  | balloonModel => BalloonModel
  | snapshotState => SnapshotState
  | snapshotMode => SnapshotMode
  | protocolChain => ProtocolChain
  | ruleAction => RuleAction
  | ruleDirection => RuleDirection
  | stateMatch => StateMatch

/-- The spellings of an enumeration. -/
@[reducible] def enumeration : (k : EnumKind) → Enumeration k.Carrier
  | yesNo => (inferInstance : Enumeration YesNo)
  | onOff => (inferInstance : Enumeration OnOff)
  | sizeUnit => (inferInstance : Enumeration SizeUnit)
  | virtType => (inferInstance : Enumeration VirtType)
  | placement => (inferInstance : Enumeration Placement)
  | osKind => (inferInstance : Enumeration OsKind)
  | loaderType => (inferInstance : Enumeration LoaderType)
  | bootDevice => (inferInstance : Enumeration BootDevice)
  | cpuMode => (inferInstance : Enumeration CpuMode)
  | cpuMatch => (inferInstance : Enumeration CpuMatch)
  | cpuCheck => (inferInstance : Enumeration CpuCheck)
  | fallback => (inferInstance : Enumeration Fallback)
  | featurePolicy => (inferInstance : Enumeration FeaturePolicy)
  | memAccess => (inferInstance : Enumeration MemAccess)
  | associativityKind => (inferInstance : Enumeration AssociativityKind)
  | cachePolicy => (inferInstance : Enumeration CachePolicy)
  | clockOffset => (inferInstance : Enumeration ClockOffset)
  | timerName => (inferInstance : Enumeration TimerName)
  | tickPolicy => (inferInstance : Enumeration TickPolicy)
  | lifecycleAction => (inferInstance : Enumeration LifecycleAction)
  | crashAction => (inferInstance : Enumeration CrashAction)
  | diskType => (inferInstance : Enumeration DiskType)
  | diskDevice => (inferInstance : Enumeration DiskDevice)
  | diskFormat => (inferInstance : Enumeration DiskFormat)
  | diskCache => (inferInstance : Enumeration DiskCache)
  | diskIo => (inferInstance : Enumeration DiskIo)
  | discard => (inferInstance : Enumeration Discard)
  | diskBus => (inferInstance : Enumeration DiskBus)
  | tray => (inferInstance : Enumeration Tray)
  | networkProtocol => (inferInstance : Enumeration NetworkProtocol)
  | controllerType => (inferInstance : Enumeration ControllerType)
  | interfaceType => (inferInstance : Enumeration InterfaceType)
  | directMode => (inferInstance : Enumeration DirectMode)
  | virtualPortType => (inferInstance : Enumeration VirtualPortType)
  | charType => (inferInstance : Enumeration CharType)
  | sourceMode => (inferInstance : Enumeration SourceMode)
  | inputType => (inferInstance : Enumeration InputType)
  | inputBus => (inferInstance : Enumeration InputBus)
  | graphicsType => (inferInstance : Enumeration GraphicsType)
  | listenType => (inferInstance : Enumeration ListenType)
  | videoKind => (inferInstance : Enumeration VideoKind)
  | balloonModel => (inferInstance : Enumeration BalloonModel)
  | snapshotState => (inferInstance : Enumeration SnapshotState)
  | snapshotMode => (inferInstance : Enumeration SnapshotMode)
  | protocolChain => (inferInstance : Enumeration ProtocolChain)
  | ruleAction => (inferInstance : Enumeration RuleAction)
  | ruleDirection => (inferInstance : Enumeration RuleDirection)
  | stateMatch => (inferInstance : Enumeration StateMatch)

instance (k : EnumKind) : Enumeration k.Carrier := k.enumeration

/-- All enumerations. -/
def all : List EnumKind :=
  [yesNo, onOff, sizeUnit, virtType, placement, osKind, loaderType, bootDevice, cpuMode,
    cpuMatch, cpuCheck, fallback, featurePolicy, memAccess, associativityKind, cachePolicy,
    clockOffset, timerName, tickPolicy, lifecycleAction, crashAction, diskType, diskDevice,
    diskFormat, diskCache, diskIo, discard, diskBus, tray, networkProtocol, controllerType,
    interfaceType, directMode, virtualPortType, charType, sourceMode, inputType, inputBus,
    graphicsType, listenType, videoKind, balloonModel, snapshotState, snapshotMode,
    protocolChain, ruleAction, ruleDirection, stateMatch]

end EnumKind

/-! ### Atoms -/

/-- A scalar of one form. -/
inductive Atom where
  | string
  | integer (k : IntegerKind)
  | double
  | dateTime
  | instant
  | ranged (k : RangedKind)
  | restricted (k : PatternKind)
  | enum (k : EnumKind)
  deriving DecidableEq, Repr

namespace Atom

/-- The values of an atom. -/
@[reducible] def Carrier : Atom → Type
  | string => String
  | integer k => k.Carrier
  | double => Number.Double
  | dateTime => Time.DateTime
  | instant => Time.Instant
  | ranged k => Ranged k
  | restricted k => Restricted k
  | enum k => k.Carrier

/-- What values are called in messages. -/
def name : Atom → String
  | string => "string"
  | integer k => k.name
  | double => "double"
  | dateTime => "dateTime"
  | instant => "unixTime"
  | ranged k => k.name
  | restricted k => k.name
  | enum k => k.enumeration.name

/-- Reads a value without checking it. Blanks around it are left out, save for a string. -/
def ofText? : (a : Atom) → String → Option a.Carrier
  | string, s => some s
  | integer k, s => Number.Bounded.ofText? k.min k.max (Text.trimChars s.toList)
  | double, s => Number.Double.ofText? (Text.trimChars s.toList)
  | dateTime, s => Time.DateTime.ofText? (Text.trimChars s.toList)
  | instant, s =>
    (Number.Bounded.ofText? IntegerKind.long.min IntegerKind.long.max
      (Text.trimChars s.toList)).bind fun n => Time.Instant.ofSeconds? n.val
  | ranged k, s =>
    (Number.Bounded.ofText? k.inner.min k.inner.max (Text.trimChars s.toList)).map (⟨·⟩)
  | restricted _, s => some (.trimmed s)
  | enum _, s => Enumeration.ofText? s

/-- The text of a value. -/
def toText : (a : Atom) → a.Carrier → String
  | string, s => s
  | integer _, n => n.toText
  | double, x => x.toText
  | dateTime, t => t.toText
  | instant, t => t.toText
  | ranged _, n => n.val.toText
  | restricted _, t => t.text
  | enum _, v => Enumeration.spelling v

/-- Whether a value keeps its constraint: its range, its pattern, being finite. -/
def isValid : (a : Atom) → a.Carrier → Bool
  | double, x => x.isFinite
  | ranged _, n => n.isValid
  | restricted _, t => t.isValid
  | _, _ => true

/-- The value where none is given. -/
def defaultValue : (a : Atom) → a.Carrier
  | string => ""
  | integer k => k.zero
  | double => .finite false 0 Number.Double.minExponent
  | dateTime => .epoch
  | instant => .epoch
  | ranged _ => default
  | restricted _ => default
  | enum k => k.enumeration.first

/-- A value as JSON. Doubles do not occur in documents. -/
def toJson : (a : Atom) → a.Carrier → Json
  | integer _, n => .number n.val
  | double, _ => .null
  | instant, t => .string t.toCalendar
  | ranged _, n => .number n.val.val
  | a, v => .string (a.toText v)

/-- Reads and checks a text. -/
def decode (a : Atom) (s : String) : Except Error a.Carrier :=
  match a.ofText? s with
  | some v => if a.isValid v then .ok v else .error (.invalidValue a.name s)
  | none => .error (.invalidValue a.name s)

/-- All atoms. -/
def all : List Atom :=
  [string, double, dateTime, instant] ++ IntegerKind.all.map integer ++
    RangedKind.all.map ranged ++ PatternKind.all.map restricted ++ EnumKind.all.map enum

end Atom

/-! ### Unions -/

/-- The scalars that are read as a first form if that fits, and as a second otherwise. -/
inductive UnionKind where
  | hexOrUnsigned
  | pciDomain
  | pciBus
  | pciSlot
  | pciFunction
  | cacheAssociativity
  | filterChain
  deriving DecidableEq, Repr

namespace UnionKind

/-- The values of a union. -/
@[reducible] def Carrier : UnionKind → Type
  | hexOrUnsigned => HexOrUnsigned
  | pciDomain => PciDomain
  | pciBus => PciBus
  | pciSlot => PciSlot
  | pciFunction => PciFunction
  | cacheAssociativity => CacheAssociativity
  | filterChain => FilterChain

/-- What values are called in messages. -/
def name : UnionKind → String
  | hexOrUnsigned => "UInt"
  | pciDomain => "PciDomain"
  | pciBus => "PciBus"
  | pciSlot => "PciSlot"
  | pciFunction => "PciFunction"
  | cacheAssociativity => "CacheAssociativity"
  | filterChain => "FilterChain"

/-- The first form. -/
@[reducible] def first : UnionKind → Atom
  | hexOrUnsigned => .restricted .hexUnsigned
  | pciDomain => .restricted .hexPciDomain
  | pciBus => .restricted .hexPciBus
  | pciSlot => .restricted .hexPciSlot
  | pciFunction => .restricted .hexPciFunction
  | cacheAssociativity => .enum .associativityKind
  | filterChain => .enum .protocolChain

/-- The second form. -/
@[reducible] def second : UnionKind → Atom
  | hexOrUnsigned => .integer .unsignedInt
  | pciDomain => .integer .unsignedShort
  | pciBus => .integer .unsignedByte
  | pciSlot => .ranged .pciSlot
  | pciFunction => .ranged .pciFunction
  | cacheAssociativity => .integer .unsignedInt
  | filterChain => .restricted .customChain

/-- The names of the two forms. -/
def forms : UnionKind → String × String
  | cacheAssociativity => ("Named", "Ways")
  | filterChain => ("Known", "Custom")
  | _ => ("Hex", "Decimal")

/-- A value, by its form. -/
def toSum : (u : UnionKind) → u.Carrier → u.first.Carrier ⊕ u.second.Carrier
  | hexOrUnsigned, .hex t => .inl t
  | hexOrUnsigned, .decimal n => .inr n
  | pciDomain, .hex t => .inl t
  | pciDomain, .decimal n => .inr n
  | pciBus, .hex t => .inl t
  | pciBus, .decimal n => .inr n
  | pciSlot, .hex t => .inl t
  | pciSlot, .decimal n => .inr n
  | pciFunction, .hex t => .inl t
  | pciFunction, .decimal n => .inr n
  | cacheAssociativity, .named k => .inl k
  | cacheAssociativity, .ways n => .inr n
  | filterChain, .known c => .inl c
  | filterChain, .custom c => .inr c

/-- A value of either form. -/
def ofSum : (u : UnionKind) → u.first.Carrier ⊕ u.second.Carrier → u.Carrier
  | hexOrUnsigned, .inl t => .hex t
  | hexOrUnsigned, .inr n => .decimal n
  | pciDomain, .inl t => .hex t
  | pciDomain, .inr n => .decimal n
  | pciBus, .inl t => .hex t
  | pciBus, .inr n => .decimal n
  | pciSlot, .inl t => .hex t
  | pciSlot, .inr n => .decimal n
  | pciFunction, .inl t => .hex t
  | pciFunction, .inr n => .decimal n
  | cacheAssociativity, .inl k => .named k
  | cacheAssociativity, .inr n => .ways n
  | filterChain, .inl c => .known c
  | filterChain, .inr c => .custom c

@[simp] theorem ofSum_toSum (u : UnionKind) (v : u.Carrier) : u.ofSum (u.toSum v) = v := by
  cases u <;> cases v <;> rfl

@[simp] theorem toSum_ofSum (u : UnionKind) (s : u.first.Carrier ⊕ u.second.Carrier) :
    u.toSum (u.ofSum s) = s := by
  cases u <;> cases s <;> rfl

/-- All unions. -/
def all : List UnionKind :=
  [hexOrUnsigned, pciDomain, pciBus, pciSlot, pciFunction, cacheAssociativity, filterChain]

end UnionKind

/-! ### Scalars -/

/-- A scalar. -/
inductive Scalar where
  | atom (a : Atom)
  | union (u : UnionKind)
  deriving DecidableEq, Repr

namespace Scalar

/-! Shorter names for the scalars of one form. -/

@[reducible] def string : Scalar := .atom .string
@[reducible] def unsignedByte : Scalar := .atom (.integer .unsignedByte)
@[reducible] def unsignedShort : Scalar := .atom (.integer .unsignedShort)
@[reducible] def unsignedInt : Scalar := .atom (.integer .unsignedInt)
@[reducible] def unsignedLong : Scalar := .atom (.integer .unsignedLong)
@[reducible] def signedInt : Scalar := .atom (.integer .int)
@[reducible] def instant : Scalar := .atom .instant
@[reducible] def ranged (k : RangedKind) : Scalar := .atom (.ranged k)
@[reducible] def restricted (k : PatternKind) : Scalar := .atom (.restricted k)
@[reducible] def enum (k : EnumKind) : Scalar := .atom (.enum k)

/-- The values of a scalar. -/
@[reducible] def Carrier : Scalar → Type
  | atom a => a.Carrier
  | union u => u.Carrier

/-- What values are called in messages. -/
def name : Scalar → String
  | atom a => a.name
  | union u => u.name

/-- Reads a value. A union tries its forms in order, and takes one only if it is valid. -/
def ofText? : (s : Scalar) → String → Option s.Carrier
  | atom a, t => a.ofText? t
  | union u, t =>
    match u.first.decode t with
    | .ok v => some (u.ofSum (.inl v))
    | .error _ => (u.second.decode t).toOption.map fun v => u.ofSum (.inr v)

/-- The text of a value. -/
def toText : (s : Scalar) → s.Carrier → String
  | atom a, v => a.toText v
  | union u, v =>
    match u.toSum v with
    | .inl w => u.first.toText w
    | .inr w => u.second.toText w

/-- Whether a value keeps its constraint. -/
def isValid : (s : Scalar) → s.Carrier → Bool
  | atom a, v => a.isValid v
  | union u, v =>
    match u.toSum v with
    | .inl w => u.first.isValid w
    | .inr w => u.second.isValid w

/-- The value where none is given; of a union, that of its first form. -/
def defaultValue : (s : Scalar) → s.Carrier
  | atom a => a.defaultValue
  | union u => u.ofSum (.inl u.first.defaultValue)

/-- A value as JSON; of a union, that of its form. -/
def toJson : (s : Scalar) → s.Carrier → Json
  | atom a, v => a.toJson v
  | union u, v =>
    match u.toSum v with
    | .inl w => u.first.toJson w
    | .inr w => u.second.toJson w

/-- Reads and checks a text. -/
def decode (s : Scalar) (t : String) : Except Error s.Carrier :=
  match s.ofText? t with
  | some v => if s.isValid v then .ok v else .error (.invalidValue s.name t)
  | none => .error (.invalidValue s.name t)

/-- Checks and writes a value. -/
def encode (s : Scalar) (v : s.Carrier) : Except Error String :=
  if s.isValid v then .ok (s.toText v) else .error (.invalidValue s.name (s.toText v))

/-- All scalars. -/
def all : List Scalar :=
  Atom.all.map atom ++ UnionKind.all.map union

end Scalar

end GuestXml.Schema

import GuestXml.Guest.Quantity

/-!
# Booting

The machine a guest boots as, its firmware or kernel, and the order of its boot devices.
-/

namespace GuestXml

/-- What kind of system is booted. -/
inductive OsKind where
  | hvm
  | linux
  | xen
  | exe
  deriving DecidableEq, Inhabited

instance : Enumeration OsKind where
  name := "EOsType"
  first := .hvm
  others := [.linux, .xen, .exe]
  spelling
    | .hvm => "hvm"
    | .linux => "linux"
    | .xen => "xen"
    | .exe => "exe"
  complete := by intro a; cases a <;> decide
  nodup_spellings := by decide

/-- How firmware is mapped. -/
inductive LoaderType where
  | rom
  | pflash
  deriving DecidableEq, Inhabited

instance : Enumeration LoaderType where
  name := "ELoaderType"
  first := .rom
  others := [.pflash]
  spelling
    | .rom => "rom"
    | .pflash => "pflash"
  complete := by intro a; cases a <;> decide
  nodup_spellings := by decide

/-- A kind of device to boot from. -/
inductive BootDevice where
  | hd
  | cdrom
  | network
  | fd
  deriving DecidableEq, Inhabited

instance : Enumeration BootDevice where
  name := "EBootDevice"
  first := .hd
  others := [.cdrom, .network, .fd]
  spelling
    | .hd => "hd"
    | .cdrom => "cdrom"
    | .network => "network"
    | .fd => "fd"
  complete := by intro a; cases a <;> decide
  nodup_spellings := by decide

/-- The machine that is booted. -/
structure OsType where
  arch : Option String := none
  machine : Option String := none
  kind : OsKind := default
  deriving DecidableEq, Inhabited

/-- The firmware of a guest. -/
structure Loader where
  readonly : Option YesNo := none
  kind : Option LoaderType := none
  path : String := ""
  deriving DecidableEq, Inhabited

/-- Where the variables of the firmware are kept. -/
structure Nvram where
  template : Option String := none
  path : String := ""
  deriving DecidableEq, Inhabited

/-- One device of the boot order. -/
structure Boot where
  dev : BootDevice := default
  deriving DecidableEq, Inhabited

/-- A menu shown before booting. -/
structure BootMenu where
  enable : YesNo := default
  timeout : Option UnsignedInt := none
  deriving DecidableEq, Inhabited

/-- How a guest boots. -/
structure Os where
  kind : OsType := default
  loader : Option Loader := none
  nvram : Option Nvram := none
  kernel : Option String := none
  initrd : Option String := none
  cmdline : Option String := none
  boot : List Boot := []
  bootmenu : Option BootMenu := none
  deriving DecidableEq, Inhabited

end GuestXml

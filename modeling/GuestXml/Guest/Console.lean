import GuestXml.Guest.Address

/-!
# Consoles and displays

Serial lines, consoles and channels, input devices, displays and video cards.
-/

namespace GuestXml

/-- What a character device is connected to. -/
inductive CharType where
  | pty
  | unix
  | file
  | tcp
  | udp
  | null
  | vc
  | stdio
  | spicevmc
  deriving DecidableEq, Inhabited

instance : Enumeration CharType where
  name := "ECharType"
  first := .pty
  others := [.unix, .file, .tcp, .udp, .null, .vc, .stdio, .spicevmc]
  spelling
    | .pty => "pty"
    | .unix => "unix"
    | .file => "file"
    | .tcp => "tcp"
    | .udp => "udp"
    | .null => "null"
    | .vc => "vc"
    | .stdio => "stdio"
    | .spicevmc => "spicevmc"
  complete := by intro a; cases a <;> decide
  nodup_spellings := by decide

/-- Which side opens a connection. -/
inductive SourceMode where
  | bind
  | connect
  deriving DecidableEq, Inhabited

instance : Enumeration SourceMode where
  name := "ESourceMode"
  first := .bind
  others := [.connect]
  spelling
    | .bind => "bind"
    | .connect => "connect"
  complete := by intro a; cases a <;> decide
  nodup_spellings := by decide

/-- A kind of input device. -/
inductive InputType where
  | mouse
  | tablet
  | keyboard
  | passthrough
  | evdev
  deriving DecidableEq, Inhabited

instance : Enumeration InputType where
  name := "EInputType"
  first := .mouse
  others := [.tablet, .keyboard, .passthrough, .evdev]
  spelling
    | .mouse => "mouse"
    | .tablet => "tablet"
    | .keyboard => "keyboard"
    | .passthrough => "passthrough"
    | .evdev => "evdev"
  complete := by intro a; cases a <;> decide
  nodup_spellings := by decide

/-- What an input device is attached to. -/
inductive InputBus where
  | ps2
  | usb
  | virtio
  | xen
  | unattached
  deriving DecidableEq, Inhabited

instance : Enumeration InputBus where
  name := "EInputBus"
  first := .ps2
  others := [.usb, .virtio, .xen, .unattached]
  spelling
    | .ps2 => "ps2"
    | .usb => "usb"
    | .virtio => "virtio"
    | .xen => "xen"
    | .unattached => "none"
  complete := by intro a; cases a <;> decide
  nodup_spellings := by decide

/-- How the screen of a guest is shown. -/
inductive GraphicsType where
  | vnc
  | spice
  | sdl
  | rdp
  | desktop
  | eglHeadless
  deriving DecidableEq, Inhabited

instance : Enumeration GraphicsType where
  name := "EGraphicsType"
  first := .vnc
  others := [.spice, .sdl, .rdp, .desktop, .eglHeadless]
  spelling
    | .vnc => "vnc"
    | .spice => "spice"
    | .sdl => "sdl"
    | .rdp => "rdp"
    | .desktop => "desktop"
    | .eglHeadless => "egl-headless"
  complete := by intro a; cases a <;> decide
  nodup_spellings := by decide

/-- What a display server listens on. -/
inductive ListenType where
  | address
  | network
  | socket
  | nothing
  deriving DecidableEq, Inhabited

instance : Enumeration ListenType where
  name := "EListenType"
  first := .address
  others := [.network, .socket, .nothing]
  spelling
    | .address => "address"
    | .network => "network"
    | .socket => "socket"
    | .nothing => "none"
  complete := by intro a; cases a <;> decide
  nodup_spellings := by decide

/-- A kind of video card. -/
inductive VideoKind where
  | vga
  | cirrus
  | vmvga
  | qxl
  | virtio
  | bochs
  | ramfb
  | absent
  deriving DecidableEq, Inhabited

instance : Enumeration VideoKind where
  name := "EVideoModel"
  first := .vga
  others := [.cirrus, .vmvga, .qxl, .virtio, .bochs, .ramfb, .absent]
  spelling
    | .vga => "vga"
    | .cirrus => "cirrus"
    | .vmvga => "vmvga"
    | .qxl => "qxl"
    | .virtio => "virtio"
    | .bochs => "bochs"
    | .ramfb => "ramfb"
    | .absent => "none"
  complete := by intro a; cases a <;> decide
  nodup_spellings := by decide

/-- The end of a character device on the host. -/
structure CharSource where
  mode : Option SourceMode := none
  path : Option String := none
  host : Option String := none
  service : Option String := none
  deriving DecidableEq, Inhabited

/-- The end of a character device in the guest. -/
structure CharTarget where
  kind : Option String := none
  port : Option UnsignedInt := none
  name : Option String := none
  deriving DecidableEq, Inhabited

/-- A serial line, a console or a channel. -/
structure CharDevice where
  kind : CharType := default
  source : Option CharSource := none
  target : Option CharTarget := none
  address : Option DeviceAddress := none
  deriving DecidableEq, Inhabited

/-- An input device. -/
structure Input where
  kind : InputType := default
  bus : Option InputBus := none
  address : Option DeviceAddress := none
  deriving DecidableEq, Inhabited

/-- Something a display server listens on. -/
structure GraphicsListen where
  kind : ListenType := default
  address : Option String := none
  network : Option String := none
  deriving DecidableEq, Inhabited

/-- A way to see the screen of a guest. -/
structure Graphics where
  kind : GraphicsType := default
  port : Option PortNumber := none
  autoport : Option YesNo := none
  listen : Option String := none
  passwd : Option String := none
  listens : List GraphicsListen := []
  deriving DecidableEq, Inhabited

/-- What a video card is like. -/
structure VideoModel where
  kind : VideoKind := default
  vram : Option UnsignedInt := none
  heads : Option UnsignedInt := none
  primary : Option YesNo := none
  deriving DecidableEq, Inhabited

/-- A video card. -/
structure Video where
  model : VideoModel := default
  address : Option DeviceAddress := none
  deriving DecidableEq, Inhabited

end GuestXml

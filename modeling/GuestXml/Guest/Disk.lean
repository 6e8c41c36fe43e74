import GuestXml.Guest.Address

/-!
# Disks

Disks and the images behind them. The image of a disk may stand on a chain of others: each
link of the chain is a further image or the mark that the chain ends there.
-/

namespace GuestXml

/-- Where the content of a disk comes from. -/
inductive DiskType where
  | file
  | block
  | dir
  | network
  | volume
  deriving DecidableEq, Inhabited

instance : Enumeration DiskType where
  name := "EDiskType"
  first := .file
  others := [.block, .dir, .network, .volume]
  spelling
    | .file => "file"
    | .block => "block"
    | .dir => "dir"
    | .network => "network"
    | .volume => "volume"
  complete := by intro a; cases a <;> decide
  nodup_spellings := by decide

/-- What a disk looks like to the guest. -/
inductive DiskDevice where
  | disk
  | cdrom
  | floppy
  | lun
  deriving DecidableEq, Inhabited

instance : Enumeration DiskDevice where
  name := "EDiskDevice"
  first := .disk
  others := [.cdrom, .floppy, .lun]
  spelling
    | .disk => "disk"
    | .cdrom => "cdrom"
    | .floppy => "floppy"
    | .lun => "lun"
  complete := by intro a; cases a <;> decide
  nodup_spellings := by decide

/-- The format of an image. -/
inductive DiskFormat where
  | raw
  | qcow2
  | qcow
  | vmdk
  | vdi
  | vhd
  | iso
  deriving DecidableEq, Inhabited

instance : Enumeration DiskFormat where
  name := "EDiskFormat"
  first := .raw
  others := [.qcow2, .qcow, .vmdk, .vdi, .vhd, .iso]
  spelling
    | .raw => "raw"
    | .qcow2 => "qcow2"
    | .qcow => "qcow"
    | .vmdk => "vmdk"
    | .vdi => "vdi"
    | .vhd => "vhd"
    | .iso => "iso"
  complete := by intro a; cases a <;> decide
  nodup_spellings := by decide

/-- How the host caches a disk. -/
inductive DiskCache where
  | standard
  | off
  | writethrough
  | writeback
  | directsync
  | neverFlush
  deriving DecidableEq, Inhabited

instance : Enumeration DiskCache where
  name := "EDiskCache"
  first := .standard
  others := [.off, .writethrough, .writeback, .directsync, .neverFlush]
  spelling
    | .standard => "default"
    | .off => "none"
    | .writethrough => "writethrough"
    | .writeback => "writeback"
    | .directsync => "directsync"
    | .neverFlush => "unsafe"
  complete := by intro a; cases a <;> decide
  nodup_spellings := by decide

/-- How the host reads and writes a disk. -/
inductive DiskIo where
  | native
  | threads
  | ioUring
  deriving DecidableEq, Inhabited

instance : Enumeration DiskIo where
  name := "EDiskIo"
  first := .native
  others := [.threads, .ioUring]
  spelling
    | .native => "native"
    | .threads => "threads"
    | .ioUring => "io_uring"
  complete := by intro a; cases a <;> decide
  nodup_spellings := by decide

/-- What becomes of requests to discard blocks. -/
inductive Discard where
  | unmap
  | ignore
  deriving DecidableEq, Inhabited

instance : Enumeration Discard where
  name := "EDiscard"
  first := .unmap
  others := [.ignore]
  spelling
    | .unmap => "unmap"
    | .ignore => "ignore"
  complete := by intro a; cases a <;> decide
  nodup_spellings := by decide

/-- What a disk is attached to. -/
inductive DiskBus where
  | virtio
  | scsi
  | sata
  | ide
  | usb
  | fdc
  | xen
  | sd
  deriving DecidableEq, Inhabited

instance : Enumeration DiskBus where
  name := "EDiskBus"
  first := .virtio
  others := [.scsi, .sata, .ide, .usb, .fdc, .xen, .sd]
  spelling
    | .virtio => "virtio"
    | .scsi => "scsi"
    | .sata => "sata"
    | .ide => "ide"
    | .usb => "usb"
    | .fdc => "fdc"
    | .xen => "xen"
    | .sd => "sd"
  complete := by intro a; cases a <;> decide
  nodup_spellings := by decide

/-- The state of a tray. -/
inductive Tray where
  | opened
  | closed
  deriving DecidableEq, Inhabited

instance : Enumeration Tray where
  name := "ETray"
  first := .opened
  others := [.closed]
  spelling
    | .opened => "open"
    | .closed => "closed"
  complete := by intro a; cases a <;> decide
  nodup_spellings := by decide

/-- How a disk is reached over a network. -/
inductive NetworkProtocol where
  | nbd
  | rbd
  | iscsi
  | gluster
  | http
  | https
  | nfs
  deriving DecidableEq, Inhabited

instance : Enumeration NetworkProtocol where
  name := "ENetworkProtocol"
  first := .nbd
  others := [.rbd, .iscsi, .gluster, .http, .https, .nfs]
  spelling
    | .nbd => "nbd"
    | .rbd => "rbd"
    | .iscsi => "iscsi"
    | .gluster => "gluster"
    | .http => "http"
    | .https => "https"
    | .nfs => "nfs"
  complete := by intro a; cases a <;> decide
  nodup_spellings := by decide

/-- How an image is opened. -/
structure DiskDriver where
  name : Option String := none
  format : Option DiskFormat := none
  cache : Option DiskCache := none
  io : Option DiskIo := none
  discard : Option Discard := none
  deriving DecidableEq, Inhabited

/-- An image in a file. -/
structure FileSource where
  file : String := ""
  deriving DecidableEq, Inhabited

/-- A device of the host. -/
structure BlockSource where
  dev : String := ""
  deriving DecidableEq, Inhabited

/-- A directory of the host, shown as a disk. -/
structure DirSource where
  dir : String := ""
  deriving DecidableEq, Inhabited

/-- A host that serves an image. -/
structure SourceHost where
  name : String := ""
  port : Option PortNumber := none
  deriving DecidableEq, Inhabited

/-- An image on a network. -/
structure NetworkSource where
  protocol : NetworkProtocol := default
  name : Option String := none
  hosts : List SourceHost := []
  deriving DecidableEq, Inhabited

/-- A volume of a storage pool. -/
structure VolumeSource where
  pool : String := ""
  volume : String := ""
  deriving DecidableEq, Inhabited

/-- The content of a disk, which goes by its type. -/
inductive DiskSource where
  | file (content : FileSource)
  | block (content : BlockSource)
  | dir (content : DirSource)
  | network (content : NetworkSource)
  | volume (content : VolumeSource)
  deriving DecidableEq, Inhabited

/-- The format of an image below another. -/
structure BackingFormat where
  format : DiskFormat := default
  deriving DecidableEq, Inhabited

/-- An element that has to be empty. -/
structure Bare where
  deriving DecidableEq, Inhabited

mutual
/-- An image below another, and what it stands on itself. -/
structure BackingLayer where
  kind : DiskType := default
  index : Option UnsignedInt := none
  format : Option BackingFormat := none
  source : Option DiskSource := none
  backingStore : Option BackingStore := none

/-- A link of a chain of images: a further image, or the end of the chain. -/
inductive BackingStore where
  | layer (content : BackingLayer)
  | done (content : Bare)
end

instance : Inhabited BackingLayer := ⟨{}⟩
instance : Inhabited BackingStore := ⟨.layer default⟩

mutual
/-- Two layers are compared part by part. -/
def BackingLayer.decEq : (a b : BackingLayer) → Decidable (a = b)
  | ⟨k, i, f, s, none⟩, ⟨k', i', f', s', none⟩ =>
    if h : k = k' ∧ i = i' ∧ f = f' ∧ s = s' then
      isTrue (by obtain ⟨rfl, rfl, rfl, rfl⟩ := h; rfl)
    else isFalse (by intro e; cases e; exact h ⟨rfl, rfl, rfl, rfl⟩)
  | ⟨k, i, f, s, some b⟩, ⟨k', i', f', s', some b'⟩ =>
    if h : k = k' ∧ i = i' ∧ f = f' ∧ s = s' then
      match BackingStore.decEq b b' with
      | isTrue hb => isTrue (by obtain ⟨rfl, rfl, rfl, rfl⟩ := h; rw [hb])
      | isFalse hb => isFalse (by intro e; cases e; exact hb rfl)
    else isFalse (by intro e; cases e; exact h ⟨rfl, rfl, rfl, rfl⟩)
  | ⟨_, _, _, _, none⟩, ⟨_, _, _, _, some _⟩ => isFalse (by intro e; cases e)
  | ⟨_, _, _, _, some _⟩, ⟨_, _, _, _, none⟩ => isFalse (by intro e; cases e)

/-- Two links are equal if both end their chains or both hold the same layer. -/
def BackingStore.decEq : (a b : BackingStore) → Decidable (a = b)
  | .layer a, .layer b =>
    match BackingLayer.decEq a b with
    | isTrue h => isTrue (by rw [h])
    | isFalse h => isFalse (by intro e; cases e; exact h rfl)
  | .done _, .done _ => isTrue rfl
  | .layer _, .done _ => isFalse (by intro e; cases e)
  | .done _, .layer _ => isFalse (by intro e; cases e)
end

instance : DecidableEq BackingLayer := BackingLayer.decEq
instance : DecidableEq BackingStore := BackingStore.decEq

/-- Where a disk appears in the guest. -/
structure DiskTarget where
  dev : String := ""
  bus : Option DiskBus := none
  tray : Option Tray := none
  deriving DecidableEq, Inhabited

/-- The place of a device in the boot order. -/
structure BootOrder where
  order : UnsignedInt := default
  deriving DecidableEq, Inhabited

/-- A disk. -/
structure Disk where
  kind : DiskType := default
  device : Option DiskDevice := none
  driver : Option DiskDriver := none
  source : Option DiskSource := none
  backingStore : Option BackingStore := none
  target : DiskTarget := default
  readonly : Bool := false
  shareable : Bool := false
  serial : Option String := none
  boot : Option BootOrder := none
  address : Option DeviceAddress := none
  deriving DecidableEq, Inhabited

/-- What the names of the guest's devices on a bus begin with. -/
def DiskBus.devicePrefix : DiskBus → String
  | .virtio => "vd"
  | .scsi | .sata | .usb => "sd"
  | .ide => "hd"
  | .fdc => "fd"
  | .xen => "xvd"
  | .sd => "mmcblk"

/-! ### Backing chains -/

mutual
/-- The number of images from a layer downwards, itself included. -/
def BackingLayer.depth : BackingLayer → Nat
  | ⟨_, _, _, _, none⟩ => 1
  | ⟨_, _, _, _, some b⟩ => b.depth + 1

/-- The number of images of a chain. -/
def BackingStore.depth : BackingStore → Nat
  | .layer l => l.depth
  | .done _ => 0
end

/-- The number of images below that of a disk. -/
def Disk.backingDepth (d : Disk) : Nat :=
  (d.backingStore.map BackingStore.depth).getD 0

end GuestXml

import GuestXml.Guest.Quantity

/-!
# Clocks and power

The clock of a guest and its timers, what follows when it stops, and how it may save power.
-/

namespace GuestXml

/-- What the guest clock starts from. -/
inductive ClockOffset where
  | utc
  | localtime
  | timezone
  | adjustable
  deriving DecidableEq, Inhabited

instance : Enumeration ClockOffset where
  name := "EClockOffset"
  first := .utc
  others := [.localtime, .timezone, .adjustable]
  spelling
    | .utc => "utc"
    | .localtime => "localtime"
    | .timezone => "timezone"
    | .adjustable => "variable"
  complete := by intro a; cases a <;> decide
  nodup_spellings := by decide

/-- A source of time for the guest. -/
inductive TimerName where
  | platform
  | pit
  | rtc
  | hpet
  | tsc
  | kvmclock
  | hypervclock
  | armvtimer
  deriving DecidableEq, Inhabited

instance : Enumeration TimerName where
  name := "ETimerName"
  first := .platform
  others := [.pit, .rtc, .hpet, .tsc, .kvmclock, .hypervclock, .armvtimer]
  spelling
    | .platform => "platform"
    | .pit => "pit"
    | .rtc => "rtc"
    | .hpet => "hpet"
    | .tsc => "tsc"
    | .kvmclock => "kvmclock"
    | .hypervclock => "hypervclock"
    | .armvtimer => "armvtimer"
  complete := by intro a; cases a <;> decide
  nodup_spellings := by decide

/-- What becomes of ticks that were missed. -/
inductive TickPolicy where
  | delay
  | catchup
  | merge
  | discard
  deriving DecidableEq, Inhabited

instance : Enumeration TickPolicy where
  name := "ETickPolicy"
  first := .delay
  others := [.catchup, .merge, .discard]
  spelling
    | .delay => "delay"
    | .catchup => "catchup"
    | .merge => "merge"
    | .discard => "discard"
  complete := by intro a; cases a <;> decide
  nodup_spellings := by decide

/-- What follows when a guest stops or restarts. -/
inductive LifecycleAction where
  | destroy
  | restart
  | preserve
  | renameRestart
  deriving DecidableEq, Inhabited

instance : Enumeration LifecycleAction where
  name := "ELifecycleAction"
  first := .destroy
  others := [.restart, .preserve, .renameRestart]
  spelling
    | .destroy => "destroy"
    | .restart => "restart"
    | .preserve => "preserve"
    | .renameRestart => "rename-restart"
  complete := by intro a; cases a <;> decide
  nodup_spellings := by decide

/-- What follows when a guest crashes. -/
inductive CrashAction where
  | destroy
  | restart
  | preserve
  | renameRestart
  | coredumpDestroy
  | coredumpRestart
  deriving DecidableEq, Inhabited

instance : Enumeration CrashAction where
  name := "ECrashAction"
  first := .destroy
  others := [.restart, .preserve, .renameRestart, .coredumpDestroy, .coredumpRestart]
  spelling
    | .destroy => "destroy"
    | .restart => "restart"
    | .preserve => "preserve"
    | .renameRestart => "rename-restart"
    | .coredumpDestroy => "coredump-destroy"
    | .coredumpRestart => "coredump-restart"
  complete := by intro a; cases a <;> decide
  nodup_spellings := by decide

/-- One source of time. -/
structure Timer where
  name : TimerName := default
  tickpolicy : Option TickPolicy := none
  present : Option YesNo := none
  deriving DecidableEq, Inhabited

/-- The clock of a guest. -/
structure Clock where
  offset : ClockOffset := default
  timezone : Option String := none
  timers : List Timer := []
  deriving DecidableEq, Inhabited

/-- Whether a way to suspend is offered. -/
structure SuspendState where
  enabled : YesNo := default
  deriving DecidableEq, Inhabited

/-- What a guest may do to save power. -/
structure PowerManagement where
  suspendToMem : Option SuspendState := none
  suspendToDisk : Option SuspendState := none
  deriving DecidableEq, Inhabited

end GuestXml

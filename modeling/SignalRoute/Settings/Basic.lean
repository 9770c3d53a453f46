import SignalRoute.Board.Device

/-!
# Settings

What a host is told about its board and about how to talk to it.  Every setting has a default.

The numbers have the widths that the fields of the program have, and a capacity or a timeout may be
anything but zero.  That a host can be started with any settings that are accepted
(`Settings.validate`) does not mean that it can be of use with them: a tick may be so long that the
first wrap of a counter leaves the calendar.
-/

set_option autoImplicit false

namespace SignalRoute

/-- How a host talks to its board. -/
structure Settings where
  /-- How long an answer may take, in milliseconds. -/
  responseTimeoutMs : UInt64
  /-- How many events wait to be read. -/
  linkQueueCapacity : UInt64
  /-- How long a tick of the board's log takes, in milliseconds. -/
  tickDurationMs : Float
  /-- How many progress notices a download asks for; none if zero. -/
  progressUpdates : UInt32
  device : Device
deriving Inhabited

namespace Settings

def standard : Settings := ⟨250, 4096, 1.46484375, 100, .standard⟩

/-- The defaults for a board. -/
def forDevice (device : Device) : Settings := { standard with device := device }

/-- The settings with another timeout, given in microseconds and cut to milliseconds. -/
def withTimeoutUs (s : Settings) (us : UInt64) : Settings :=
  { s with responseTimeoutMs := us / 1000 }

/-- Are the settings ones that a host can work with? -/
def validate (s : Settings) : Except Fault Unit :=
  if s.responseTimeoutMs = 0 then .error (.settings "response_timeout_ms must be positive")
  else if s.linkQueueCapacity = 0 then .error (.settings "link_queue_capacity must be positive")
  else if 0 < s.tickDurationMs then .ok ()
  else .error (.settings "tick_duration_ms must be positive")

/-- Are two settings equal?  Durations are compared as numbers. -/
def same (a b : Settings) : Bool :=
  a.responseTimeoutMs == b.responseTimeoutMs && a.linkQueueCapacity == b.linkQueueCapacity &&
    a.tickDurationMs == b.tickDurationMs && a.progressUpdates == b.progressUpdates &&
    a.device == b.device

end Settings
end SignalRoute

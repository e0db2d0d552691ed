/-
  CanDfu.Config

  The configuration of one run: pacing, memory map, bus and device profile.
-/
import CanDfu.Config.Layout
import CanDfu.Config.Profile

namespace CanDfu

/-- Which adapter to open, and how fast the bus runs. -/
structure BusConfig where
  /-- Names of bus backends, the preferred one first. -/
  backends : List String := ["gs_usb"]
  /-- Which of the matching adapters to open; the first one if absent. -/
  channel : Option UInt32 := none
  bitrate : UInt32 := 1000000
  deriving DecidableEq, Repr

/-- Everything one run needs to know. -/
structure Config where
  /-- Pause after each scratch write, in microseconds. -/
  scratchWriteDelay : UInt64 := 10
  /-- How long to wait for an answer, in milliseconds. -/
  responseTimeout : UInt64 := 1000
  layout : Layout := {}
  bus : BusConfig := {}
  profile : Option Profile := none
  deriving DecidableEq, Repr

namespace Config

/-- Accepts the configurations whose parts are each usable. -/
def validate (c : Config) : Except ConfigError Unit := do
  c.layout.validate
  if c.bus.bitrate = 0 then throw .zeroBitrate
  match c.profile with
  | some profile => profile.validate
  | none => pure ()

/-- The device profile, without which no device can be addressed. -/
def requireProfile (c : Config) : Except ConfigError Profile :=
  match c.profile with
  | some profile => .ok profile
  | none => .error .missingProfile

end Config

end CanDfu

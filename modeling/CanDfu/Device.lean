/-
  CanDfu.Device

  The command set of a bootloader, and devices as whatever answers it.  A `Device` may keep any
  state and answer anything; `issue` sends it one command and writes the command and its answer
  into the journal.
-/
import CanDfu.Journal
import CanDfu.Routine

namespace CanDfu

/-- Something that answers bootloader commands from a state. -/
structure Device (σ : Type) where
  /-- Carries out one command. -/
  call : (c : Command) → Routine Note σ SessionError c.Reply
  /-- The last argument that commit and erase take, if they take one. -/
  seed : σ → Option UInt32

/-- Issues a command and journals it with its answer. -/
def Device.issue {σ : Type} (d : Device σ) (c : Command) : Routine Entry σ SessionError c.Reply :=
  fun s =>
    match d.call c s with
    | ⟨answer, s', notes⟩ => ⟨answer, s', notes.map .note ++ [.call c answer]⟩

/-- Whether commit and erase are sent with a last argument.  Decided once for each session, so no
device is ever probed by trial and error. -/
inductive CommandForm
  | seeded (seed : UInt32)
  | unseeded
  deriving DecidableEq, Repr

namespace CommandForm

/-- The form that suits a last argument, or the lack of one. -/
def ofSeed : Option UInt32 → CommandForm
  | some seed => seeded seed
  | none => unseeded

/-- The form a device asks for. -/
def negotiate {σ : Type} (d : Device σ) (s : σ) : CommandForm := ofSeed (d.seed s)

/-- The last argument of the form. -/
def seed : CommandForm → Option UInt32
  | seeded seed => some seed
  | unseeded => none

/-- The form in messages. -/
def text : CommandForm → String
  | seeded seed => s!"seeded ({Hex.address seed})"
  | unseeded => "unseeded"

end CommandForm

end CanDfu

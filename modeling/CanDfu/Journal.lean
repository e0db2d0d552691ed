/-
  CanDfu.Journal

  The journal of a run: every command a device was given with its answer, every event, and the
  notes the lower layers leave (log records and USB accesses), in the order they happened.
-/
import CanDfu.Error
import CanDfu.Event
import CanDfu.Usb.Access

namespace CanDfu

/-- A command of the bootloader. -/
inductive Command
  /-- Reads one word of flash. -/
  | read (address : UInt32)
  /-- Stages a word in a scratch register. -/
  | scratch (index : UInt8) (value : UInt32)
  /-- Programs the four scratch words; the answer is their checksum. -/
  | commit (address : UInt32) (seed : Option UInt32)
  /-- Erases all of flash; the answer is a status. -/
  | erase (seed : Option UInt32)
  /-- Leaves the bootloader. -/
  | reset
  deriving DecidableEq, Repr

/-- What a command is answered with. -/
abbrev Command.Reply : Command → Type
  | read _ => UInt32
  | scratch .. => Unit
  | commit .. => UInt32
  | erase _ => UInt8
  | reset => Unit

/-- What the layers below a session leave in a journal. -/
inductive Note
  | record (r : Record)
  | usb (device : Nat) (access : Usb.Access)
  deriving DecidableEq, Repr

/-- What a person is asked to do during a recovery. -/
inductive Prompt
  | powerOff
  | powerOn
  deriving DecidableEq, Repr

/-- One entry of a journal. -/
inductive Entry
  | call (c : Command) (answer : Except SessionError c.Reply)
  | event (e : Event)
  | note (n : Note)
  | prompt (p : Prompt)
  /-- A wait of some microseconds. -/
  | pause (micros : Nat)

namespace Note

/-- The record of a note that is one. -/
def record? : Note → Option Record
  | record r => some r
  | usb .. => none

/-- The USB access of a note that is one. -/
def access? : Note → Option (Nat × Usb.Access)
  | record _ => none
  | usb device access => some (device, access)

end Note

namespace Entry

/-- The event of an entry that is one. -/
def event? : Entry → Option Event
  | event e => some e
  | _ => none

/-- The note of an entry that is one. -/
def note? : Entry → Option Note
  | note n => some n
  | _ => none

/-- The command of an entry that is one. -/
def command? : Entry → Option Command
  | call c _ => some c
  | _ => none

/-- The prompt of an entry that is one. -/
def prompt? : Entry → Option Prompt
  | prompt p => some p
  | _ => none

/-- The log record of an entry, when the log is all that watches: records of the layers below, and
events as records. -/
def record? : Entry → Option Record
  | event e => some e.toRecord
  | note n => n.record?
  | _ => none

end Entry

/-- An entry that logs a record. -/
def Entry.ofRecord (level : Level) (message : String) (fields : List (String × String)) : Entry :=
  .note (.record ⟨level, message, fields⟩)

end CanDfu

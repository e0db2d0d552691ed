/-
  CanDfu.Device.Simulated

  A bootloader in memory.  Flash reads back erased until it is programmed, programming can only
  clear bits, and a commit reports the checksum of the staged words.  Flash is a map of the words
  that are not erased, and stays so: two devices that read alike everywhere hold the same map.
-/
import CanDfu.Chunk
import CanDfu.Device
import Std.Data.ExtTreeMap

namespace CanDfu

/-- Flash contents: the words that are not erased, by address. -/
structure Flash where
  words : Std.ExtTreeMap UInt32 UInt32

namespace Flash

/-- Flash with nothing in it. -/
def blank : Flash := ⟨∅⟩

/-- The word at an address. -/
def word (f : Flash) (address : UInt32) : UInt32 :=
  f.words.getD address erasedWord

/-- Makes an address read as `value`. -/
def store (f : Flash) (address value : UInt32) : Flash :=
  if value = erasedWord then ⟨f.words.erase address⟩ else ⟨f.words.insert address value⟩

/-- Programs a word: bits can only be cleared. -/
def programWord (f : Flash) (address value : UInt32) : Flash :=
  f.store address (f.word address &&& value)

/-- Programs words, each at its address. -/
def program (f : Flash) (placed : List (UInt32 × UInt32)) : Flash :=
  placed.foldl (fun f (address, value) => f.programWord address value) f

/-- Replaces the contents from `address` on; a trailing partial word is completed as erased. -/
def load (f : Flash) (address : UInt32) (bytes : List UInt8) : Flash :=
  (LittleEndian.words erasedByte bytes).zipIdx.foldl
    (fun f (value, i) => f.store (address + UInt32.ofNat i * 4) value) f

/-- The `size` bytes from `address` on. -/
def dump (f : Flash) (address : UInt32) (size : Nat) : List UInt8 :=
  ((List.range ((size + 3) / 4)).flatMap fun i =>
    LittleEndian.bytes (f.word (address + UInt32.ofNat i * 4))).take size

@[simp] theorem word_blank (address : UInt32) : blank.word address = erasedWord := by
  simp [blank, word]

/-- Storing a word changes what is read at its address, and nothing else. -/
theorem word_store (f : Flash) (address value other : UInt32) :
    (f.store address value).word other = if address = other then value else f.word other := by
  unfold store
  split
  · next erased =>
    simp only [word, Std.ExtTreeMap.getD_erase]
    by_cases same : address = other <;> simp [same, erased]
  · simp only [word, Std.ExtTreeMap.getD_insert]
    by_cases same : address = other <;> simp [same]

/-- Programming a word keeps of its bits those that are set in both. -/
theorem word_programWord (f : Flash) (address value other : UInt32) :
    (f.programWord address value).word other
      = if address = other then f.word address &&& value else f.word other :=
  word_store ..

end Flash

/-- A bootloader in memory, and how often it was asked what. -/
structure Simulated where
  flash : Flash := .blank
  scratch : Quad := .zero
  seed : Option UInt32 := none
  /-- Status every erase ends with; only zero erases. -/
  eraseStatus : UInt8 := 0
  /-- Addresses whose commits report a wrong checksum. -/
  checksumFaults : List UInt32 := []
  /-- Addresses committed so far. -/
  commits : Array UInt32 := #[]
  erases : Nat := 0
  resets : Nat := 0
  reads : Nat := 0

namespace Simulated

/-- A last argument in a message. -/
def seedText : Option UInt32 → String
  | some seed => s!"Some({seed})"
  | none => "None"

/-- Refuses a last argument other than the one the device asks for. -/
def checkSeed (s : Simulated) (command : String) (given : Option UInt32) :
    Except SessionError Unit :=
  match s.seed, given with
  | none, none => .ok ()
  | none, some _ => .error (.unsupportedArgument command)
  | some expected, given =>
    if given = some expected then .ok ()
    else .error (.rejected
      s!"{command} expects seed {Hex.address expected}, got {seedText given}")

/-- Reads a word. -/
def read (s : Simulated) (address : UInt32) : Except SessionError UInt32 × Simulated :=
  if address % 4 ≠ 0 then (.error (.rejected s!"unaligned read at {Hex.address address}"), s)
  else (.ok (s.flash.word address), { s with reads := s.reads + 1 })

/-- Stages a word. -/
def stage (s : Simulated) (index : UInt8) (value : UInt32) : Except SessionError Unit × Simulated :=
  match s.scratch.set? index value with
  | some scratch => (.ok (), { s with scratch })
  | none => (.error (.invalidScratchIndex index), s)

/-- Programs the staged words. -/
def commit (s : Simulated) (address : UInt32) (seed : Option UInt32) :
    Except SessionError UInt32 × Simulated :=
  match s.checkSeed "commit" seed with
  | .error e => (.error e, s)
  | .ok () =>
    if address % 4 ≠ 0 then (.error (.rejected s!"unaligned commit at {Hex.address address}"), s)
    else
      let sum := s.scratch.checksum
      (.ok (if s.checksumFaults.contains address then sum + 1 else sum),
        { s with
          flash := s.flash.program (Chunk.placed ⟨address, s.scratch⟩)
          commits := s.commits.push address })

/-- Erases flash, unless erasing is set to fail. -/
def erase (s : Simulated) (seed : Option UInt32) : Except SessionError UInt8 × Simulated :=
  match s.checkSeed "erase_all" seed with
  | .error e => (.error e, s)
  | .ok () =>
    if s.eraseStatus ≠ 0 then (.ok s.eraseStatus, s)
    else (.ok 0, { s with flash := .blank, erases := s.erases + 1 })

/-- Carries out a command. -/
def answer (s : Simulated) : (c : Command) → Except SessionError c.Reply × Simulated
  | .read address => s.read address
  | .scratch index value => s.stage index value
  | .commit address seed => s.commit address seed
  | .erase seed => s.erase seed
  | .reset => (.ok (), { s with resets := s.resets + 1 })

/-- Replaces flash contents without any command. -/
def load (s : Simulated) (address : UInt32) (bytes : List UInt8) : Simulated :=
  { s with flash := s.flash.load address bytes }

/-- The simulated bootloader as a device. -/
def device : Device Simulated where
  call c s :=
    let (answer, s') := s.answer c
    ⟨answer, s', []⟩
  seed := Simulated.seed

end Simulated

end CanDfu

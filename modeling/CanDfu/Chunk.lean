/-
  CanDfu.Chunk

  The programming unit of the bootloader: four words, committed together at one address and
  confirmed by a checksum.  `Quad` is the four words on their own, as the scratch registers hold
  them; a `Chunk` is a quad with the address it is meant for.
-/
import CanDfu.LittleEndian
import CanDfu.Text.Hex

namespace CanDfu

/-- Bytes programmed by one commit. -/
def chunkBytes : Nat := 16

/-- An erased byte of flash. -/
def erasedByte : UInt8 := 0xFF

/-- An erased word of flash. -/
def erasedWord : UInt32 := 0xFFFFFFFF

/-- Whether every byte is in the erased state. -/
def isErased (bs : List UInt8) : Bool :=
  bs.all (· == erasedByte)

/-- The sum of the words modulo 2^32.  It does not see the order of the words. -/
def checksum (ws : List UInt32) : UInt32 :=
  ws.foldl (· + ·) 0

/-- Four words. -/
structure Quad where
  w0 : UInt32
  w1 : UInt32
  w2 : UInt32
  w3 : UInt32
  deriving DecidableEq, Repr

namespace Quad

/-- Four cleared words. -/
def zero : Quad := ⟨0, 0, 0, 0⟩

/-- The words in order. -/
def toList (q : Quad) : List UInt32 := [q.w0, q.w1, q.w2, q.w3]

/-- The words of up to 16 bytes; what is missing reads as zero. -/
def ofBytes (bs : List UInt8) : Quad :=
  ⟨LittleEndian.firstWord 0 bs, LittleEndian.firstWord 0 (bs.drop 4),
    LittleEndian.firstWord 0 (bs.drop 8), LittleEndian.firstWord 0 (bs.drop 12)⟩

/-- The 16 bytes of the words. -/
def toBytes (q : Quad) : List UInt8 := q.toList.flatMap LittleEndian.bytes

/-- The checksum of the four words. -/
def checksum (q : Quad) : UInt32 := CanDfu.checksum q.toList

/-- Replaces the word at `index`, if there is one. -/
def set? (q : Quad) (index : UInt8) (value : UInt32) : Option Quad :=
  match index.toNat with
  | 0 => some { q with w0 := value }
  | 1 => some { q with w1 := value }
  | 2 => some { q with w2 := value }
  | 3 => some { q with w3 := value }
  | _ => none

@[simp] theorem length_toList (q : Quad) : q.toList.length = 4 := rfl

@[simp] theorem length_toBytes (q : Quad) : q.toBytes.length = chunkBytes := rfl

theorem set?_eq_none_iff (q : Quad) (index : UInt8) (value : UInt32) :
    q.set? index value = none ↔ 4 ≤ index := by
  rw [UInt8.le_iff_toNat_le]
  show _ ↔ 4 ≤ index.toNat
  unfold set?
  split <;> simp_all
  omega

end Quad

/-- Four words and the address of the first. -/
structure Chunk where
  address : UInt32
  words : Quad
  deriving DecidableEq, Repr

namespace Chunk

/-- The chunk of up to 16 bytes at an address; a short tail is completed with zeros. -/
def ofBytes (address : UInt32) (bs : List UInt8) : Chunk :=
  ⟨address, .ofBytes bs⟩

/-- The checksum a device reports after committing this chunk. -/
def checksum (c : Chunk) : UInt32 := c.words.checksum

/-- The address of word `index`. -/
def wordAddress (c : Chunk) (index : Nat) : UInt32 :=
  c.address + UInt32.ofNat index * 4

/-- Each word with its address, in order. -/
def placed (c : Chunk) : List (UInt32 × UInt32) :=
  [(c.wordAddress 0, c.words.w0), (c.wordAddress 1, c.words.w1),
    (c.wordAddress 2, c.words.w2), (c.wordAddress 3, c.words.w3)]

/-- The chunk in a message. -/
def text (c : Chunk) : String := "chunk@" ++ Hex.address c.address

end Chunk

end CanDfu

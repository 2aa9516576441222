import AesdChar.Memory

set_option autoImplicit false

namespace AesdChar

structure AesdBufferEntry where
  buffptr : Ptr
  size : UInt64
deriving DecidableEq, Repr

def zeroEntry : AesdBufferEntry := ⟨nullPtr, 0⟩

structure AesdCircularBuffer where
  entry : Vector AesdBufferEntry 10
  inOffs : UInt8
  outOffs : UInt8
  full : Bool
deriving DecidableEq, Repr

def aesdCircularBufferInit : AesdCircularBuffer :=
  ⟨Vector.replicate 10 zeroEntry, 0, 0, false⟩

def slotAt (buffer : AesdCircularBuffer) (slot : Nat) : AesdBufferEntry :=
  buffer.entry[slot % 10]

def nextOffs (offs : UInt8) : UInt8 := (offs + 1) % 10

-- The callers never pass NULL. none: in_offs lies outside the array.
def aesdCircularBufferAddEntry (buffer : AesdCircularBuffer) (addEntry : AesdBufferEntry) :
    Option (AesdCircularBuffer × Ptr) :=
  if bound : buffer.inOffs.toNat < 10 then
    let bufToRet := if buffer.full then buffer.entry[buffer.inOffs.toNat].buffptr else nullPtr
    let entry := buffer.entry.set buffer.inOffs.toNat addEntry
    let inOffs := nextOffs buffer.inOffs
    if buffer.full then
      some (⟨entry, inOffs, nextOffs buffer.outOffs, true⟩, bufToRet)
    else if inOffs = buffer.outOffs then
      some (⟨entry, inOffs, buffer.outOffs, true⟩, bufToRet)
    else
      some (⟨entry, inOffs, buffer.outOffs, false⟩, bufToRet)
  else none

-- The outer none is a slot outside the array or a loop that has not ended, the
-- inner none the NULL that is returned.
def findEntryLoop (buffer : AesdCircularBuffer) (charOffset : UInt64) :
    Nat → UInt64 → Nat → Option (Option (Nat × UInt64))
  | 0, _, _ => none
  | fuel + 1, offset, idx =>
      if bound : idx < 10 then
        let size := buffer.entry[idx].size
        let offset := offset + size
        if charOffset < offset then some (some (idx, size - (offset - charOffset)))
        else
          let next := (idx + 1) % 10
          if next ≠ buffer.inOffs.toNat then findEntryLoop buffer charOffset fuel offset next
          else some none
      else none

def aesdCircularBufferFindEntryOffsetForFpos (buffer : AesdCircularBuffer) (charOffset : UInt64) :
    Option (Option (Nat × UInt64)) :=
  findEntryLoop buffer charOffset 10 0 buffer.outOffs.toNat

end AesdChar

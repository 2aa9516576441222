import AesdChar.CallCode
import AesdChar.Session

set_option autoImplicit false

namespace AesdChar

open CyclicQueue Framing HeapStore

-- A client of the server: it sends one packet, or a seek.
inductive Visit where
  | packet (text : Bytes)
  | seek (x y : UInt32)

def Visit.sent : Visit → Bytes
  | .packet text => text
  | .seek x y => seekPacket x y

def Visit.extend (history : List Bytes) : Visit → List Bytes
  | .packet text => history ++ [text]
  | .seek _ _ => history

-- Where the reply starts: the beginning of the newest ten commands, or the byte
-- of a slot that the seek asks for, if the slot has it.
def seekStart (log : CommandLog) (x y : UInt32) : Nat :=
  if x.toNat < 10 ∧ (decodedOffset x y).toNat < (log.slot x.toNat).length then
    log.slotStart x.toNat + (decodedOffset x y).toNat
  else 0

def Visit.reply (history : List Bytes) : Visit → Bytes
  | .packet text => ((history ++ [text]).rtake 10).flatten
  | .seek x y => (history.rtake 10).flatten.drop (seekStart ⟨history, .text []⟩ x y)

section

variable (api : KernelApi) (rounds : Nat) (readBuf : Ptr) (given : readBuf ≠ nullPtr)
  (enough : 10 * api.kmallocMaxSize < 512 * rounds)

include given enough

end

end AesdChar

import AesdChar.LogRefines
import AesdChar.ReplyLoop
import AesdChar.SeekCommand

set_option autoImplicit false

namespace AesdChar

open CyclicQueue Framing HeapStore

structure ReadRequest where
  count : UInt64
  env : ReadEnv

-- ahead: what stdio has read from the file and not handed out.
structure Stream where
  filp : Filp
  ahead : Bytes

structure Session where
  malloc : Bool
  recv : List RecvResult
  lock : Bool
  chunks : Nat → Nat × WriteEnv
  ioctl : IoctlEnv
  reads : Nat → ReadRequest
  sends : Nat → Bytes → Option Nat

def Stream.rest (stream : Stream) (lines : List Bytes) : Bytes :=
  stream.ahead ++ lines.flatten.drop (position stream.filp.fPos)

end AesdChar

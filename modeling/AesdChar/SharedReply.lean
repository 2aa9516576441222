import AesdChar.Reply
import AesdChar.Server
import Mathlib.Data.List.Infix

set_option autoImplicit false

namespace AesdChar

open CyclicQueue Framing HeapStore

-- What a client has read since it opened its file for the reply, or since its
-- ioctl: the bytes, the place they start at, and how many lines were complete
-- at the first of them.
structure Taken where
  got : Bytes
  origin : Nat
  begun : Nat

def Taken.read (taken : Taken) (complete : Nat) (out : Bytes) : Taken :=
  ⟨taken.got ++ out, taken.origin, if taken.got = [] then complete else taken.begun⟩

section

variable {ι : Type} [DecidableEq ι] (api : KernelApi) (plan : ι → Option Bytes) (server : Server ι)
    (i : ι) (taken : Taken)

end

end AesdChar

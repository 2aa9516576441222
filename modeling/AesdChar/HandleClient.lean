import AesdChar.Device
import AesdChar.Library.Strtoul
import AesdChar.Library.Framing

set_option autoImplicit false

namespace AesdChar

open CString Framing

-- "AESDCHAR_IOCSEEKTO:"
def aesdCharIoctlCmd : Bytes := [65, 69, 83, 68, 67, 72, 65, 82, 95, 73, 79, 67, 83, 69, 69, 75, 84, 79, 58]

def cmdIdentifierLen : Nat := 19

def totalCmdLen : Nat := 22

-- realloc is the answer in the round that the bytes start.
inductive RecvResult where
  | error
  | closed
  | data (bytes : Bytes) (realloc : Answer)

structure ReceiveState where
  buf : Bytes
  finalBuffer : Bytes
  totalBytesRecv : Nat
  moreBytesToRead : Bool
  failed : Bool
  ioctlCmdFound : Bool

def receiveStart : ReceiveState := ⟨List.replicate 512 0, [0], 0, true, false, false⟩

-- none: an access outside buf or final_buffer, or an overflow of total_bytes_recv.
def receiveChunk (state : ReceiveState) (bytes : Bytes) (realloc : Answer) : Option ReceiveState := do
  let buf := bytes ++ state.buf.drop bytes.length
  let newBufLen := (← strlen state.finalBuffer) + (← strlen buf) + 1
  if realloc.address = none then return { state with buf, failed := true }
  let totalBytesRecv := state.totalBytesRecv + bytes.length
  if 2 ^ 31 ≤ totalBytesRecv then none
  let finalBuffer ← strcpy (resized state.finalBuffer newBufLen realloc) buf
  let newLineFound ← CString.memchr finalBuffer newLine 512
  let ioctlCmdFound ← strncmpEq finalBuffer aesdCharIoctlCmd cmdIdentifierLen
  return ⟨buf, finalBuffer, totalBytesRecv,
    !newLineFound.isSome && !(decide (totalCmdLen ≤ totalBytesRecv) && ioctlCmdFound), state.failed, ioctlCmdFound⟩

-- A peer that sends nothing more has closed.
def receiveLoop : ReceiveState → List RecvResult → Option (ReceiveState × List RecvResult)
  | state, [] => some ({ state with moreBytesToRead := false }, [])
  | state, event :: rest =>
      if state.moreBytesToRead && !state.failed then
        match event with
        | .error => some ({ state with moreBytesToRead := false, failed := true }, rest)
        | .closed => some ({ state with moreBytesToRead := false }, rest)
        | .data bytes realloc =>
            match receiveChunk state bytes realloc with
            | none => none
            | some next => receiveLoop next rest
      else some (state, event :: rest)

inductive Request where
  | seek (finalBuffer : Bytes)
  | append (text : Bytes)
deriving DecidableEq

def requestOf (state : ReceiveState) : Option Request :=
  if state.ioctlCmdFound then some (.seek state.finalBuffer)
  else if state.totalBytesRecv ≤ state.finalBuffer.length then
    some (.append (state.finalBuffer.take state.totalBytesRecv))
  else none

def handleFrom (state : ReceiveState) (events : List RecvResult) : Option (Request × List RecvResult) :=
  match receiveLoop state events with
  | none => none
  | some (final, rest) => (requestOf final).map fun request => (request, rest)

-- malloc(1) is written to without a usable check.
def handleClient (malloc : Bool) (events : List RecvResult) : Option (Request × List RecvResult) :=
  if malloc then handleFrom receiveStart events else none

def seektoOf (finalBuffer : Bytes) : Option AesdSeekto :=
  match strtoul (finalBuffer.drop cmdIdentifierLen), strtoul (finalBuffer.drop (totalCmdLen - 1)) with
  | some writeCmd, some writeOffset => some ⟨writeCmd.toUInt32, writeOffset.toUInt32⟩
  | _, _ => none

inductive Served where
  | seek (seekto : AesdSeekto)
  | append (text : Bytes)
deriving DecidableEq

def serve : Request → Option Served
  | .seek finalBuffer => (seektoOf finalBuffer).map .seek
  | .append text => some (.append text)

def serveFrom (state : ReceiveState) (events : List RecvResult) : Option (Served × List RecvResult) :=
  match handleFrom state events with
  | none => none
  | some (request, rest) => (serve request).map fun served => (served, rest)

def serveClient (malloc : Bool) (events : List RecvResult) : Option (Served × List RecvResult) :=
  if malloc then serveFrom receiveStart events else none

end AesdChar

import AesdChar.RingFifo
import AesdChar.Device
import AesdChar.Library.Framing
import AesdChar.DeviceRep
import AesdChar.WriteStep
import AesdChar.WriteSpec
import AesdChar.WriteRun
import AesdChar.Library.Concat
import AesdChar.RingLookup
import AesdChar.ReadSpec
import AesdChar.DriverRun
import AesdChar.ReadRun
import AesdChar.Seek
import AesdChar.Acknowledged
import AesdChar.FailedWrite
import AesdChar.Reply
import AesdChar.Server
import AesdChar.HandleClient
import AesdChar.ReceivePacket
import AesdChar.Library.LockProgram
import AesdChar.Library.LockSerial
import AesdChar.Library.LockRun
import AesdChar.Library.Interleaving
import AesdChar.MemoryFrame
import AesdChar.Statements
import AesdChar.CallCode
import AesdChar.Serialisable
import AesdChar.Cleanup
import AesdChar.Leaks
import AesdChar.Llseek
import AesdChar.FindEntry
import AesdChar.SeekBounds
import AesdChar.ReceiveBounds
import AesdChar.SeekCommand
import AesdChar.ReplyLoop
import AesdChar.JoinedOnce
import AesdChar.ServerSetup
import AesdChar.SystemCalls
import AesdChar.LogLinear
import AesdChar.CallsReturn
import AesdChar.SessionReply
import AesdChar.Shutdown
import AesdChar.TailQueue
import AesdChar.ListQueue
import AesdChar.SlistQueue
import AesdChar.StailqQueue
import AesdChar.CircleQueue
import AesdChar.SafeLoops
import AesdChar.LostBlocks
import AesdChar.Lifecycle
import AesdChar.ConnectionsClosed
import AesdChar.SharedReply
import AesdChar.ThreadingWaits
import AesdChar.Library.Descriptors
import AesdChar.StartUp
import AesdChar.ServerProcess

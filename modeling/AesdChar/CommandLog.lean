import AesdChar.ReadRun
import AesdChar.Statements

set_option autoImplicit false

namespace AesdChar

open CyclicQueue

-- The device without a heap or an array.
inductive Pending where
  | text (bytes : Bytes)
  | lost (size : Nat)
deriving DecidableEq, Repr

structure CommandLog where
  completed : List Bytes
  pending : Pending
deriving DecidableEq, Repr

def emptyLog : CommandLog := ⟨[], .text []⟩

def CommandLog.lines (log : CommandLog) : List Bytes := log.completed.rtake 10

-- A command whose bytes were lost goes on with what its next block held before.
def Pending.base (pending : Pending) (stale : Nat → UInt8) : Bytes :=
  match pending with
  | .text bytes => bytes
  | .lost size => (List.range' 0 size).map stale

def Pending.drop : Pending → Pending
  | .text bytes => if bytes = [] then .text [] else .lost bytes.length
  | .lost size => .lost size

def CommandLog.append (log : CommandLog) (stale : Nat → UInt8) (bytes : Bytes) : CommandLog :=
  if newLine ∈ bytes then ⟨log.completed ++ [log.pending.base stale ++ bytes], .text []⟩
  else ⟨log.completed, .text (log.pending.base stale ++ bytes)⟩

-- The newest command in a slot was completed this many commands ago.
def CommandLog.slot (log : CommandLog) (index : Nat) : Bytes :=
  log.completed.reverse.getD ((log.completed.length + 9 - index) % 10) []

theorem slot_latest (log : CommandLog) (index number : Nat) (slot : number % 10 = index)
    (done : number < log.completed.length)
    (newest : log.completed.length ≤ number + 10) : log.slot index = log.completed.getD number [] := by
  have age : (log.completed.length + 9 - index) % 10 = log.completed.length - 1 - number := by omega
  have inside : log.completed.length - 1 - number < log.completed.length := by omega
  have back : log.completed.length - 1 - (log.completed.length - 1 - number) = number := by omega
  rw [CommandLog.slot, age, List.getD_eq_getElem?_getD, List.getElem?_reverse inside, back, List.getD_eq_getElem?_getD]

theorem slot_unused (log : CommandLog) (index : Nat) (bound : index < 10) (unused : log.completed.length ≤ index) :
    log.slot index = [] := by
  have age : log.completed.length ≤ (log.completed.length + 9 - index) % 10 := by omega
  rw [CommandLog.slot, List.getD_eq_getElem?_getD, List.getElem?_eq_none (by simpa using age)]
  rfl

-- What the log leaves open: the allocator's answers and the word after the last slot.
structure Grants where
  writeBuf : Bool
  line : Bool
  beyond : UInt64

def Pending.size : Pending → Nat
  | .text bytes => bytes.length
  | .lost size => size

structure LogOutcome where
  log : CommandLog
  fPos : Int64
  reply : CallReply
deriving DecidableEq

def CommandLog.read (log : CommandLog) (filp : Filp) (buf : Ptr) (count : UInt64) (env : ReadEnv) : LogOutcome :=
  if buf = nullPtr then ⟨log, filp.fPos, -eInval, []⟩
  else if filp.privateData = false then ⟨log, filp.fPos, -ePerm, []⟩
  else if env.lock = false then ⟨log, filp.fPos, -eRestartSys, []⟩
  else
    let bytes := readBytes log.lines (position filp.fPos) count.toNat
    if copyToUser env.copyToUser bytes then ⟨log, filp.fPos + byteCount bytes, byteCount bytes, bytes⟩
    else ⟨log, filp.fPos, -eFault, []⟩

def CommandLog.write (log : CommandLog) (filp : Filp) (buf : Option Bytes) (count : UInt64) (env : WriteEnv)
    (grants : Grants) : LogOutcome :=
  match buf with
  | none => ⟨log, filp.fPos, -eInval, []⟩
  | some user =>
      if grants.writeBuf = false then ⟨log, filp.fPos, -eNoMem, []⟩
      else if filp.privateData = false then ⟨log, filp.fPos, -ePerm, []⟩
      else if count ≠ 0 ∧ ¬ (env.copyFromUser = true ∧ count.toNat ≤ user.length) then ⟨log, filp.fPos, -eFault, []⟩
      else if env.lock = false then ⟨log, filp.fPos, -eRestartSys, []⟩
      else if grants.line = false then ⟨{ log with pending := log.pending.drop }, filp.fPos, -eNoMem, []⟩
      else ⟨log.append env.krealloc.stale (accepted user count), filp.fPos + count.toInt64, count.toInt64, []⟩

def CommandLog.llseek (api : KernelApi) (log : CommandLog) (filp : Filp) (off : Int64) (whence : Int32) (lock : Bool) :
    LogOutcome :=
  if filp.privateData = false then ⟨log, filp.fPos, -ePerm, []⟩
  else if lock = false then ⟨log, filp.fPos, -eRestartSys, []⟩
  else
    let (retval, fPos) := api.fixedSizeLlseek filp.fPos off whence (byteCount log.lines.flatten)
    if retval < 0 then ⟨log, fPos, -eInval, []⟩ else ⟨log, retval, retval, []⟩

def CommandLog.slotLength (log : CommandLog) (beyond : UInt64) (index : Nat) : Nat :=
  if index < 10 then (log.slot index).length else beyond.toNat

def CommandLog.slotStart (log : CommandLog) (index : Nat) : Nat :=
  ((List.range index).map fun slot => (log.slot slot).length).sum

def CommandLog.ioctl (log : CommandLog) (filp : Filp) (cmd : UInt32) (seekTo : AesdSeekto) (env : IoctlEnv)
    (beyond : UInt64) : LogOutcome :=
  if filp.privateData = false then ⟨log, filp.fPos, -ePerm, []⟩
  else if cmd ≠ aesdcharIocseekto then ⟨log, filp.fPos, -eNoTty, []⟩
  else if env.copyFromUser = false then ⟨log, filp.fPos, -eFault, []⟩
  else if env.lock = false then ⟨log, filp.fPos, -eRestartSys, []⟩
  else if 10 < seekTo.writeCmd ∨ log.slotLength beyond seekTo.writeCmd.toNat ≤ seekTo.writeCmdOffset.toNat then
    ⟨log, filp.fPos, -eInval, []⟩
  else
    ⟨log, (UInt64.ofNat (log.slotStart seekTo.writeCmd.toNat + seekTo.writeCmdOffset.toNat)).toInt64, 0, []⟩

def CommandLog.call (api : KernelApi) (log : CommandLog) (filp : Filp) (grants : Grants) : DriverCall → LogOutcome
  | .read buf count env => log.read filp buf count env
  | .write buf count env => log.write filp buf count env grants
  | .llseek off whence lock => log.llseek api filp off whence lock
  | .ioctl cmd seekTo env => log.ioctl filp cmd seekTo env grants.beyond

def CommandLog.Allows (api : KernelApi) (log : CommandLog) (grants : Grants) (ret : Int64) : DriverCall → Prop
  | .write (some user) count env =>
      (grants.writeBuf = true → Allocatable api count.toNat env.kmalloc) ∧ (count = 0 → grants.writeBuf = true) ∧
        (0 ≤ ret → Allocatable api (log.pending.size + (accepted user count).length) env.krealloc)
  | _ => True

theorem log_write_cases (log : CommandLog) (filp : Filp) (user : Bytes) (count : UInt64) (env : WriteEnv)
    (grants : Grants) :
    ((log.write filp (some user) count env grants).reply.ret < 0 ∧
      (log.write filp (some user) count env grants).log.completed = log.completed) ∨
    (grants.writeBuf = true ∧ log.write filp (some user) count env grants =
      ⟨log.append env.krealloc.stale (accepted user count), filp.fPos + count.toInt64, count.toInt64, []⟩) := by
  unfold CommandLog.write
  dsimp only
  split
  · exact Or.inl ⟨(by decide : -eNoMem < 0), rfl⟩
  · rename_i granted
    split
    · exact Or.inl ⟨(by decide : -ePerm < 0), rfl⟩
    · split
      · exact Or.inl ⟨(by decide : -eFault < 0), rfl⟩
      · split
        · exact Or.inl ⟨(by decide : -eRestartSys < 0), rfl⟩
        · split
          · exact Or.inl ⟨(by decide : -eNoMem < 0), rfl⟩
          · exact Or.inr ⟨by simpa using granted, rfl⟩

end AesdChar

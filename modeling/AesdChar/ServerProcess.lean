import AesdChar.ConnectionsClosed
import AesdChar.StartUp

set_option autoImplicit false

namespace AesdChar

open Descriptors

inductive ServerFile where
  | start (file : StartFile)
  | client
  | log
deriving DecidableEq, Repr

structure ServerProcess where
  connections : Connections
  file : Nat → Option ServerFile

def startProcess (base : Fds StartFile) (failed : Bool) : ServerProcess :=
  ⟨noConnections failed, fun n => (base.file n).map .start⟩

def acceptFile (file : Nat → Option ServerFile) : Option Nat → Nat → Option ServerFile
  | none => file
  | some fd => Function.update file fd (some .client)

def closeFile (file : Nat → Option ServerFile) : Option Nat → Nat → Option ServerFile
  | none => file
  | some fd => Function.update file fd none

-- Up to main's own close of sock_fd, its last call, and without the descriptor
-- that syslog keeps.
inductive ProcessMove : ServerProcess → ServerProcess → Prop where
  | main (process : ServerProcess) (call : MainCall) (clientFd : Nat) (after : MainState)
      (ran : mainStep process.connections.main call = .next after)
      (unused : ∀ fd, acceptedFd process.connections.main call clientFd = some fd → process.file fd = none) :
      ProcessMove process
        ⟨⟨after, (acceptedFd process.connections.main call clientFd).toList ++ process.connections.opened,
            (lostFd process.connections.main call clientFd).toList ++ process.connections.lost,
            process.connections.accepted + (acceptedFd process.connections.main call clientFd).toList.length,
            process.connections.closed⟩,
          acceptFile process.file (acceptedFd process.connections.main call clientFd)⟩
  | thread (process : ServerProcess) (thread : Nat) (after : MainState)
      (ran : threadStep process.connections.main thread = .next after) :
      ProcessMove process
        ⟨⟨after, process.connections.opened.diff (closedFd process.connections.main thread).toList,
          process.connections.lost,
            process.connections.accepted,
            process.connections.closed + (closedFd process.connections.main thread).toList.length⟩,
          closeFile process.file (closedFd process.connections.main thread)⟩
  | signal (process : ServerProcess) :
      ProcessMove process
        { process with connections :=
          { process.connections with main := { process.connections.main with signalCaught := true } } }
  | logOpens (process : ServerProcess) (fd : Nat) (unused : process.file fd = none) :
      ProcessMove process { process with file := Function.update process.file fd (some .log) }
  | logCloses (process : ServerProcess) (fd : Nat) (isLog : process.file fd = some .log) :
      ProcessMove process { process with file := Function.update process.file fd none }

inductive ProcessRun (start : ServerProcess) : ServerProcess → Prop where
  | start : ProcessRun start start
  | step (process after : ServerProcess) (earlier : ProcessRun start process) (move : ProcessMove process after) :
      ProcessRun start after

structure ProcessInv (base : Fds StartFile) (failed : Bool) (process : ServerProcess) : Prop where
  run : ConnectionRun (noConnections failed) process.connections
  clients : ∀ fd, fd ∈ process.connections.opened ↔ process.file fd = some .client
  kept : ∀ fd file, base.file fd = some file → process.file fd = some (.start file)

theorem start_process_inv (base : Fds StartFile) (failed : Bool) :
    ProcessInv base failed (startProcess base failed) := by
  refine ⟨.start, fun fd => ⟨fun member => absurd member List.not_mem_nil, fun client => ?_⟩, fun fd file isFile => ?_⟩
  · cases read : base.file fd with
    | none => simp [startProcess, read] at client
    | some file => simp [startProcess, read] at client
  · simp only [startProcess, isFile, Option.map_some]

section

variable (base : Fds StartFile) (failed : Bool) (process : ServerProcess) (inv : ProcessInv base failed process)

include inv

theorem unused_not_opened (fd : Nat) (unused : process.file fd = none) : fd ∉ process.connections.opened := by
  intro member
  rw [(inv.clients fd).mp member] at unused
  cases unused

theorem unused_not_kept (fd other : Nat) (file : StartFile) (unused : process.file fd = none)
    (isFile : base.file other = some file) : other ≠ fd := by
  rintro rfl
  rw [inv.kept other file isFile] at unused
  cases unused

theorem accept_inv (after : Connections) (accepted : Option Nat) (run : ConnectionRun (noConnections failed) after)
    (opened : after.opened = accepted.toList ++ process.connections.opened)
    (unused : ∀ fd, accepted = some fd → process.file fd = none) :
    ProcessInv base failed ⟨after, acceptFile process.file accepted⟩ := by
  cases accepted with
  | none => exact ⟨run, fun fd => by rw [opened]; exact inv.clients fd, inv.kept⟩
  | some fd =>
      refine ⟨run, fun other => ?_, fun other file isFile => ?_⟩
      · rw [opened, Option.toList_some, List.singleton_append, List.mem_cons, acceptFile]
        by_cases same : other = fd
        · simp [same]
        · simp [same, inv.clients other]
      · have apart := unused_not_kept base failed process inv fd other file (unused fd rfl) isFile
        exact (Function.update_of_ne apart _ _).trans (inv.kept other file isFile)

theorem close_inv_client (after : Connections) (closed : Option Nat) (run : ConnectionRun (noConnections failed) after)
    (opened : after.opened = process.connections.opened.diff closed.toList)
    (client : ∀ fd, closed = some fd → process.file fd = some .client) :
    ProcessInv base failed ⟨after, closeFile process.file closed⟩ := by
  cases closed with
  | none => exact ⟨run, fun fd => by rw [opened]; exact inv.clients fd, inv.kept⟩
  | some fd =>
      have once := (connection_run_inv failed process.connections inv.run).once
      refine ⟨run, fun other => ?_, fun other file isFile => ?_⟩
      · rw [opened, Option.toList_some, List.diff_cons, List.diff_nil, once.mem_erase_iff, closeFile]
        by_cases same : other = fd
        · simp [same]
        · simp [same, inv.clients other]
      · have apart : other ≠ fd := by
          rintro rfl
          have isClient := client other rfl
          rw [inv.kept other file isFile] at isClient
          cases isClient
        exact (Function.update_of_ne apart _ _).trans (inv.kept other file isFile)

theorem log_inv (fd : Nat) (now : Option ServerFile) (before : process.file fd = none ∨ process.file fd = some .log)
    (notClient : now ≠ some .client) :
    ProcessInv base failed { process with file := Function.update process.file fd now } := by
  refine ⟨inv.run, fun other => ?_, fun other file isFile => ?_⟩
  · by_cases same : other = fd
    · simp only [same, Function.update_self, inv.clients]
      rcases before with none | log
      · simp [none, notClient]
      · simp [log, notClient]
    · simp only [Function.update_of_ne same]
      exact inv.clients other
  · have apart : other ≠ fd := by
      rintro rfl
      rw [inv.kept other file isFile] at before
      rcases before with impossible | impossible <;> cases impossible
    exact (Function.update_of_ne apart _ _).trans (inv.kept other file isFile)

theorem closed_client (thread fd : Nat) (closes : closedFd process.connections.main thread = some fd) :
    process.file fd = some .client := by
  have own := closed_connection process.connections.main thread fd closes
  exact (inv.clients fd).mp ((connection_run_inv failed process.connections inv.run).used thread fd own).1

theorem process_move_inv (after : ServerProcess) (move : ProcessMove process after) : ProcessInv base failed after := by
  cases move with
  | main call clientFd next ran unused =>
      have fresh := fun fd accepts => unused_not_opened base failed process inv fd (unused fd accepts)
      exact accept_inv base failed process inv _ _ (.step _ _ inv.run (.main _ call clientFd next ran fresh)) rfl unused
  | thread thread next ran =>
      exact close_inv_client base failed process inv _ _ (.step _ _ inv.run (.thread _ thread next ran)) rfl
        (closed_client base failed process inv thread)
  | signal => exact ⟨.step _ _ inv.run (.signal _), inv.clients, inv.kept⟩
  | logOpens fd unused => exact log_inv base failed process inv fd _ (Or.inl unused) (by simp)
  | logCloses fd isLog => exact log_inv base failed process inv fd _ (Or.inr isLog) (by simp)

end

theorem process_run_inv (base : Fds StartFile) (failed : Bool) (process : ServerProcess)
    (run : ProcessRun (startProcess base failed) process) : ProcessInv base failed process := by
  induction run with
  | start => exact start_process_inv base failed
  | step process after _ move ih => exact process_move_inv base failed process ih after move

-- With retval -1 from the start main leaves its loop at once.
structure Idle (state : Connections) : Prop where
  accepted : state.accepted = 0
  failed : state.main.failed = true
  first : state.main.first = none
  place : state.main.place = .top ∨ state.main.place = .emptying ∨ state.main.place = .returned

theorem idle_main (state : Connections) (idle : Idle state) (call : MainCall) (after : MainState)
    (ran : mainStep state.main call = .next after) :
    after.failed = true ∧ after.first = none ∧ (after.place = .emptying ∨ after.place = .returned) := by
  rcases idle.place with top | emptying | returned
  · simp only [mainStep, top, idle.failed, Bool.not_true, Bool.and_false, Bool.false_eq_true, if_false] at ran
    cases ran
    exact ⟨idle.failed, idle.first, Or.inl rfl⟩
  · rw [mainStep, emptying] at ran
    simp only [emptyStep, idle.first] at ran
    cases ran
    exact ⟨idle.failed, idle.first, Or.inr rfl⟩
  · rw [mainStep, returned] at ran
    cases ran

theorem failed_start_idle (state : Connections) (run : ConnectionRun (noConnections true) state) : Idle state := by
  induction run with
  | start => exact ⟨rfl, rfl, rfl, Or.inl rfl⟩
  | step state after _ move ih =>
      cases move with
      | main call clientFd next ran unused =>
          obtain ⟨failed, first, place⟩ := idle_main state ih call next ran
          have none : acceptedFd state.main call clientFd = none := by simp [acceptedFd, MainState.looping, ih.failed]
          refine ⟨?_, failed, first, Or.inr place⟩
          rw [none]
          exact ih.accepted
      | thread thread next ran =>
          have keeps := thread_keeps_main state.main next thread ran
          exact ⟨ih.accepted, keeps.failed.trans ih.failed,
            keeps.first.trans ih.first, by rw [keeps.place]; exact ih.place⟩
      | signal => exact ⟨ih.accepted, ih.failed, ih.first, ih.place⟩

/-- What was open when the loop began stays open; threads close the connections of clients only. -/
theorem server_keeps_listening (fds base : Fds StartFile) (answer : StartAnswer) (sockFd : Option Nat) (failed : Bool)
    (started : startUp fds answer = .loops base sockFd failed) (process : ServerProcess)
    (run : ProcessRun (startProcess base failed) process) :
    (∀ fd file, base.file fd = some file → process.file fd = some (.start file)) ∧
      (∀ fd, process.file fd = some .client ↔ fd ∈ process.connections.opened) ∧
      (∀ thread fd, closedFd process.connections.main thread = some fd → process.file fd = some .client) ∧
      (process.connections.accepted ≠ 0 →
        (∃ addresses, StartsWell fds answer addresses) ∧ ∃ fd, sockFd = some fd ∧
        process.file fd = some (.start .socket)) := by
  have inv := process_run_inv base failed process run
  refine ⟨inv.kept, fun fd => (inv.clients fd).symm, closed_client base failed process inv, fun served => ?_⟩
  cases failed with
  | true => exact absurd (failed_start_idle process.connections inv.run).accepted served
  | false =>
      obtain ⟨addresses, well⟩ := start_up_needs fds answer base sockFd started
      obtain ⟨after, found, sockets, loops, up⟩ := start_up_gives fds answer addresses well
      rw [started] at loops
      cases loops
      obtain ⟨fd, isFd, isSocket⟩ := up.isSocket
      exact ⟨⟨addresses, well⟩, fd, isFd, inv.kept fd .socket isSocket⟩

def standardStreams : Fds StartFile where
  file n := if n < 3 then some .inherited else none
  bound := 3
  closed _ beyond := if_neg (Nat.not_lt.mpr beyond)

def goodAnswer : StartAnswer where
  sigterm := true
  sigint := true
  mutexInit := true
  addresses := some [⟨true, true, true⟩]
  runDaemon := true
  fork := .child
  setsid := true
  chdir := true
  openDevNull := true
  dup := true
  dupAgain := true
  listen := true

theorem server_keeps_listening_first_client :
    ∃ base sockFd process, startUp standardStreams goodAnswer = .loops base sockFd false ∧
      ProcessRun (startProcess base false) process ∧ process.connections.accepted = 1 ∧
        ∃ fd, sockFd = some fd ∧ process.file fd = some (.start .socket) := by
  have well : StartsWell standardStreams goodAnswer [⟨true, true, true⟩] :=
    ⟨⟨rfl, rfl⟩, rfl, rfl, List.cons_ne_nil _ _, by simp [AddrInfo.usable], rfl,
      fun _ => ⟨rfl, rfl, rfl, rfl, rfl, rfl⟩,
      fun _ => by decide⟩
  obtain ⟨base, sockFd, sockets, loops, _⟩ := start_up_gives standardStreams goodAnswer _ well
  have free : (startProcess base false).file base.bound = none := by
    simp only [startProcess, base.closed base.bound (Nat.le_refl _), Option.map_none]
  have accepted : ProcessRun (startProcess base false) _ :=
    .step _ _ .start (.main _ (.client base.bound 100 staleNode) 0 _ rfl fun fd given => by cases given; exact free)
  have served := server_keeps_listening standardStreams base goodAnswer sockFd false loops _ accepted
  exact ⟨base, sockFd, _, loops, accepted, rfl, (served.2.2.2 Nat.one_ne_zero).2⟩

end AesdChar

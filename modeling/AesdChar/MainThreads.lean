import AesdChar.Library.Slist

set_option autoImplicit false

namespace AesdChar

structure ThreadDataS where
  threadComplete : Bool
  clientFd : Nat
  threadId : Nat
  next : Option Nat
deriving DecidableEq, Repr

-- closed: handle_client is back. completed: thread_complete is set.
inductive ThreadPhase where
  | started
  | handling (clientFd : Nat)
  | closed
  | completed
  | returned
deriving DecidableEq, Repr

structure ClientThread where
  node : Nat
  phase : ThreadPhase
deriving DecidableEq, Repr

inductive MainPlace where
  | top
  | allocated (threadStruct : Nat)
  | created (threadStruct : Nat) (thread : Nat)
  | foreach (threadPtr : Option Nat)
  | visiting (threadPtr : Nat) (nextThread : Option Nat)
  | joining (threadPtr : Nat) (nextThread : Option Nat)
  | removing (threadPtr : Nat) (nextThread : Option Nat)
  | walking (threadPtr : Nat) (nextThread : Option Nat) (curelm : Nat)
  | freeing (threadPtr : Nat) (nextThread : Option Nat)
  | emptying
  | lastJoining (threadRm : Nat)
  | lastRemoving (threadRm : Nat)
  | lastFreeing (threadRm : Nat)
  | returned
deriving DecidableEq, Repr

structure PassLog where
  visited : List (Nat × Bool)
  joined : List Nat
  freed : List Nat

-- accepts counts the calls of accept, cut the iterations that continue ends and
-- passes the reaping passes, the last of them in log.
structure MainState where
  place : MainPlace
  heap : Nat → Option ThreadDataS
  first : Option Nat
  threads : Nat → Option ClientThread
  signalCaught : Bool
  failed : Bool
  accepts : Nat
  cut : Nat
  passes : Nat
  log : PassLog

def mainStart (failed : Bool) : MainState :=
  ⟨.top, fun _ => none, none, fun _ => none, false, failed, 0, 0, 0, ⟨[], [], []⟩⟩

inductive MainCall where
  | acceptFails
  | mallocFails
  | client (clientFd : Nat) (threadStruct : Nat) (stale : ThreadDataS)
  | createFails
  | creates (thread : Nat)
  | other

-- undefined: a node is used that is not allocated, NULL is followed, or a thread
-- is joined that is none.
inductive Outcome where
  | blocked
  | undefined
  | next (state : MainState)

def MainState.go (state : MainState) (place : MainPlace) : MainState := { state with place }

def withNode (state : MainState) (node : Nat) (use : ThreadDataS → Outcome) : Outcome :=
  match state.heap node with
  | none => .undefined
  | some data => use data

def startPass (state : MainState) : MainState :=
  { state with place := .foreach state.first, passes := state.passes + 1, log := ⟨[], [], []⟩ }

def acceptStep (state : MainState) : MainCall → Outcome
  | .acceptFails => .next (startPass { state with accepts := state.accepts + 1 })
  | .mallocFails => .next { state with accepts := state.accepts + 1, cut := state.cut + 1, failed := true }
  | .client clientFd threadStruct stale =>
      if state.heap threadStruct = none then
        .next { state with
          accepts := state.accepts + 1
          heap := Function.update state.heap threadStruct (some { stale with clientFd, threadComplete := false })
          place := .allocated threadStruct }
      else .blocked
  | _ => .blocked

def createStep (state : MainState) (threadStruct : Nat) : MainCall → Outcome
  | .createFails => withNode state threadStruct fun _ =>
      .next { state with
        heap := Function.update state.heap threadStruct none
        cut := state.cut + 1
        failed := true
        place := .top }
  | .creates thread =>
      if state.threads thread = none then
        .next { state with
          threads := Function.update state.threads thread (some ⟨threadStruct, .started⟩)
          place := .created threadStruct thread }
      else .blocked
  | _ => .blocked

def insertStep (state : MainState) (threadStruct thread : Nat) : Outcome :=
  withNode state threadStruct fun data =>
    .next (startPass { state with
      heap := Function.update state.heap threadStruct (some { data with threadId := thread, next := state.first })
      first := some threadStruct })

def foreachStep (state : MainState) : Option Nat → Outcome
  | none => .next (state.go .top)
  | some threadPtr => withNode state threadPtr fun data => .next (state.go (.visiting threadPtr data.next))

def visitStep (state : MainState) (threadPtr : Nat) (nextThread : Option Nat) : Outcome :=
  withNode state threadPtr fun data =>
    .next { state with
      log := { state.log with visited := state.log.visited ++ [(threadPtr, data.threadComplete)] }
      place := if data.threadComplete then .joining threadPtr nextThread else .foreach nextThread }

def joinStep (state : MainState) (node : Nat) (place : MainPlace) : Outcome :=
  withNode state node fun data =>
    match state.threads data.threadId with
    | none => .undefined
    | some thread =>
        if thread.phase = .returned then
          .next { state with
            threads := Function.update state.threads data.threadId none
            log := { state.log with joined := state.log.joined ++ [node] }
            place }
        else .blocked

def removeHeadStep (state : MainState) (place : MainPlace) : Outcome :=
  match state.first with
  | none => .undefined
  | some node => withNode state node fun data => .next { state with first := data.next, place }

def removeStep (state : MainState) (threadPtr : Nat) (nextThread : Option Nat) : Outcome :=
  if state.first = some threadPtr then removeHeadStep state (.freeing threadPtr nextThread)
  else
    match state.first with
    | none => .undefined
    | some curelm => .next (state.go (.walking threadPtr nextThread curelm))

def walkStep (state : MainState) (threadPtr : Nat) (nextThread : Option Nat) (curelm : Nat) : Outcome :=
  withNode state curelm fun data =>
    if data.next = some threadPtr then
      withNode state threadPtr fun removed =>
        .next { state with
          heap := Function.update state.heap curelm (some { data with next := removed.next })
          place := .freeing threadPtr nextThread }
    else
      match data.next with
      | none => .undefined
      | some next => .next (state.go (.walking threadPtr nextThread next))

def freeStep (state : MainState) (node : Nat) (place : MainPlace) : Outcome :=
  withNode state node fun _ =>
    .next { state with
      heap := Function.update state.heap node none
      log := { state.log with freed := state.log.freed ++ [node] }
      place }

def emptyStep (state : MainState) : Outcome :=
  match state.first with
  | none => .next (state.go .returned)
  | some threadRm => .next (state.go (.lastJoining threadRm))

def mainStep (state : MainState) (call : MainCall) : Outcome :=
  match state.place with
  | .top => if !state.signalCaught && !state.failed then acceptStep state call else .next (state.go .emptying)
  | .allocated threadStruct => createStep state threadStruct call
  | .created threadStruct thread => insertStep state threadStruct thread
  | .foreach threadPtr => foreachStep state threadPtr
  | .visiting threadPtr nextThread => visitStep state threadPtr nextThread
  | .joining threadPtr nextThread => joinStep state threadPtr (.removing threadPtr nextThread)
  | .removing threadPtr nextThread => removeStep state threadPtr nextThread
  | .walking threadPtr nextThread curelm => walkStep state threadPtr nextThread curelm
  | .freeing threadPtr nextThread => freeStep state threadPtr (.foreach nextThread)
  | .emptying => emptyStep state
  | .lastJoining threadRm => joinStep state threadRm (.lastRemoving threadRm)
  | .lastRemoving threadRm => removeHeadStep state (.lastFreeing threadRm)
  | .lastFreeing threadRm => freeStep state threadRm .emptying
  | .returned => .blocked

-- All of handle_client is one move, with close(client_fd) at its end.
def threadStep (state : MainState) (thread : Nat) : Outcome :=
  match state.threads thread with
  | none => .blocked
  | some ⟨node, .started⟩ => withNode state node fun data =>
      .next { state with threads := Function.update state.threads thread (some ⟨node, .handling data.clientFd⟩) }
  | some ⟨node, .handling _⟩ =>
      .next { state with threads := Function.update state.threads thread (some ⟨node, .closed⟩) }
  | some ⟨node, .closed⟩ => withNode state node fun data =>
      .next { state with
        heap := Function.update state.heap node (some { data with threadComplete := true })
        threads := Function.update state.threads thread (some ⟨node, .completed⟩) }
  | some ⟨node, .completed⟩ =>
      .next { state with threads := Function.update state.threads thread (some ⟨node, .returned⟩) }
  | some ⟨_, .returned⟩ => .blocked

inductive MainMove (state after : MainState) : Prop where
  | main (call : MainCall) (ran : mainStep state call = .next after)
  | thread (thread : Nat) (ran : threadStep state thread = .next after)
  | signal (caught : after = { state with signalCaught := true })

inductive MainRun (start : MainState) : MainState → Prop where
  | refl : MainRun start start
  | step (state after : MainState) (run : MainRun start state) (move : MainMove state after) : MainRun start after

end AesdChar

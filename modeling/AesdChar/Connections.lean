import AesdChar.JoinedOnce

set_option autoImplicit false

namespace AesdChar

-- The descriptor a thread still has to close.
def fdOf (heap : Nodes) : ClientThread → Option Nat
  | ⟨node, .started⟩ => (heap node).map ThreadDataS.clientFd
  | ⟨_, .handling clientFd⟩ => some clientFd
  | ⟨_, .closed⟩ => none
  | ⟨_, .completed⟩ => none
  | ⟨_, .returned⟩ => none

def MainState.connection (state : MainState) (thread : Nat) : Option Nat :=
    (state.threads thread).bind (fdOf state.heap)

-- The descriptor accepted that no thread has yet.
def MainState.pending (state : MainState) : Option Nat :=
  match state.place with
  | .allocated node => (state.heap node).map ThreadDataS.clientFd
  | _ => none

def MainState.looping (state : MainState) : Bool := state.place == .top && !state.signalCaught && !state.failed

-- What accept returns before the call, also when malloc fails after it.
def acceptedFd (state : MainState) (call : MainCall) (clientFd : Nat) : Option Nat :=
  if state.looping then
    match call with
    | .client clientFd _ _ => some clientFd
    | .mallocFails => some clientFd
    | _ => none
  else none

-- What nobody closes: main goes on without it.
def lostFd (state : MainState) (call : MainCall) (clientFd : Nat) : Option Nat :=
  match state.place, call with
  | .top, .mallocFails => if state.looping then some clientFd else none
  | .allocated _, .createFails => state.pending
  | _, _ => none

-- close(client_fd) at the end of handle_client.
def closedFd (state : MainState) (thread : Nat) : Option Nat :=
  match state.threads thread with
  | some ⟨_, .handling clientFd⟩ => some clientFd
  | _ => none

-- The descriptors of clients that are open, and those of them that are lost;
-- accepted and closed count them.
structure Connections where
  main : MainState
  opened : List Nat
  lost : List Nat
  accepted : Nat
  closed : Nat

def noConnections (failed : Bool) : Connections := ⟨mainStart failed, [], [], 0, 0⟩

-- The moves of main and its threads. The kernel gives descriptors that are not
-- in use.
inductive ConnectionMove : Connections → Connections → Prop where
  | main (state : Connections) (call : MainCall) (clientFd : Nat) (after : MainState)
      (ran : mainStep state.main call = .next after)
      (unused : ∀ fd, acceptedFd state.main call clientFd = some fd → fd ∉ state.opened) :
      ConnectionMove state
        ⟨after, (acceptedFd state.main call clientFd).toList ++ state.opened,
          (lostFd state.main call clientFd).toList ++ state.lost,
          state.accepted + (acceptedFd state.main call clientFd).toList.length, state.closed⟩
  | thread (state : Connections) (thread : Nat) (after : MainState) (ran : threadStep state.main thread = .next after) :
      ConnectionMove state
        ⟨after, state.opened.diff (closedFd state.main thread).toList, state.lost, state.accepted,
          state.closed + (closedFd state.main thread).toList.length⟩
  | signal (state : Connections) : ConnectionMove state { state with main := { state.main with signalCaught := true } }

inductive ConnectionRun (start : Connections) : Connections → Prop where
  | start : ConnectionRun start start
  | step (state after : Connections) (earlier : ConnectionRun start state) (move : ConnectionMove state after) :
      ConnectionRun start after

-- What a step of main does to the connections of the threads and its own.
inductive Connects (state after : MainState) : Option Nat → Option Nat → Prop where
  | quiet (same : ∀ thread, after.connection thread = state.connection thread) (pending : after.pending = state.pending)
      (failed : after.failed = state.failed) : Connects state after none none
  | accept (fd : Nat) (same : ∀ thread, after.connection thread = state.connection thread)
      (before : state.pending = none)
      (pending : after.pending = some fd) (going : state.failed = false) : Connects state after (some fd) none
  | refuse (fd : Nat) (same : ∀ thread, after.connection thread = state.connection thread)
      (before : state.pending = none)
      (pending : after.pending = none) (going : state.failed = false) (failed : after.failed = true) :
      Connects state after (some fd) (some fd)
  | create (fd thread : Nat) (before : state.pending = some fd) (pending : after.pending = none)
      (fresh : state.connection thread = none) (given : after.connection thread = some fd)
      (others : ∀ other, other ≠ thread → after.connection other = state.connection other)
      (failed : after.failed = state.failed) : Connects state after none none
  | orphan (fd : Nat) (same : ∀ thread, after.connection thread = state.connection thread)
      (before : state.pending = some fd)
      (pending : after.pending = none) (failed : after.failed = true) : Connects state after none (some fd)

structure Quiet (state after : MainState) : Prop where
  same : ∀ thread, after.connection thread = state.connection thread
  elsewhere : ∀ node, after.place ≠ .allocated node
  failed : after.failed = state.failed

section

variable (state after : MainState)

-- Only the descriptors in the nodes of the threads matter.
theorem connection_agree (threads : after.threads = state.threads)
    (agree : ∀ thread node, ThreadOf state.threads thread node →
      (after.heap node).map ThreadDataS.clientFd = (state.heap node).map ThreadDataS.clientFd) :
    ∀ thread, after.connection thread = state.connection thread := by
  intro thread
  rw [MainState.connection, MainState.connection, threads]
  cases found : state.threads thread with
  | none => rfl
  | some record =>
      obtain ⟨node, phase⟩ := record
      cases phase with
      | started => exact agree thread node ⟨_, found⟩
      | _ => rfl

theorem connection_rewritten (node : Nat) (data changed : ThreadDataS) (read : state.heap node = some data)
    (same : changed.clientFd = data.clientFd) (threads : after.threads = state.threads)
    (heap : after.heap = Function.update state.heap node (some changed)) :
    ∀ thread, after.connection thread = state.connection thread := by
  refine connection_agree state after threads fun _ other _ => ?_
  rw [heap]
  by_cases here : other = node
  · rw [here, Function.update_self, read, Option.map_some, Option.map_some, same]
  · rw [Function.update_of_ne here]

-- A node without a thread may come and go.
theorem connection_elsewhere (node : Nat) (value : Option ThreadDataS) (threads : after.threads = state.threads)
    (heap : after.heap = Function.update state.heap node value)
    (unowned : ∀ thread, ¬ ThreadOf state.threads thread node) :
    ∀ thread, after.connection thread = state.connection thread := by
  refine connection_agree state after threads fun thread other isThread => ?_
  rw [heap, Function.update_of_ne]
  rintro rfl
  exact unowned thread isThread

theorem accept_connects (nodes : List Nat) (call : MainCall) (clientFd : Nat)
    (held : NodesHeld state.heap state.first state.threads nodes none none none) (place : state.place = .top)
    (goesOn : (!state.signalCaught && !state.failed) = true) (ran : acceptStep state call = .next after) :
    Connects state after (acceptedFd state call clientFd) (lostFd state call clientFd) := by
  have looping : state.looping = true := by simpa [MainState.looping, place] using goesOn
  have going : state.failed = false := by
    simp only [Bool.and_eq_true, Bool.not_eq_true'] at goesOn
    exact goesOn.2
  have before : state.pending = none := by rw [MainState.pending, place]
  simp only [acceptedFd, lostFd, place, looping, if_true]
  cases call with
  | acceptFails =>
      cases ran
      exact .quiet (fun _ => rfl) before.symm rfl
  | mallocFails =>
      cases ran
      refine .refuse clientFd (fun _ => rfl) before ?_ going rfl
      simp only [MainState.pending, place]
  | client clientFd threadStruct stale =>
      rw [acceptStep] at ran
      split at ran
      · rename_i unused
        cases ran
        refine .accept clientFd (connection_elsewhere state _ threadStruct _ rfl rfl fun thread isThread => ?_) before
          ?_ going
        · exact (held.owned thread threadStruct isThread).1 unused
        · simp [MainState.pending]
      · cases ran
  | createFails => cases ran
  | creates thread => cases ran
  | other => cases ran

theorem create_connects (nodes : List Nat) (node : Nat) (call : MainCall) (clientFd : Nat)
    (held : NodesHeld state.heap state.first state.threads nodes (some node) (some node) none)
    (place : state.place = .allocated node) (ran : createStep state node call = .next after) :
    Connects state after (acceptedFd state call clientFd) (lostFd state call clientFd) := by
  have notLooping : state.looping = false := by simp [MainState.looping, place]
  simp only [acceptedFd, notLooping, Bool.false_eq_true, if_false]
  cases call with
  | createFails =>
      obtain ⟨data, read, went⟩ := with_node_next state after node _ ran
      cases went
      have before : state.pending = some data.clientFd := by simp [MainState.pending, place, read]
      simp only [lostFd, place, before]
      refine .orphan data.clientFd (connection_elsewhere state _ node none rfl rfl fun thread isThread => ?_) before
        rfl rfl
      exact (held.owned thread node isThread).2 rfl
  | creates thread =>
      rw [createStep] at ran
      split at ran
      · rename_i unused
        cases ran
        obtain ⟨data, read⟩ := Option.ne_none_iff_exists'.mp ((held.live node).mpr (Or.inr rfl))
        simp only [lostFd, place]
        refine .create data.clientFd thread (by simp [MainState.pending, place, read]) rfl ?_ ?_ ?_ rfl
        · simp [MainState.connection, unused]
        · simp [MainState.connection, fdOf, read]
        · intro other apart
          simp [MainState.connection, apart]
      · cases ran
  | acceptFails => cases ran
  | mallocFails => cases ran
  | client clientFd threadStruct stale => cases ran
  | other => cases ran

theorem join_quiet (node : Nat) (place : MainPlace) (elsewhere : ∀ node, place ≠ .allocated node)
    (ran : joinStep state node place = .next after) : Quiet state after := by
  obtain ⟨data, read, went⟩ := with_node_next state after node _ ran
  dsimp only at went
  cases found : state.threads data.threadId with
  | none =>
      rw [found] at went
      cases went
  | some record =>
      rw [found] at went
      dsimp only at went
      split at went
      · rename_i returned
        cases went
        refine ⟨fun thread => ?_, elsewhere, rfl⟩
        by_cases same : thread = data.threadId
        · obtain ⟨known, phase⟩ := record
          dsimp only at returned
          subst returned
          simp [MainState.connection, same, found, fdOf]
        · simp [MainState.connection, same]
      · cases went

theorem free_quiet (node : Nat) (place : MainPlace) (elsewhere : ∀ node, place ≠ .allocated node)
    (unowned : ∀ thread, ¬ ThreadOf state.threads thread node) (ran : freeStep state node place = .next after) :
    Quiet state after := by
  obtain ⟨data, _, went⟩ := with_node_next state after node _ ran
  cases went
  exact ⟨connection_elsewhere state _ node none rfl rfl unowned, elsewhere, rfl⟩

theorem remove_head_quiet (place : MainPlace) (elsewhere : ∀ node, place ≠ .allocated node)
    (ran : removeHeadStep state place = .next after) : Quiet state after := by
  rw [removeHeadStep] at ran
  cases first : state.first with
  | none =>
      rw [first] at ran
      cases ran
  | some node =>
      rw [first] at ran
      obtain ⟨data, _, went⟩ := with_node_next state after node _ ran
      cases went
      exact ⟨fun _ => rfl, elsewhere, rfl⟩

theorem walk_quiet (threadPtr : Nat) (nextThread : Option Nat) (curelm : Nat)
    (ran : walkStep state threadPtr nextThread curelm = .next after) : Quiet state after := by
  obtain ⟨data, read, went⟩ := with_node_next state after curelm _ ran
  split at went
  · obtain ⟨removed, _, unlinked⟩ := with_node_next state after threadPtr _ went
    cases unlinked
    exact ⟨connection_rewritten state _ curelm data { data with next := removed.next } read rfl rfl rfl, by simp, rfl⟩
  · split at went
    · cases went
    · cases went
      exact ⟨fun _ => rfl, by simp [MainState.go], rfl⟩

theorem foreach_quiet (threadPtr : Option Nat) (ran : foreachStep state threadPtr = .next after) :
    Quiet state after := by
  cases threadPtr with
  | none =>
      cases ran
      exact ⟨fun _ => rfl, by simp [MainState.go], rfl⟩
  | some node =>
      obtain ⟨data, _, went⟩ := with_node_next state after node _ ran
      cases went
      exact ⟨fun _ => rfl, by simp [MainState.go], rfl⟩

theorem remove_quiet (threadPtr : Nat) (nextThread : Option Nat)
    (ran : removeStep state threadPtr nextThread = .next after) :
    Quiet state after := by
  rw [removeStep] at ran
  split at ran
  · exact remove_head_quiet state after _ (by simp) ran
  · split at ran
    · cases ran
    · cases ran
      exact ⟨fun _ => rfl, by simp [MainState.go], rfl⟩

theorem empty_quiet (ran : emptyStep state = .next after) : Quiet state after := by
  rw [emptyStep] at ran
  split at ran
  · cases ran
    exact ⟨fun _ => rfl, by simp [MainState.go], rfl⟩
  · cases ran
    exact ⟨fun _ => rfl, by simp [MainState.go], rfl⟩

theorem visit_quiet (threadPtr : Nat) (nextThread : Option Nat)
    (ran : visitStep state threadPtr nextThread = .next after) :
    Quiet state after := by
  obtain ⟨data, _, went⟩ := with_node_next state after threadPtr _ ran
  cases went
  refine ⟨fun _ => rfl, fun node => ?_, rfl⟩
  dsimp only
  split <;> simp

theorem insert_quiet (node thread : Nat) (ran : insertStep state node thread = .next after) : Quiet state after := by
  obtain ⟨data, read, went⟩ := with_node_next state after node _ ran
  cases went
  exact ⟨connection_rewritten state _ node data { data with threadId := thread, next := state.first } read rfl rfl rfl,
    by simp [startPass], rfl⟩

-- Away from accept and pthread_create a step leaves all connections alone.
theorem quiet_connects (call : MainCall) (clientFd : Nat) (notTop : state.place ≠ .top)
    (notAllocated : ∀ node, state.place ≠ .allocated node) (quiet : Quiet state after) :
    Connects state after (acceptedFd state call clientFd) (lostFd state call clientFd) := by
  have notLooping : state.looping = false := by simp [MainState.looping, notTop]
  have nonePending : ∀ known : MainState, (∀ node, known.place ≠ .allocated node) → known.pending = none := by
    intro known elsewhere
    unfold MainState.pending
    split
    · exact absurd ‹known.place = .allocated _› (elsewhere _)
    · rfl
  have noneLost : lostFd state call clientFd = none := by
    unfold lostFd
    split
    · exact absurd ‹state.place = .top› notTop
    · exact absurd ‹state.place = .allocated _› (notAllocated _)
    · rfl
  simp only [acceptedFd, notLooping, noneLost, Bool.false_eq_true, if_false]
  exact .quiet quiet.same ((nonePending after quiet.elsewhere).trans (nonePending state notAllocated).symm) quiet.failed

theorem leave_connects (call : MainCall) (clientFd : Nat) (place : state.place = .top)
    (leaves : ¬ (!state.signalCaught && !state.failed) = true) :
    Connects state (state.go .emptying) (acceptedFd state call clientFd) (lostFd state call clientFd) := by
  have notLooping : state.looping = false := by simpa [MainState.looping, place] using leaves
  have none : lostFd state call clientFd = none := by
    unfold lostFd
    split
    · rw [notLooping]
      rfl
    · exact absurd (place.symm.trans ‹state.place = .allocated _›) (by simp)
    · rfl
  simp only [acceptedFd, notLooping, none, Bool.false_eq_true, if_false]
  exact .quiet (fun _ => rfl) (by simp [MainState.pending, place, MainState.go]) rfl

theorem main_connects (pass : List Nat) (call : MainCall) (clientFd : Nat) (inv : MainInv pass state)
    (ran : mainStep state call = .next after) :
    Connects state after (acceptedFd state call clientFd) (lostFd state call clientFd) := by
  obtain ⟨nodes, held, _⟩ := inv
  rw [MainState.Held] at held
  rw [mainStep] at ran
  have quietly : Quiet state after → state.place ≠ .top → (∀ node, state.place ≠ .allocated node) →
      Connects state after (acceptedFd state call clientFd) (lostFd state call clientFd) :=
    fun quiet notTop notAllocated => quiet_connects state after call clientFd notTop notAllocated quiet
  cases place : state.place with
  | top =>
      simp only [place] at ran held
      split at ran
      · exact accept_connects state after nodes call clientFd held place ‹_› ran
      · cases ran
        exact leave_connects state call clientFd place ‹_›
  | allocated node =>
      simp only [place] at ran held
      exact create_connects state after nodes node call clientFd held place ran
  | created node thread =>
      simp only [place] at ran
      exact quietly (insert_quiet state after node thread ran) (by simp [place]) (by simp [place])
  | foreach threadPtr =>
      simp only [place] at ran
      exact quietly (foreach_quiet state after threadPtr ran) (by simp [place]) (by simp [place])
  | visiting node nextThread =>
      simp only [place] at ran
      exact quietly (visit_quiet state after node nextThread ran) (by simp [place]) (by simp [place])
  | joining node nextThread =>
      simp only [place] at ran
      exact quietly (join_quiet state after node _ (by simp) ran) (by simp [place]) (by simp [place])
  | removing node nextThread =>
      simp only [place] at ran
      exact quietly (remove_quiet state after node nextThread ran) (by simp [place]) (by simp [place])
  | walking node nextThread curelm =>
      simp only [place] at ran
      exact quietly (walk_quiet state after node nextThread curelm ran) (by simp [place]) (by simp [place])
  | freeing node nextThread =>
      simp only [place] at ran held
      exact quietly
        (free_quiet state after node _ (by simp) (fun thread isThread => (held.owned thread node isThread).2 rfl) ran)
        (by simp [place]) (by simp [place])
  | emptying =>
      simp only [place] at ran
      exact quietly (empty_quiet state after ran) (by simp [place]) (by simp [place])
  | lastJoining node =>
      simp only [place] at ran
      exact quietly (join_quiet state after node _ (by simp) ran) (by simp [place]) (by simp [place])
  | lastRemoving node =>
      simp only [place] at ran
      exact quietly (remove_head_quiet state after _ (by simp) ran) (by simp [place]) (by simp [place])
  | lastFreeing node =>
      simp only [place] at ran held
      exact quietly
        (free_quiet state after node _ (by simp) (fun thread isThread => (held.owned thread node isThread).2 rfl) ran)
        (by simp [place]) (by simp [place])
  | returned =>
      simp only [place] at ran
      cases ran

theorem pending_rewritten (node : Nat) (data changed : ThreadDataS) (read : state.heap node = some data)
    (same : changed.clientFd = data.clientFd) (place : after.place = state.place)
    (heap : after.heap = Function.update state.heap node (some changed)) : after.pending = state.pending := by
  rw [MainState.pending, MainState.pending, place, heap]
  split
  · rename_i other _
    by_cases here : other = node
    · rw [here, Function.update_self, read, Option.map_some, Option.map_some, same]
    · rw [Function.update_of_ne here]
  · rfl

-- A thread closes its own descriptor, once.
inductive Closes (state after : MainState) : Option Nat → Prop where
  | quiet (same : ∀ thread, after.connection thread = state.connection thread) : Closes state after none
  | close (fd thread : Nat) (before : state.connection thread = some fd) (closed : after.connection thread = none)
      (others : ∀ other, other ≠ thread → after.connection other = state.connection other) :
      Closes state after (some fd)

theorem thread_closes (thread : Nat) (ran : threadStep state thread = .next after) :
    Closes state after (closedFd state thread) ∧ after.pending = state.pending ∧ after.failed = state.failed := by
  cases found : state.threads thread with
  | none =>
      rw [threadStep, found] at ran
      cases ran
  | some record =>
      obtain ⟨node, phase⟩ := record
      rw [threadStep, found] at ran
      cases phase with
      | started =>
          obtain ⟨data, read, went⟩ := with_node_next state after node _ ran
          cases went
          rw [closedFd, found]
          refine ⟨.quiet fun other => ?_, rfl, rfl⟩
          by_cases same : other = thread
          · simp [MainState.connection, same, found, fdOf, read]
          · simp [MainState.connection, same]
      | handling clientFd =>
          cases ran
          rw [closedFd, found]
          refine ⟨.close clientFd thread ?_ ?_ fun other apart => ?_, rfl, rfl⟩
          · simp [MainState.connection, found, fdOf]
          · simp [MainState.connection, fdOf]
          · simp [MainState.connection, apart]
      | closed =>
          obtain ⟨data, read, went⟩ := with_node_next state after node _ ran
          cases went
          rw [closedFd, found]
          refine ⟨.quiet fun other => ?_,
            pending_rewritten state _ node data { data with threadComplete := true } read rfl rfl rfl, rfl⟩
          have kept := connection_rewritten state
            { state with heap := Function.update state.heap node (some { data with threadComplete := true }) } node data
            { data with threadComplete := true } read rfl rfl rfl other
          rw [← kept]
          by_cases same : other = thread
          · simp [MainState.connection, same, found, fdOf]
          · simp [MainState.connection, same]
      | completed =>
          cases ran
          rw [closedFd, found]
          refine ⟨.quiet fun other => ?_, rfl, rfl⟩
          by_cases same : other = thread
          · simp [MainState.connection, same, found, fdOf]
          · simp [MainState.connection, same]
      | returned => cases ran

end

end AesdChar

import AesdChar.JoinedOnce
import Mathlib.Algebra.Group.Action.Defs
import Mathlib.Algebra.Order.BigOperators.Group.Finset

set_option autoImplicit false

namespace AesdChar

open Slist

-- signal_caught is set or retval is -1: main's loop ends at its next test.
def MainState.leaving (state : MainState) : Prop := state.signalCaught = true ∨ state.failed = true

-- The thread is in a handle_client that does not come back.
def Stands (stalled : Nat → Prop) (state : MainState) (thread : Nat) : Prop :=
  stalled thread ∧ ∃ node clientFd, state.threads thread = some ⟨node, .handling clientFd⟩

-- The moves of main and of its threads, counted. The handle_client of a thread
-- in stalled never comes back: recv waits for a client that sends nothing, or
-- the loop of the reply does not end.
inductive MovesFrom (stalled : Nat → Prop) (start : MainState) : Nat → MainState → Prop where
  | start : MovesFrom stalled start 0 start
  | main (count : Nat) (state after : MainState) (call : MainCall) (earlier : MovesFrom stalled start count state)
      (ran : mainStep state call = .next after) : MovesFrom stalled start (count + 1) after
  | thread (count : Nat) (state after : MainState) (thread : Nat) (earlier : MovesFrom stalled start count state)
      (comes : ¬ Stands stalled state thread) (ran : threadStep state thread = .next after) :
      MovesFrom stalled start (count + 1) after
  | signal (count : Nat) (state : MainState) (earlier : MovesFrom stalled start count state) :
      MovesFrom stalled start count { state with signalCaught := true }

def ThreadPhase.left : ThreadPhase → Nat
  | .started => 4
  | .handling _ => 3
  | .closed => 2
  | .completed => 1
  | .returned => 0

def threadLeft : Option ClientThread → Nat
  | none => 0
  | some thread => thread.phase.left

-- The steps the threads have left, over a finite set with all of them.
def ThreadsLeft (threads : Threads) (left : Nat) : Prop :=
  ∃ ids : Finset Nat, (∀ thread, threads thread ≠ none → thread ∈ ids) ∧
    left = ∑ thread ∈ ids, threadLeft (threads thread)

-- A pass over a list of count nodes that has rest nodes ahead, and the end.
def passLeft (count rest : Nat) : Nat := rest * (count + 7) + 4 * count + 3

-- The most steps main has left before its return.
inductive Ahead (place : MainPlace) (nodes : List Nat) : Nat → Prop where
  | top (here : place = .top) : Ahead place nodes (4 * nodes.length + 2)
  | allocated (node : Nat) (here : place = .allocated node) :
      Ahead place nodes (passLeft (nodes.length + 1) (nodes.length + 1) + 6)
  | created (node thread : Nat) (here : place = .created node thread) :
      Ahead place nodes (passLeft (nodes.length + 1) (nodes.length + 1) + 1)
  | foreach (seen rest : List Nat) (here : place = .foreach rest.head?) (split : nodes = seen ++ rest) :
      Ahead place nodes (passLeft nodes.length rest.length)
  | visiting (seen rest : List Nat) (node : Nat) (here : place = .visiting node rest.head?)
      (split : nodes = seen ++ node :: rest) :
      Ahead place nodes (passLeft nodes.length rest.length + nodes.length + 6)
  | joining (seen rest : List Nat) (node : Nat) (here : place = .joining node rest.head?)
      (split : nodes = seen ++ node :: rest) :
      Ahead place nodes (passLeft nodes.length rest.length + nodes.length + 5)
  | removing (seen rest : List Nat) (node : Nat) (here : place = .removing node rest.head?)
      (split : nodes = seen ++ node :: rest) :
      Ahead place nodes (passLeft nodes.length rest.length + nodes.length + 4)
  | walking (front middle rest : List Nat) (curelm node : Nat) (here : place = .walking node rest.head? curelm)
      (split : nodes = front ++ curelm :: (middle ++ node :: rest)) :
      Ahead place nodes (passLeft nodes.length rest.length + middle.length + 4)
  | freeing (seen rest : List Nat) (node : Nat) (here : place = .freeing node rest.head?)
      (split : nodes = seen ++ rest) :
      Ahead place nodes (passLeft nodes.length rest.length + 1)
  | emptying (here : place = .emptying) : Ahead place nodes (4 * nodes.length + 1)
  | lastJoining (node : Nat) (rest : List Nat) (here : place = .lastJoining node) (split : nodes = node :: rest) :
      Ahead place nodes (4 * nodes.length)
  | lastRemoving (node : Nat) (rest : List Nat) (here : place = .lastRemoving node) (split : nodes = node :: rest) :
      Ahead place nodes (4 * rest.length + 3)
  | lastFreeing (node : Nat) (here : place = .lastFreeing node) : Ahead place nodes (4 * nodes.length + 2)
  | returned (here : place = .returned) : Ahead place nodes 0

theorem threads_left_update (threads : Threads) (thread left : Nat) (now : Option ClientThread)
    (before : ThreadsLeft threads left) :
    ∃ after, ThreadsLeft (Function.update threads thread now) after ∧
      after + threadLeft (threads thread) = left + threadLeft now := by
  obtain ⟨ids, all, rfl⟩ := before
  have others : ∀ other ∈ ids.erase thread,
      threadLeft (Function.update threads thread now other) = threadLeft (threads other) := by
    intro other member
    rw [Function.update_of_ne (Finset.ne_of_mem_erase member)]
  have total : ∑ other ∈ ids, threadLeft (threads other) =
      ∑ other ∈ ids.erase thread, threadLeft (threads other) + threadLeft (threads thread) := by
    by_cases known : thread ∈ ids
    · exact (Finset.sum_erase_add ids _ known).symm
    · have none : threads thread = none := by
        by_contra some
        exact known (all thread some)
      rw [Finset.erase_eq_of_notMem known, none]
      rfl
  refine ⟨∑ other ∈ insert thread (ids.erase thread), threadLeft (Function.update threads thread now other),
    ⟨_, ?_, rfl⟩, ?_⟩
  · intro other some
    by_cases same : other = thread
    · simp [same]
    · rw [Function.update_of_ne same] at some
      simp [same, all other some]
  · rw [Finset.sum_insert (Finset.notMem_erase thread ids), Function.update_self, Finset.sum_congr rfl others, total]
    omega

-- Where a step of main or of a thread leads, with less left than before.
def Nearer (left : Nat) : Outcome → Prop
  | .blocked => True
  | .undefined => True
  | .next after =>
      ∃ nodes steps work, after.Held nodes ∧ after.leaving ∧ Ahead after.place nodes steps ∧
        ThreadsLeft after.threads work ∧
        steps + work < left

section

variable (state : MainState) (nodes : List Nat) (steps work : Nat) (leaving : state.leaving)
  (threads : ThreadsLeft state.threads work)

theorem nearer_node (left node : Nat) (use : ThreadDataS → Outcome)
    (nearer : ∀ data, state.heap node = some data → Nearer left (use data)) :
    Nearer left (withNode state node use) := by
  cases read : state.heap node with
  | none =>
      rw [withNode, read]
      trivial
  | some data =>
      rw [withNode, read]
      exact nearer data read

include leaving threads

theorem create_nearer (node : Nat) (call : MainCall)
    (held : NodesHeld state.heap state.first state.threads nodes (some node) (some node) none) :
    Nearer (passLeft (nodes.length + 1) (nodes.length + 1) + 6 + work) (createStep state node call) := by
  cases call with
  | createFails =>
      apply nearer_node
      intro data _
      refine ⟨nodes, _, work, held_free _ _ _ _ _ held, Or.inr rfl, .top rfl, threads, ?_⟩
      simp only [passLeft]
      omega
  | creates thread =>
      by_cases unused : state.threads thread = none
      · rw [createStep, if_pos unused]
        obtain ⟨more, after, added⟩ := threads_left_update state.threads thread work (some ⟨node, .started⟩) threads
        refine ⟨nodes, _, more, held_create _ _ _ _ node thread held unused, leaving,
          .created node thread rfl, after, ?_⟩
        simp only [unused, threadLeft, ThreadPhase.left] at added
        omega
      · rw [createStep, if_neg unused]
        trivial
  | acceptFails => trivial
  | mallocFails => trivial
  | client clientFd threadStruct stale => trivial
  | other => trivial

theorem insert_nearer (node thread : Nat)
    (held : NodesHeld state.heap state.first state.threads nodes (some node) none (some thread)) :
    Nearer (passLeft (nodes.length + 1) (nodes.length + 1) + 1 + work) (insertStep state node thread) := by
  apply nearer_node
  intro data _
  exact ⟨node :: nodes, _, work, held_insert _ _ _ _ node thread data held, leaving,
    .foreach [] (node :: nodes) rfl rfl, threads,
    by simp only [List.length_cons]; omega⟩

theorem foreach_nearer (seen rest : List Nat)
    (held : NodesHeld state.heap state.first state.threads nodes none none none) (split : nodes = seen ++ rest) :
    Nearer (passLeft nodes.length rest.length + work) (foreachStep state rest.head?) := by
  cases rest with
  | nil =>
      refine ⟨nodes, _, work, held, leaving, .top rfl, threads, ?_⟩
      simp only [passLeft, List.length_nil]
      omega
  | cons node rest =>
      have chain := held.chain
      rw [split] at chain
      apply nearer_node
      intro data read
      have linked := chain_link _ _ _ rest node data chain read
      refine ⟨nodes, _, work, held, leaving, .visiting seen rest node ?_ split, threads, ?_⟩
      · rw [MainState.go, linked]
      · simp only [passLeft, List.length_cons, Nat.add_mul]
        omega

theorem visit_nearer (seen rest : List Nat) (node : Nat)
    (held : NodesHeld state.heap state.first state.threads nodes none none none)
    (split : nodes = seen ++ node :: rest) :
    Nearer (passLeft nodes.length rest.length + nodes.length + 6 + work) (visitStep state node rest.head?) := by
  apply nearer_node
  intro data _
  cases data.threadComplete with
  | true => exact ⟨nodes, _, work, held, leaving, .joining seen rest node rfl split, threads, by omega⟩
  | false =>
      exact ⟨nodes, _, work, held, leaving, .foreach (seen ++ [node]) rest rfl (by simp [split]), threads, by omega⟩

theorem join_nearer (node : Nat) (place : MainPlace) (less : Nat)
    (held : NodesHeld state.heap state.first state.threads nodes none none none) (member : node ∈ nodes)
    (quiet : place.loose = none ∧ place.orphan = some node ∧ place.unset = none) (next : Ahead place nodes less)
    (fewer : less < steps) : Nearer (steps + work) (joinStep state node place) := by
  apply nearer_node
  intro data read
  obtain ⟨thread, phase, isThread⟩ := held.owner node ((held.live node).mpr (Or.inl member)) (by simp)
  have sameId := held.ids thread node data ⟨phase, isThread⟩ read (by simp)
  rw [sameId, isThread]
  by_cases returned : phase = .returned
  · simp only [if_pos returned]
    obtain ⟨rest, after, same⟩ := threads_left_update state.threads thread work none threads
    rw [isThread, returned] at same
    simp only [threadLeft, ThreadPhase.left] at same
    refine ⟨nodes, less, rest, ?_, leaving, next, after, by omega⟩
    simp only [MainState.Held, quiet.1, quiet.2.1, quiet.2.2]
    exact held_join _ _ _ _ thread node held ⟨phase, isThread⟩
  · simp only [if_neg returned]
    trivial

theorem remove_head_nearer (node : Nat) (rest : List Nat) (place : MainPlace) (less : Nat)
    (held : NodesHeld state.heap state.first state.threads (node :: rest) none (some node) none)
    (quiet : place.loose = some node ∧ place.orphan = some node ∧ place.unset = none) (next : Ahead place rest less)
    (fewer : less < steps) : Nearer (steps + work) (removeHeadStep state place) := by
  rw [removeHeadStep, chain_first _ _ _ held.chain]
  apply nearer_node
  intro data read
  refine ⟨rest, less, work, ?_, leaving, next, threads, by omega⟩
  simp only [MainState.Held, quiet.1, quiet.2.1, quiet.2.2]
  exact held_remove_head _ _ _ node data _ _ held read

theorem free_nearer (node : Nat) (place : MainPlace) (less : Nat)
    (held : NodesHeld state.heap state.first state.threads nodes (some node) (some node) none)
    (quiet : place.loose = none ∧ place.orphan = none ∧ place.unset = none) (next : Ahead place nodes less)
    (fewer : less < steps) : Nearer (steps + work) (freeStep state node place) := by
  apply nearer_node
  intro data _
  refine ⟨nodes, less, work, ?_, leaving, next, threads, by omega⟩
  simp only [MainState.Held, quiet.1, quiet.2.1, quiet.2.2]
  exact held_free _ _ _ _ node held

theorem remove_nearer (seen rest : List Nat) (node : Nat)
    (held : NodesHeld state.heap state.first state.threads nodes none (some node) none)
    (split : nodes = seen ++ node :: rest) :
    Nearer (passLeft nodes.length rest.length + nodes.length + 4 + work) (removeStep state node rest.head?) := by
  have first := chain_first _ _ _ held.chain
  have once := chain_nodup _ _ _ held.chain
  cases seen with
  | nil =>
      rw [List.nil_append] at split
      rw [removeStep, if_pos (by rw [first, split]; rfl)]
      rw [split] at held
      refine remove_head_nearer state _ work leaving threads node rest _ _ held ⟨rfl, rfl, rfl⟩
        (.freeing [] rest node rfl rfl) ?_
      simp only [passLeft, split, List.length_cons, Nat.mul_add]
      omega
  | cons curelm middle =>
      have isFirst : state.first = some curelm := by rw [first, split]; rfl
      have different : ¬ state.first = some node := by
        rw [isFirst]
        intro same
        cases same
        rw [split] at once
        simp at once
      rw [removeStep, if_neg different, isFirst]
      refine ⟨nodes, _, work, held, leaving, .walking [] middle rest curelm node rfl split, threads, ?_⟩
      rw [split]
      simp only [List.length_append, List.length_cons]
      omega

theorem walk_nearer (front middle rest : List Nat) (curelm node : Nat)
    (held : NodesHeld state.heap state.first state.threads nodes none (some node) none)
    (split : nodes = front ++ curelm :: (middle ++ node :: rest)) :
    Nearer (passLeft nodes.length rest.length + middle.length + 4 + work) (walkStep state node rest.head? curelm) := by
  have chain := held.chain
  have once := chain_nodup _ _ _ held.chain
  rw [split] at chain
  apply nearer_node
  intro data read
  have linked := chain_link _ _ _ _ curelm data chain read
  cases middle with
  | nil =>
      have found : data.next = some node := linked
      rw [if_pos found]
      apply nearer_node
      intro removed readNode
      rw [split] at held
      refine ⟨front ++ curelm :: rest, _, work, held_unlink _ _ _ front rest curelm node data removed _ held read
        readNode, leaving,
        .freeing (front ++ [curelm]) rest node rfl (by simp), threads, ?_⟩
      simp only [passLeft, split, List.length_append, List.length_cons, List.length_nil, Nat.mul_add, List.nil_append]
      omega
  | cons next middle =>
      have isNext : data.next = some next := linked
      have different : ¬ data.next = some node := by
        rw [isNext]
        intro same
        cases same
        rw [split] at once
        have after := (List.nodup_cons.mp (once.sublist (List.sublist_append_right front _))).2
        exact (List.nodup_cons.mp after).1 (by simp)
      rw [if_neg different, isNext]
      refine ⟨nodes, _, work, held, leaving, .walking (front ++ [curelm]) middle rest next node rfl (by simp [split]),
        threads, ?_⟩
      simp only [List.length_cons]
      omega

theorem empty_nearer (held : NodesHeld state.heap state.first state.threads nodes none none none) :
    Nearer (4 * nodes.length + 1 + work) (emptyStep state) := by
  rw [emptyStep, chain_first _ _ _ held.chain]
  cases nodes with
  | nil => exact ⟨[], _, work, held, leaving, .returned rfl, threads, by simp⟩
  | cons node rest => exact ⟨node :: rest, _, work, held, leaving, .lastJoining node rest rfl rfl, threads, by omega⟩

theorem main_nearer (call : MainCall) (held : state.Held nodes) (ahead : Ahead state.place nodes steps) :
    Nearer (steps + work) (mainStep state call) := by
  rw [MainState.Held] at held
  rw [mainStep]
  generalize atPlace : state.place = place at held ahead ⊢
  cases ahead with
  | top here =>
      subst here
      have ends : (!state.signalCaught && !state.failed) = false := by
        rcases leaving with caught | failed
        · simp [caught]
        · simp [failed]
      simp only [ends]
      exact ⟨nodes, _, work, held, leaving, .emptying rfl, threads, by omega⟩
  | allocated node here =>
      subst here
      exact create_nearer state nodes work leaving threads node call held
  | created node thread here =>
      subst here
      exact insert_nearer state nodes work leaving threads node thread held
  | foreach seen rest here split =>
      subst here
      exact foreach_nearer state nodes work leaving threads seen rest held split
  | visiting seen rest node here split =>
      subst here
      exact visit_nearer state nodes work leaving threads seen rest node held split
  | joining seen rest node here split =>
      subst here
      exact join_nearer state nodes _ work leaving threads node _ _ held (by simp [split]) ⟨rfl, rfl, rfl⟩
        (.removing seen rest node rfl split) (by omega)
  | removing seen rest node here split =>
      subst here
      exact remove_nearer state nodes work leaving threads seen rest node held split
  | walking front middle rest curelm node here split =>
      subst here
      exact walk_nearer state nodes work leaving threads front middle rest curelm node held split
  | freeing seen rest node here split =>
      subst here
      exact free_nearer state nodes _ work leaving threads node _ _ held ⟨rfl, rfl, rfl⟩
        (.foreach seen rest rfl split) (by omega)
  | emptying here =>
      subst here
      exact empty_nearer state nodes work leaving threads held
  | lastJoining node rest here split =>
      subst here
      exact join_nearer state nodes _ work leaving threads node _ _ held (by simp [split]) ⟨rfl, rfl, rfl⟩
        (.lastRemoving node rest rfl split) (by simp only [split, List.length_cons]; omega)
  | lastRemoving node rest here split =>
      subst here split
      exact remove_head_nearer state _ work leaving threads node rest _ _ held ⟨rfl, rfl, rfl⟩
        (.lastFreeing node rfl) (by omega)
  | lastFreeing node here =>
      subst here
      exact free_nearer state nodes _ work leaving threads node _ _ held ⟨rfl, rfl, rfl⟩ (.emptying rfl) (by omega)
  | returned here =>
      subst here
      trivial

end

-- A thread's own step leaves the list and main's place as they are.
theorem thread_nearer (state : MainState) (nodes : List Nat) (steps work thread : Nat) (leaving : state.leaving)
    (threads : ThreadsLeft state.threads work) (held : state.Held nodes) (ahead : Ahead state.place nodes steps) :
    Nearer (steps + work) (threadStep state thread) := by
  cases found : state.threads thread with
  | none =>
      rw [threadStep, found]
      trivial
  | some record =>
      obtain ⟨node, phase⟩ := record
      have samePhase : ∀ after other known,
          ThreadOf (Function.update state.threads thread (some ⟨node, after⟩)) other known ↔
            ThreadOf state.threads other known := fun after other known =>
        thread_of_phase state.threads thread node other known phase after found
      have fewer : ∀ after : ThreadPhase, phase.left = after.left + 1 → ∃ rest,
          ThreadsLeft (Function.update state.threads thread (some ⟨node, after⟩)) rest ∧
            steps + rest < steps + work := by
        intro after next
        obtain ⟨rest, left, same⟩ := threads_left_update state.threads thread work (some ⟨node, after⟩) threads
        rw [found] at same
        simp only [threadLeft] at same
        exact ⟨rest, left, by omega⟩
      rw [threadStep, found]
      cases phase with
      | started =>
          apply nearer_node
          intro data _
          obtain ⟨rest, left, less⟩ := fewer (.handling data.clientFd) rfl
          exact ⟨nodes, steps, rest, held_threads _ _ _ _ _ _ _ _ held (samePhase _), leaving, ahead, left, less⟩
      | handling clientFd =>
          obtain ⟨rest, left, less⟩ := fewer .closed rfl
          exact ⟨nodes, steps, rest, held_threads _ _ _ _ _ _ _ _ held (samePhase _), leaving, ahead, left, less⟩
      | closed =>
          apply nearer_node
          intro data read
          obtain ⟨rest, left, less⟩ := fewer .completed rfl
          exact ⟨nodes, steps, rest,
            held_threads _ _ _ _ _ _ _ _ (held_complete _ _ _ _ _ _ _ node data true held read) (samePhase _), leaving,
              ahead,
            left, less⟩
      | completed =>
          obtain ⟨rest, left, less⟩ := fewer .returned rfl
          exact ⟨nodes, steps, rest, held_threads _ _ _ _ _ _ _ _ held (samePhase _), leaving, ahead, left, less⟩
      | returned => trivial

-- Every move of main or of a thread takes one off what is left.
theorem moves_left (stalled : Nat → Prop) (start after : MainState) (nodes : List Nat) (steps work count : Nat)
    (held : start.Held nodes) (leaving : start.leaving) (ahead : Ahead start.place nodes steps)
    (threads : ThreadsLeft start.threads work) (moves : MovesFrom stalled start count after) :
    ∃ now less rest, after.Held now ∧ after.leaving ∧ Ahead after.place now less ∧ ThreadsLeft after.threads rest ∧
      count + (less + rest) ≤ steps + work := by
  induction moves with
  | start => exact ⟨nodes, steps, work, held, leaving, ahead, threads, by omega⟩
  | main count state after call earlier ran ih =>
      obtain ⟨now, less, rest, nowHeld, nowLeaving, nowAhead, nowThreads, bound⟩ := ih
      have nearer := main_nearer state now less rest nowLeaving nowThreads call nowHeld nowAhead
      rw [ran] at nearer
      obtain ⟨next, fewer, left, nextHeld, nextLeaving, nextAhead, nextThreads, lower⟩ := nearer
      exact ⟨next, fewer, left, nextHeld, nextLeaving, nextAhead, nextThreads, by omega⟩
  | thread count state after thread earlier _ ran ih =>
      obtain ⟨now, less, rest, nowHeld, nowLeaving, nowAhead, nowThreads, bound⟩ := ih
      have nearer := thread_nearer state now less rest thread nowLeaving nowThreads nowHeld nowAhead
      rw [ran] at nearer
      obtain ⟨next, fewer, left, nextHeld, nextLeaving, nextAhead, nextThreads, lower⟩ := nearer
      exact ⟨next, fewer, left, nextHeld, nextLeaving, nextAhead, nextThreads, by omega⟩
  | signal count state earlier ih =>
      obtain ⟨now, less, rest, nowHeld, _, nowAhead, nowThreads, bound⟩ := ih
      exact ⟨now, less, rest, nowHeld, Or.inl rfl, nowAhead, nowThreads, bound⟩

theorem pass_left_below (count rest : Nat) (inside : rest ≤ count) :
    passLeft count rest + count + 6 ≤ passLeft (count + 1) (count + 1) := by
  have product : rest * (count + 7) ≤ count * (count + 8) := Nat.mul_le_mul inside (by omega)
  simp only [passLeft, Nat.add_mul, Nat.mul_add] at product ⊢
  omega

theorem position_ahead (pass : List Nat) (place : MainPlace) (log : PassLog) (nodes : List Nat)
    (position : Position pass place log nodes) :
    ∃ steps, Ahead place nodes steps ∧ steps ≤ passLeft (nodes.length + 1) (nodes.length + 1) + 6 := by
  have below := pass_left_below nodes.length
  have most := below nodes.length (Nat.le_refl _)
  have whole : 4 * nodes.length + 3 ≤ passLeft nodes.length nodes.length := Nat.le_add_left _ _
  cases position with
  | top here left record => exact ⟨_, .top here, by omega⟩
  | allocated node here left record => exact ⟨_, .allocated node here, by omega⟩
  | created node thread here left record => exact ⟨_, .created node thread here, by omega⟩
  | foreach rest here left record =>
      have shorter := below rest.length (by rw [left, List.length_append]; omega)
      exact ⟨_, .foreach _ rest here left, by omega⟩
  | visiting node rest here left record =>
      have shorter := below rest.length (by rw [left, List.length_append, List.length_cons]; omega)
      exact ⟨_, .visiting _ rest node here left, by omega⟩
  | joining seen node rest here visited left record =>
      have shorter := below rest.length (by rw [left, List.length_append, List.length_cons]; omega)
      exact ⟨_, .joining _ rest node here left, by omega⟩
  | removing seen node rest here visited left record =>
      have shorter := below rest.length (by rw [left, List.length_append, List.length_cons]; omega)
      exact ⟨_, .removing _ rest node here left, by omega⟩
  | walking seen node rest front middle curelm here visited walked left record =>
      have split : nodes = front ++ curelm :: (middle ++ node :: rest) := by
        rw [left, walked, List.append_assoc, List.cons_append]
      have lengths := congrArg List.length split
      simp only [List.length_append, List.length_cons] at lengths
      have shorter := below rest.length (by omega)
      exact ⟨_, .walking front middle rest curelm node here split, by omega⟩
  | freeing seen node rest here visited left record =>
      have shorter := below rest.length (by rw [left, List.length_append]; omega)
      exact ⟨_, .freeing _ rest node here left, by omega⟩
  | emptying here => exact ⟨_, .emptying here, by omega⟩
  | lastJoining node rest here left => exact ⟨_, .lastJoining node rest here left, by omega⟩
  | lastRemoving node rest here left =>
      have lengths := congrArg List.length left
      rw [List.length_cons] at lengths
      exact ⟨_, .lastRemoving node rest here left, by omega⟩
  | lastFreeing node here => exact ⟨_, .lastFreeing node here, by omega⟩
  | returned here left => exact ⟨_, .returned here, by omega⟩

-- Each thread has a node, the list's or the loose one.
theorem threads_left_held (heap : Nodes) (first : Option Nat) (threads : Threads) (nodes : List Nat)
    (loose orphan unset : Option Nat) (held : NodesHeld heap first threads nodes loose orphan unset) :
    ∃ work, ThreadsLeft threads work ∧ work ≤ 4 * (nodes.length + 2) := by
  let idOf := fun node => (heap node).elim 0 ThreadDataS.threadId
  let ids := unset.toList ++ (loose.toList ++ nodes).map idOf
  have all : ∀ thread, threads thread ≠ none → thread ∈ ids.toFinset := by
    intro thread started
    obtain ⟨⟨node, phase⟩, found⟩ := Option.ne_none_iff_exists'.mp started
    have isThread : ThreadOf threads thread node := ⟨phase, found⟩
    have live := (held.owned thread node isThread).1
    rw [List.mem_toFinset, List.mem_append]
    by_cases isUnset : unset = some thread
    · exact Or.inl (by simp [isUnset])
    · obtain ⟨data, read⟩ := Option.ne_none_iff_exists'.mp live
      have same := held.ids thread node data isThread read isUnset
      refine Or.inr (List.mem_map.mpr ⟨node, ?_, by simp only [idOf, read, Option.elim]; exact same⟩)
      rcases (held.live node).mp live with member | isLoose
      · exact List.mem_append_right _ member
      · exact List.mem_append_left _ (by simp [isLoose])
  refine ⟨_, ⟨ids.toFinset, all, rfl⟩, ?_⟩
  have each : ∀ thread ∈ ids.toFinset, threadLeft (threads thread) ≤ 4 := by
    intro thread _
    cases threads thread with
    | none => exact Nat.zero_le 4
    | some record =>
        obtain ⟨node, phase⟩ := record
        cases phase <;> simp [threadLeft, ThreadPhase.left]
  have total := Finset.sum_le_card_nsmul ids.toFinset _ 4 each
  have few := List.toFinset_card_le ids
  have lengths : ids.length ≤ nodes.length + 2 := by
    simp only [ids, List.length_append, List.length_map]
    cases unset <;> cases loose <;> simp <;> omega
  rw [smul_eq_mul] at total
  omega

-- main is in pthread_join for a thread that has not returned.
def MainWaits (state : MainState) (thread : Nat) : Prop :=
  ∃ node data client, ((∃ nextThread, state.place = .joining node nextThread) ∨ state.place = .lastJoining node) ∧
    state.heap node = some data ∧ data.threadId = thread ∧ state.threads thread = some client ∧ client.phase ≠ .returned

theorem unfinished_goes (pass : List Nat) (state : MainState) (thread : Nat) (client : ClientThread)
    (inv : MainInv pass state) (found : state.threads thread = some client) (unfinished : client.phase ≠ .returned) :
    ∃ after, threadStep state thread = .next after := by
  have allowed := thread_allowed pass state thread inv
  obtain ⟨node, phase⟩ := client
  cases outcome : threadStep state thread with
  | next after => exact ⟨after, rfl⟩
  | undefined => exact absurd outcome (allowed_defined pass state _ allowed)
  | blocked =>
      rw [threadStep, found] at outcome
      cases phase with
      | started =>
          simp only [withNode] at outcome
          split at outcome <;> cases outcome
      | handling clientFd => cases outcome
      | closed =>
          simp only [withNode] at outcome
          split at outcome <;> cases outcome
      | completed => cases outcome
      | returned => exact absurd rfl unfinished

theorem join_goes (pass : List Nat) (state : MainState) (node : Nat) (place : MainPlace) (inv : MainInv pass state)
    (joins : (∃ nextThread, state.place = .joining node nextThread) ∨ state.place = .lastJoining node)
    (defined : joinStep state node place ≠ .undefined) :
    (∃ after, joinStep state node place = .next after) ∨
      ∃ thread after, MainWaits state thread ∧ threadStep state thread = .next after := by
  simp only [joinStep, withNode] at defined ⊢
  cases read : state.heap node with
  | none => simp [read] at defined
  | some data =>
      cases found : state.threads data.threadId with
      | none => simp [read, found] at defined
      | some client =>
          by_cases returned : client.phase = .returned
          · exact Or.inl (by simp [found, returned])
          · obtain ⟨after, ran⟩ := unfinished_goes pass state data.threadId client inv found returned
            exact Or.inr ⟨data.threadId, after, ⟨node, data, client, joins, read, rfl, found, returned⟩, ran⟩

theorem node_goes (state : MainState) (node : Nat) (use : ThreadDataS → Outcome) (goes : ∀ data, use data ≠ .blocked) :
    withNode state node use ≠ .blocked := by
  rw [withNode]
  cases state.heap node with
  | none => simp
  | some data => exact goes data

-- Only accept and pthread_join wait, and main does not come to accept any more.
theorem leaving_blocked (state : MainState) (leaving : state.leaving)
    (blocked : mainStep state .createFails = .blocked) (unreturned : state.place ≠ .returned) :
    ∃ node place, ((∃ nextThread, state.place = .joining node nextThread) ∨ state.place = .lastJoining node) ∧
      mainStep state .createFails = joinStep state node place := by
  have ends : (!state.signalCaught && !state.failed) = false := by
    rcases leaving with caught | failed
    · simp [caught]
    · simp [failed]
  cases place : state.place with
  | top => simp [mainStep, place, ends] at blocked
  | allocated node =>
      simp only [mainStep, place, createStep] at blocked
      exact absurd blocked (node_goes state _ _ (by simp))
  | created node thread =>
      simp only [mainStep, place, insertStep] at blocked
      exact absurd blocked (node_goes state _ _ (by simp))
  | foreach threadPtr =>
      cases threadPtr with
      | none => simp [mainStep, place, foreachStep] at blocked
      | some node =>
          simp only [mainStep, place, foreachStep] at blocked
          exact absurd blocked (node_goes state _ _ (by simp))
  | visiting node nextThread =>
      simp only [mainStep, place, visitStep] at blocked
      exact absurd blocked (node_goes state _ _ (by simp))
  | joining node nextThread =>
      exact ⟨node, .removing node nextThread, Or.inl ⟨nextThread, rfl⟩, by simp only [mainStep, place]⟩
  | removing node nextThread =>
      simp only [mainStep, place, removeStep, removeHeadStep] at blocked
      split at blocked
      · split at blocked
        · cases blocked
        · exact absurd blocked (node_goes state _ _ (by simp))
      · split at blocked <;> cases blocked
  | walking node nextThread curelm =>
      simp only [mainStep, place, walkStep] at blocked
      refine absurd blocked (node_goes state _ _ fun data => ?_)
      split
      · exact node_goes state _ _ (by simp)
      · split <;> simp
  | freeing node nextThread =>
      simp only [mainStep, place, freeStep] at blocked
      exact absurd blocked (node_goes state _ _ (by simp))
  | emptying =>
      simp only [mainStep, place, emptyStep] at blocked
      split at blocked <;> cases blocked
  | lastJoining node => exact ⟨node, .lastRemoving node, Or.inr rfl, by simp only [mainStep, place]⟩
  | lastRemoving node =>
      simp only [mainStep, place, removeHeadStep] at blocked
      split at blocked
      · cases blocked
      · exact absurd blocked (node_goes state _ _ (by simp))
  | lastFreeing node =>
      simp only [mainStep, place, freeStep] at blocked
      exact absurd blocked (node_goes state _ _ (by simp))
  | returned => exact absurd place unreturned

theorem leaving_goes (pass : List Nat) (state : MainState) (inv : MainInv pass state) (leaving : state.leaving)
    (unreturned : state.place ≠ .returned) :
    (∃ call after, mainStep state call = .next after) ∨
      ∃ thread after, MainWaits state thread ∧ threadStep state thread = .next after := by
  have defined := allowed_defined pass state _ (main_allowed pass state .createFails inv)
  cases outcome : mainStep state .createFails with
  | next after => exact Or.inl ⟨.createFails, after, outcome⟩
  | undefined => exact absurd outcome defined
  | blocked =>
      obtain ⟨node, place, joins, step⟩ := leaving_blocked state leaving outcome unreturned
      rw [step] at outcome defined
      rcases join_goes pass state node place inv joins defined with ⟨after, joined⟩ | waits
      · exact absurd (outcome.symm.trans joined) (by simp)
      · exact Or.inr waits

-- A stalled thread that is in handle_client or on its way there.
def Lingers (stalled : Nat → Prop) (state : MainState) (thread : Nat) : Prop :=
  stalled thread ∧ ∃ node, state.threads thread = some ⟨node, .started⟩ ∨
    ∃ clientFd, state.threads thread = some ⟨node, .handling clientFd⟩

theorem lingers_main (stalled : Nat → Prop) (state after : MainState) (thread : Nat) (call : MainCall)
    (lingers : Lingers stalled state thread)
    (ran : mainStep state call = .next after) : Lingers stalled after thread := by
  obtain ⟨never, node, here⟩ := lingers
  refine ⟨never, node, ?_⟩
  suffices kept : after.threads thread = state.threads thread by rwa [kept]
  cases (main_effect state after call ran).threads with
  | same same => rw [same]
  | created other made unused now =>
      rw [now, Function.update_of_ne]
      rintro rfl
      rcases here with begun | ⟨clientFd, inside⟩
      · rw [unused] at begun
        cases begun
      · rw [unused] at inside
        cases inside
  | joined other client found returned now =>
      rw [now, Function.update_of_ne]
      rintro rfl
      rcases here with begun | ⟨clientFd, inside⟩
      · obtain rfl := Option.some.inj (found.symm.trans begun)
        cases returned
      · obtain rfl := Option.some.inj (found.symm.trans inside)
        cases returned

theorem thread_apart (state after : MainState) (thread other : Nat) (ran : threadStep state thread = .next after)
    (apart : other ≠ thread) : after.threads other = state.threads other := by
  unfold threadStep at ran
  split at ran
  · cases ran
  · obtain ⟨_, _, went⟩ := with_node_next state after _ _ ran
    cases went
    exact Function.update_of_ne apart ..
  · cases ran
    exact Function.update_of_ne apart ..
  · obtain ⟨_, _, went⟩ := with_node_next state after _ _ ran
    cases went
    exact Function.update_of_ne apart ..
  · cases ran
    exact Function.update_of_ne apart ..
  · cases ran

theorem lingers_thread (stalled : Nat → Prop) (state after : MainState) (thread mover : Nat)
    (lingers : Lingers stalled state thread) (comes : ¬ Stands stalled state mover)
    (ran : threadStep state mover = .next after) : Lingers stalled after thread := by
  obtain ⟨never, node, here⟩ := lingers
  by_cases same : thread = mover
  · subst same
    rcases here with begun | ⟨clientFd, inside⟩
    · rw [threadStep, begun] at ran
      obtain ⟨data, _, went⟩ := with_node_next state after node _ ran
      cases went
      exact ⟨never, node, Or.inr ⟨data.clientFd, Function.update_self ..⟩⟩
    · exact absurd ⟨never, node, clientFd, inside⟩ comes
  · refine ⟨never, node, ?_⟩
    rwa [thread_apart state after mover thread ran same]

theorem lingers_moves (stalled : Nat → Prop) (state after : MainState) (thread count : Nat)
    (moves : MovesFrom stalled state count after)
    (lingers : Lingers stalled state thread) : Lingers stalled after thread := by
  induction moves with
  | start => exact lingers
  | main count state after call _ ran ih => exact lingers_main stalled state after thread call ih ran
  | thread count state after mover _ comes ran ih => exact lingers_thread stalled state after thread mover ih comes ran
  | signal count state _ ih => exact ih

-- Neither main nor a thread has a move left.
def AtRest (stalled : Nat → Prop) (state : MainState) : Prop :=
  (∀ call after, mainStep state call ≠ .next after) ∧
    ∀ thread after, threadStep state thread = .next after → Stands stalled state thread

-- What main and its threads do at most once the loop is to end, with a list of
-- count nodes.
def shutdownMoves (count : Nat) : Nat := count * count + 17 * count + 29

theorem moves_reachable (stalled : Nat → Prop) (start state after : MainState) (count : Nat) (run : MainRun start state)
    (moves : MovesFrom stalled state count after) : MainRun start after := by
  induction moves with
  | start => exact run
  | main count state after call earlier ran ih => exact .step _ _ ih (.main call ran)
  | thread count state after thread earlier comes ran ih => exact .step _ _ ih (.thread thread ran)
  | signal count state earlier ih => exact .step _ _ ih (.signal rfl)

structure Finished (state : MainState) : Prop where
  place : state.place = .returned
  threads : ∀ thread, state.threads thread = none
  heap : ∀ node, state.heap node = none

/-- main has returned where shutting down rests, if and only if no thread lingers in handle_client. -/
theorem shutdown_rests (failed : Bool) (stalled : Nat → Prop) (state after : MainState) (nodes : List Nat) (count : Nat)
    (run : MainRun (mainStart failed) state) (leaving : state.leaving)
    (listed : Chain ThreadDataS.next state.heap state.first nodes) (moves : MovesFrom stalled state count after) :
    count ≤ shutdownMoves nodes.length ∧
      (∀ thread, Lingers stalled state thread → Lingers stalled after thread ∧ after.place ≠ .returned) ∧
      (AtRest stalled after → (Finished after ↔ ∀ thread, ¬ Lingers stalled after thread) ∧
        (Finished after ∨ ∃ thread, MainWaits after thread ∧ Stands stalled after thread)) := by
  obtain ⟨_, _, pass, others, held, position⟩ := run_passes (mainStart failed) state [] (main_start_inv failed) run
  have same := chain_unique _ _ others nodes held.chain listed
  rw [same] at held position
  obtain ⟨steps, ahead, stepsBelow⟩ := position_ahead pass state.place state.log nodes position
  obtain ⟨work, threads, workBelow⟩ := threads_left_held _ _ _ _ _ _ _ held
  obtain ⟨_, _, _, _, afterLeaving, _, _, bound⟩ :=
    moves_left stalled state after nodes steps work count held leaving ahead threads moves
  have total : passLeft (nodes.length + 1) (nodes.length + 1) + 6 + 4 * (nodes.length + 2) =
      shutdownMoves nodes.length := by
    simp only [passLeft, shutdownMoves, Nat.add_mul, Nat.mul_add]
    omega
  have reached := moves_reachable stalled (mainStart failed) state after count run moves
  obtain ⟨_, _, later, inv⟩ := run_passes (mainStart failed) after [] (main_start_inv failed) reached
  have finished : after.place = .returned → Finished after := fun returned =>
    ⟨returned, (inv_finished later after inv returned).1, (inv_finished later after inv returned).2⟩
  have alone : Finished after → ∀ thread, ¬ Lingers stalled after thread := by
    rintro done thread ⟨_, node, begun | ⟨clientFd, inside⟩⟩
    · rw [done.threads] at begun
      cases begun
    · rw [done.threads] at inside
      cases inside
  refine ⟨by omega, fun thread lingers => ?_, fun rest => ?_⟩
  · have still := lingers_moves stalled state after thread count moves lingers
    exact ⟨still, fun returned => alone (finished returned) thread still⟩
  · have ends : Finished after ∨ ∃ thread, MainWaits after thread ∧ Stands stalled after thread := by
      by_cases returned : after.place = .returned
      · exact Or.inl (finished returned)
      · rcases leaving_goes later after inv afterLeaving returned with ⟨call, next, ran⟩ | ⟨thread, next, waits, ran⟩
        · exact absurd ran (rest.1 call next)
        · exact Or.inr ⟨thread, waits, rest.2 thread next ran⟩
    refine ⟨⟨alone, fun none => ends.resolve_right ?_⟩, ends⟩
    rintro ⟨thread, _, never, node, clientFd, inside⟩
    exact none thread ⟨never, node, Or.inr ⟨clientFd, inside⟩⟩

theorem shutdown_rests_two_clients :
    ∃ state after, MainRun (mainStart false) state ∧ state.leaving ∧ MovesFrom (· = 2) state 10 after ∧
      AtRest (· = 2) after ∧ 10 ≤ shutdownMoves [200, 100].length ∧ ¬ Finished after ∧
      ∃ thread, MainWaits after thread ∧ Stands (· = 2) after thread := by
  have accepted : MainRun (mainStart false) _ := .step _ _ .refl (.main (.client 5 100 staleNode) rfl)
  have created : MainRun (mainStart false) _ := .step _ _ accepted (.main (.creates 1) rfl)
  have inserted : MainRun (mainStart false) _ := .step _ _ created (.main .other rfl)
  have visiting : MainRun (mainStart false) _ := .step _ _ inserted (.main .other rfl)
  have visited : MainRun (mainStart false) _ := .step _ _ visiting (.main .other rfl)
  have top : MainRun (mainStart false) _ := .step _ _ visited (.main .other rfl)
  have acceptedToo : MainRun (mainStart false) _ := .step _ _ top (.main (.client 6 200 staleNode) rfl)
  have createdToo : MainRun (mainStart false) _ := .step _ _ acceptedToo (.main (.creates 2) rfl)
  have insertedToo : MainRun (mainStart false) _ := .step _ _ createdToo (.main .other rfl)
  have handling : MainRun (mainStart false) _ := .step _ _ insertedToo (.thread 1 rfl)
  have handlingToo : MainRun (mainStart false) _ := .step _ _ handling (.thread 2 rfl)
  have caught : MainRun (mainStart false) _ := .step _ _ handlingToo (.signal rfl)
  have still : ∀ state, MainRun (mainStart false) state → MovesFrom (· = 2) state 0 state := fun _ _ => .start
  have first : MovesFrom (· = 2) _ 1 _ := .main 0 _ _ .other (still _ caught) rfl
  have second : MovesFrom (· = 2) _ 2 _ := .main 1 _ _ .other first rfl
  have third : MovesFrom (· = 2) _ 3 _ := .main 2 _ _ .other second rfl
  have fourth : MovesFrom (· = 2) _ 4 _ := .main 3 _ _ .other third rfl
  have passed : MovesFrom (· = 2) _ 5 _ := .main 4 _ _ .other fourth rfl
  have leaving : MovesFrom (· = 2) _ 6 _ := .main 5 _ _ .other passed rfl
  have joining : MovesFrom (· = 2) _ 7 _ := .main 6 _ _ .other leaving rfl
  have closed : MovesFrom (· = 2) _ 8 _ := .thread 7 _ _ 1 joining (fun stands => absurd stands.1 (by decide)) rfl
  have complete : MovesFrom (· = 2) _ 9 _ := .thread 8 _ _ 1 closed (fun stands => absurd stands.1 (by decide)) rfl
  have ended : MovesFrom (· = 2) _ 10 _ := .thread 9 _ _ 1 complete (fun stands => absurd stands.1 (by decide)) rfl
  have listed : ∀ state, MainRun (mainStart false) state → state.first = some 200 →
      state.heap 200 = some ⟨false, 6, 2, some 100⟩ → state.heap 100 = some ⟨false, 5, 1, none⟩ →
      Chain ThreadDataS.next state.heap state.first [200, 100] := by
    intro state _ first readToo read
    rw [first]
    exact .cons 200 ⟨false, 6, 2, some 100⟩ [100] readToo (.cons 100 ⟨false, 5, 1, none⟩ [] read .nil)
  have rests := shutdown_rests false (· = 2) _ _ [200, 100] 10 caught (Or.inl rfl) (listed _ caught rfl rfl rfl) ended
  have lingers := (rests.2.1 2 ⟨rfl, 200, Or.inr ⟨6, rfl⟩⟩).1
  have atRest : ∀ start state, MovesFrom (· = 2) start 10 state → state.place = .lastJoining 200 →
    state.heap 200 = some ⟨false, 6, 2, some 100⟩ →
      state.threads 1 = some ⟨100, .returned⟩ → state.threads 2 = some ⟨200, .handling 6⟩ →
      (∀ thread, thread ≠ 1 → thread ≠ 2 → state.threads thread = none) → AtRest (· = 2) state := by
    intro _ state _ place read one two others
    refine ⟨fun call next ran => ?_, fun thread next ran => ?_⟩
    · simp [mainStep, place, joinStep, withNode, read, two] at ran
    · by_cases isTwo : thread = 2
      · exact ⟨isTwo, 200, 6, by rw [isTwo]; exact two⟩
      · by_cases isOne : thread = 1
        · simp [threadStep, isOne, one] at ran
        · simp [threadStep, others thread isOne isTwo] at ran
  have rest := atRest _ _ ended rfl rfl rfl rfl fun thread one two => by
    simp [MainState.go, startPass, mainStart, one, two]
  obtain ⟨same, ends⟩ := rests.2.2 rest
  have unfinished := fun finished => same.mp finished 2 lingers
  exact ⟨_, _, caught, Or.inl rfl, ended, rest, rests.1, unfinished, ends.resolve_left unfinished⟩

end AesdChar

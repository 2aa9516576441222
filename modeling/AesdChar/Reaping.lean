import AesdChar.NodesHeld

set_option autoImplicit false

namespace AesdChar

open Slist

def MainPlace.loose : MainPlace → Option Nat
  | .allocated node => some node
  | .created node _ => some node
  | .freeing node _ => some node
  | .lastFreeing node => some node
  | _ => none

def MainPlace.orphan : MainPlace → Option Nat
  | .allocated node => some node
  | .removing node _ => some node
  | .walking node _ _ => some node
  | .freeing node _ => some node
  | .lastRemoving node => some node
  | .lastFreeing node => some node
  | _ => none

def MainPlace.unset : MainPlace → Option Nat
  | .created _ thread => some thread
  | _ => none

def MainState.Held (state : MainState) (nodes : List Nat) : Prop :=
  NodesHeld state.heap state.first state.threads nodes state.place.loose state.place.orphan state.place.unset

-- Of the nodes a pass has visited, those it leaves and those it reaps.
def keptOf (visited : List (Nat × Bool)) : List Nat := (visited.filter fun seen => !seen.2).map Prod.fst

def completeOf (visited : List (Nat × Bool)) : List Nat := (visited.filter fun seen => seen.2).map Prod.fst

theorem kept_snoc (visited : List (Nat × Bool)) (node : Nat) (complete : Bool) :
    keptOf (visited ++ [(node, complete)]) = keptOf visited ++ if complete then [] else [node] := by
  cases complete <;> simp [keptOf]

theorem complete_snoc (visited : List (Nat × Bool)) (node : Nat) (complete : Bool) :
    completeOf (visited ++ [(node, complete)]) = completeOf visited ++ if complete then [node] else [] := by
  cases complete <;> simp [completeOf]

-- pass is the list as the pass has found it, rest what it has not visited.
structure PassRecord (pass : List Nat) (log : PassLog) (joined freed : List (Nat × Bool)) (rest : List Nat) : Prop where
  all : pass = log.visited.map Prod.fst ++ rest
  joined : log.joined = completeOf joined
  freed : log.freed = completeOf freed

-- What the list is at each place of main.
inductive Position (pass : List Nat) (place : MainPlace) (log : PassLog) (nodes : List Nat) : Prop where
  | top (here : place = .top) (left : nodes = keptOf log.visited)
      (record : PassRecord pass log log.visited log.visited [])
  | allocated (node : Nat) (here : place = .allocated node) (left : nodes = keptOf log.visited)
      (record : PassRecord pass log log.visited log.visited [])
  | created (node thread : Nat) (here : place = .created node thread) (left : nodes = keptOf log.visited)
      (record : PassRecord pass log log.visited log.visited [])
  | foreach (rest : List Nat) (here : place = .foreach rest.head?) (left : nodes = keptOf log.visited ++ rest)
      (record : PassRecord pass log log.visited log.visited rest)
  | visiting (node : Nat) (rest : List Nat) (here : place = .visiting node rest.head?)
      (left : nodes = keptOf log.visited ++ node :: rest)
      (record : PassRecord pass log log.visited log.visited (node :: rest))
  | joining (seen : List (Nat × Bool)) (node : Nat) (rest : List Nat) (here : place = .joining node rest.head?)
      (visited : log.visited = seen ++ [(node, true)]) (left : nodes = keptOf seen ++ node :: rest)
      (record : PassRecord pass log seen seen rest)
  | removing (seen : List (Nat × Bool)) (node : Nat) (rest : List Nat) (here : place = .removing node rest.head?)
      (visited : log.visited = seen ++ [(node, true)]) (left : nodes = keptOf seen ++ node :: rest)
      (record : PassRecord pass log log.visited seen rest)
  | walking (seen : List (Nat × Bool)) (node : Nat) (rest front middle : List Nat) (curelm : Nat)
      (here : place = .walking node rest.head? curelm) (visited : log.visited = seen ++ [(node, true)])
      (walked : keptOf seen = front ++ curelm :: middle) (left : nodes = keptOf seen ++ node :: rest)
      (record : PassRecord pass log log.visited seen rest)
  | freeing (seen : List (Nat × Bool)) (node : Nat) (rest : List Nat) (here : place = .freeing node rest.head?)
      (visited : log.visited = seen ++ [(node, true)]) (left : nodes = keptOf seen ++ rest)
      (record : PassRecord pass log log.visited seen rest)
  | emptying (here : place = .emptying)
  | lastJoining (node : Nat) (rest : List Nat) (here : place = .lastJoining node) (left : nodes = node :: rest)
  | lastRemoving (node : Nat) (rest : List Nat) (here : place = .lastRemoving node) (left : nodes = node :: rest)
  | lastFreeing (node : Nat) (here : place = .lastFreeing node)
  | returned (here : place = .returned) (left : nodes = [])

def MainInv (pass : List Nat) (state : MainState) : Prop := ∃ nodes, state.Held nodes ∧
    Position pass state.place state.log nodes

-- A step stays in its pass, or starts the next one.
def Preserves (pass : List Nat) (state after : MainState) : Prop :=
  (after.passes = state.passes ∧ MainInv pass after) ∨ (after.passes = state.passes + 1 ∧ ∃ later, MainInv later after)

def Allowed (pass : List Nat) (state : MainState) : Outcome → Prop
  | .blocked => True
  | .undefined => False
  | .next after => Preserves pass state after

theorem main_start_inv (failed : Bool) : MainInv [] (mainStart failed) :=
  ⟨[], held_start, .top rfl rfl ⟨rfl, rfl, rfl⟩⟩

section

variable (pass : List Nat) (state : MainState) (nodes : List Nat)

theorem allowed_node (node : Nat) (data : ThreadDataS) (use : ThreadDataS → Outcome)
    (read : state.heap node = some data)
    (allowed : Allowed pass state (use data)) : Allowed pass state (withNode state node use) := by
  rwa [withNode, read]

theorem allowed_live (node : Nat) (use : ThreadDataS → Outcome) (live : state.heap node ≠ none)
    (allowed : ∀ data, state.heap node = some data → Allowed pass state (use data)) :
    Allowed pass state (withNode state node use) := by
  obtain ⟨data, read⟩ := Option.ne_none_iff_exists'.mp live
  exact allowed_node pass state node data use read (allowed data read)

theorem start_pass_allowed (held : NodesHeld state.heap state.first state.threads nodes none none none) :
    Allowed pass state (.next (startPass state)) := by
  refine Or.inr ⟨rfl, nodes, nodes, held, .foreach nodes ?_ rfl ⟨rfl, rfl, rfl⟩⟩
  rw [startPass, chain_first state.heap state.first nodes held.chain]

theorem accept_allowed (call : MainCall) (held : NodesHeld state.heap state.first state.threads nodes none none none)
    (place : state.place = .top) (left : nodes = keptOf state.log.visited)
    (record : PassRecord pass state.log state.log.visited state.log.visited []) :
    Allowed pass state (acceptStep state call) := by
  cases call with
  | acceptFails => exact start_pass_allowed pass state nodes held
  | mallocFails =>
      refine Or.inl ⟨rfl, nodes, ?_, .top place left record⟩
      simp only [MainState.Held, place]
      exact held
  | client clientFd threadStruct stale =>
      by_cases unused : state.heap threadStruct = none
      · rw [acceptStep, if_pos unused]
        exact Or.inl ⟨rfl, nodes, held_alloc _ _ _ _ _ _ held unused, .allocated threadStruct rfl left record⟩
      · rw [acceptStep, if_neg unused]
        trivial
  | createFails => trivial
  | creates thread => trivial
  | other => trivial

theorem create_allowed (node : Nat) (call : MainCall)
    (held : NodesHeld state.heap state.first state.threads nodes (some node) (some node) none)
    (left : nodes = keptOf state.log.visited)
    (record : PassRecord pass state.log state.log.visited state.log.visited []) :
    Allowed pass state (createStep state node call) := by
  cases call with
  | createFails =>
      refine allowed_live pass state node _ ((held.live node).mpr (Or.inr rfl)) fun data _ => ?_
      exact Or.inl ⟨rfl, nodes, held_free _ _ _ _ _ held, .top rfl left record⟩
  | creates thread =>
      by_cases unused : state.threads thread = none
      · rw [createStep, if_pos unused]
        exact Or.inl ⟨rfl, nodes, held_create _ _ _ _ node thread held unused, .created node thread rfl left record⟩
      · rw [createStep, if_neg unused]
        trivial
  | acceptFails => trivial
  | mallocFails => trivial
  | client clientFd threadStruct stale => trivial
  | other => trivial

theorem insert_allowed (node thread : Nat)
    (held : NodesHeld state.heap state.first state.threads nodes (some node) none (some thread)) :
    Allowed pass state (insertStep state node thread) := by
  refine allowed_live pass state node _ ((held.live node).mpr (Or.inr rfl)) fun data _ => ?_
  exact Or.inr ⟨rfl, node :: nodes, node :: nodes, held_insert _ _ _ _ node thread data held,
    .foreach (node :: nodes) rfl rfl ⟨rfl, rfl, rfl⟩⟩

theorem foreach_allowed (rest : List Nat)
    (held : NodesHeld state.heap state.first state.threads nodes none none none)
    (left : nodes = keptOf state.log.visited ++ rest)
    (record : PassRecord pass state.log state.log.visited state.log.visited rest) :
    Allowed pass state (foreachStep state rest.head?) := by
  cases rest with
  | nil =>
      rw [List.append_nil] at left
      exact Or.inl ⟨rfl, nodes, held, .top rfl left record⟩
  | cons node rest =>
      have chain := held.chain
      rw [left] at chain
      obtain ⟨data, read, _⟩ := chain_read _ _ _ rest node chain
      have linked := chain_link _ _ _ rest node data chain read
      refine allowed_node pass state node data _ read (Or.inl ⟨rfl, nodes, held, .visiting node rest ?_ left record⟩)
      rw [MainState.go, linked]

theorem visit_allowed (node : Nat) (rest : List Nat)
    (held : NodesHeld state.heap state.first state.threads nodes none none none)
    (left : nodes = keptOf state.log.visited ++ node :: rest)
    (record : PassRecord pass state.log state.log.visited state.log.visited (node :: rest)) :
    Allowed pass state (visitStep state node rest.head?) := by
  have live : state.heap node ≠ none := (held.live node).mpr (Or.inl (by simp [left]))
  refine allowed_live pass state node _ live fun data read => ?_
  obtain ⟨all, joined, freed⟩ := record
  cases complete : data.threadComplete with
  | true =>
      refine Or.inl ⟨rfl, nodes, held, .joining state.log.visited node rest rfl rfl left ⟨?_, joined, freed⟩⟩
      simp [all]
  | false =>
      refine Or.inl ⟨rfl, nodes, held, .foreach rest rfl ?_ ⟨?_, ?_, ?_⟩⟩
      · simp [left, kept_snoc]
      · simp [all]
      · simp [joined, complete_snoc]
      · simp [freed, complete_snoc]

-- The thread joined is the one of the node, so that no thread is joined twice.
theorem join_allowed (node : Nat) (place : MainPlace)
    (held : NodesHeld state.heap state.first state.threads nodes none none none) (member : node ∈ nodes)
    (quiet : place.loose = none ∧ place.orphan = some node ∧ place.unset = none)
    (next : Position pass place { state.log with joined := state.log.joined ++ [node] } nodes) :
    Allowed pass state (joinStep state node place) := by
  have live : state.heap node ≠ none := (held.live node).mpr (Or.inl member)
  refine allowed_live pass state node _ live fun data read => ?_
  obtain ⟨thread, phase, isThread⟩ := held.owner node live (by simp)
  have sameId := held.ids thread node data ⟨phase, isThread⟩ read (by simp)
  rw [sameId, isThread]
  by_cases returned : phase = .returned
  · simp only [if_pos returned]
    refine Or.inl ⟨rfl, nodes, ?_, next⟩
    simp only [MainState.Held, quiet.1, quiet.2.1, quiet.2.2]
    exact held_join _ _ _ _ thread node held ⟨phase, isThread⟩
  · simp only [if_neg returned]
    trivial

theorem remove_head_allowed (node : Nat) (rest : List Nat) (place : MainPlace)
    (held : NodesHeld state.heap state.first state.threads (node :: rest) none (some node) none)
    (quiet : place.loose = some node ∧ place.orphan = some node ∧ place.unset = none)
    (next : Position pass place state.log rest) :
    Allowed pass state (removeHeadStep state place) := by
  have first : state.first = some node := chain_first _ _ _ held.chain
  rw [removeHeadStep, first]
  have live : state.heap node ≠ none := (held.live node).mpr (Or.inl (by simp))
  refine allowed_live pass state node _ live fun data read => ?_
  refine Or.inl ⟨rfl, rest, ?_, next⟩
  simp only [MainState.Held, quiet.1, quiet.2.1, quiet.2.2]
  exact held_remove_head _ _ _ node data _ _ held read

theorem free_allowed (node : Nat) (place : MainPlace)
    (held : NodesHeld state.heap state.first state.threads nodes (some node) (some node) none)
    (quiet : place.loose = none ∧ place.orphan = none ∧ place.unset = none)
    (next : Position pass place { state.log with freed := state.log.freed ++ [node] } nodes) :
    Allowed pass state (freeStep state node place) := by
  refine allowed_live pass state node _ ((held.live node).mpr (Or.inr rfl)) fun data _ => ?_
  refine Or.inl ⟨rfl, nodes, ?_, next⟩
  simp only [MainState.Held, quiet.1, quiet.2.1, quiet.2.2]
  exact held_free _ _ _ _ node held

-- SLIST_REMOVE on a node of the list: it is the first one, or the walk starts
-- before it.
theorem remove_allowed (seen : List (Nat × Bool)) (node : Nat) (rest : List Nat)
    (held : NodesHeld state.heap state.first state.threads nodes none (some node) none)
    (visited : state.log.visited = seen ++ [(node, true)]) (left : nodes = keptOf seen ++ node :: rest)
    (record : PassRecord pass state.log state.log.visited seen rest) :
    Allowed pass state (removeStep state node rest.head?) := by
  have first := chain_first _ _ _ held.chain
  have once := chain_nodup _ _ _ held.chain
  cases kept : keptOf seen with
  | nil =>
      rw [kept, List.nil_append] at left
      rw [removeStep, if_pos (by rw [first, left]; rfl)]
      rw [left] at held
      exact remove_head_allowed pass state node rest _ held ⟨rfl, rfl, rfl⟩
        (.freeing seen node rest rfl visited (by rw [kept]; rfl) record)
  | cons curelm middle =>
      have isFirst : state.first = some curelm := by rw [first, left, kept]; rfl
      have different : ¬ state.first = some node := by
        rw [isFirst]
        intro same
        cases same
        rw [left, kept] at once
        simp at once
      rw [removeStep, if_neg different, isFirst]
      exact Or.inl ⟨rfl, nodes, held, .walking seen node rest [] middle curelm rfl visited kept left record⟩

-- One round of its loop: the node is after curelm, so the walk ends before NULL.
theorem walk_allowed (seen : List (Nat × Bool)) (node : Nat) (rest front middle : List Nat) (curelm : Nat)
    (held : NodesHeld state.heap state.first state.threads nodes none (some node) none)
    (visited : state.log.visited = seen ++ [(node, true)]) (walked : keptOf seen = front ++ curelm :: middle)
    (left : nodes = keptOf seen ++ node :: rest) (record : PassRecord pass state.log state.log.visited seen rest) :
    Allowed pass state (walkStep state node rest.head? curelm) := by
  have chain := held.chain
  have once := chain_nodup _ _ _ held.chain
  have whole : nodes = front ++ curelm :: (middle ++ node :: rest) := by
    rw [left, walked, List.append_assoc, List.cons_append]
  rw [whole] at chain
  obtain ⟨data, read, _⟩ := chain_read _ _ _ _ curelm chain
  have linked := chain_link _ _ _ _ curelm data chain read
  refine allowed_node pass state curelm data _ read ?_
  cases middle with
  | nil =>
      have found : data.next = some node := linked
      have live : state.heap node ≠ none := (held.live node).mpr (Or.inl (by simp [left]))
      rw [if_pos found]
      refine allowed_live pass state node _ live fun removed readNode => ?_
      rw [whole] at held
      refine Or.inl
        ⟨rfl, front ++ curelm :: rest, held_unlink _ _ _ front rest curelm node data removed _ held read readNode,
        .freeing seen node rest rfl visited ?_ record⟩
      rw [walked, List.append_assoc]
      rfl
  | cons next middle =>
      have isNext : data.next = some next := linked
      have different : ¬ data.next = some node := by
        rw [isNext]
        intro same
        cases same
        rw [whole] at once
        have after := (List.nodup_cons.mp (once.sublist (List.sublist_append_right front _))).2
        exact (List.nodup_cons.mp after).1 (by simp)
      rw [if_neg different, isNext]
      refine Or.inl
        ⟨rfl, nodes, held, .walking seen node rest (front ++ [curelm]) middle next rfl visited ?_ left record⟩
      rw [walked, List.append_assoc]
      rfl

theorem empty_allowed (held : NodesHeld state.heap state.first state.threads nodes none none none) :
    Allowed pass state (emptyStep state) := by
  have first := chain_first _ _ _ held.chain
  cases nodes with
  | nil =>
      rw [emptyStep, first]
      exact Or.inl ⟨rfl, [], held, .returned rfl rfl⟩
  | cons node rest =>
      rw [emptyStep, first]
      exact Or.inl ⟨rfl, node :: rest, held, .lastJoining node rest rfl rfl⟩

theorem main_allowed (call : MainCall) (inv : MainInv pass state) : Allowed pass state (mainStep state call) := by
  obtain ⟨nodes, held, position⟩ := inv
  rw [MainState.Held] at held
  rw [mainStep]
  generalize atPlace : state.place = place at held position ⊢
  cases position with
  | top here left record =>
      subst here
      by_cases goesOn : (!state.signalCaught && !state.failed) = true
      · simp only [if_pos goesOn]
        exact accept_allowed pass state nodes call held atPlace left record
      · simp only [if_neg goesOn]
        exact Or.inl ⟨rfl, nodes, held, .emptying rfl⟩
  | allocated node here left record =>
      subst here
      exact create_allowed pass state nodes node call held left record
  | created node thread here left record =>
      subst here
      exact insert_allowed pass state nodes node thread held
  | foreach rest here left record =>
      subst here
      exact foreach_allowed pass state nodes rest held left record
  | visiting node rest here left record =>
      subst here
      exact visit_allowed pass state nodes node rest held left record
  | joining seen node rest here visited left record =>
      subst here
      obtain ⟨all, joined, freed⟩ := record
      refine join_allowed pass state nodes node _ held (by simp [left]) ⟨rfl, rfl, rfl⟩
        (.removing seen node rest rfl visited left ⟨all, ?_, freed⟩)
      simp [visited, complete_snoc, joined]
  | removing seen node rest here visited left record =>
      subst here
      exact remove_allowed pass state nodes seen node rest held visited left record
  | walking seen node rest front middle curelm here visited walked left record =>
      subst here
      exact walk_allowed pass state nodes seen node rest front middle curelm held visited walked left record
  | freeing seen node rest here visited left record =>
      subst here
      obtain ⟨all, joined, freed⟩ := record
      refine free_allowed pass state nodes node _ held ⟨rfl, rfl, rfl⟩
        (.foreach rest rfl ?_ ⟨all, joined, ?_⟩)
      · simp [visited, kept_snoc, left]
      · simp [visited, complete_snoc, freed]
  | emptying here =>
      subst here
      exact empty_allowed pass state nodes held
  | lastJoining node rest here left =>
      subst here
      exact join_allowed pass state nodes node _ held (by simp [left]) ⟨rfl, rfl, rfl⟩
        (.lastRemoving node rest rfl left)
  | lastRemoving node rest here left =>
      subst here left
      exact remove_head_allowed pass state node rest _ held ⟨rfl, rfl, rfl⟩ (.lastFreeing node rfl)
  | lastFreeing node here =>
      subst here
      exact free_allowed pass state nodes node _ held ⟨rfl, rfl, rfl⟩ (.emptying rfl)
  | returned here left =>
      subst here
      trivial

-- A thread changes neither the list nor what main has recorded, at any moment.
theorem thread_allowed (thread : Nat) (inv : MainInv pass state) : Allowed pass state (threadStep state thread) := by
  obtain ⟨nodes, held, position⟩ := inv
  cases found : state.threads thread with
  | none =>
      rw [threadStep, found]
      trivial
  | some record =>
      obtain ⟨node, phase⟩ := record
      have live := (held.owned thread node ⟨phase, found⟩).1
      have samePhase : ∀ after other known,
          ThreadOf (Function.update state.threads thread (some ⟨node, after⟩)) other known ↔
            ThreadOf state.threads other known := fun after other known =>
        thread_of_phase state.threads thread node other known phase after found
      rw [threadStep, found]
      cases phase with
      | started =>
          refine allowed_live pass state node _ live fun data _ => ?_
          exact Or.inl ⟨rfl, nodes, held_threads _ _ _ _ _ _ _ _ held (samePhase _), position⟩
      | handling clientFd => exact Or.inl ⟨rfl, nodes, held_threads _ _ _ _ _ _ _ _ held (samePhase _), position⟩
      | closed =>
          refine allowed_live pass state node _ live fun data read => ?_
          exact Or.inl ⟨rfl, nodes, held_threads _ _ _ _ _ _ _ _ (held_complete _ _ _ _ _ _ _ node data true held read)
            (samePhase _), position⟩
      | completed => exact Or.inl ⟨rfl, nodes, held_threads _ _ _ _ _ _ _ _ held (samePhase _), position⟩
      | returned => trivial

theorem move_preserves (after : MainState) (inv : MainInv pass state) (move : MainMove state after) :
    Preserves pass state after := by
  cases move with
  | main call ran =>
      have allowed := main_allowed pass state call inv
      rwa [ran] at allowed
  | thread thread ran =>
      have allowed := thread_allowed pass state thread inv
      rwa [ran] at allowed
  | signal caught =>
      obtain ⟨nodes, held, position⟩ := inv
      rw [caught]
      exact Or.inl ⟨rfl, nodes, held, position⟩

end

theorem run_passes (start state : MainState) (pass : List Nat) (inv : MainInv pass start) (run : MainRun start state) :
    start.passes ≤ state.passes ∧ (state.passes = start.passes → MainInv pass state) ∧
      ∃ later, MainInv later state := by
  induction run with
  | refl => exact ⟨Nat.le_refl _, fun _ => inv, pass, inv⟩
  | step state after run move ih =>
      obtain ⟨grown, same, later, laterInv⟩ := ih
      rcases move_preserves later state after laterInv move with ⟨stays, afterInv⟩ | ⟨starts, afterInv⟩
      · refine ⟨by omega, fun isSame => ?_, later, afterInv⟩
        rcases move_preserves pass state after (same (by omega)) move with ⟨_, inPass⟩ | ⟨starts, _⟩
        · exact inPass
        · omega
      · exact ⟨by omega, fun isSame => by omega, afterInv⟩

end AesdChar

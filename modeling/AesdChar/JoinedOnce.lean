import AesdChar.Reaping

set_option autoImplicit false

namespace AesdChar

open Slist

-- An iteration under way that has not come to its pass yet.
def MainPlace.begun : MainPlace → Nat
  | .allocated _ => 1
  | .created _ _ => 1
  | _ => 0

inductive ThreadsMoved (before after : Threads) : Prop where
  | same (same : after = before)
  | created (thread node : Nat) (unused : before thread = none)
      (now : after = Function.update before thread (some ⟨node, .started⟩))
  | joined (thread : Nat) (client : ClientThread) (found : before thread = some client)
      (returned : client.phase = .returned)
      (now : after = Function.update before thread none)

structure MainEffect (state after : MainState) : Prop where
  counted : after.accepts + (state.cut + state.passes + state.place.begun) =
    state.accepts + (after.cut + after.passes + after.place.begun)
  passes : after.passes = state.passes ∨
    (after.passes = state.passes + 1 ∧ after.place = .foreach after.first ∧ after.log.visited = [])
  threads : ThreadsMoved state.threads after.threads

def Effects (state : MainState) : Outcome → Prop
  | .blocked => True
  | .undefined => True
  | .next after => MainEffect state after

theorem effects_node (state : MainState) (node : Nat) (use : ThreadDataS → Outcome)
    (effects : ∀ data, Effects state (use data)) :
    Effects state (withNode state node use) := by
  rw [withNode]
  cases state.heap node with
  | none => trivial
  | some data => exact effects data

theorem effects_quiet (state after : MainState) (accepts : after.accepts = state.accepts) (cut : after.cut = state.cut)
    (passes : after.passes = state.passes) (begun : after.place.begun = state.place.begun)
    (threads : after.threads = state.threads) : Effects state (.next after) := by
  refine ⟨?_, Or.inl passes, .same threads⟩
  rw [accepts, cut, passes, begun]

theorem join_effects (state : MainState) (node : Nat) (place : MainPlace) (same : place.begun = state.place.begun) :
    Effects state (joinStep state node place) := by
  refine effects_node state node _ fun data => ?_
  dsimp only
  cases found : state.threads data.threadId with
  | none => trivial
  | some client =>
      by_cases returned : client.phase = .returned
      · simp only [if_pos returned]
        refine ⟨?_, Or.inl rfl, .joined data.threadId client found returned rfl⟩
        rw [same]
      · simp only [if_neg returned]
        trivial

theorem remove_head_effects (state : MainState) (place : MainPlace) (same : place.begun = state.place.begun) :
    Effects state (removeHeadStep state place) := by
  unfold removeHeadStep
  split
  · trivial
  · exact effects_node state _ _ fun data => effects_quiet state _ rfl rfl rfl same rfl

theorem free_effects (state : MainState) (node : Nat) (place : MainPlace) (same : place.begun = state.place.begun) :
    Effects state (freeStep state node place) :=
  effects_node state node _ fun _ => effects_quiet state _ rfl rfl rfl same rfl

theorem accept_effects (state : MainState) (call : MainCall) (top : state.place = .top) :
    Effects state (acceptStep state call) := by
  cases call with
  | acceptFails =>
      refine ⟨?_, Or.inr ⟨rfl, rfl, rfl⟩, .same rfl⟩
      simp only [startPass, top, MainPlace.begun]
      omega
  | mallocFails =>
      refine ⟨?_, Or.inl rfl, .same rfl⟩
      simp only [top, MainPlace.begun]
      omega
  | client clientFd threadStruct stale =>
      by_cases unused : state.heap threadStruct = none
      · rw [acceptStep, if_pos unused]
        refine ⟨?_, Or.inl rfl, .same rfl⟩
        simp only [top, MainPlace.begun]
        omega
      · rw [acceptStep, if_neg unused]
        trivial
  | _ => trivial

theorem create_effects (state : MainState) (node : Nat) (call : MainCall) (here : state.place = .allocated node) :
    Effects state (createStep state node call) := by
  cases call with
  | createFails =>
      refine effects_node state node _ fun _ => ⟨?_, Or.inl rfl, .same rfl⟩
      simp only [here, MainPlace.begun]
      omega
  | creates thread =>
      by_cases unused : state.threads thread = none
      · rw [createStep, if_pos unused]
        exact ⟨by rw [here]; rfl, Or.inl rfl, .created thread node unused rfl⟩
      · rw [createStep, if_neg unused]
        trivial
  | _ => trivial

theorem main_effects (state : MainState) (call : MainCall) : Effects state (mainStep state call) := by
  unfold mainStep
  split
  case h_1 top =>
      split
      · exact accept_effects state call top
      · exact effects_quiet state _ rfl rfl rfl (by rw [top]; rfl) rfl
  case h_2 node here => exact create_effects state node call here
  case h_3 node thread here =>
      refine effects_node state node _ fun _ => ⟨?_, Or.inr ⟨rfl, rfl, rfl⟩, .same rfl⟩
      simp only [startPass, here, MainPlace.begun]
      omega
  case h_4 threadPtr here =>
      cases threadPtr with
      | none => exact effects_quiet state _ rfl rfl rfl (by rw [here]; rfl) rfl
      | some node => exact effects_node state node _ fun _ => effects_quiet state _ rfl rfl rfl (by rw [here]; rfl) rfl
  case h_5 node nextThread here =>
      refine effects_node state node _ fun data => effects_quiet state _ rfl rfl rfl ?_ rfl
      rw [here]
      cases data.threadComplete <;> rfl
  case h_6 node nextThread here => exact join_effects state node _ (by rw [here]; rfl)
  case h_7 node nextThread here =>
      unfold removeStep
      split
      · exact remove_head_effects state _ (by rw [here]; rfl)
      · split
        · trivial
        · exact effects_quiet state _ rfl rfl rfl (by rw [here]; rfl) rfl
  case h_8 node nextThread curelm here =>
      refine effects_node state curelm _ fun data => ?_
      split
      · exact effects_node state node _ fun _ => effects_quiet state _ rfl rfl rfl (by rw [here]; rfl) rfl
      · split
        · trivial
        · exact effects_quiet state _ rfl rfl rfl (by rw [here]; rfl) rfl
  case h_9 node nextThread here => exact free_effects state node _ (by rw [here]; rfl)
  case h_10 here =>
      unfold emptyStep
      split <;> exact effects_quiet state _ rfl rfl rfl (by rw [here]; rfl) rfl
  case h_11 node here => exact join_effects state node _ (by rw [here]; rfl)
  case h_12 node here => exact remove_head_effects state _ (by rw [here]; rfl)
  case h_13 node here => exact free_effects state node _ (by rw [here]; rfl)
  case h_14 => trivial

theorem main_effect (state after : MainState) (call : MainCall) (ran : mainStep state call = .next after) :
    MainEffect state after := by
  have effects := main_effects state call
  rwa [ran] at effects

theorem with_node_next (state after : MainState) (node : Nat) (use : ThreadDataS → Outcome)
    (ran : withNode state node use = .next after) : ∃ data, state.heap node = some data ∧ use data = .next after := by
  rw [withNode] at ran
  cases read : state.heap node with
  | none =>
      rw [read] at ran
      cases ran
  | some data =>
      rw [read] at ran
      exact ⟨data, rfl, ran⟩

structure KeepsMain (state after : MainState) : Prop where
  place : after.place = state.place
  first : after.first = state.first
  failed : after.failed = state.failed
  accepts : after.accepts = state.accepts
  cut : after.cut = state.cut
  passes : after.passes = state.passes

theorem thread_keeps_main (state after : MainState) (thread : Nat) (ran : threadStep state thread = .next after) :
    KeepsMain state after := by
  cases found : state.threads thread with
  | none =>
      rw [threadStep, found] at ran
      cases ran
  | some record =>
      obtain ⟨node, phase⟩ := record
      rw [threadStep, found] at ran
      cases phase with
      | started =>
          obtain ⟨data, read, went⟩ := with_node_next state after node _ ran
          cases went
          exact ⟨rfl, rfl, rfl, rfl, rfl, rfl⟩
      | handling clientFd =>
          cases ran
          exact ⟨rfl, rfl, rfl, rfl, rfl, rfl⟩
      | closed =>
          obtain ⟨data, read, went⟩ := with_node_next state after node _ ran
          cases went
          exact ⟨rfl, rfl, rfl, rfl, rfl, rfl⟩
      | completed =>
          cases ran
          exact ⟨rfl, rfl, rfl, rfl, rfl, rfl⟩
      | returned => cases ran

theorem allowed_defined (pass : List Nat) (state : MainState) (outcome : Outcome)
    (allowed : Allowed pass state outcome) :
    outcome ≠ .undefined := by
  intro undefined
  rw [undefined] at allowed
  exact allowed

theorem inv_finished (pass : List Nat) (state : MainState) (inv : MainInv pass state)
    (place : state.place = .returned) :
    (∀ thread, state.threads thread = none) ∧ ∀ node, state.heap node = none := by
  obtain ⟨nodes, held, position⟩ := inv
  rw [MainState.Held, place] at held
  rw [place] at position
  have empty : nodes = [] := by
    cases position with
    | returned here left => exact left
    | _ => contradiction
  have freed : ∀ node, state.heap node = none := by
    intro node
    by_contra live
    rcases (held.live node).mp live with member | loose
    · simp [empty] at member
    · cases loose
  refine ⟨fun thread => ?_, freed⟩
  by_contra started
  obtain ⟨⟨node, phase⟩, found⟩ := Option.ne_none_iff_exists'.mp started
  exact (held.owned thread node ⟨phase, found⟩).1 (freed node)

def staleNode : ThreadDataS := ⟨true, 0, 9, some 300⟩

end AesdChar

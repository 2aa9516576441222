import AesdChar.MainThreads

set_option autoImplicit false

namespace AesdChar

open Slist

abbrev Nodes := Nat → Option ThreadDataS

abbrev Threads := Nat → Option ClientThread

def ThreadOf (threads : Threads) (thread node : Nat) : Prop := ∃ phase, threads thread = some ⟨node, phase⟩

-- The allocated nodes are those of the list and a loose one; all but an orphan
-- belong to one thread that is not joined. unset: the thread whose node does
-- not have its id yet.
structure NodesHeld (heap : Nodes) (first : Option Nat) (threads : Threads) (nodes : List Nat)
    (loose orphan unset : Option Nat) : Prop where
  chain : Chain ThreadDataS.next heap first nodes
  live : ∀ node, heap node ≠ none ↔ node ∈ nodes ∨ loose = some node
  apart : ∀ node, loose = some node → node ∉ nodes
  owned : ∀ thread node, ThreadOf threads thread node → heap node ≠ none ∧ orphan ≠ some node
  owner : ∀ node, heap node ≠ none → orphan ≠ some node → ∃ thread, ThreadOf threads thread node
  single : ∀ thread other node, ThreadOf threads thread node → ThreadOf threads other node → thread = other
  ids : ∀ thread node data, ThreadOf threads thread node → heap node = some data → unset ≠ some thread →
    data.threadId = thread
  fresh : ∀ thread, unset = some thread → ∃ node, ThreadOf threads thread node ∧ loose = some node

theorem held_start : NodesHeld (fun _ => none) none (fun _ => none) [] none none none where
  chain := .nil
  live := by simp
  apart := by simp
  owned := by simp [ThreadOf]
  owner := by simp
  single := by simp [ThreadOf]
  ids := by simp [ThreadOf]
  fresh := by simp

section

variable (heap : Nodes) (first : Option Nat) (threads : Threads) (nodes : List Nat)

theorem update_live (node other : Nat) (data : ThreadDataS) :
    Function.update heap node (some data) other ≠ none ↔ heap other ≠ none ∨ other = node := by
  by_cases same : other = node
  · simp [same]
  · simp [same]

theorem update_freed (node other : Nat) : Function.update heap node none other ≠ none ↔ heap other ≠ none ∧
    other ≠ node := by
  by_cases same : other = node
  · simp [same]
  · simp [same]

theorem held_alloc (node : Nat) (data : ThreadDataS) (held : NodesHeld heap first threads nodes none none none)
    (unused : heap node = none) :
    NodesHeld (Function.update heap node (some data)) first threads nodes (some node) (some node) none where
  chain := chain_outside heap first nodes node (some data) held.chain fun member =>
    (held.live node).mpr (Or.inl member) unused
  live other := by
    rw [update_live, held.live]
    simp [eq_comm]
  apart other same := by
    cases same
    exact fun member => (held.live node).mpr (Or.inl member) unused
  owned thread other isThread := by
    have before := (held.owned thread other isThread).1
    refine ⟨(update_live heap node other data).mpr (Or.inl before), ?_⟩
    intro same
    cases same
    exact before unused
  owner other live notOrphan := by
    have different : other ≠ node := fun same => notOrphan (by rw [same])
    exact held.owner other (((update_live heap node other data).mp live).resolve_right different) (by simp)
  single := held.single
  ids thread other found isThread read notUnset := by
    have different : other ≠ node := by
      intro same
      exact (held.owned thread other isThread).1 (same ▸ unused)
    rw [Function.update_of_ne different] at read
    exact held.ids thread other found isThread read notUnset
  fresh := by simp

theorem held_free (node : Nat) (held : NodesHeld heap first threads nodes (some node) (some node) none) :
    NodesHeld (Function.update heap node none) first threads nodes none none none where
  chain := chain_outside heap first nodes node none held.chain (held.apart node rfl)
  live other := by
    rw [update_freed, held.live]
    constructor
    · intro both
      rcases both.1 with member | loose
      · exact Or.inl member
      · exact absurd (Option.some.inj loose).symm both.2
    · intro either
      rcases either with member | impossible
      · exact ⟨Or.inl member, fun same => held.apart node rfl (same ▸ member)⟩
      · cases impossible
  apart := by simp
  owned thread other isThread := by
    obtain ⟨live, notOrphan⟩ := held.owned thread other isThread
    refine ⟨(update_freed heap node other).mpr ⟨live, fun same => notOrphan (by rw [same])⟩, by simp⟩
  owner other live _ := by
    obtain ⟨before, different⟩ := (update_freed heap node other).mp live
    exact held.owner other before fun same => different (Option.some.inj same).symm
  single := held.single
  ids thread other found isThread read notUnset := by
    have different : other ≠ node := fun same => (held.owned thread other isThread).2 (by rw [same])
    rw [Function.update_of_ne different] at read
    exact held.ids thread other found isThread read notUnset
  fresh := by simp

theorem thread_of_unique (threads : Threads) (thread node other : Nat) (isThread : ThreadOf threads thread node)
    (also : ThreadOf threads thread other) : node = other := by
  obtain ⟨phase, found⟩ := isThread
  obtain ⟨otherPhase, foundOther⟩ := also
  cases Option.some.inj (found.symm.trans foundOther)
  rfl

theorem thread_of_start (threads : Threads) (thread node other found : Nat) (unused : threads thread = none) :
    ThreadOf (Function.update threads thread (some ⟨node, .started⟩)) other found ↔
      (other = thread ∧ found = node) ∨ ThreadOf threads other found := by
  by_cases same : other = thread
  · subst same
    simp [ThreadOf, unused, eq_comm]
  · simp [ThreadOf, same]

theorem thread_of_join (threads : Threads) (thread other found : Nat) :
    ThreadOf (Function.update threads thread none) other found ↔ other ≠ thread ∧ ThreadOf threads other found := by
  by_cases same : other = thread
  · simp [ThreadOf, same]
  · simp [ThreadOf, same]

theorem thread_of_phase (threads : Threads) (thread node other found : Nat) (before after : ThreadPhase)
    (isThread : threads thread = some ⟨node, before⟩) :
    ThreadOf (Function.update threads thread (some ⟨node, after⟩)) other found ↔ ThreadOf threads other found := by
  by_cases same : other = thread
  · subst same
    simp [ThreadOf, isThread]
  · simp [ThreadOf, Function.update_of_ne same]

-- The node of a new thread is loose until it is inserted.
theorem held_create (node thread : Nat) (held : NodesHeld heap first threads nodes (some node) (some node) none)
    (unused : threads thread = none) :
    NodesHeld heap first (Function.update threads thread (some ⟨node, .started⟩)) nodes (some node) none
      (some thread) where
  chain := held.chain
  live := held.live
  apart := held.apart
  owned other found isThread := by
    rcases (thread_of_start threads thread node other found unused).mp isThread with ⟨_, rfl⟩ | before
    · exact ⟨(held.live found).mpr (Or.inr rfl), by simp⟩
    · exact ⟨(held.owned other found before).1, by simp⟩
  owner found live _ := by
    by_cases same : some node = some found
    · exact ⟨thread, (thread_of_start threads thread node thread found unused).mpr
        (Or.inl ⟨rfl, (Option.some.inj same).symm⟩)⟩
    · obtain ⟨other, before⟩ := held.owner found live same
      exact ⟨other, (thread_of_start threads thread node other found unused).mpr (Or.inr before)⟩
  single other another found isThread isOther := by
    have orphan : ∀ t, ¬ ThreadOf threads t node := fun t before => (held.owned t node before).2 rfl
    rcases (thread_of_start threads thread node other found unused).mp isThread with ⟨rfl, rfl⟩ | before
    · rcases (thread_of_start threads other found another found unused).mp isOther with ⟨same, _⟩ | also
      · exact same.symm
      · exact absurd also (orphan another)
    · rcases (thread_of_start threads thread node another found unused).mp isOther with ⟨_, rfl⟩ | also
      · exact absurd before (orphan other)
      · exact held.single other another found before also
  ids other found data isThread read notUnset := by
    rcases (thread_of_start threads thread node other found unused).mp isThread with ⟨rfl, _⟩ | before
    · exact absurd rfl notUnset
    · exact held.ids other found data before read (by simp)
  fresh other unset := by
    cases unset
    exact ⟨node, (thread_of_start threads thread node thread node unused).mpr (Or.inl ⟨rfl, rfl⟩), rfl⟩

theorem held_insert (node thread : Nat) (data : ThreadDataS)
    (held : NodesHeld heap first threads nodes (some node) none (some thread)) :
    NodesHeld (Function.update heap node (some { data with threadId := thread, next := first })) (some node) threads
      (node :: nodes) none none none where
  chain := chain_insert heap first nodes node _ held.chain (held.apart node rfl) rfl
  live other := by
    rw [update_live, held.live]
    constructor
    · intro either
      rcases either with (member | loose) | same
      · exact Or.inl (List.mem_cons_of_mem _ member)
      · exact Or.inl (by simp [Option.some.inj loose])
      · exact Or.inl (by simp [same])
    · intro either
      rcases either with member | impossible
      · rcases List.mem_cons.mp member with same | later
        · exact Or.inr same
        · exact Or.inl (Or.inl later)
      · cases impossible
  apart := by simp
  owned other found isThread :=
    ⟨(update_live heap node found _).mpr (Or.inl (held.owned other found isThread).1), by simp⟩
  owner found live _ := by
    rcases (update_live heap node found _).mp live with before | rfl
    · exact held.owner found before (by simp)
    · exact held.owner found ((held.live found).mpr (Or.inr rfl)) (by simp)
  single := held.single
  ids other found record isThread read _ := by
    obtain ⟨own, isOwn, loose⟩ := held.fresh thread rfl
    cases loose
    by_cases same : found = node
    · subst same
      rw [Function.update_self] at read
      cases Option.some.inj read
      exact held.single thread other found isOwn isThread
    · rw [Function.update_of_ne same] at read
      refine held.ids other found record isThread read fun unset => ?_
      cases unset
      exact same (thread_of_unique threads thread found node isThread isOwn)
  fresh := by simp

-- A joined thread leaves its node to main.
theorem held_join (thread node : Nat) (held : NodesHeld heap first threads nodes none none none)
    (isThread : ThreadOf threads thread node) :
    NodesHeld heap first (Function.update threads thread none) nodes none (some node) none where
  chain := held.chain
  live := held.live
  apart := held.apart
  owned other found isOther := by
    obtain ⟨different, before⟩ := (thread_of_join threads thread other found).mp isOther
    refine ⟨(held.owned other found before).1, ?_⟩
    intro same
    cases same
    exact different (held.single other thread node before isThread)
  owner found live notOrphan := by
    obtain ⟨other, before⟩ := held.owner found live (by simp)
    refine ⟨other, (thread_of_join threads thread other found).mpr ⟨?_, before⟩⟩
    intro same
    rw [same] at before
    exact notOrphan (by rw [thread_of_unique threads thread found node before isThread])
  single other another found isThread isOther :=
    held.single other another found ((thread_of_join threads thread other found).mp isThread).2
      ((thread_of_join threads thread another found).mp isOther).2
  ids other found data isOther read _ :=
    held.ids other found data ((thread_of_join threads thread other found).mp isOther).2 read (by simp)
  fresh := by simp

end

-- What keeps the allocated nodes and their ids, with another list of the same
-- nodes, keeps the rest.
theorem held_relink (heap after : Nodes) (first next : Option Nat) (threads : Threads) (nodes left : List Nat)
    (loose taken orphan unset : Option Nat) (held : NodesHeld heap first threads nodes loose orphan unset)
    (chain : Chain ThreadDataS.next after next left) (sameLive : ∀ node, after node ≠ none ↔ heap node ≠ none)
    (sameIds : ∀ node data record, heap node = some data → after node = some record → record.threadId = data.threadId)
    (sameNodes : ∀ node, node ∈ nodes ∨ loose = some node ↔ node ∈ left ∨ taken = some node)
    (apart : ∀ node, taken = some node → node ∉ left) (keeps : unset = none ∨ taken = loose) :
    NodesHeld after next threads left taken orphan unset where
  chain := chain
  live node := by rw [sameLive, held.live, sameNodes]
  apart := apart
  owned thread node isThread := by
    rw [sameLive]
    exact held.owned thread node isThread
  owner node live notOrphan := held.owner node ((sameLive node).mp live) notOrphan
  single := held.single
  ids thread node record isThread read notUnset := by
    obtain ⟨data, before⟩ := Option.ne_none_iff_exists'.mp (held.owned thread node isThread).1
    rw [sameIds node data record before read]
    exact held.ids thread node data isThread before notUnset
  fresh thread isUnset := by
    rcases keeps with none | same
    · rw [none] at isUnset
      cases isUnset
    · rw [same]
      exact held.fresh thread isUnset

theorem held_threads (heap : Nodes) (first : Option Nat) (threads after : Threads) (nodes : List Nat)
    (loose orphan unset : Option Nat) (held : NodesHeld heap first threads nodes loose orphan unset)
    (same : ∀ thread node, ThreadOf after thread node ↔ ThreadOf threads thread node) :
    NodesHeld heap first after nodes loose orphan unset := by
  obtain ⟨chain, live, apart, owned, owner, single, ids, fresh⟩ := held
  simp only [← same] at owned owner single ids fresh
  exact ⟨chain, live, apart, owned, owner, single, ids, fresh⟩

theorem updated_live (heap : Nodes) (node other : Nat) (data record : ThreadDataS) (read : heap node = some data) :
    Function.update heap node (some record) other ≠ none ↔ heap other ≠ none := by
  rw [update_live]
  exact or_iff_left_of_imp fun same => by rw [same, read]; simp

theorem updated_ids (heap : Nodes) (node other : Nat) (data record before after : ThreadDataS)
    (read : heap node = some data) (sameId : record.threadId = data.threadId) (readBefore : heap other = some before)
    (readAfter : Function.update heap node (some record) other = some after) : after.threadId = before.threadId := by
  by_cases same : other = node
  · subst same
    rw [Function.update_self] at readAfter
    cases Option.some.inj readAfter
    cases Option.some.inj (read.symm.trans readBefore)
    exact sameId
  · rw [Function.update_of_ne same] at readAfter
    cases Option.some.inj (readBefore.symm.trans readAfter)
    rfl

-- The thread's own write.
theorem held_complete (heap : Nodes) (first : Option Nat) (threads : Threads) (nodes : List Nat)
    (loose orphan unset : Option Nat) (node : Nat) (data : ThreadDataS) (complete : Bool)
    (held : NodesHeld heap first threads nodes loose orphan unset) (read : heap node = some data) :
    NodesHeld (Function.update heap node (some { data with threadComplete := complete })) first threads
      nodes loose orphan unset :=
  held_relink heap _ first first threads nodes nodes loose loose orphan unset held
    (chain_payload heap first nodes node data _ held.chain read rfl)
    (fun other => updated_live heap node other data _ read)
    (fun other before after => updated_ids heap node other data _ before after read rfl) (fun _ => Iff.rfl) held.apart
    (Or.inr rfl)

-- SLIST_REMOVE_HEAD.
theorem held_remove_head (heap : Nodes) (threads : Threads) (rest : List Nat) (node : Nat) (data : ThreadDataS)
    (first orphan : Option Nat) (held : NodesHeld heap first threads (node :: rest) none orphan none)
    (read : heap node = some data) : NodesHeld heap data.next threads rest (some node) orphan none := by
  have once := chain_nodup heap first _ held.chain
  obtain ⟨other, readOther, chain⟩ := chain_read heap first [] rest node held.chain
  cases Option.some.inj (read.symm.trans readOther)
  refine held_relink heap heap first data.next threads (node :: rest) rest none (some node) orphan none held chain
    (fun _ => Iff.rfl) ?_ ?_ ?_ (Or.inl rfl)
  · intro other before after readBefore readAfter
    cases Option.some.inj (readBefore.symm.trans readAfter)
    rfl
  · intro other
    simp [or_comm, eq_comm]
  · intro other same
    cases same
    exact (List.nodup_cons.mp once).1

-- The last assignment of SLIST_REMOVE.
theorem held_unlink (heap : Nodes) (first : Option Nat) (threads : Threads) (front rest : List Nat) (curelm node : Nat)
    (data removed : ThreadDataS) (orphan : Option Nat)
    (held : NodesHeld heap first threads (front ++ curelm :: node :: rest) none orphan none)
    (readCur : heap curelm = some data) (read : heap node = some removed) :
    NodesHeld (Function.update heap curelm (some { data with next := removed.next })) first threads
      (front ++ curelm :: rest) (some node) orphan none := by
  have once := chain_nodup heap first _ held.chain
  refine held_relink heap _ first first threads _ _ none (some node) orphan none held
    (chain_unlink heap first front rest curelm node _ removed held.chain read rfl)
    (fun other => updated_live heap curelm other data _ readCur)
    (fun other before after => updated_ids heap curelm other data _ before after readCur rfl) ?_ ?_ (Or.inl rfl)
  · intro other
    simp only [List.mem_append, List.mem_cons, Option.some.injEq, reduceCtorEq, or_false]
    grind
  · intro other same
    cases same
    have split : front ++ curelm :: node :: rest = (front ++ [curelm]) ++ node :: rest := by simp
    rw [split, List.nodup_middle, List.nodup_cons] at once
    simpa using once.1

end AesdChar

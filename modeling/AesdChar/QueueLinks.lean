import AesdChar.QueueCells

set_option autoImplicit false

namespace AesdChar

open LinkedRing

variable {H P N : Type} [DecidableEq H] [DecidableEq P]

def Cells.setNext (cells : Cells H P N) (x : Place H P) (value : N) : Cells H P N :=
  { cells with next := Function.update cells.next x (some value) }

def Cells.setPrev (cells : Cells H P N) (x value : Place H P) : Cells H P N :=
  { cells with prev := Function.update cells.prev x (some value) }

def Cells.storeNext (cells : Cells H P N) (x : Place H P) (value : N) : Option (Cells H P N) :=
  if (cells.next x).isSome then some (cells.setNext x value) else none

def Cells.storePrev (cells : Cells H P N) (x value : Place H P) : Option (Cells H P N) :=
  if (cells.prev x).isSome then some (cells.setPrev x value) else none

@[simp] theorem set_next_next (cells : Cells H P N) (x y : Place H P) (value : N) :
    (cells.setNext x value).next y = if y = x then some value else cells.next y := by
  simp [Cells.setNext, Function.update_apply]

@[simp] theorem set_next_prev (cells : Cells H P N) (x : Place H P) (value : N) :
    (cells.setNext x value).prev = cells.prev := rfl

@[simp] theorem set_prev_prev (cells : Cells H P N) (x y value : Place H P) :
    (cells.setPrev x value).prev y = if y = x then some value else cells.prev y := by
  simp [Cells.setPrev, Function.update_apply]

@[simp] theorem set_prev_next (cells : Cells H P N) (x value : Place H P) :
    (cells.setPrev x value).next = cells.next := rfl

@[simp] theorem store_next (cells : Cells H P N) (x : Place H P) (value : N) (has : (cells.next x).isSome) :
    cells.storeNext x value = some (cells.setNext x value) :=
  if_pos has

@[simp] theorem store_prev (cells : Cells H P N) (x value : Place H P) (has : (cells.prev x).isSome) :
    cells.storePrev x value = some (cells.setPrev x value) :=
  if_pos has

-- Stores of the two fields do not meet.
@[simp] theorem set_prev_set_next (cells : Cells H P N) (x y value : Place H P) (next : N) :
    (cells.setPrev x value).setNext y next = (cells.setNext y next).setPrev x value := rfl

theorem set_prev_comm (cells : Cells H P N) (x y value other : Place H P) (apart : x ≠ y) :
    (cells.setPrev x value).setPrev y other = (cells.setPrev y other).setPrev x value := by
  simp only [Cells.setPrev, Function.update_comm apart]

theorem set_next_comm (cells : Cells H P N) (x y : Place H P) (value other : N) (apart : x ≠ y) :
    (cells.setNext x value).setNext y other = (cells.setNext y other).setNext x value := by
  simp only [Cells.setNext, Function.update_comm apart]

theorem keeps_set_next (cells after : Cells H P N) (x : Place H P) (value : N) (keeps : Keeps cells after) :
    Keeps cells (after.setNext x value) := by
  refine ⟨fun y has => ?_, keeps.prev⟩
  rw [set_next_next]
  by_cases same : y = x
  · simp [same]
  · rw [if_neg same]
    exact keeps.next y has

theorem keeps_set_prev (cells after : Cells H P N) (x value : Place H P) (keeps : Keeps cells after) :
    Keeps cells (after.setPrev x value) := by
  refine ⟨keeps.next, fun y has => ?_⟩
  rw [set_prev_prev]
  by_cases same : y = x
  · simp [same]
  · rw [if_neg same]
    exact keeps.prev y has

-- The prev field, where there is one.
def Cells.setBack (layout : QueueLayout H P N) (cells : Cells H P N) (y x : Place H P) : Cells H P N :=
  if layout.kept y then cells.setPrev y x else cells

@[simp] theorem set_back_next (layout : QueueLayout H P N) (cells : Cells H P N) (y x : Place H P) :
    (cells.setBack layout y x).next = cells.next := by
  rw [Cells.setBack]
  split <;> rfl

@[simp] theorem set_back_prev (layout : QueueLayout H P N) (cells : Cells H P N) (y x z : Place H P) :
    (cells.setBack layout y x).prev z = if layout.kept y ∧ z = y then some x else cells.prev z := by
  rw [Cells.setBack]
  by_cases isKept : layout.kept y
  · simp [isKept]
  · simp [isKept]

theorem keeps_set_back (layout : QueueLayout H P N) (cells after : Cells H P N) (y x : Place H P)
    (keeps : Keeps cells after) :
    Keeps cells (after.setBack layout y x) := by
  rw [Cells.setBack]
  split
  · exact keeps_set_prev cells after y x keeps
  · exact keeps

-- The element p between the places a and b.
def Cells.linkIn (layout : QueueLayout H P N) (cells : Cells H P N) (a b : Place H P) (p : P) (value behind : N) :
    Cells H P N :=
  (((cells.setNext (.elm p) behind).setNext a value).setBack layout (.elm p) a).setBack layout b (.elm p)

-- The place b right behind a.
def Cells.unlink (layout : QueueLayout H P N) (cells : Cells H P N) (a b : Place H P) (value : N) : Cells H P N :=
  (cells.setNext a value).setBack layout b a

-- The elements of k, from p to z, behind the last place a of h.
def Cells.append (layout : QueueLayout H P N) (cells : Cells H P N) (a : Place H P) (h k : H) (p z : P)
    (value none : N) :
    Cells H P N :=
  (((cells.unlink layout (.head k) (.head k) none).setNext a value).setBack layout (.elm p) a).setBack layout
    (.head h) (.elm z)

section

variable (layout : QueueLayout H P N) (nodes : P → Prop) (cells : Cells H P N) (lists : H → List P)
  (holds : Holds layout nodes cells lists) (h : H) (front old rest : List P) (a b : Place H P)
  (split : lists h = front ++ old ++ rest) (before : PlaceBefore h front a) (behind : PlaceBehind h rest b)

include holds split before behind

theorem holds_unlink (value : N) (leads : layout.target h value = b) :
    Holds layout nodes (cells.unlink layout a b value) (Function.update lists h (front ++ rest)) := by
  have joined : Linked layout (cells.unlink layout a b value) h a b := by
    refine ⟨?_, fun isKept => ?_⟩
    · simp [Cells.unlink, leads]
    · simp [Cells.unlink, isKept]
  have spliced := holds_splice layout nodes cells (cells.unlink layout a b value) lists holds h front old []
    rest a b split before
    behind List.nodup_nil (by simp) (keeps_set_back _ _ _ _ _ (keeps_set_next _ _ _ _ (keeps_all cells)))
    (fun x other _ => by simp [Cells.unlink, other]) (fun y other _ => by simp [Cells.unlink, other])
    (.cons_cons joined (.singleton b))
  simpa using spliced

theorem holds_link_in (p : P) (value next : N) (spare : Spare nodes lists p) (leads : layout.target h value = .elm p)
    (leadsOn : layout.target h next = b) :
    Holds layout nodes (cells.linkIn layout a b p value next) (Function.update lists h (front ++ p :: rest)) := by
  have absent : p ∉ front ++ old ++ rest := by
    rw [← split]
    exact spare.2 h
  have aApart := before_apart h front a p (fun member => absent (by simp [member])) before
  have bApart := after_apart h rest b p (fun member => absent (by simp [member])) behind
  have into : Linked layout (cells.linkIn layout a b p value next) h a (.elm p) := by
    refine ⟨?_, fun isKept => ?_⟩
    · simp [Cells.linkIn, leads]
    · simp [Cells.linkIn, isKept, bApart.symm]
  have outOf : Linked layout (cells.linkIn layout a b p value next) h (.elm p) b := by
    refine ⟨?_, fun isKept => ?_⟩
    · simp [Cells.linkIn, leadsOn, aApart.symm]
    · simp [Cells.linkIn, isKept]
  have spliced := holds_splice layout nodes cells (cells.linkIn layout a b p value next) lists holds h front old
    [p] rest a b split before behind (List.nodup_singleton p) (fun q isNew => List.mem_singleton.mp isNew ▸ spare)
    (keeps_set_back _ _ _ _ _
      (keeps_set_back _ _ _ _ _ (keeps_set_next _ _ _ _ (keeps_set_next _ _ _ _ (keeps_all cells)))))
    (fun x other apart => by simp [Cells.linkIn, other, apart p (by simp)])
    (fun y other apart => by simp [Cells.linkIn, other, apart p (by simp)])
    (.cons_cons into (.cons_cons outOf (.singleton b)))
  simpa using spliced

end

-- What a next field means does not depend on the queue: an element, or the end.
structure QueueLayout.EndsAlike (layout : QueueLayout H P N) : Prop where
  elm : ∀ h k value p, layout.target h value = .elm p → layout.target k value = .elm p
  head : ∀ h k value, layout.target h value = .head h → layout.target k value = .head k

section

variable (layout : QueueLayout H P N) (alike : layout.EndsAlike) (cells after : Cells H P N)

include alike

-- The elements of the queue of k, in the queue of h from a to its head.
omit [DecidableEq H] [DecidableEq P] in
theorem moved_inner (h k : H) (list : List P) (a : Place H P)
    (ring : Ring (Linked layout cells k) (.head k) (list.map .elm))
    (nexts : ∀ p ∈ list, after.next (.elm p) = cells.next (.elm p))
    (prevs : ∀ p ∈ list, list.head? ≠ some p → after.prev (.elm p) = cells.prev (.elm p))
    (into : ∀ p ∈ list.head?, Linked layout after h a (.elm p))
    (outOf : ∀ p ∈ list.getLast?, layout.kept (.head h) → after.prev (.head h) = some (.elm p))
    (empty : list = [] → Linked layout after h a (.head h)) :
    List.IsChain (Linked layout after h) (a :: list.map .elm ++ [.head h]) := by
  have leads : ∀ p ∈ list, ∀ value y, cells.next (.elm p) = some value → layout.target h value = y →
      (after.next (.elm p)).map (layout.target h) = some y := by
    intro p member value y read same
    rw [nexts p member, read, ← same]
    rfl
  refine ring_inner (.head k) _ a (.head h) ring ?_ ?_ ?_ ?_
  · intro x inX y inY joined
    obtain ⟨p, isP, rfl⟩ := List.mem_map.mp inX
    obtain ⟨q, isQ, rfl⟩ := List.mem_map.mp inY
    obtain ⟨value, read, target⟩ := Option.map_eq_some_iff.mp joined.1
    refine ⟨leads p isP value _ read (alike.elm k h value q target), fun isKept => ?_⟩
    rw [← joined.2 isKept]
    refine prevs q isQ fun isFirst => ?_
    obtain ⟨rest, rfl⟩ := List.head?_eq_some_iff.mp isFirst
    have begins : Linked layout cells k (.head k) (.elm q) := ring.rel_head? (by simp)
    have same := (begins.2 isKept).symm.trans (joined.2 isKept)
    cases same
  · exact fun none => empty (List.map_eq_nil_iff.mp none)
  · intro x isFirst _
    rw [List.head?_map] at isFirst
    obtain ⟨p, first, rfl⟩ := Option.map_eq_some_iff.mp isFirst
    exact into p first
  · intro x isLast joined
    rw [List.getLast?_map] at isLast
    obtain ⟨p, last, rfl⟩ := Option.map_eq_some_iff.mp isLast
    obtain ⟨value, read, target⟩ := Option.map_eq_some_iff.mp joined.1
    exact ⟨leads p (List.mem_of_getLast? last) value _ read (alike.head k h value target), outOf p last⟩

variable (nodes : P → Prop) (lists : H → List P) (holds : Holds layout nodes cells lists) (h k : H) (other : h ≠ k)

include holds other

-- The queue of k behind the queue of h.
theorem holds_append (a : Place H P) (p z : P) (value none : N) (before : PlaceBefore h (lists h) a)
    (first : (lists k).head? = some p) (last : (lists k).getLast? = some z) (read : cells.next (.head k) = some value)
    (leads : layout.target k none = .head k) :
    Holds layout nodes (cells.append layout a h k p z value none)
      (Function.update (Function.update lists k []) h (lists h ++ lists k)) := by
  have emptied := holds_unlink layout nodes cells lists holds k [] (lists k) [] (.head k) (.head k) (by simp)
    rfl rfl none leads
  have kept : Function.update lists k ([] ++ []) h = lists h := Function.update_of_ne other _ _
  have spare : ∀ q ∈ lists k, Spare nodes (Function.update lists k ([] ++ [])) q := by
    refine fun q member => ⟨holds.inNodes k q member, fun j inJ => ?_⟩
    by_cases same : j = k
    · subst same
      simp at inJ
    · rw [Function.update_of_ne same] at inJ
      exact same (holds.apart j k q inJ member)
  have spliced := holds_splice layout nodes _ (cells.append layout a h k p z value none) _ emptied h (lists h) []
    (lists k) [] a (.head h)
    (by rw [kept]; simp) before rfl (holds.once k) spare ?_ ?_ ?_ ?_
  · simpa using spliced
  · exact keeps_set_back _ _ _ _ _ (keeps_set_back _ _ _ _ _ (keeps_set_next _ _ _ _ (keeps_all _)))
  · intro x notA _
    simp [Cells.append, notA]
  · intro y notHead notMoved
    simp [Cells.append, notHead, notMoved p (List.mem_of_head? first)]
  have notA : ∀ q ∈ lists k, a ≠ .elm q := fun q member =>
    before_apart h (lists h) a q (fun inH => other (holds.apart h k q inH member)) before
  have aNotHead := before_other h k (lists h) a other before
  have ring := holds.ring k
  refine moved_inner layout alike cells _ h k (lists k) a ring ?_ ?_ ?_ ?_ ?_
  · intro q member
    simp [Cells.append, Cells.unlink, (notA q member).symm]
  · intro q member notFirst
    have different : q ≠ p := fun same => notFirst (same ▸ first)
    simp [Cells.append, Cells.unlink, different]
  · intro q isFirst
    cases first.symm.trans isFirst
    obtain ⟨rest, split⟩ := List.head?_eq_some_iff.mp first
    rw [split] at ring
    have begins : Linked layout cells k (.head k) (.elm p) := ring.rel_head? (by simp)
    obtain ⟨found, readFound, target⟩ := Option.map_eq_some_iff.mp begins.1
    cases Option.some.inj (read.symm.trans readFound)
    refine ⟨?_, fun isKept => ?_⟩
    · simp [Cells.append, alike.elm k h value p target]
    · simp [Cells.append, isKept]
  · intro q isLast isKept
    cases last.symm.trans isLast
    simp [Cells.append, isKept]
  · intro none
    simp [none] at first

end

-- The heads of h and k take over each other's queue.
def Cells.exchange (layout : QueueLayout H P N) (cells : Cells H P N) (h k : H) (first1 first2 : N)
    (last1 last2 : Place H P) :
    Cells H P N :=
  (((((cells.setNext (.head h) first2).setNext (.head k) first1).setBack layout (.head h) last2).setBack layout
    (.head k) last1).setBack layout (layout.target h first2) (.head h)).setBack layout (layout.target k first1)
    (.head k)

section

variable (layout : QueueLayout H P N) (alike : layout.EndsAlike) (cells after : Cells H P N) (nodes : P → Prop)
    (lists : H → List P)

include alike

-- The queue of h after the exchange with that of k.
omit [DecidableEq H] [DecidableEq P] in
theorem exchanged_ring (h k : H) (value : N) (ring : Ring (Linked layout cells k) (.head k) ((lists k).map .elm))
    (read : cells.next (.head k) = some value) (nextHead : after.next (.head h) = some value)
    (nexts : ∀ p ∈ lists k, after.next (.elm p) = cells.next (.elm p))
    (prevs : ∀ p ∈ lists k, (lists k).head? ≠ some p → after.prev (.elm p) = cells.prev (.elm p))
    (prevFirst : ∀ p ∈ (lists k).head?, layout.kept (.elm p) → after.prev (.elm p) = some (.head h))
    (prevLast : ∀ p ∈ (lists k).getLast?, layout.kept (.head h) → after.prev (.head h) = some (.elm p))
    (prevEmpty : lists k = [] → layout.kept (.head h) → after.prev (.head h) = some (.head h)) :
    Ring (Linked layout after h) (.head h) ((lists k).map .elm) := by
  refine moved_inner layout alike cells after h k (lists k) (.head h) ring nexts prevs ?_ prevLast ?_
  · intro p isFirst
    obtain ⟨rest, split⟩ := List.head?_eq_some_iff.mp isFirst
    rw [split] at ring
    have begins : Linked layout cells k (.head k) (.elm p) := ring.rel_head? (by simp)
    obtain ⟨found, readFound, target⟩ := Option.map_eq_some_iff.mp begins.1
    cases Option.some.inj (read.symm.trans readFound)
    exact ⟨by rw [nextHead, Option.map_some, alike.elm k h value p target], prevFirst p isFirst⟩
  · intro none
    rw [none] at ring
    have ends : Linked layout cells k (.head k) (.head k) := ring.rel_head? (by simp)
    obtain ⟨found, readFound, target⟩ := Option.map_eq_some_iff.mp ends.1
    cases Option.some.inj (read.symm.trans readFound)
    exact ⟨by rw [nextHead, Option.map_some, alike.head k h value target], prevEmpty none⟩


omit alike [DecidableEq H] [DecidableEq P] in
theorem first_apart (j : H) (list : List P) (p : P) (absent : p ∉ list) :
    Place.elm p ≠ list.head?.elim (.head j) .elm := by
  cases list with
  | nil => simp
  | cons q list =>
      rintro same
      cases same
      simp at absent

omit alike [DecidableEq H] [DecidableEq P] in
theorem head_apart (h j : H) (list : List P) (other : h ≠ j) : Place.head h ≠ list.head?.elim (.head j) .elm := by
  cases list with
  | nil => simpa using other
  | cons q list => simp

omit [DecidableEq H] [DecidableEq P] in
theorem first_target (holds : Holds layout nodes cells lists) (h k : H) (value : N)
    (read : cells.next (.head k) = some value) :
    layout.target h value = (lists k).head?.elim (.head h) .elm := by
  obtain ⟨b, behind⟩ := place_after k (lists k)
  have joined := holds_joined layout nodes cells lists holds k [] (lists k) (.head k) b rfl rfl behind
  obtain ⟨found, readFound, target⟩ := Option.map_eq_some_iff.mp joined.1
  cases Option.some.inj (read.symm.trans readFound)
  cases list : lists k with
  | nil =>
      rw [list] at behind
      cases behind
      exact alike.head k h value target
  | cons p rest =>
      rw [list] at behind
      cases behind
      exact alike.elm k h value p target

-- One of the two queues, after the exchange.
omit [DecidableEq H] [DecidableEq P] in
theorem exchange_one (holds : Holds layout nodes cells lists) (h k : H) (other : h ≠ k) (first1 first2 : N)
    (last2 : Place H P) (read1 : cells.next (.head h) = some first1) (read2 : cells.next (.head k) = some first2)
    (before2 : PlaceBefore k (lists k) last2) (nextHead : after.next (.head h) = some first2)
    (nexts : ∀ p, after.next (.elm p) = cells.next (.elm p))
    (prevElm : ∀ p, .elm p ≠ layout.target h first2 → .elm p ≠ layout.target k first1 →
      after.prev (.elm p) = cells.prev (.elm p))
    (prevFirst : layout.kept (layout.target h first2) → layout.target h first2 ≠ layout.target k first1 →
      after.prev (layout.target h first2) = some (.head h))
    (prevHead : layout.kept (.head h) → .head h ≠ layout.target h first2 → .head h ≠ layout.target k first1 →
      after.prev (.head h) = some last2) :
    Ring (Linked layout after h) (.head h) ((lists k).map .elm) := by
  have apart : ∀ p ∈ lists k, p ∉ lists h := fun p inK inH => other (holds.apart h k p inH inK)
  rw [first_target layout alike cells nodes lists holds h k first2 read2,
    first_target layout alike cells nodes lists holds k h first1 read1] at prevElm prevFirst prevHead
  refine exchanged_ring layout alike cells after lists h k first2 (holds.ring k) read2 nextHead
    (fun p _ => nexts p) ?_ ?_ ?_ ?_
  · intro p member notFirst
    refine prevElm p (fun same => notFirst ?_) (first_apart k (lists h) p (apart p member))
    cases first : (lists k).head? with
    | none =>
        rw [first] at same
        cases same
    | some q =>
        rw [first] at same
        cases same
        rfl
  · intro p isFirst isKept
    rw [isFirst] at prevFirst
    exact prevFirst isKept (first_apart k (lists h) p (apart p (List.mem_of_head? isFirst)))
  · intro p isLast isKept
    have last : last2 = .elm p := by
      obtain ⟨front, split⟩ := List.getLast?_eq_some_iff.mp isLast
      rw [split] at before2
      exact Option.some.inj (before2.symm.trans (before_snoc k front p))
    rw [← last]
    refine prevHead isKept ?_ (head_apart h k (lists h) other)
    cases list : lists k with
    | nil => simp [list] at isLast
    | cons q rest => simp
  · intro none isKept
    rw [none] at prevFirst
    exact prevFirst isKept (head_apart h k (lists h) other)

omit [DecidableEq P] alike in
theorem exchanged_lists (h k : H) (other : h ≠ k) (j : H) :
    Function.update (Function.update lists h (lists k)) k (lists h) j =
      if j = h then lists k else if j = k then lists h else lists j := by
  by_cases isK : j = k
  · subst isK
    simp [Ne.symm other]
  · by_cases isH : j = h
    · subst isH
      simp [other]
    · simp [isK, isH]

-- Each queue is one of the queues before, and each of these is only one.
omit [DecidableEq P] alike in
theorem exchanged_source (h k : H) (other : h ≠ k) (j : H) :
    ∃ i, Function.update (Function.update lists h (lists k)) k (lists h) j = lists i ∧
      (j = if i = h then k else if i = k then h else i) := by
  rw [exchanged_lists lists h k other]
  by_cases isH : j = h
  · exact ⟨k, by simp [isH, Ne.symm other]⟩
  · by_cases isK : j = k
    · exact ⟨h, by simp [isK, Ne.symm other]⟩
    · exact ⟨j, by simp [isH, isK]⟩

-- A queue that takes no part.
theorem exchange_third (holds : Holds layout nodes cells lists) (h k j : H) (isH : j ≠ h) (isK : j ≠ k)
    (first1 first2 : N) (last1 last2 : Place H P) (read1 : cells.next (.head h) = some first1)
    (read2 : cells.next (.head k) = some first2) :
    Ring (Linked layout (cells.exchange layout h k first1 first2 last1 last2) j) (.head j) ((lists j).map .elm) := by
  have elsewhere : ∀ x ∈ Place.head j :: (lists j).map .elm, x ≠ .head h ∧ x ≠ .head k ∧
      x ≠ layout.target h first2 ∧ x ≠ layout.target k first1 := by
    intro x member
    rw [first_target layout alike cells nodes lists holds k h first1 read1,
      first_target layout alike cells nodes lists holds h k first2 read2]
    rcases List.mem_cons.mp member with isHead | isElm
    · subst isHead
      exact ⟨by simpa using isH, by simpa using isK, head_apart j h (lists k) isH, head_apart j k (lists h) isK⟩
    · obtain ⟨p, inJ, rfl⟩ := List.mem_map.mp isElm
      exact ⟨by simp, by simp, first_apart h (lists k) p fun inK => isK (holds.apart j k p inJ inK),
        first_apart k (lists h) p fun inH => isH (holds.apart j h p inJ inH)⟩
  apply ring_change _ _ (holds.ring j)
  intro x inX y inY joined
  obtain ⟨notH, notK, _, _⟩ := elsewhere x inX
  obtain ⟨backH, backK, back2, back1⟩ := elsewhere y inY
  refine joined_same layout cells _ j x y ?_ ?_ joined
  · simp [Cells.exchange, notH, notK]
  · simp [Cells.exchange, backH, backK, back1, back2]

theorem holds_exchange (holds : Holds layout nodes cells lists) (h k : H) (other : h ≠ k) (first1 first2 : N)
    (last1 last2 : Place H P) (read1 : cells.next (.head h) = some first1) (read2 : cells.next (.head k) = some first2)
    (before1 : PlaceBefore h (lists h) last1) (before2 : PlaceBefore k (lists k) last2) :
    Holds layout nodes (cells.exchange layout h k first1 first2 last1 last2)
      (Function.update (Function.update lists h (lists k)) k (lists h)) := by
  have source := exchanged_source lists h k other
  refine ⟨fun j => ?_, fun j => ?_, fun i j p inI inJ => ?_, fun j p member => ?_, fun p isNode => ?_,
    fun p isNode isKept => ?_⟩
  · rw [exchanged_lists lists h k other]
    by_cases isH : j = h
    · subst isH
      rw [if_pos rfl]
      apply exchange_one layout alike cells _ nodes lists holds j k other first1 first2 last2 read1 read2 before2
      · simp [Cells.exchange, other]
      · simp [Cells.exchange]
      · intro p notFirst notOther
        simp [Cells.exchange, notFirst, notOther]
      · intro isKept apart
        simp [Cells.exchange, isKept, apart]
      · intro isKept notFirst notOther
        simp [Cells.exchange, isKept, notFirst, notOther, other]
    · rw [if_neg isH]
      by_cases isK : j = k
      · subst isK
        rw [if_pos rfl]
        apply exchange_one layout alike cells _ nodes lists holds j h (Ne.symm other) first2 first1 last1
          read2 read1 before1
        · simp [Cells.exchange]
        · simp [Cells.exchange]
        · intro p notFirst notOther
          simp [Cells.exchange, notFirst, notOther]
        · intro isKept apart
          simp [Cells.exchange, isKept]
        · intro isKept notFirst notOther
          simp [Cells.exchange, isKept, notFirst, notOther]
      · rw [if_neg isK]
        exact exchange_third layout alike cells nodes lists holds h k j isH isK first1 first2 last1 last2 read1 read2
  · obtain ⟨i, same, _⟩ := source j
    rw [same]
    exact holds.once i
  · obtain ⟨fromI, sameI, toI⟩ := source i
    obtain ⟨fromJ, sameJ, toJ⟩ := source j
    rw [sameI] at inI
    rw [sameJ] at inJ
    rw [toI, toJ, holds.apart fromI fromJ p inI inJ]
  · obtain ⟨i, same, _⟩ := source j
    rw [same] at member
    exact holds.inNodes i p member
  · simpa [Cells.exchange] using holds.next p isNode
  · have keeps : Keeps cells (cells.exchange layout h k first1 first2 last1 last2) :=
      keeps_set_back _ _ _ _ _ (keeps_set_back _ _ _ _ _ (keeps_set_back _ _ _ _ _ (keeps_set_back _ _ _ _ _
        (keeps_set_next _ _ _ _ (keeps_set_next _ _ _ _ (keeps_all cells))))))
    exact keeps.prev _ (holds.prev p isNode isKept)

end

end AesdChar

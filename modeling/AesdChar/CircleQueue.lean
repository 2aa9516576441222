import AesdChar.NullQueues

set_option autoImplicit false

namespace AesdChar

open LinkedRing

variable {H P : Type} [DecidableEq H] [DecidableEq P]

-- The last next field points back to the head, and so does the first prev field.
abbrev CircleCells (H P : Type) := Cells H P (Place H P)

-- A field of the element that a pointer points to. none: it points to a head.
def storePrevAt (cells : CircleCells H P) (pointer value : Place H P) : Option (CircleCells H P) :=
  (containerOf pointer).bind fun p => cells.storePrev (.elm p) value

def storeNextAt (cells : CircleCells H P) (pointer value : Place H P) : Option (CircleCells H P) :=
  (containerOf pointer).bind fun p => cells.storeNext (.elm p) value

def circleqInit (cells : CircleCells H P) (head : H) : Option (CircleCells H P) := do
  let cells ← cells.storeNext (.head head) (.head head)
  cells.storePrev (.head head) (.head head)

def circleqInsertHead (cells : CircleCells H P) (head : H) (elm : P) : Option (CircleCells H P) := do
  let first ← cells.next (.head head)
  let cells ← cells.storeNext (.elm elm) first
  let cells ← cells.storePrev (.elm elm) (.head head)
  let last ← cells.prev (.head head)
  let cells ←
    if last = .head head then cells.storePrev (.head head) (.elm elm)
    else do
      let first ← cells.next (.head head)
      storePrevAt cells first (.elm elm)
  cells.storeNext (.head head) (.elm elm)

def circleqInsertBefore (cells : CircleCells H P) (head : H) (listelm elm : P) : Option (CircleCells H P) := do
  let cells ← cells.storeNext (.elm elm) (.elm listelm)
  let prev ← cells.prev (.elm listelm)
  let cells ← cells.storePrev (.elm elm) prev
  let prev ← cells.prev (.elm listelm)
  let cells ←
    if prev = .head head then cells.storeNext (.head head) (.elm elm)
    else do
      let prev ← cells.prev (.elm listelm)
      storeNextAt cells prev (.elm elm)
  cells.storePrev (.elm listelm) (.elm elm)

def circleqInsertAfter (cells : CircleCells H P) (head : H) (listelm elm : P) : Option (CircleCells H P) := do
  let next ← cells.next (.elm listelm)
  let cells ← cells.storeNext (.elm elm) next
  let cells ← cells.storePrev (.elm elm) (.elm listelm)
  let next ← cells.next (.elm listelm)
  let cells ←
    if next = .head head then cells.storePrev (.head head) (.elm elm)
    else do
      let next ← cells.next (.elm listelm)
      storePrevAt cells next (.elm elm)
  cells.storeNext (.elm listelm) (.elm elm)

def circleqInsertTail (cells : CircleCells H P) (head : H) (elm : P) : Option (CircleCells H P) := do
  let cells ← cells.storeNext (.elm elm) (.head head)
  let last ← cells.prev (.head head)
  let cells ← cells.storePrev (.elm elm) last
  let first ← cells.next (.head head)
  let cells ←
    if first = .head head then cells.storeNext (.head head) (.elm elm)
    else do
      let last ← cells.prev (.head head)
      storeNextAt cells last (.elm elm)
  cells.storePrev (.head head) (.elm elm)

def circleqRemove (cells : CircleCells H P) (head : H) (elm : P) : Option (CircleCells H P) := do
  let next ← cells.next (.elm elm)
  let prev ← cells.prev (.elm elm)
  let cells ← if next = .head head then cells.storePrev (.head head) prev else storePrevAt cells next prev
  let prev ← cells.prev (.elm elm)
  let next ← cells.next (.elm elm)
  if prev = .head head then cells.storeNext (.head head) next else storeNextAt cells prev next

def circleqLayout : QueueLayout H P (Place H P) := ⟨fun _ => true, fun _ place => place⟩

-- CIRCLEQ_REPLACE takes its head both as a pointer and as a structure, so that
-- no use of it compiles.
def circleqKind : QueueKind H P (Place H P) where
  layout := circleqLayout
  code
    | .init head => some fun _ cells => circleqInit cells head
    | .insertHead head elm => some fun _ cells => circleqInsertHead cells head elm
    | .insertTail head elm => some fun _ cells => circleqInsertTail cells head elm
    | .insertBefore head listelm elm => some fun _ cells => circleqInsertBefore cells head listelm elm
    | .insertAfter head listelm elm => some fun _ cells => circleqInsertAfter cells head listelm elm
    | .remove head elm => some fun _ cells => circleqRemove cells head elm
    | .concat _ _ => none
    | .removeHead _ => none
    | .removeHeadUntil _ _ => none
    | .removeAfter _ _ => none
    | .replace _ _ _ => none
    | .swap _ _ => none

@[simp] theorem circleq_set_back (cells : CircleCells H P) (y x : Place H P) :
    cells.setBack circleqLayout y x = cells.setPrev y x := rfl

section

variable (nodes : P → Prop) (cells : CircleCells H P) (lists : H → List P)
    (holds : Holds circleqLayout nodes cells lists)

include holds

omit [DecidableEq H] [DecidableEq P] in
theorem circleq_joined (h : H) (front rest : List P) (a b : Place H P) (split : lists h = front ++ rest)
    (before : PlaceBefore h front a)
    (behind : PlaceBehind h rest b) : cells.next a = some b ∧ cells.prev b = some a := by
  have joined := holds_joined circleqLayout nodes cells lists holds h front rest a b split before behind
  obtain ⟨next, read, leads⟩ := Option.map_eq_some_iff.mp joined.1
  obtain rfl : next = b := leads
  exact ⟨read, joined.2 rfl⟩

omit [DecidableEq H] [DecidableEq P] in
-- The two ends: both are the head, or elements.
theorem circleq_ends (h : H) :
    ∃ a b, PlaceBefore h (lists h) a ∧ PlaceBehind h (lists h) b ∧ cells.next (.head h) = some b ∧
      cells.prev b = some (.head h) ∧
      cells.next a = some (.head h) ∧ cells.prev (.head h) = some a ∧
        ((a = .head h ∧ b = .head h) ∨ ∃ z p, a = .elm z ∧ b = .elm p) := by
  obtain ⟨b, behind⟩ := place_after h (lists h)
  obtain ⟨a, before⟩ := place_before h (lists h)
  obtain ⟨first, backFirst⟩ := circleq_joined nodes cells lists holds h [] (lists h) (.head h) b rfl rfl behind
  obtain ⟨onLast, last⟩ := circleq_joined nodes cells lists holds h (lists h) [] a (.head h) (by simp) before rfl
  refine ⟨a, b, before, behind, first, backFirst, onLast, last, ?_⟩
  obtain ⟨none, aHead⟩ | ⟨z, inList, aElm⟩ := before_place h (lists h) a before
  · rw [none] at behind
    exact Or.inl ⟨aHead, (Option.some.inj behind).symm⟩
  · obtain ⟨none, _⟩ | ⟨p, _, bElm⟩ := behind_place h (lists h) b behind
    · rw [none] at inList
      cases inList
    · exact Or.inr ⟨z, p, aElm, bElm⟩

theorem circleq_init (h : H) :
    ∃ after, circleqInit cells h = some after ∧ Holds circleqLayout nodes after (Function.update lists h []) := by
  obtain ⟨a, b, _, _, first, _, _, last, _⟩ := circleq_ends nodes cells lists holds h
  refine ⟨_, ?_, holds_unlink circleqLayout nodes cells lists holds h [] (lists h) [] (.head h) (.head h)
    (by simp) rfl rfl (.head h)
    rfl⟩
  simp [circleqInit, Cells.unlink, first, last]

theorem circleq_insert_head (h : H) (p : P) (spare : Spare nodes lists p) :
    ∃ after, circleqInsertHead cells h p = some after ∧
      Holds circleqLayout nodes after (Function.update lists h (p :: lists h)) := by
  obtain ⟨a, b, _, behind, first, back, _, last, ends⟩ := circleq_ends nodes cells lists holds h
  have apart := after_apart h (lists h) b p (spare.2 h) behind
  have hasNext := holds.next p spare.1
  have hasPrev := holds.prev p spare.1 rfl
  refine ⟨_, ?_, holds_link_in circleqLayout nodes cells lists holds h [] [] (lists h) (.head h) b rfl rfl behind
    p (.elm p) b spare rfl rfl⟩
  obtain ⟨rfl, rfl⟩ | ⟨z, q, rfl, rfl⟩ := ends
  · simp [circleqInsertHead, first, last, hasNext, hasPrev, Cells.linkIn]
  · simp [circleqInsertHead, storePrevAt, containerOf, first, back, last, hasNext, hasPrev, Cells.linkIn]

theorem circleq_insert_tail (h : H) (p : P) (spare : Spare nodes lists p) :
    ∃ after, circleqInsertTail cells h p = some after ∧
      Holds circleqLayout nodes after (Function.update lists h (lists h ++ [p])) := by
  obtain ⟨a, b, before, _, first, _, next, last, ends⟩ := circleq_ends nodes cells lists holds h
  have apart := before_apart h (lists h) a p (spare.2 h) before
  have hasNext := holds.next p spare.1
  have hasPrev := holds.prev p spare.1 rfl
  refine ⟨_, ?_, holds_link_in circleqLayout nodes cells lists holds h (lists h) [] [] a (.head h) (by simp)
    before rfl p (.elm p)
    (.head h) spare rfl rfl⟩
  obtain ⟨rfl, rfl⟩ | ⟨z, q, rfl, rfl⟩ := ends
  · simp [circleqInsertTail, first, last, hasNext, hasPrev, Cells.linkIn]
  · have different : z ≠ p := fun same => apart (by rw [same])
    simp [circleqInsertTail, storeNextAt, containerOf, first, next, last, hasNext, hasPrev, different, Cells.linkIn]

theorem circleq_insert_before (h : H) (q p : P) (front rest : List P) (split : lists h = front ++ q :: rest)
    (spare : Spare nodes lists p) :
    ∃ after, circleqInsertBefore cells h q p = some after ∧
      Holds circleqLayout nodes after (Function.update lists h (front ++ p :: q :: rest)) := by
  obtain ⟨a, before⟩ := place_before h front
  obtain ⟨next, back⟩ := circleq_joined nodes cells lists holds h front (q :: rest) a (.elm q) split before rfl
  have absent := spare.2 h
  rw [split] at absent
  have apart := before_apart h front a p (fun member => absent (by simp [member])) before
  have different : q ≠ p := fun same => absent (by simp [same])
  have hasNext := holds.next p spare.1
  have hasPrev := holds.prev p spare.1 rfl
  refine ⟨_, ?_, holds_link_in circleqLayout nodes cells lists holds h front [] (q :: rest) a (.elm q)
    (by simp [split]) before rfl p (.elm p) (.elm q) spare rfl rfl⟩
  obtain ⟨_, rfl⟩ | ⟨z, _, rfl⟩ := before_place h front a before
  · simp [circleqInsertBefore, next, back, hasNext, hasPrev, different, Cells.linkIn]
  · have other : z ≠ p := fun same => apart (by rw [same])
    simp [circleqInsertBefore, storeNextAt, containerOf, next, back, hasNext, hasPrev, different, other, Cells.linkIn]

theorem circleq_insert_after (h : H) (q p : P) (front rest : List P) (split : lists h = front ++ q :: rest)
    (spare : Spare nodes lists p) :
    ∃ after, circleqInsertAfter cells h q p = some after ∧
      Holds circleqLayout nodes after (Function.update lists h (front ++ q :: p :: rest)) := by
  have whole : lists h = (front ++ [q]) ++ rest := by simp [split]
  have before := before_snoc h front q
  obtain ⟨b, behind⟩ := place_after h rest
  obtain ⟨next, back⟩ := circleq_joined nodes cells lists holds h (front ++ [q]) rest (.elm q) b whole before behind
  have absent := spare.2 h
  rw [split] at absent
  have apart := after_apart h rest b p (fun member => absent (by simp [member])) behind
  have different : q ≠ p := fun same => absent (by simp [same])
  have hasNext := holds.next p spare.1
  have hasPrev := holds.prev p spare.1 rfl
  have linked := holds_link_in circleqLayout nodes cells lists holds h (front ++ [q]) [] rest (.elm q) b
    (by simp [split]) before behind p (.elm p) b spare rfl rfl
  refine ⟨_, ?_, by simpa using linked⟩
  obtain ⟨_, rfl⟩ | ⟨z, _, rfl⟩ := behind_place h rest b behind
  · simp [circleqInsertAfter, next, back, hasNext, hasPrev, different, Cells.linkIn]
  · simp [circleqInsertAfter, storePrevAt, containerOf, next, back, hasNext, hasPrev, different, Cells.linkIn]

theorem circleq_remove (h : H) (q : P) (front rest : List P) (split : lists h = front ++ q :: rest) :
    ∃ after, circleqRemove cells h q = some after ∧
      Holds circleqLayout nodes after (Function.update lists h (front ++ rest)) := by
  have once := holds.once h
  rw [split] at once
  obtain ⟨_, restOnce, apart⟩ := List.nodup_append.mp once
  obtain ⟨a, before⟩ := place_before h front
  obtain ⟨b, behind⟩ := place_after h rest
  obtain ⟨nextA, prev⟩ := circleq_joined nodes cells lists holds h front (q :: rest) a (.elm q) split before rfl
  obtain ⟨next, back⟩ := circleq_joined nodes cells lists holds h (front ++ [q]) rest (.elm q) b (by simp [split])
    (before_snoc h front q) behind
  have aApart := before_apart h front a q (fun inFront => apart q inFront q (by simp) rfl) before
  have bApart := after_apart h rest b q (List.nodup_cons.mp restOnce).1 behind
  refine ⟨_, ?_, holds_unlink circleqLayout nodes cells lists holds h front [q] rest a b (by simp [split])
    before behind b rfl⟩
  obtain ⟨_, rfl⟩ | ⟨z, _, rfl⟩ := before_place h front a before
  · obtain ⟨_, rfl⟩ | ⟨x, _, rfl⟩ := behind_place h rest b behind
    · simp [circleqRemove, nextA, prev, next, back, Cells.unlink]
    · simp [circleqRemove, storePrevAt, containerOf, nextA, prev, next, back, bApart.symm, Cells.unlink]
  · obtain ⟨_, rfl⟩ | ⟨x, _, rfl⟩ := behind_place h rest b behind
    · simp [circleqRemove, storeNextAt, containerOf, nextA, prev, next, back, Cells.unlink]
    · simp [circleqRemove, storePrevAt, storeNextAt, containerOf, nextA, prev, next, back, bApart.symm, Cells.unlink]

end

theorem circleq_implements : Implements (circleqKind : QueueKind H P (Place H P)) := by
  apply implements_splits
  intro nodes cells lists next op run has splits holds
  cases splits with
  | init h =>
      cases has
      exact any_rounds _ nodes _ _ _ (circleq_init nodes cells lists holds h)
  | insertHead h p spare =>
      cases has
      exact any_rounds _ nodes _ _ _ (circleq_insert_head nodes cells lists holds h p spare)
  | insertTail h p spare =>
      cases has
      exact any_rounds _ nodes _ _ _ (circleq_insert_tail nodes cells lists holds h p spare)
  | insertBefore h q p front rest split spare =>
      cases has
      exact any_rounds _ nodes _ _ _ (circleq_insert_before nodes cells lists holds h q p front rest split spare)
  | insertAfter h q p front rest split spare =>
      cases has
      exact any_rounds _ nodes _ _ _ (circleq_insert_after nodes cells lists holds h q p front rest split spare)
  | remove h q front rest split =>
      cases has
      exact any_rounds _ nodes _ _ _ (circleq_remove nodes cells lists holds h q front rest split)
  | concat h k other => cases has
  | removeHead h p rest split => cases has
  | removeHeadUntil h q front rest split => cases has
  | removeAfter h q p front rest split => cases has
  | replace h q p front rest split spare => cases has
  | swap h k other => cases has

def circleqFirst (cells : CircleCells H P) (head : H) : Option (Place H P) := cells.next (.head head)

def circleqLast (cells : CircleCells H P) (head : H) : Option (Place H P) := cells.prev (.head head)

def circleqNext (cells : CircleCells H P) (elm : P) : Option (Place H P) := cells.next (.elm elm)

def circleqPrev (cells : CircleCells H P) (elm : P) : Option (Place H P) := cells.prev (.elm elm)

def circleqEmpty (cells : CircleCells H P) (head : H) : Option Bool := do
  let first ← circleqFirst cells head
  some (first = .head head)

def circleqLoopNext (cells : CircleCells H P) (head : H) (elm : P) : Option (Place H P) := do
  let next ← cells.next (.elm elm)
  if next = .head head then cells.next (.head head) else cells.next (.elm elm)

def circleqLoopPrev (cells : CircleCells H P) (head : H) (elm : P) : Option (Place H P) := do
  let prev ← cells.prev (.elm elm)
  if prev = .head head then cells.prev (.head head) else cells.prev (.elm elm)

-- var against CIRCLEQ_END. none: var is another head.
def circleqVar (head : H) (var : Place H P) : Option (Option P) :=
  if var = .head head then some none else (containerOf var).map some

def circleqForeach (rounds : Nat) (cells : CircleCells H P) (head : H) : Option (List P) := do
  let first ← circleqFirst cells head
  let var ← circleqVar head first
  foreachFrom (fun var => (circleqNext cells var).bind (circleqVar head)) rounds var

def circleqForeachReverse (rounds : Nat) (cells : CircleCells H P) (head : H) : Option (List P) := do
  let last ← circleqLast cells head
  let var ← circleqVar head last
  foreachFrom (fun var => (circleqPrev cells var).bind (circleqVar head)) rounds var

structure CircleqReads (cells : CircleCells H P) (lists : H → List P) : Prop where
  first : ∀ h, circleqFirst cells h = some (nullTarget h (lists h).head?)
  last : ∀ h, circleqLast cells h = some (nullTarget h (lists h).getLast?)
  next : ∀ h front q rest, lists h = front ++ q :: rest → circleqNext cells q = some (nullTarget h rest.head?)
  prev : ∀ h front q rest, lists h = front ++ q :: rest → circleqPrev cells q = some (nullTarget h front.getLast?)
  empty : ∀ h, circleqEmpty cells h = some (lists h).isEmpty
  -- Round the circle.
  loopNext : ∀ h front q rest, lists h = front ++ q :: rest →
    circleqLoopNext cells h q = some (.elm ((rest ++ front).headD q))
  loopPrev : ∀ h front q rest, lists h = front ++ q :: rest →
    circleqLoopPrev cells h q = some (.elm ((rest ++ front).getLastD q))
  foreach : ∀ h rounds, (lists h).length ≤ rounds → circleqForeach rounds cells h = some (lists h)
  foreachReverse : ∀ h rounds, (lists h).length ≤ rounds → circleqForeachReverse rounds cells h = some (lists h).reverse

omit [DecidableEq H] [DecidableEq P] in
theorem before_last (h : H) (front : List P) : PlaceBefore h front (nullTarget h front.getLast?) := by
  rcases List.eq_nil_or_concat' front with rfl | ⟨earlier, z, rfl⟩
  · rfl
  · rw [List.getLast?_concat]
    exact before_snoc h earlier z

theorem circleq_var (h : H) (pointer : Option P) : circleqVar h (nullTarget h pointer) = some pointer := by
  cases pointer with
  | none => exact if_pos rfl
  | some p => exact if_neg (by simp [nullTarget])

theorem circleq_reads (nodes : P → Prop) (cells : CircleCells H P) (lists : H → List P)
    (holds : Holds circleqLayout nodes cells lists) :
    CircleqReads cells lists := by
  have nexts : ∀ h front rest a, lists h = front ++ rest → PlaceBefore h front a →
      cells.next a = some (nullTarget h rest.head?) := by
    intro h front rest a split before
    exact (circleq_joined nodes cells lists holds h front rest a _ split before (null_behind h rest)).1
  have prevs : ∀ h front rest b, lists h = front ++ rest → PlaceBehind h rest b →
      cells.prev b = some (nullTarget h front.getLast?) := by
    intro h front rest b split behind
    exact (circleq_joined nodes cells lists holds h front rest _ b split (before_last h front) behind).2
  have firsts : ∀ h, circleqFirst cells h = some (nullTarget h (lists h).head?) := fun h =>
    nexts h [] (lists h) (.head h) rfl rfl
  have lasts : ∀ h, circleqLast cells h = some (nullTarget h (lists h).getLast?) := fun h =>
    prevs h (lists h) [] (.head h) (by simp) rfl
  have next : ∀ h front q rest, lists h = front ++ q :: rest → circleqNext cells q = some (nullTarget h rest.head?) :=
    fun h front q rest split => nexts h (front ++ [q]) rest (.elm q) (by simp [split]) (before_snoc h front q)
  have prev : ∀ h front q rest, lists h = front ++ q :: rest →
    circleqPrev cells q = some (nullTarget h front.getLast?) :=
    fun h front q rest split => prevs h front (q :: rest) (.elm q) split rfl
  refine ⟨firsts, lasts, next, prev, fun h => ?_, fun h front q rest split => ?_, fun h front q rest split => ?_,
    fun h rounds enough => ?_, fun h rounds enough => ?_⟩
  · rw [circleqEmpty, firsts]
    cases lists h <;> simp [nullTarget]
  · have read := next h front q rest split
    have first := firsts h
    rw [circleqNext] at read
    rw [circleqFirst, split] at first
    cases rest with
    | nil => cases front <;> simp [circleqLoopNext, read, first, nullTarget]
    | cons p rest => simp [circleqLoopNext, read, nullTarget]
  · have read := prev h front q rest split
    have last := lasts h
    rw [circleqPrev] at read
    rw [circleqLast, split] at last
    rcases List.eq_nil_or_concat' front with rfl | ⟨earlier, z, rfl⟩
    · rcases List.eq_nil_or_concat' rest with rfl | ⟨later, z, rfl⟩
      · simpa [circleqLoopPrev, read, nullTarget] using last
      · rw [List.nil_append, ← List.cons_append, List.getLast?_concat] at last
        simpa [circleqLoopPrev, read, nullTarget] using last
    · simp [circleqLoopPrev, read, nullTarget]
  · have visits : foreachFrom (fun var => (circleqNext cells var).bind (circleqVar h)) rounds (lists h).head? =
        some (lists h) := by
      apply foreach_visits _ _ _ enough
      intro front q rest split
      rw [next h front q rest split, Option.bind_some, circleq_var]
    simpa [circleqForeach, firsts, circleq_var] using visits
  · have visits : foreachFrom (fun var => (circleqPrev cells var).bind (circleqVar h)) rounds (lists h).reverse.head? =
        some (lists h).reverse := by
      apply foreach_visits _ _ _ (by simpa using enough)
      intro front q rest split
      have whole := reverse_split (lists h) front q rest split
      rw [prev h rest.reverse q front.reverse whole, Option.bind_some, circleq_var, List.getLast?_reverse]
    simpa [circleqForeachReverse, lasts, circleq_var] using visits

theorem circleq_runs_as_lists (nodes : P → Prop) (cells : CircleCells H P) (ops : List (QueueOp H P))
    (final : H → List P) (fresh : Fresh circleqLayout nodes cells)
    (run : AllowedRun circleqKind nodes (fun _ => []) ops final) :
    ∃ enough after, (∀ rounds, enough ≤ rounds → runMacros circleqKind rounds ops cells = some after) ∧
      CircleqReads after final := by
  obtain ⟨enough, after, ran, holds⟩ :=
    runs_hold circleqKind circleq_implements nodes ops _ final cells run (holds_fresh circleqLayout nodes cells fresh)
  exact ⟨enough, after, ran, circleq_reads nodes after final holds⟩

-- Two heads as CIRCLEQ_INIT leaves them.
def twoCircles : CircleCells Bool Nat where
  next
    | .head h => some (.head h)
    | .elm _ => some (.head false)
  prev
    | .head h => some (.head h)
    | .elm _ => some (.head false)

theorem two_circles_fresh : Fresh circleqLayout (fun _ => True) twoCircles where
  heads _ := ⟨rfl, fun _ => rfl⟩
  next _ _ := rfl
  prev _ _ _ := rfl

theorem circleq_runs_as_lists_two_heads :
    let ops : List (QueueOp Bool Nat) :=
      [.insertTail true 1, .insertHead true 2, .insertAfter true 2 3, .insertBefore true 1 4,
        .remove true 3, .init false]
    let final := ops.foldl (fun lists op => op.apply lists) fun _ => []
    ∃ enough after, (∀ rounds, enough ≤ rounds → runMacros circleqKind rounds ops twoCircles = some after) ∧
      CircleqReads after final :=
  circleq_runs_as_lists (fun _ => True) twoCircles _ _ two_circles_fresh
    (.cons _ _ _ _ rfl (by decide) (.cons _ _ _ _ rfl (by decide) (.cons _ _ _ _ rfl (by decide)
      (.cons _ _ _ _ rfl (by decide) (.cons _ _ _ _ rfl (by decide) (.cons _ _ _ _ rfl (by decide) (.nil _)))))))

end AesdChar

import AesdChar.NullQueues

set_option autoImplicit false

namespace AesdChar

open LinkedRing

variable {H P : Type} [DecidableEq H] [DecidableEq P]

def tailqInit (cells : NullCells H P) (head : H) : Option (NullCells H P) := do
  let cells ← cells.storeNext (.head head) none
  cells.storePrev (.head head) (.head head)

def tailqInsertHead (cells : NullCells H P) (head : H) (elm : P) : Option (NullCells H P) := do
  let first ← cells.next (.head head)
  let cells ← cells.storeNext (.elm elm) first
  let cells ←
    if first ≠ none then do
      let first ← cells.next (.head head)
      storePrevOf cells first (.elm elm)
    else cells.storePrev (.head head) (.elm elm)
  let cells ← cells.storeNext (.head head) (some elm)
  cells.storePrev (.elm elm) (.head head)

def tailqInsertBefore (cells : NullCells H P) (listelm elm : P) : Option (NullCells H P) := do
  let prev ← cells.prev (.elm listelm)
  let cells ← cells.storePrev (.elm elm) prev
  let cells ← cells.storeNext (.elm elm) (some listelm)
  let prev ← cells.prev (.elm listelm)
  let cells ← cells.storeNext prev (some elm)
  cells.storePrev (.elm listelm) (.elm elm)

def tailqInsertAfter (cells : NullCells H P) (head : H) (listelm elm : P) : Option (NullCells H P) := do
  let next ← cells.next (.elm listelm)
  let cells ← cells.storeNext (.elm elm) next
  let cells ←
    if next ≠ none then do
      let next ← cells.next (.elm elm)
      storePrevOf cells next (.elm elm)
    else cells.storePrev (.head head) (.elm elm)
  let cells ← cells.storeNext (.elm listelm) (some elm)
  cells.storePrev (.elm elm) (.elm listelm)

def tailqInsertTail (cells : NullCells H P) (head : H) (elm : P) : Option (NullCells H P) := do
  let cells ← cells.storeNext (.elm elm) none
  let last ← cells.prev (.head head)
  let cells ← cells.storePrev (.elm elm) last
  let last ← cells.prev (.head head)
  let cells ← cells.storeNext last (some elm)
  cells.storePrev (.head head) (.elm elm)

def tailqConcat (cells : NullCells H P) (head1 head2 : H) : Option (NullCells H P) := do
  let first ← cells.next (.head head2)
  if first = none then some cells
  else do
    let last ← cells.prev (.head head1)
    let first ← cells.next (.head head2)
    let cells ← cells.storeNext last first
    let first ← cells.next (.head head2)
    let last ← cells.prev (.head head1)
    let cells ← storePrevOf cells first last
    let last ← cells.prev (.head head2)
    let cells ← cells.storePrev (.head head1) last
    tailqInit cells head2

def tailqRemove (cells : NullCells H P) (head : H) (elm : P) : Option (NullCells H P) := do
  let next ← cells.next (.elm elm)
  let prev ← cells.prev (.elm elm)
  let cells ← if next ≠ none then storePrevOf cells next prev else cells.storePrev (.head head) prev
  let prev ← cells.prev (.elm elm)
  let next ← cells.next (.elm elm)
  cells.storeNext prev next

def tailqReplace (cells : NullCells H P) (head : H) (elm elm2 : P) : Option (NullCells H P) := do
  let next ← cells.next (.elm elm)
  let cells ← cells.storeNext (.elm elm2) next
  let cells ←
    if next ≠ none then do
      let next ← cells.next (.elm elm2)
      storePrevOf cells next (.elm elm2)
    else cells.storePrev (.head head) (.elm elm2)
  let prev ← cells.prev (.elm elm)
  let cells ← cells.storePrev (.elm elm2) prev
  let prev ← cells.prev (.elm elm2)
  cells.storeNext prev (some elm2)

-- How TAILQ_SWAP leaves one of its heads.
def tailqSettle (cells : NullCells H P) (head : H) : Option (NullCells H P) := do
  let first ← cells.next (.head head)
  if first ≠ none then storePrevOf cells first (.head head) else cells.storePrev (.head head) (.head head)

def tailqSwap (cells : NullCells H P) (head1 head2 : H) : Option (NullCells H P) := do
  let swapFirst ← cells.next (.head head1)
  let swapLast ← cells.prev (.head head1)
  let first ← cells.next (.head head2)
  let cells ← cells.storeNext (.head head1) first
  let last ← cells.prev (.head head2)
  let cells ← cells.storePrev (.head head1) last
  let cells ← cells.storeNext (.head head2) swapFirst
  let cells ← cells.storePrev (.head head2) swapLast
  let cells ← tailqSettle cells head1
  tailqSettle cells head2

-- Every place has both fields.
def tailqLayout : QueueLayout H P (Option P) := ⟨fun _ => true, nullTarget⟩

def tailqKind : QueueKind H P (Option P) where
  layout := tailqLayout
  code
    | .init head => some fun _ cells => tailqInit cells head
    | .insertHead head elm => some fun _ cells => tailqInsertHead cells head elm
    | .insertTail head elm => some fun _ cells => tailqInsertTail cells head elm
    | .insertBefore _ listelm elm => some fun _ cells => tailqInsertBefore cells listelm elm
    | .insertAfter head listelm elm => some fun _ cells => tailqInsertAfter cells head listelm elm
    | .concat head1 head2 => some fun _ cells => tailqConcat cells head1 head2
    | .remove head elm => some fun _ cells => tailqRemove cells head elm
    | .replace head elm elm2 => some fun _ cells => tailqReplace cells head elm elm2
    | .swap head1 head2 => some fun _ cells => tailqSwap cells head1 head2
    | .removeHead _ => none
    | .removeHeadUntil _ _ => none
    | .removeAfter _ _ => none

@[simp] theorem tailq_set_back (cells : NullCells H P) (y x : Place H P) :
    cells.setBack tailqLayout y x = cells.setPrev y x := rfl

theorem tailq_settle (cells : NullCells H P) (h : H) (first : Option P) (read : cells.next (.head h) = some first)
    (has : (cells.prev (nullTarget h first)).isSome) :
    tailqSettle cells h = some (cells.setPrev (nullTarget h first) (.head h)) := by
  cases first with
  | none =>
      rw [nullTarget] at has
      simp [tailqSettle, read, nullTarget, has]
  | some p =>
      rw [nullTarget] at has
      simp [tailqSettle, storePrevOf, read, nullTarget, has]

section

variable (nodes : P → Prop) (cells : NullCells H P) (lists : H → List P) (holds : Holds tailqLayout nodes cells lists)

include holds

omit [DecidableEq H] [DecidableEq P] in
theorem tailq_joined (h : H) (front rest : List P) (a b : Place H P) (split : lists h = front ++ rest)
    (before : PlaceBefore h front a) (behind : PlaceBehind h rest b) :
    ∃ next, cells.next a = some next ∧ nullTarget h next = b ∧ cells.prev b = some a := by
  have joined := holds_joined tailqLayout nodes cells lists holds h front rest a b split before behind
  obtain ⟨next, read, leads⟩ := Option.map_eq_some_iff.mp joined.1
  exact ⟨next, read, leads, joined.2 rfl⟩

theorem tailq_init (h : H) :
    ∃ after, tailqInit cells h = some after ∧ Holds tailqLayout nodes after (Function.update lists h []) := by
  obtain ⟨b, behind⟩ := place_after h (lists h)
  obtain ⟨first, read, _, _⟩ := tailq_joined nodes cells lists holds h [] (lists h) (.head h) b rfl rfl behind
  obtain ⟨a, before⟩ := place_before h (lists h)
  obtain ⟨_, _, _, back⟩ := tailq_joined nodes cells lists holds h (lists h) [] a (.head h) (by simp) before rfl
  refine ⟨cells.unlink tailqLayout (.head h) (.head h) none, ?_, ?_⟩
  · simp [tailqInit, Cells.unlink, read, back]
  · simpa using holds_unlink tailqLayout nodes cells lists holds h [] (lists h) [] (.head h) (.head h)
      (by simp) rfl rfl none rfl

theorem tailq_insert_head (h : H) (p : P) (spare : Spare nodes lists p) :
    ∃ after, tailqInsertHead cells h p = some after ∧
      Holds tailqLayout nodes after (Function.update lists h (p :: lists h)) := by
  obtain ⟨b, behind⟩ := place_after h (lists h)
  obtain ⟨first, read, leads, back⟩ := tailq_joined nodes cells lists holds h [] (lists h) (.head h) b rfl rfl behind
  have apart := after_apart h (lists h) b p (spare.2 h) behind
  have hasNext := holds.next p spare.1
  have hasPrev := holds.prev p spare.1 rfl
  refine ⟨cells.linkIn tailqLayout (.head h) b p (some p) first, ?_, ?_⟩
  · simp [tailqInsertHead, store_prev_target, leads, read, back, hasNext, hasPrev, apart.symm, Cells.linkIn,
      set_prev_comm _ _ _ _ _ apart]
  · exact holds_link_in tailqLayout nodes cells lists holds h [] [] (lists h) (.head h) b rfl rfl behind p
      (some p) first spare rfl
      leads

theorem tailq_insert_tail (h : H) (p : P) (spare : Spare nodes lists p) :
    ∃ after, tailqInsertTail cells h p = some after ∧
      Holds tailqLayout nodes after (Function.update lists h (lists h ++ [p])) := by
  obtain ⟨a, before⟩ := place_before h (lists h)
  obtain ⟨last, read, leads, back⟩ :=
    tailq_joined nodes cells lists holds h (lists h) [] a (.head h) (by simp) before rfl
  have apart := before_apart h (lists h) a p (spare.2 h) before
  have hasNext := holds.next p spare.1
  have hasPrev := holds.prev p spare.1 rfl
  refine ⟨cells.linkIn tailqLayout a (.head h) p (some p) none, ?_, ?_⟩
  · simp [tailqInsertTail, read, back, hasNext, hasPrev, apart, Cells.linkIn]
  · exact holds_link_in tailqLayout nodes cells lists holds h (lists h) [] [] a (.head h) (by simp) before rfl p
      (some p) none spare rfl rfl

theorem tailq_insert_before (h : H) (q p : P) (front rest : List P) (split : lists h = front ++ q :: rest)
    (spare : Spare nodes lists p) :
    ∃ after, tailqInsertBefore cells q p = some after ∧
      Holds tailqLayout nodes after (Function.update lists h (front ++ p :: q :: rest)) := by
  obtain ⟨a, before⟩ := place_before h front
  obtain ⟨next, read, leads, back⟩ :=
    tailq_joined nodes cells lists holds h front (q :: rest) a (.elm q) split before rfl
  have absent := spare.2 h
  rw [split] at absent
  have apart := before_apart h front a p (fun member => absent (by simp [member])) before
  have different : q ≠ p := fun same => absent (by simp [same])
  have hasNext := holds.next p spare.1
  have hasPrev := holds.prev p spare.1 rfl
  refine ⟨cells.linkIn tailqLayout a (.elm q) p (some p) (some q), ?_, ?_⟩
  · simp [tailqInsertBefore, read, back, hasNext, hasPrev, apart, different, Cells.linkIn]
  · exact holds_link_in tailqLayout nodes cells lists holds h front [] (q :: rest) a (.elm q) (by simp [split])
      before rfl p (some p)
      (some q) spare rfl rfl

theorem tailq_insert_after (h : H) (q p : P) (front rest : List P) (split : lists h = front ++ q :: rest)
    (spare : Spare nodes lists p) :
    ∃ after, tailqInsertAfter cells h q p = some after ∧
      Holds tailqLayout nodes after (Function.update lists h (front ++ q :: p :: rest)) := by
  have whole : lists h = (front ++ [q]) ++ rest := by simp [split]
  have before := before_snoc h front q
  obtain ⟨b, behind⟩ := place_after h rest
  obtain ⟨next, read, leads, back⟩ :=
    tailq_joined nodes cells lists holds h (front ++ [q]) rest (.elm q) b whole before behind
  have absent := spare.2 h
  rw [split] at absent
  have apart := after_apart h rest b p (fun member => absent (by simp [member])) behind
  have different : q ≠ p := fun same => absent (by simp [same])
  have hasNext := holds.next p spare.1
  have hasPrev := holds.prev p spare.1 rfl
  refine ⟨cells.linkIn tailqLayout (.elm q) b p (some p) next, ?_, ?_⟩
  · simp [tailqInsertAfter, store_prev_target, leads, read, back, hasNext, hasPrev, apart.symm, different, Cells.linkIn,
      set_prev_comm _ _ _ _ _ apart]
  · have linked := holds_link_in tailqLayout nodes cells lists holds h (front ++ [q]) [] rest (.elm q) b
      (by simp [split]) before behind p (some p) next spare rfl leads
    simpa using linked

-- The element's own fields, and those of its neighbours.
omit [DecidableEq H] [DecidableEq P] in
theorem tailq_around (h : H) (q : P) (front rest : List P) (split : lists h = front ++ q :: rest) :
    ∃ a b next, PlaceBefore h front a ∧ PlaceBehind h rest b ∧ cells.next a = some (some q) ∧
      cells.prev (.elm q) = some a ∧
      cells.next (.elm q) = some next ∧ nullTarget h next = b ∧ cells.prev b = some (.elm q) ∧
        a ≠ .elm q ∧ b ≠ .elm q := by
  have once := holds.once h
  rw [split] at once
  obtain ⟨_, restOnce, apart⟩ := List.nodup_append.mp once
  obtain ⟨a, before⟩ := place_before h front
  obtain ⟨b, behind⟩ := place_after h rest
  obtain ⟨into, readInto, leads, backInto⟩ :=
    tailq_joined nodes cells lists holds h front (q :: rest) a (.elm q) split before rfl
  obtain ⟨next, read, leadsOn, back⟩ :=
    tailq_joined nodes cells lists holds h (front ++ [q]) rest (.elm q) b (by simp [split])
    (before_snoc h front q) behind
  rw [(null_target_elm h into q).mp leads] at readInto
  exact ⟨a, b, next, before, behind, readInto, backInto, read, leadsOn, back,
    before_apart h front a q (fun inFront => apart q inFront q (by simp) rfl) before,
    after_apart h rest b q (List.nodup_cons.mp restOnce).1 behind⟩

theorem tailq_remove (h : H) (q : P) (front rest : List P) (split : lists h = front ++ q :: rest) :
    ∃ after, tailqRemove cells h q = some after ∧
      Holds tailqLayout nodes after (Function.update lists h (front ++ rest)) := by
  obtain ⟨a, b, next, before, behind, readInto, backInto, read, leads, back, aApart, bApart⟩ :=
    tailq_around nodes cells lists holds h q front rest split
  refine ⟨cells.unlink tailqLayout a b next, ?_, ?_⟩
  · simp [tailqRemove, store_prev_target, leads, read, back, readInto, backInto, bApart.symm, Cells.unlink]
  · exact holds_unlink tailqLayout nodes cells lists holds h front [q] rest a b (by simp [split])
      before behind next leads

theorem tailq_replace (h : H) (q p : P) (front rest : List P) (split : lists h = front ++ q :: rest)
    (spare : Spare nodes lists p) :
    ∃ after, tailqReplace cells h q p = some after ∧
      Holds tailqLayout nodes after (Function.update lists h (front ++ p :: rest)) := by
  obtain ⟨a, b, next, before, behind, readInto, backInto, read, leads, back, aApart, bApart⟩ :=
    tailq_around nodes cells lists holds h q front rest split
  have absent := spare.2 h
  rw [split] at absent
  have notA := before_apart h front a p (fun member => absent (by simp [member])) before
  have notB := after_apart h rest b p (fun member => absent (by simp [member])) behind
  have different : q ≠ p := fun same => absent (by simp [same])
  have hasNext := holds.next p spare.1
  have hasPrev := holds.prev p spare.1 rfl
  refine ⟨cells.linkIn tailqLayout a b p (some p) next, ?_, ?_⟩
  · simp [tailqReplace, store_prev_target, leads, read, back, readInto, backInto, hasNext, hasPrev,
      bApart.symm, notA, notB.symm,
      Cells.linkIn, set_prev_comm _ _ _ _ _ notB]
  · exact holds_link_in tailqLayout nodes cells lists holds h front [q] rest a b (by simp [split]) before behind p
      (some p) next spare rfl leads

theorem tailq_concat (h k : H) (other : h ≠ k) :
    ∃ after, tailqConcat cells h k = some after ∧
      Holds tailqLayout nodes after (Function.update (Function.update lists k []) h (lists h ++ lists k)) := by
  obtain ⟨b, behind⟩ := place_after k (lists k)
  obtain ⟨first, read, leads, back⟩ := tailq_joined nodes cells lists holds k [] (lists k) (.head k) b rfl rfl behind
  cases list : lists k with
  | nil =>
      rw [list] at behind
      cases behind
      refine ⟨cells, by simp [tailqConcat, read, (null_target_head k first).mp leads], ?_⟩
      have same : Function.update (Function.update lists k []) h (lists h ++ []) = lists := by
        rw [List.append_nil, ← list, Function.update_eq_self, Function.update_eq_self]
      rw [same]
      exact holds
  | cons p rest =>
      rw [list] at behind
      cases behind
      rw [(null_target_elm k first p).mp leads] at read
      obtain ⟨a, before⟩ := place_before h (lists h)
      obtain ⟨_, readA, _, backA⟩ :=
        tailq_joined nodes cells lists holds h (lists h) [] a (.head h) (by simp) before rfl
      obtain ⟨z, last⟩ : ∃ z, (lists k).getLast? = some z :=
        ⟨_, List.getLast?_eq_some_getLast (l := lists k) (by simp [list])⟩
      have lastPlace : PlaceBefore k (lists k) (.elm z) := by
        obtain ⟨front, split⟩ := List.getLast?_eq_some_iff.mp last
        rw [split]
        exact before_snoc k front z
      obtain ⟨_, _, _, backZ⟩ :=
        tailq_joined nodes cells lists holds k (lists k) [] (.elm z) (.head k) (by simp) lastPlace rfl
      have aNotHead := before_other h k (lists h) a other before
      rw [← list]
      refine ⟨cells.append tailqLayout a h k p z (some p) none, ?_, ?_⟩
      · have headsApart : (Place.head k : Place H P) ≠ .head h := by simpa using Ne.symm other
        have elmApart : (Place.head k : Place H P) ≠ .elm p := by simp
        simp [tailqConcat, tailqInit, storePrevOf, Cells.append, Cells.unlink, read, readA, backA, backZ,
          back, aNotHead.symm,
          set_next_comm _ _ _ _ _ aNotHead, set_prev_comm _ _ _ _ _ elmApart, set_prev_comm _ _ _ _ _ headsApart]
      · exact holds_append tailqLayout (null_ends_alike _) cells nodes lists holds h k other a p z (some p) none before
          (by simp [list]) last read rfl

theorem tailq_swap (h k : H) (other : h ≠ k) :
    ∃ after, tailqSwap cells h k = some after ∧
      Holds tailqLayout nodes after (Function.update (Function.update lists h (lists k)) k (lists h)) := by
  obtain ⟨b1, behind1⟩ := place_after h (lists h)
  obtain ⟨b2, behind2⟩ := place_after k (lists k)
  obtain ⟨a1, before1⟩ := place_before h (lists h)
  obtain ⟨a2, before2⟩ := place_before k (lists k)
  obtain ⟨first1, read1, leads1, back1⟩ :=
    tailq_joined nodes cells lists holds h [] (lists h) (.head h) b1 rfl rfl behind1
  obtain ⟨first2, read2, leads2, back2⟩ :=
    tailq_joined nodes cells lists holds k [] (lists k) (.head k) b2 rfl rfl behind2
  obtain ⟨_, _, _, last1⟩ := tailq_joined nodes cells lists holds h (lists h) [] a1 (.head h) (by simp) before1 rfl
  obtain ⟨_, _, _, last2⟩ := tailq_joined nodes cells lists holds k (lists k) [] a2 (.head k) (by simp) before2 rfl
  refine ⟨cells.exchange tailqLayout h k first1 first2 a1 a2, ?_,
    holds_exchange tailqLayout (null_ends_alike _) cells nodes lists holds h k other first1 first2 a1 a2
      read1 read2 before1 before2⟩
  have has1 : (cells.prev (nullTarget k first1)).isSome := by
    cases first1 with
    | none => simp [nullTarget, last2]
    | some p =>
        obtain rfl : Place.elm p = b1 := leads1
        simp [nullTarget, back1]
  have has2 : (cells.prev (nullTarget h first2)).isSome := by
    cases first2 with
    | none => simp [nullTarget, last1]
    | some p =>
        obtain rfl : Place.elm p = b2 := leads2
        simp [nullTarget, back2]
  -- The heads before the two settle.
  let swapped := (((cells.setNext (.head h) first2).setNext (.head k) first1).setPrev (.head h) a2).setPrev (.head k) a1
  have keeps : Keeps cells swapped :=
    keeps_set_prev _ _ _ _ (keeps_set_prev _ _ _ _ (keeps_set_next _ _ _ _ (keeps_set_next _ _ _ _ (keeps_all cells))))
  have reached : tailqSwap cells h k = (tailqSettle swapped h).bind fun settled => tailqSettle settled k := by
    simp [tailqSwap, swapped, read1, read2, last1, last2, Ne.symm other]
  rw [reached, tailq_settle swapped h first2 (by simp [swapped, other]) (keeps.prev _ has2), Option.bind_some,
    tailq_settle _ k first1 (by simp [swapped]) ((keeps_set_prev _ _ _ _ keeps).prev _ has1)]
  rfl

end

theorem tailq_implements : Implements (tailqKind : QueueKind H P (Option P)) := by
  apply implements_splits
  intro nodes cells lists next op run has splits holds
  cases splits with
  | init h =>
      cases has
      exact any_rounds _ nodes _ _ _ (tailq_init nodes cells lists holds h)
  | insertHead h p spare =>
      cases has
      exact any_rounds _ nodes _ _ _ (tailq_insert_head nodes cells lists holds h p spare)
  | insertTail h p spare =>
      cases has
      exact any_rounds _ nodes _ _ _ (tailq_insert_tail nodes cells lists holds h p spare)
  | insertBefore h q p front rest split spare =>
      cases has
      exact any_rounds _ nodes _ _ _ (tailq_insert_before nodes cells lists holds h q p front rest split spare)
  | insertAfter h q p front rest split spare =>
      cases has
      exact any_rounds _ nodes _ _ _ (tailq_insert_after nodes cells lists holds h q p front rest split spare)
  | concat h k other =>
      cases has
      exact any_rounds _ nodes _ _ _ (tailq_concat nodes cells lists holds h k other)
  | remove h q front rest split =>
      cases has
      exact any_rounds _ nodes _ _ _ (tailq_remove nodes cells lists holds h q front rest split)
  | replace h q p front rest split spare =>
      cases has
      exact any_rounds _ nodes _ _ _ (tailq_replace nodes cells lists holds h q p front rest split spare)
  | swap h k other =>
      cases has
      exact any_rounds _ nodes _ _ _ (tailq_swap nodes cells lists holds h k other)
  | removeHead h p rest split => cases has
  | removeHeadUntil h q front rest split => cases has
  | removeAfter h q p front rest split => cases has

def tailqFirst (cells : NullCells H P) (head : H) : Option (Option P) := cells.next (.head head)

-- The last next field is in an element whose two fields are read as those of a
-- head.
def tailqLast (cells : NullCells H P) (head : H) : Option (Option P) := do
  let last ← cells.prev (.head head)
  let last ← cells.prev last
  cells.next last

def tailqNext (cells : NullCells H P) (elm : P) : Option (Option P) := cells.next (.elm elm)

def tailqPrev (cells : NullCells H P) (elm : P) : Option (Option P) := do
  let prev ← cells.prev (.elm elm)
  let prev ← cells.prev prev
  cells.next prev

def tailqEmpty (cells : NullCells H P) (head : H) : Option Bool := (cells.next (.head head)).map Option.isNone

def tailqForeach (rounds : Nat) (cells : NullCells H P) (head : H) : Option (List P) := do
  let first ← tailqFirst cells head
  foreachFrom (tailqNext cells) rounds first

def tailqForeachReverse (rounds : Nat) (cells : NullCells H P) (head : H) : Option (List P) := do
  let last ← tailqLast cells head
  foreachFrom (tailqPrev cells) rounds last

-- What the macros that only read give.
structure TailqReads (cells : NullCells H P) (lists : H → List P) : Prop where
  first : ∀ h, tailqFirst cells h = some (lists h).head?
  last : ∀ h, tailqLast cells h = some (lists h).getLast?
  next : ∀ h front q rest, lists h = front ++ q :: rest → tailqNext cells q = some rest.head?
  prev : ∀ h front q rest, lists h = front ++ q :: rest → tailqPrev cells q = some front.getLast?
  empty : ∀ h, tailqEmpty cells h = some (lists h).isEmpty
  foreach : ∀ h rounds, (lists h).length ≤ rounds → tailqForeach rounds cells h = some (lists h)
  foreachReverse : ∀ h rounds, (lists h).length ≤ rounds → tailqForeachReverse rounds cells h = some (lists h).reverse

section

variable (nodes : P → Prop) (cells : NullCells H P) (lists : H → List P)
    (holds : Holds tailqLayout nodes cells lists) (h : H)

include holds

omit [DecidableEq H] [DecidableEq P] in
-- Back over two places and on over one.
theorem tailq_back (front rest : List P) (a : Place H P) (split : lists h = front ++ rest)
    (before : PlaceBefore h front a) :
    ((cells.prev a).bind fun prev => cells.next prev) = some front.getLast? := by
  rcases List.eq_nil_or_concat' front with rfl | ⟨earlier, z, rfl⟩
  · have here : a = .head h := (Option.some.inj before).symm
    obtain ⟨z, beforeHead⟩ := place_before h (lists h)
    obtain ⟨_, _, _, back⟩ := tailq_joined nodes cells lists holds h (lists h) [] z (.head h) (by simp) beforeHead rfl
    rw [here, back, Option.bind_some, null_next tailqLayout rfl nodes cells lists holds h (lists h) [] z
      (by simp) beforeHead]
    rfl
  · have here : a = .elm z := Option.some.inj (before.symm.trans (before_snoc h earlier z))
    obtain ⟨c, beforeZ⟩ := place_before h earlier
    have whole : lists h = earlier ++ z :: rest := by simp [split]
    obtain ⟨_, _, _, back⟩ := tailq_joined nodes cells lists holds h earlier (z :: rest) c (.elm z) whole beforeZ rfl
    rw [here, back, Option.bind_some,
      null_next tailqLayout rfl nodes cells lists holds h earlier (z :: rest) c whole beforeZ]
    simp

omit [DecidableEq H] [DecidableEq P] in
theorem tailq_reads : TailqReads cells lists := by
  have firsts : ∀ h, tailqFirst cells h = some (lists h).head? := fun h =>
    null_next tailqLayout rfl nodes cells lists holds h [] (lists h) (.head h) rfl rfl
  have lasts : ∀ h, tailqLast cells h = some (lists h).getLast? := by
    intro h
    obtain ⟨a, before⟩ := place_before h (lists h)
    obtain ⟨_, _, _, back⟩ := tailq_joined nodes cells lists holds h (lists h) [] a (.head h) (by simp) before rfl
    simpa [tailqLast, back] using tailq_back nodes cells lists holds h (lists h) [] a (by simp) before
  have prevs : ∀ h front q rest, lists h = front ++ q :: rest → tailqPrev cells q = some front.getLast? := by
    intro h front q rest split
    obtain ⟨a, before⟩ := place_before h front
    obtain ⟨_, _, _, back⟩ := tailq_joined nodes cells lists holds h front (q :: rest) a (.elm q) split before rfl
    simpa [tailqPrev, back] using tailq_back nodes cells lists holds h front (q :: rest) a split before
  refine ⟨firsts, lasts, fun h front q rest split => ?_, prevs, fun h => ?_, fun h rounds enough => ?_,
    fun h rounds enough => ?_⟩
  · exact null_next tailqLayout rfl nodes cells lists holds h (front ++ [q]) rest (.elm q) (by simp [split])
      (before_snoc h front q)
  · have first := firsts h
    rw [tailqFirst] at first
    rw [tailqEmpty, first]
    cases lists h <;> rfl
  · rw [tailqForeach, firsts]
    exact null_foreach tailqLayout rfl nodes cells lists holds h rounds enough
  · have visits : foreachFrom (tailqPrev cells) rounds (lists h).reverse.head? = some (lists h).reverse := by
      apply foreach_visits _ _ _ (by simpa using enough)
      intro front q rest split
      have whole := reverse_split (lists h) front q rest split
      simpa using prevs h rest.reverse q front.reverse whole
    simpa [tailqForeachReverse, lasts] using visits

end

theorem tailq_runs_as_lists (nodes : P → Prop) (cells : NullCells H P) (ops : List (QueueOp H P)) (final : H → List P)
    (fresh : Fresh tailqLayout nodes cells) (run : AllowedRun tailqKind nodes (fun _ => []) ops final) :
    ∃ enough after, (∀ rounds, enough ≤ rounds → runMacros tailqKind rounds ops cells = some after) ∧
      TailqReads after final := by
  obtain ⟨enough, after, ran, holds⟩ :=
    runs_hold tailqKind tailq_implements nodes ops _ final cells run (holds_fresh tailqLayout nodes cells fresh)
  exact ⟨enough, after, ran, tailq_reads nodes after final holds⟩

theorem tailq_runs_as_lists_two_heads :
    let ops : List (QueueOp Bool Nat) :=
      [.insertTail true 1, .insertHead true 2, .insertAfter true 2 3, .concat false true,
        .remove false 3, .swap false true]
    let final := ops.foldl (fun lists op => op.apply lists) fun _ => []
    ∃ enough after, (∀ rounds, enough ≤ rounds → runMacros tailqKind rounds ops twoHeads = some after) ∧
      TailqReads after final :=
  tailq_runs_as_lists (fun _ => True) twoHeads _ _ (two_heads_fresh _)
    (.cons _ _ _ _ rfl (by decide) (.cons _ _ _ _ rfl (by decide) (.cons _ _ _ _ rfl (by decide)
      (.cons _ _ _ _ rfl (by decide) (.cons _ _ _ _ rfl (by decide) (.cons _ _ _ _ rfl (by decide) (.nil _)))))))

end AesdChar

import AesdChar.NullQueues

set_option autoImplicit false

namespace AesdChar

open LinkedRing

variable {H P : Type} [DecidableEq H] [DecidableEq P]

def listInit (cells : NullCells H P) (head : H) : Option (NullCells H P) := cells.storeNext (.head head) none

def listInsertHead (cells : NullCells H P) (head : H) (elm : P) : Option (NullCells H P) := do
  let first ← cells.next (.head head)
  let cells ← cells.storeNext (.elm elm) first
  let cells ←
    if first ≠ none then do
      let first ← cells.next (.head head)
      storePrevOf cells first (.elm elm)
    else some cells
  let cells ← cells.storeNext (.head head) (some elm)
  cells.storePrev (.elm elm) (.head head)

def listInsertBefore (cells : NullCells H P) (listelm elm : P) : Option (NullCells H P) := do
  let prev ← cells.prev (.elm listelm)
  let cells ← cells.storePrev (.elm elm) prev
  let cells ← cells.storeNext (.elm elm) (some listelm)
  let prev ← cells.prev (.elm listelm)
  let cells ← cells.storeNext prev (some elm)
  cells.storePrev (.elm listelm) (.elm elm)

def listInsertAfter (cells : NullCells H P) (listelm elm : P) : Option (NullCells H P) := do
  let next ← cells.next (.elm listelm)
  let cells ← cells.storeNext (.elm elm) next
  let cells ←
    if next ≠ none then do
      let next ← cells.next (.elm listelm)
      storePrevOf cells next (.elm elm)
    else some cells
  let cells ← cells.storeNext (.elm listelm) (some elm)
  cells.storePrev (.elm elm) (.elm listelm)

def listRemove (cells : NullCells H P) (elm : P) : Option (NullCells H P) := do
  let next ← cells.next (.elm elm)
  let cells ←
    if next ≠ none then do
      let prev ← cells.prev (.elm elm)
      storePrevOf cells next prev
    else some cells
  let prev ← cells.prev (.elm elm)
  let next ← cells.next (.elm elm)
  cells.storeNext prev next

def listReplace (cells : NullCells H P) (elm elm2 : P) : Option (NullCells H P) := do
  let next ← cells.next (.elm elm)
  let cells ← cells.storeNext (.elm elm2) next
  let cells ←
    if next ≠ none then do
      let next ← cells.next (.elm elm2)
      storePrevOf cells next (.elm elm2)
    else some cells
  let prev ← cells.prev (.elm elm)
  let cells ← cells.storePrev (.elm elm2) prev
  let prev ← cells.prev (.elm elm2)
  cells.storeNext prev (some elm2)

-- How LIST_SWAP leaves one of its heads.
def listSettle (cells : NullCells H P) (head : H) : Option (NullCells H P) := do
  let swapTmp ← cells.next (.head head)
  if swapTmp ≠ none then storePrevOf cells swapTmp (.head head) else some cells

def listSwap (cells : NullCells H P) (head1 head2 : H) : Option (NullCells H P) := do
  let swapTmp ← cells.next (.head head1)
  let first ← cells.next (.head head2)
  let cells ← cells.storeNext (.head head1) first
  let cells ← cells.storeNext (.head head2) swapTmp
  let cells ← listSettle cells head1
  listSettle cells head2

-- A head has its first field only.
def listLayout : QueueLayout H P (Option P) where
  kept
    | .head _ => false
    | .elm _ => true
  target := nullTarget

def listKind : QueueKind H P (Option P) where
  layout := listLayout
  code
    | .init head => some fun _ cells => listInit cells head
    | .insertHead head elm => some fun _ cells => listInsertHead cells head elm
    | .insertBefore _ listelm elm => some fun _ cells => listInsertBefore cells listelm elm
    | .insertAfter _ listelm elm => some fun _ cells => listInsertAfter cells listelm elm
    | .remove _ elm => some fun _ cells => listRemove cells elm
    | .replace _ elm elm2 => some fun _ cells => listReplace cells elm elm2
    | .swap head1 head2 => some fun _ cells => listSwap cells head1 head2
    | .insertTail _ _ => none
    | .concat _ _ => none
    | .removeHead _ => none
    | .removeHeadUntil _ _ => none
    | .removeAfter _ _ => none

@[simp] theorem list_set_back_head (cells : NullCells H P) (h : H) (x : Place H P) :
    cells.setBack listLayout (.head h) x = cells := rfl

@[simp] theorem list_set_back_elm (cells : NullCells H P) (p : P) (x : Place H P) :
    cells.setBack listLayout (.elm p) x = cells.setPrev (.elm p) x := rfl

theorem list_settle (cells : NullCells H P) (h : H) (first : Option P) (read : cells.next (.head h) = some first)
    (has : ∀ p, first = some p → (cells.prev (.elm p)).isSome) :
    listSettle cells h = some (cells.setBack listLayout (nullTarget h first) (.head h)) := by
  cases first with
  | none => simp [listSettle, read, nullTarget]
  | some p => simp [listSettle, storePrevOf, read, nullTarget, has p rfl]

section

variable (nodes : P → Prop) (cells : NullCells H P) (lists : H → List P) (holds : Holds listLayout nodes cells lists)

include holds

omit [DecidableEq H] [DecidableEq P] in
theorem list_joined (h : H) (front rest : List P) (a b : Place H P) (split : lists h = front ++ rest)
    (before : PlaceBefore h front a) (behind : PlaceBehind h rest b) :
    ∃ next, cells.next a = some next ∧ nullTarget h next = b ∧ ∀ p, b = .elm p → cells.prev (.elm p) = some a := by
  have joined := holds_joined listLayout nodes cells lists holds h front rest a b split before behind
  obtain ⟨next, read, leads⟩ := Option.map_eq_some_iff.mp joined.1
  refine ⟨next, read, leads, ?_⟩
  rintro p rfl
  exact joined.2 rfl

theorem list_init (h : H) :
    ∃ after, listInit cells h = some after ∧ Holds listLayout nodes after (Function.update lists h []) := by
  have read := null_next listLayout rfl nodes cells lists holds h [] (lists h) (.head h) rfl rfl
  refine ⟨cells.unlink listLayout (.head h) (.head h) none, ?_, ?_⟩
  · simp [listInit, Cells.unlink, read]
  · simpa using holds_unlink listLayout nodes cells lists holds h [] (lists h) [] (.head h) (.head h)
      (by simp) rfl rfl none rfl

theorem list_insert_head (h : H) (p : P) (spare : Spare nodes lists p) :
    ∃ after, listInsertHead cells h p = some after ∧
      Holds listLayout nodes after (Function.update lists h (p :: lists h)) := by
  obtain ⟨b, behind⟩ := place_after h (lists h)
  obtain ⟨first, read, leads, back⟩ := list_joined nodes cells lists holds h [] (lists h) (.head h) b rfl rfl behind
  have apart := after_apart h (lists h) b p (spare.2 h) behind
  have hasNext := holds.next p spare.1
  have hasPrev := holds.prev p spare.1 rfl
  refine ⟨cells.linkIn listLayout (.head h) b p (some p) first, ?_, ?_⟩
  · cases first with
    | none =>
        obtain rfl : Place.head h = b := leads
        simp [listInsertHead, read, hasNext, hasPrev, Cells.linkIn]
    | some q =>
        obtain rfl : Place.elm q = b := leads
        simp [listInsertHead, storePrevOf, read, back q rfl, hasNext, hasPrev, Cells.linkIn,
          set_prev_comm _ _ _ _ _ apart.symm, Ne.symm apart]
  · exact holds_link_in listLayout nodes cells lists holds h [] [] (lists h) (.head h) b rfl rfl behind p
      (some p) first spare rfl
      leads

theorem list_insert_before (h : H) (q p : P) (front rest : List P) (split : lists h = front ++ q :: rest)
    (spare : Spare nodes lists p) :
    ∃ after, listInsertBefore cells q p = some after ∧
      Holds listLayout nodes after (Function.update lists h (front ++ p :: q :: rest)) := by
  obtain ⟨a, before⟩ := place_before h front
  obtain ⟨into, read, leads, backs⟩ :=
    list_joined nodes cells lists holds h front (q :: rest) a (.elm q) split before rfl
  have back := backs q rfl
  have absent := spare.2 h
  rw [split] at absent
  have apart := before_apart h front a p (fun member => absent (by simp [member])) before
  have different : q ≠ p := fun same => absent (by simp [same])
  have hasNext := holds.next p spare.1
  have hasPrev := holds.prev p spare.1 rfl
  refine ⟨cells.linkIn listLayout a (.elm q) p (some p) (some q), ?_, ?_⟩
  · simp [listInsertBefore, read, back, hasNext, hasPrev, apart, different, Cells.linkIn]
  · exact holds_link_in listLayout nodes cells lists holds h front [] (q :: rest) a (.elm q) (by simp [split])
      before rfl p (some p)
      (some q) spare rfl rfl

theorem list_insert_after (h : H) (q p : P) (front rest : List P) (split : lists h = front ++ q :: rest)
    (spare : Spare nodes lists p) :
    ∃ after, listInsertAfter cells q p = some after ∧
      Holds listLayout nodes after (Function.update lists h (front ++ q :: p :: rest)) := by
  have whole : lists h = (front ++ [q]) ++ rest := by simp [split]
  have before := before_snoc h front q
  obtain ⟨b, behind⟩ := place_after h rest
  obtain ⟨next, read, leads, back⟩ :=
    list_joined nodes cells lists holds h (front ++ [q]) rest (.elm q) b whole before behind
  have absent := spare.2 h
  rw [split] at absent
  have apart := after_apart h rest b p (fun member => absent (by simp [member])) behind
  have different : q ≠ p := fun same => absent (by simp [same])
  have hasNext := holds.next p spare.1
  have hasPrev := holds.prev p spare.1 rfl
  refine ⟨cells.linkIn listLayout (.elm q) b p (some p) next, ?_, ?_⟩
  · cases next with
    | none =>
        obtain rfl : Place.head h = b := leads
        simp [listInsertAfter, read, hasNext, hasPrev, different, Cells.linkIn]
    | some r =>
        obtain rfl : Place.elm r = b := leads
        simp [listInsertAfter, storePrevOf, read, back r rfl, hasNext, hasPrev, different, Cells.linkIn,
          set_prev_comm _ _ _ _ _ apart, Ne.symm apart]
  · have linked := holds_link_in listLayout nodes cells lists holds h (front ++ [q]) [] rest (.elm q) b
      (by simp [split]) before behind p (some p) next spare rfl leads
    simpa using linked

omit [DecidableEq H] [DecidableEq P] in
theorem list_around (h : H) (q : P) (front rest : List P) (split : lists h = front ++ q :: rest) :
    ∃ a b next, PlaceBefore h front a ∧ PlaceBehind h rest b ∧ cells.next a = some (some q) ∧
      cells.prev (.elm q) = some a ∧
      cells.next (.elm q) = some next ∧ nullTarget h next = b ∧
        (∀ p, b = .elm p → cells.prev (.elm p) = some (.elm q)) ∧
      a ≠ .elm q ∧ b ≠ .elm q := by
  have once := holds.once h
  rw [split] at once
  obtain ⟨_, restOnce, apart⟩ := List.nodup_append.mp once
  obtain ⟨a, before⟩ := place_before h front
  obtain ⟨b, behind⟩ := place_after h rest
  obtain ⟨into, readInto, leads, backInto⟩ :=
    list_joined nodes cells lists holds h front (q :: rest) a (.elm q) split before rfl
  obtain ⟨next, read, leadsOn, back⟩ :=
    list_joined nodes cells lists holds h (front ++ [q]) rest (.elm q) b (by simp [split])
    (before_snoc h front q) behind
  rw [(null_target_elm h into q).mp leads] at readInto
  exact ⟨a, b, next, before, behind, readInto, backInto q rfl, read, leadsOn, back,
    before_apart h front a q (fun inFront => apart q inFront q (by simp) rfl) before,
    after_apart h rest b q (List.nodup_cons.mp restOnce).1 behind⟩

theorem list_remove (h : H) (q : P) (front rest : List P) (split : lists h = front ++ q :: rest) :
    ∃ after, listRemove cells q = some after ∧
      Holds listLayout nodes after (Function.update lists h (front ++ rest)) := by
  obtain ⟨a, b, next, before, behind, readInto, backInto, read, leads, back, aApart, bApart⟩ :=
    list_around nodes cells lists holds h q front rest split
  refine ⟨cells.unlink listLayout a b next, ?_, ?_⟩
  · cases next with
    | none =>
        obtain rfl : Place.head h = b := leads
        simp [listRemove, read, readInto, backInto, Cells.unlink]
    | some r =>
        obtain rfl : Place.elm r = b := leads
        simp [listRemove, storePrevOf, read, back r rfl, readInto, backInto, bApart.symm, Cells.unlink]
  · exact holds_unlink listLayout nodes cells lists holds h front [q] rest a b (by simp [split])
      before behind next leads

theorem list_replace (h : H) (q p : P) (front rest : List P) (split : lists h = front ++ q :: rest)
    (spare : Spare nodes lists p) :
    ∃ after, listReplace cells q p = some after ∧
      Holds listLayout nodes after (Function.update lists h (front ++ p :: rest)) := by
  obtain ⟨a, b, next, before, behind, readInto, backInto, read, leads, back, aApart, bApart⟩ :=
    list_around nodes cells lists holds h q front rest split
  have absent := spare.2 h
  rw [split] at absent
  have notA := before_apart h front a p (fun member => absent (by simp [member])) before
  have notB := after_apart h rest b p (fun member => absent (by simp [member])) behind
  have different : q ≠ p := fun same => absent (by simp [same])
  have hasNext := holds.next p spare.1
  have hasPrev := holds.prev p spare.1 rfl
  refine ⟨cells.linkIn listLayout a b p (some p) next, ?_, ?_⟩
  · cases next with
    | none =>
        obtain rfl : Place.head h = b := leads
        simp [listReplace, read, readInto, backInto, hasNext, hasPrev, notA, Cells.linkIn]
    | some r =>
        obtain rfl : Place.elm r = b := leads
        simp [listReplace, storePrevOf, read, back r rfl, readInto, backInto, hasNext, hasPrev,
          bApart.symm, notA, notB.symm,
          Cells.linkIn, set_prev_comm _ _ _ _ _ notB]
  · exact holds_link_in listLayout nodes cells lists holds h front [q] rest a b (by simp [split]) before behind p
      (some p) next spare rfl leads

theorem list_swap (h k : H) (other : h ≠ k) :
    ∃ after, listSwap cells h k = some after ∧
      Holds listLayout nodes after (Function.update (Function.update lists h (lists k)) k (lists h)) := by
  obtain ⟨b1, behind1⟩ := place_after h (lists h)
  obtain ⟨b2, behind2⟩ := place_after k (lists k)
  obtain ⟨a1, before1⟩ := place_before h (lists h)
  obtain ⟨a2, before2⟩ := place_before k (lists k)
  obtain ⟨first1, read1, leads1, back1⟩ :=
    list_joined nodes cells lists holds h [] (lists h) (.head h) b1 rfl rfl behind1
  obtain ⟨first2, read2, leads2, back2⟩ :=
    list_joined nodes cells lists holds k [] (lists k) (.head k) b2 rfl rfl behind2
  refine ⟨cells.exchange listLayout h k first1 first2 a1 a2, ?_,
    holds_exchange listLayout (null_ends_alike _) cells nodes lists holds h k other first1 first2 a1 a2
      read1 read2 before1 before2⟩
  have has1 : ∀ p, first1 = some p → (cells.prev (.elm p)).isSome := by
    rintro p rfl
    rw [back1 p leads1.symm]
    rfl
  have has2 : ∀ p, first2 = some p → (cells.prev (.elm p)).isSome := by
    rintro p rfl
    rw [back2 p leads2.symm]
    rfl
  -- The heads before the two settle.
  let swapped := (cells.setNext (.head h) first2).setNext (.head k) first1
  have keeps : Keeps cells swapped := keeps_set_next _ _ _ _ (keeps_set_next _ _ _ _ (keeps_all cells))
  have reached : listSwap cells h k = (listSettle swapped h).bind fun settled => listSettle settled k := by
    simp [listSwap, swapped, read1, read2, Ne.symm other]
  rw [reached, list_settle swapped h first2 (by simp [swapped, other]) fun p isFirst => keeps.prev _ (has2 p isFirst),
    Option.bind_some,
    list_settle _ k first1 (by simp [swapped]) fun p isFirst =>
      (keeps_set_back _ _ _ _ _ keeps).prev _ (has1 p isFirst)]
  rfl

end

theorem list_implements : Implements (listKind : QueueKind H P (Option P)) := by
  apply implements_splits
  intro nodes cells lists next op run has splits holds
  cases splits with
  | init h =>
      cases has
      exact any_rounds _ nodes _ _ _ (list_init nodes cells lists holds h)
  | insertHead h p spare =>
      cases has
      exact any_rounds _ nodes _ _ _ (list_insert_head nodes cells lists holds h p spare)
  | insertBefore h q p front rest split spare =>
      cases has
      exact any_rounds _ nodes _ _ _ (list_insert_before nodes cells lists holds h q p front rest split spare)
  | insertAfter h q p front rest split spare =>
      cases has
      exact any_rounds _ nodes _ _ _ (list_insert_after nodes cells lists holds h q p front rest split spare)
  | remove h q front rest split =>
      cases has
      exact any_rounds _ nodes _ _ _ (list_remove nodes cells lists holds h q front rest split)
  | replace h q p front rest split spare =>
      cases has
      exact any_rounds _ nodes _ _ _ (list_replace nodes cells lists holds h q p front rest split spare)
  | swap h k other =>
      cases has
      exact any_rounds _ nodes _ _ _ (list_swap nodes cells lists holds h k other)
  | insertTail h p spare => cases has
  | concat h k other => cases has
  | removeHead h p rest split => cases has
  | removeHeadUntil h q front rest split => cases has
  | removeAfter h q p front rest split => cases has

def listFirst (cells : NullCells H P) (head : H) : Option (Option P) := cells.next (.head head)

def listNext (cells : NullCells H P) (elm : P) : Option (Option P) := cells.next (.elm elm)

-- __containerof comes from the system's headers, where there is one: the
-- element whose le_next is at the given place.
def listPrev (containerof : Place H P → Option P) (cells : NullCells H P) (elm : P) (head : H) : Option (Option P) := do
  let prev ← cells.prev (.elm elm)
  if prev = .head head then some none
  else (containerof prev).map some

def listEmpty (cells : NullCells H P) (head : H) : Option Bool := (cells.next (.head head)).map Option.isNone

def listForeach (rounds : Nat) (cells : NullCells H P) (head : H) : Option (List P) := do
  let first ← cells.next (.head head)
  foreachFrom (fun var => cells.next (.elm var)) rounds first

structure ListReads (containerof : Place H P → Option P) (cells : NullCells H P) (lists : H → List P) : Prop where
  first : ∀ h, listFirst cells h = some (lists h).head?
  next : ∀ h front q rest, lists h = front ++ q :: rest → listNext cells q = some rest.head?
  prev : ∀ h front q rest, lists h = front ++ q :: rest → listPrev containerof cells q h = some front.getLast?
  empty : ∀ h, listEmpty cells h = some (lists h).isEmpty
  foreach : ∀ h rounds, (lists h).length ≤ rounds → listForeach rounds cells h = some (lists h)

theorem list_reads (containerof : Place H P → Option P) (contains : ∀ p, containerof (.elm p) = some p)
    (nodes : P → Prop) (cells : NullCells H P) (lists : H → List P) (holds : Holds listLayout nodes cells lists) :
    ListReads containerof cells lists := by
  have firsts : ∀ h, cells.next (.head h) = some (lists h).head? := fun h =>
    null_next listLayout rfl nodes cells lists holds h [] (lists h) (.head h) rfl rfl
  refine ⟨firsts, fun h front q rest split => ?_, fun h front q rest split => ?_, fun h => ?_,
    fun h rounds enough => ?_⟩
  · exact null_next listLayout rfl nodes cells lists holds h (front ++ [q]) rest (.elm q) (by simp [split])
      (before_snoc h front q)
  · obtain ⟨a, before⟩ := place_before h front
    obtain ⟨_, _, _, back⟩ := list_joined nodes cells lists holds h front (q :: rest) a (.elm q) split before rfl
    rcases List.eq_nil_or_concat' front with rfl | ⟨earlier, z, rfl⟩
    · obtain rfl : Place.head h = a := Option.some.inj before
      simp [listPrev, back q rfl]
    · obtain rfl : Place.elm z = a := Option.some.inj ((before_snoc h earlier z).symm.trans before)
      simp [listPrev, contains, back q rfl]
  · rw [listEmpty, firsts]
    cases lists h <;> rfl
  · rw [listForeach, firsts]
    exact null_foreach listLayout rfl nodes cells lists holds h rounds enough

theorem list_runs_as_lists (containerof : Place H P → Option P) (contains : ∀ p, containerof (.elm p) = some p)
    (nodes : P → Prop) (cells : NullCells H P) (ops : List (QueueOp H P)) (final : H → List P)
    (fresh : Fresh listLayout nodes cells) (run : AllowedRun listKind nodes (fun _ => []) ops final) :
    ∃ enough after, (∀ rounds, enough ≤ rounds → runMacros listKind rounds ops cells = some after) ∧
      ListReads containerof after final := by
  obtain ⟨enough, after, ran, holds⟩ :=
    runs_hold listKind list_implements nodes ops _ final cells run (holds_fresh listLayout nodes cells fresh)
  exact ⟨enough, after, ran, list_reads containerof contains nodes after final holds⟩

theorem list_runs_as_lists_two_heads :
    let ops : List (QueueOp Bool Nat) :=
      [.insertHead true 1, .insertBefore true 1 2, .insertAfter true 2 3, .remove true 3,
        .replace true 1 4, .swap false true]
    let final := ops.foldl (fun lists op => op.apply lists) fun _ => []
    ∃ enough after, (∀ rounds, enough ≤ rounds → runMacros listKind rounds ops twoHeads = some after) ∧
      ListReads containerOf after final :=
  list_runs_as_lists containerOf (fun _ => rfl) (fun _ => True) twoHeads _ _ (two_heads_fresh _)
    (.cons _ _ _ _ rfl (by decide) (.cons _ _ _ _ rfl (by decide) (.cons _ _ _ _ rfl (by decide)
      (.cons _ _ _ _ rfl (by decide) (.cons _ _ _ _ rfl (by decide) (.cons _ _ _ _ rfl (by decide) (.nil _)))))))

end AesdChar

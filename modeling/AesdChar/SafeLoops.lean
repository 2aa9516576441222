import AesdChar.CircleQueue
import AesdChar.ListQueue
import AesdChar.SlistQueue
import AesdChar.StailqQueue
import AesdChar.TailQueue

set_option autoImplicit false

namespace AesdChar

variable {H P N : Type} [DecidableEq H] [DecidableEq P]

-- The element is gone, with its fields.
def Cells.free (cells : Cells H P N) (elm : P) : Cells H P N where
  next := Function.update cells.next (.elm elm) none
  prev := Function.update cells.prev (.elm elm) none

-- FOREACH_SAFE, with the elements it visits: the next one is read before the
-- body runs.
def foreachSafe (step : Cells H P N → P → Option (Option P)) (body : Cells H P N → P → Option (Cells H P N)) :
    Nat → Option P → Cells H P N → Option (List P × Cells H P N)
  | _, none, cells => some ([], cells)
  | 0, some _, _ => none
  | rounds + 1, some var, cells => do
      let tvar ← step cells var
      let cells ← body cells var
      let (later, cells) ← foreachSafe step body rounds tvar cells
      some (var :: later, cells)

def slistForeachSafe (body : NullCells H P → P → Option (NullCells H P)) (rounds : Nat)
    (cells : NullCells H P) (head : H) :
    Option (List P × NullCells H P) := do
  let var ← slistFirst cells head
  foreachSafe slistNext body rounds var cells

def listForeachSafe (body : NullCells H P → P → Option (NullCells H P)) (rounds : Nat)
    (cells : NullCells H P) (head : H) :
    Option (List P × NullCells H P) := do
  let var ← listFirst cells head
  foreachSafe listNext body rounds var cells

def stailqForeachSafe (body : NullCells H P → P → Option (NullCells H P)) (rounds : Nat)
    (cells : NullCells H P) (head : H) :
    Option (List P × NullCells H P) := do
  let var ← stailqFirst cells head
  foreachSafe stailqNext body rounds var cells

def tailqForeachSafe (body : NullCells H P → P → Option (NullCells H P)) (rounds : Nat)
    (cells : NullCells H P) (head : H) :
    Option (List P × NullCells H P) := do
  let var ← tailqFirst cells head
  foreachSafe tailqNext body rounds var cells

def tailqForeachReverseSafe (body : NullCells H P → P → Option (NullCells H P)) (rounds : Nat)
    (cells : NullCells H P) (head : H) :
    Option (List P × NullCells H P) := do
  let var ← tailqLast cells head
  foreachSafe tailqPrev body rounds var cells

def circleqForeachSafe (body : CircleCells H P → P → Option (CircleCells H P)) (rounds : Nat)
    (cells : CircleCells H P) (head : H) :
    Option (List P × CircleCells H P) := do
  let first ← circleqFirst cells head
  let var ← circleqVar head first
  foreachSafe (fun cells var => (circleqNext cells var).bind (circleqVar head)) body rounds var cells

-- A body that removes some of the elements and frees them.
def dropping (kind : QueueKind H P N) (rounds : Nat) (drop : P → Bool) (head : H) (cells : Cells H P N) (var : P) :
    Option (Cells H P N) :=
  if drop var then do
    let remove ← kind.code (.remove head var)
    let cells ← remove rounds cells
    some (cells.free var)
  else some cells

theorem free_next (cells : Cells H P N) (x : Place H P) (elm : P) (other : x ≠ .elm elm) :
    (cells.free elm).next x = cells.next x :=
  Function.update_of_ne other _ _

theorem free_prev (cells : Cells H P N) (x : Place H P) (elm : P) (other : x ≠ .elm elm) :
    (cells.free elm).prev x = cells.prev x :=
  Function.update_of_ne other _ _

section

variable (layout : QueueLayout H P N) (nodes : P → Prop) (cells : Cells H P N) (lists : H → List P)
  (holds : Holds layout nodes cells lists)

include holds

omit [DecidableEq H] [DecidableEq P] in
theorem holds_nodes (others : P → Prop) (same : ∀ p, nodes p ↔ others p) : Holds layout others cells lists := by
  have equal : nodes = others := funext fun p => propext (same p)
  rw [← equal]
  exact holds

theorem holds_free (q : P) (absent : ∀ h, q ∉ lists h) :
    Holds layout (fun p => nodes p ∧ p ≠ q) (cells.free q) lists := by
  refine ⟨fun h => ?_, holds.once, holds.apart,
    fun h p member => ⟨holds.inNodes h p member, fun same => absent h (same ▸ member)⟩,
    fun p isNode => ?_, fun p isNode isKept => ?_⟩
  · have others := elm_absent h (lists h) q (absent h)
    apply LinkedRing.ring_change _ _ (holds.ring h)
    intro x inX y inY joined
    exact joined_same layout cells _ h x y (free_next cells x q (others x inX))
      (free_prev cells y q (others y inY)) joined
  · have different : Place.elm p ≠ (Place.elm q : Place H P) := fun same => isNode.2 (by cases same; rfl)
    rw [free_next cells _ q different]
    exact holds.next p isNode.1
  · have different : Place.elm p ≠ (Place.elm q : Place H P) := fun same => isNode.2 (by cases same; rfl)
    rw [free_prev cells _ q different]
    exact holds.prev p isNode.1 isKept

end

-- The order a loop goes in: along the queue, or back.
structure Direction (turn : List P → List P) : Prop where
  back : ∀ list, turn (turn list) = list
  cut : ∀ list front q rest, turn list = front ++ q :: rest →
    ∃ before after, list = before ++ q :: after ∧ turn (before ++ after) = front ++ rest
  perm : ∀ list, (turn list).Perm list
  filter : ∀ list keep, turn ((turn list).filter keep) = list.filter keep

omit [DecidableEq P] in
theorem along : Direction (id : List P → List P) := by
  exact ⟨fun _ => rfl, fun list front q rest split => ⟨front, rest, split, rfl⟩, fun _ => .refl _, fun _ _ => rfl⟩

omit [DecidableEq P] in
theorem backwards : Direction (List.reverse : List P → List P) := by
  refine ⟨List.reverse_reverse, fun list front q rest split => ⟨rest.reverse, front.reverse, ?_, ?_⟩, List.reverse_perm,
    fun list keep => ?_⟩
  · exact reverse_split list front q rest split
  · simp
  · rw [List.filter_reverse, List.reverse_reverse]

section

variable (kind : QueueKind H P N) (sound : Implements kind) (has : ∀ h p, (kind.code (.remove h p)).isSome)
    (turn : List P → List P)
  (direction : Direction turn) (h : H) (step : Cells H P N → P → Option (Option P))
  (steps : ∀ nodes cells lists, Holds kind.layout nodes cells lists →
    ∀ front q rest, turn (lists h) = front ++ q :: rest → step cells q = some rest.head?) (drop : P → Bool)

include sound has direction steps

omit steps in
-- The body at the first of the elements that are left.
theorem dropping_holds (nodes : P → Prop) (cells : Cells H P N) (lists : H → List P)
    (holds : Holds kind.layout nodes cells lists) (front rest : List P) (q : P)
    (split : turn (lists h) = front ++ q :: rest) (drops : drop q = true) :
    ∃ after, (turn (front ++ rest)).length ≤ (lists h).length ∧
      (∀ rounds, (lists h).length ≤ rounds → dropping kind rounds drop h cells q = some after) ∧
      Holds kind.layout (fun p => nodes p ∧ p ≠ q) after (Function.update lists h (turn (front ++ rest))) := by
  obtain ⟨earlier, later, cut, turned⟩ := direction.cut (lists h) front q rest split
  obtain ⟨remove, isCode⟩ := Option.isSome_iff_exists.mp (has h q)
  obtain ⟨after, ran, removed⟩ :=
    sound nodes cells lists (.remove h q) remove isCode (by simp [QueueOp.Allowed, cut]) holds
  have once := holds.once h
  rw [cut] at once
  obtain ⟨_, laterOnce, apart⟩ := List.nodup_append.mp once
  have notEarlier : q ∉ earlier := fun isIn => apart q isIn q (by simp) rfl
  have left : turn (front ++ rest) = earlier ++ later := by rw [← turned, direction.back]
  rw [apply_remove lists h q earlier later cut notEarlier, ← left] at removed
  refine ⟨after.free q, by simp [left, cut], fun rounds enough => ?_, holds_free _ _ _ _ removed q fun k => ?_⟩
  · simp only [dropping, if_pos drops, isCode, Option.bind_eq_bind, Option.bind_some, ran rounds enough]
  · by_cases same : k = h
    · subst same
      rw [Function.update_self, left, List.mem_append, not_or]
      exact ⟨notEarlier, (List.nodup_cons.mp laterOnce).1⟩
    · rw [Function.update_of_ne same]
      exact fun inOther => same (holds.apart k h q inOther (by simp [cut]))

-- By induction on the elements that are left; the others stay.
theorem foreach_safe_holds (todo front : List P) (nodes : P → Prop) (cells : Cells H P N) (lists : H → List P)
    (holds : Holds kind.layout nodes cells lists) (split : turn (lists h) = front ++ todo) :
    ∃ after, (∀ rounds most, todo.length ≤ rounds → (lists h).length ≤ most →
        foreachSafe step (dropping kind most drop h) rounds todo.head? cells = some (todo, after)) ∧
      Holds kind.layout (fun p => nodes p ∧ ¬(p ∈ todo ∧ drop p = true)) after
        (Function.update lists h (turn (front ++ todo.filter fun p => !drop p))) := by
  induction todo generalizing front nodes cells lists with
  | nil =>
      refine ⟨cells, fun rounds most _ _ => ?_, ?_⟩
      · cases rounds <;> rfl
      · have same : turn (front ++ ([] : List P).filter fun p => !drop p) = lists h := by
          rw [List.filter_nil, ← split, direction.back]
        rw [same, Function.update_eq_self]
        exact holds_nodes _ _ _ _ holds _ fun p => by simp
  | cons q todo ih =>
      have goesOn := steps nodes cells lists holds front q todo split
      cases drops : drop q with
      | true =>
          obtain ⟨next, shorter, ran, nextHolds⟩ :=
            dropping_holds kind sound has turn direction h drop nodes cells lists holds front todo q split drops
          obtain ⟨after, later, afterHolds⟩ :=
            ih front _ next _ nextHolds (by rw [Function.update_self, direction.back])
          refine ⟨after, fun rounds most enough enoughMost => ?_, ?_⟩
          · cases rounds with
            | zero => simp at enough
            | succ rounds =>
                have onward := later rounds most (by simpa using enough) (by rw [Function.update_self]; omega)
                simp only [List.head?_cons, foreachSafe, goesOn, ran most enoughMost, onward,
                  Option.bind_eq_bind, Option.bind_some]
          · rw [Function.update_idem] at afterHolds
            rw [List.filter_cons_of_neg (by simp [drops])]
            refine holds_nodes _ _ _ _ afterHolds _ fun p => ?_
            by_cases same : p = q
            · subst same
              simp [drops]
            · simp [same]
      | false =>
          obtain ⟨after, later, afterHolds⟩ := ih (front ++ [q]) nodes cells lists holds (by simp [split])
          refine ⟨after, fun rounds most enough enoughMost => ?_, ?_⟩
          · cases rounds with
            | zero => simp at enough
            | succ rounds =>
                have onward := later rounds most (by simpa using enough) enoughMost
                have stays : dropping kind most drop h cells q = some cells := if_neg (by simp [drops])
                simp only [List.head?_cons, foreachSafe, goesOn, stays, onward, Option.bind_eq_bind, Option.bind_some]
          · rw [List.filter_cons_of_pos (by simp [drops])]
            rw [List.append_assoc] at afterHolds
            refine holds_nodes _ _ _ _ afterHolds _ fun p => ?_
            by_cases same : p = q
            · subst same
              simp [drops]
            · simp [same]

end

-- The loop visits the whole queue in its order; the elements to drop leave the
-- queue and the memory, and no field of theirs is read after that.
def DropsSafely (kind : QueueKind H P N)
    (loop : (Cells H P N → P → Option (Cells H P N)) → Nat → Cells H P N → H → Option (List P × Cells H P N))
    (turn : List P → List P) : Prop :=
  ∀ (nodes : P → Prop) (cells : Cells H P N) (lists : H → List P) (h : H) (drop : P → Bool),
    Holds kind.layout nodes cells lists →
    ∃ after, (∀ rounds, (lists h).length ≤ rounds →
        loop (dropping kind rounds drop h) rounds cells h = some (turn (lists h), after)) ∧
      Holds kind.layout (fun p => nodes p ∧ ¬(p ∈ lists h ∧ drop p = true)) after
        (Function.update lists h ((lists h).filter fun p => !drop p))

theorem drops_safely (kind : QueueKind H P N) (sound : Implements kind) (has : ∀ h p, (kind.code (.remove h p)).isSome)
    (turn : List P → List P) (direction : Direction turn)
    (loop : (Cells H P N → P → Option (Cells H P N)) → Nat → Cells H P N → H → Option (List P × Cells H P N))
    (step : H → Cells H P N → P → Option (Option P))
    (begins : ∀ nodes cells lists h body rounds, Holds kind.layout nodes cells lists →
      loop body rounds cells h = foreachSafe (step h) body rounds (turn (lists h)).head? cells)
    (steps : ∀ nodes cells lists h, Holds kind.layout nodes cells lists →
      ∀ front q rest, turn (lists h) = front ++ q :: rest → step h cells q = some rest.head?) :
    DropsSafely kind loop turn := by
  intro nodes cells lists h drop holds
  obtain ⟨after, ran, afterHolds⟩ := foreach_safe_holds kind sound has turn direction h (step h)
    (fun nodes cells lists holds => steps nodes cells lists h holds) drop (turn (lists h)) [] nodes
    cells lists holds rfl
  have perm := direction.perm (lists h)
  refine ⟨after, fun rounds enough => ?_, ?_⟩
  · rw [begins nodes cells lists h _ rounds holds]
    exact ran rounds rounds (by rw [perm.length_eq]; exact enough) enough
  · rw [List.nil_append, direction.filter] at afterHolds
    exact holds_nodes _ _ _ _ afterHolds _ fun p => by rw [perm.mem_iff]

theorem safe_loops_drop :
    DropsSafely (slistKind : QueueKind H P (Option P)) slistForeachSafe id ∧
      DropsSafely (listKind : QueueKind H P (Option P)) listForeachSafe id ∧
      DropsSafely (stailqKind : QueueKind H P (Option P)) stailqForeachSafe id ∧
      DropsSafely (tailqKind : QueueKind H P (Option P)) tailqForeachSafe id ∧
      DropsSafely (tailqKind : QueueKind H P (Option P)) tailqForeachReverseSafe List.reverse ∧
      DropsSafely (circleqKind : QueueKind H P (Place H P)) circleqForeachSafe id := by
  refine ⟨?_, ?_, ?_, ?_, ?_, ?_⟩
  · apply drops_safely slistKind slist_implements (fun _ _ => rfl) id along slistForeachSafe fun _ => slistNext
    · intro nodes cells lists h body rounds holds
      rw [slistForeachSafe, (slist_reads nodes cells lists holds).first]
      rfl
    · exact fun nodes cells lists h holds => (slist_reads nodes cells lists holds).next h
  · apply drops_safely listKind list_implements (fun _ _ => rfl) id along listForeachSafe fun _ => listNext
    · intro nodes cells lists h body rounds holds
      rw [listForeachSafe, (list_reads containerOf (fun _ => rfl) nodes cells lists holds).first]
      rfl
    · exact fun nodes cells lists h holds => (list_reads containerOf (fun _ => rfl) nodes cells lists holds).next h
  · apply drops_safely stailqKind stailq_implements (fun _ _ => rfl) id along stailqForeachSafe fun _ => stailqNext
    · intro nodes cells lists h body rounds holds
      rw [stailqForeachSafe, (stailq_reads nodes cells lists holds).first]
      rfl
    · exact fun nodes cells lists h holds => (stailq_reads nodes cells lists holds).next h
  · apply drops_safely tailqKind tailq_implements (fun _ _ => rfl) id along tailqForeachSafe fun _ => tailqNext
    · intro nodes cells lists h body rounds holds
      rw [tailqForeachSafe, (tailq_reads nodes cells lists holds).first]
      rfl
    · exact fun nodes cells lists h holds => (tailq_reads nodes cells lists holds).next h
  · apply drops_safely tailqKind tailq_implements (fun _ _ => rfl) List.reverse backwards tailqForeachReverseSafe
      fun _ => tailqPrev
    · intro nodes cells lists h body rounds holds
      rw [tailqForeachReverseSafe, (tailq_reads nodes cells lists holds).last, List.head?_reverse]
      rfl
    · intro nodes cells lists h holds front q rest split
      have whole := reverse_split (lists h) front q rest split
      rw [(tailq_reads nodes cells lists holds).prev h rest.reverse q front.reverse whole, List.getLast?_reverse]
  · apply drops_safely circleqKind circleq_implements (fun _ _ => rfl) id along circleqForeachSafe fun head cells var =>
      (circleqNext cells var).bind (circleqVar head)
    · intro nodes cells lists h body rounds holds
      rw [circleqForeachSafe, (circleq_reads nodes cells lists holds).first]
      simp only [Option.bind_eq_bind, Option.bind_some, circleq_var, id]
    · intro nodes cells lists h holds front q rest split
      rw [(circleq_reads nodes cells lists holds).next h front q rest split, Option.bind_some, circleq_var]

theorem safe_loops_drop_middle :
    ∃ (cells after : NullCells Bool Nat), slistForeach 3 cells true = some [3, 2, 1] ∧
      (∀ rounds, 3 ≤ rounds →
        slistForeachSafe (dropping slistKind rounds (fun p => p == 2) true) rounds cells true =
          some ([3, 2, 1], after)) ∧
      slistForeach 2 after true = some [3, 1] := by
  have run : AllowedRun slistKind (fun _ => True) (fun _ => [])
      [.insertHead true 1, .insertHead true 2, .insertHead true (3 : Nat)] _ :=
    .cons _ _ _ _ rfl (by decide) (.cons _ _ _ _ rfl (by decide) (.cons _ _ _ _ rfl (by decide) (.nil _)))
  obtain ⟨enough, cells, _, holds⟩ :=
    runs_hold slistKind slist_implements _ _ _ _ twoHeads run (holds_fresh slistLayout _ _ (two_heads_fresh _))
  obtain ⟨after, looped, left⟩ := safe_loops_drop.1 _ cells _ true (fun p => p == 2) holds
  exact ⟨cells, after, (slist_reads _ cells _ holds).foreach true 3 (by decide), looped,
    (slist_reads _ after _ left).foreach true 2 (by decide)⟩

end AesdChar

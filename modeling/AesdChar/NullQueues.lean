import AesdChar.QueueOps

set_option autoImplicit false

namespace AesdChar

open LinkedRing

variable {H P : Type}

-- A next field is NULL at the end of a queue.
abbrev NullCells (H P : Type) := Cells H P (Option P)

def nullTarget (h : H) : Option P → Place H P
  | none => .head h
  | some p => .elm p

-- A field of what a pointer points to. none: the pointer is NULL.
def nextOf (cells : NullCells H P) (pointer : Option P) : Option (Option P) := pointer.bind fun p => cells.next (.elm p)

def storePrevOf [DecidableEq H] [DecidableEq P] (cells : NullCells H P) (pointer : Option P) (value : Place H P) :
    Option (NullCells H P) :=
  pointer.bind fun p => cells.storePrev (.elm p) value

theorem store_prev_target [DecidableEq H] [DecidableEq P] (cells : NullCells H P) (h : H) (pointer : Option P)
    (value : Place H P) (later : NullCells H P → Option (NullCells H P)) :
    (if pointer = none then (cells.storePrev (.head h) value).bind later else
      (storePrevOf cells pointer value).bind later) =
      (cells.storePrev (nullTarget h pointer) value).bind later := by
  cases pointer <;> rfl

theorem null_target_elm (h : H) (pointer : Option P) (p : P) : nullTarget h pointer = .elm p ↔ pointer = some p := by
  cases pointer <;> simp [nullTarget]

theorem null_target_head (h : H) (pointer : Option P) : nullTarget h pointer = .head h ↔ pointer = none := by
  cases pointer <;> simp [nullTarget]

theorem null_behind (h : H) (rest : List P) : PlaceBehind h rest (nullTarget h rest.head?) := by
  cases rest <;> rfl

theorem null_ends_alike (kept : Place H P → Bool) :
    (QueueLayout.mk kept nullTarget : QueueLayout H P (Option P)).EndsAlike := by
  constructor
  · intro h k value p leads
    exact (null_target_elm k value p).mpr ((null_target_elm h value p).mp leads)
  · intro h k value leads
    exact (null_target_head k value).mpr ((null_target_head h value).mp leads)

-- FOREACH: step goes on from an element. none: a step fails, or there are more
-- rounds.
def foreachFrom (step : P → Option (Option P)) : Nat → Option P → Option (List P)
  | _, none => some []
  | 0, some _ => none
  | rounds + 1, some p => do
      let next ← step p
      let later ← foreachFrom step rounds next
      some (p :: later)

theorem foreach_visits (step : P → Option (Option P)) (rounds : Nat) (list : List P) (enough : list.length ≤ rounds)
    (steps : ∀ front q rest, list = front ++ q :: rest → step q = some rest.head?) :
    foreachFrom step rounds list.head? = some list := by
  induction list generalizing rounds with
  | nil => cases rounds <;> rfl
  | cons p rest ih =>
      cases rounds with
      | zero => simp at enough
      | succ rounds =>
          have later := ih rounds (by simpa using enough) fun front q tail split =>
            steps (p :: front) q tail (by rw [split]; rfl)
          simp only [List.head?_cons, foreachFrom, steps [] p rest rfl, Option.bind_eq_bind, Option.bind_some, later]

theorem reverse_split (list front : List P) (q : P) (rest : List P) (split : list.reverse = front ++ q :: rest) :
    list = rest.reverse ++ q :: front.reverse := by
  rw [List.reverse_eq_iff.mp split]
  simp

-- The search of REMOVE: from an element to the one whose next field has elm.
def untilNext [DecidableEq P] (step : P → Option (Option P)) (elm : P) : Nat → Option P → Option P
  | _, none => none
  | rounds, some curelm =>
      match step curelm with
      | none => none
      | some next =>
          if next = some elm then some curelm
          else
            match rounds with
            | 0 => none
            | rounds + 1 => untilNext step elm rounds next

theorem until_next_finds [DecidableEq P] (step : P → Option (Option P)) (elm : P) (rounds : Nat) (front : List P)
    (z : P) (rest : List P) (enough : front.length ≤ rounds) (absent : elm ∉ front) (last : z ≠ elm)
    (steps : ∀ earlier q later, front ++ z :: elm :: rest = earlier ++ q :: later → step q = some later.head?) :
    untilNext step elm rounds (front ++ z :: elm :: rest).head? = some z := by
  induction front generalizing rounds with
  | nil =>
      have found := steps [] z (elm :: rest) rfl
      simp [untilNext, found]
  | cons p front ih =>
      cases rounds with
      | zero => simp at enough
      | succ rounds =>
          obtain ⟨_, absentLater⟩ := not_or.mp (List.mem_cons.not.mp absent)
          have later := ih rounds (by simpa using enough) absentLater fun earlier q tail split =>
            steps (p :: earlier) q tail (by rw [List.cons_append, split]; rfl)
          have goesOn := steps [] p (front ++ z :: elm :: rest) rfl
          have other : (front ++ z :: elm :: rest).head? ≠ some elm := by
            cases front with
            | nil => simpa using last
            | cons q front => simpa using Ne.symm (List.mem_cons.not.mp absentLater |> not_or.mp).1
          rw [List.cons_append, List.head?_cons, untilNext]
          simp only [goesOn, if_neg other]
          exact later

-- __containerof goes from the address of a next field to the element it is in.
-- none: the field is a head's.
def containerOf : Place H P → Option P
  | .head _ => none
  | .elm p => some p

section

variable (layout : QueueLayout H P (Option P)) (isNull : layout.target = nullTarget) (nodes : P → Prop)
    (cells : NullCells H P)
  (lists : H → List P) (holds : Holds layout nodes cells lists) (h : H)

include isNull holds

theorem null_next (front rest : List P) (a : Place H P) (split : lists h = front ++ rest)
    (before : PlaceBefore h front a) :
    cells.next a = some rest.head? := by
  obtain ⟨b, behind⟩ := place_after h rest
  have joined := holds_joined layout nodes cells lists holds h front rest a b split before behind
  obtain ⟨next, read, leads⟩ := Option.map_eq_some_iff.mp joined.1
  rw [isNull] at leads
  rw [read]
  cases rest with
  | nil =>
      cases behind
      rw [(null_target_head h next).mp leads]
      rfl
  | cons q rest =>
      cases behind
      rw [(null_target_elm h next q).mp leads]
      rfl

theorem null_foreach (rounds : Nat) (enough : (lists h).length ≤ rounds) :
    foreachFrom (fun p => cells.next (.elm p)) rounds (lists h).head? = some (lists h) := by
  apply foreach_visits _ _ _ enough
  intro front q rest split
  exact null_next layout isNull nodes cells lists holds h (front ++ [q]) rest (.elm q) (by simp [split])
    (before_snoc h front q)

theorem null_until [DecidableEq P] (front rest : List P) (z q : P) (split : lists h = front ++ z :: q :: rest)
    (rounds : Nat) (enough : (lists h).length ≤ rounds) :
    untilNext (fun p => cells.next (.elm p)) q rounds (lists h).head? = some z := by
  have once := holds.once h
  rw [split] at once enough ⊢
  obtain ⟨_, laterOnce, apart⟩ := List.nodup_append.mp once
  apply until_next_finds
  · simp at enough
    omega
  · exact fun inFront => apart q inFront q (by simp) rfl
  · rintro rfl
    simp at laterOnce
  · intro earlier p later cut
    exact null_next layout isNull nodes cells lists holds h (earlier ++ [p]) later (.elm p) (by simp [split, cut])
      (before_snoc h earlier p)

omit isNull in
theorem null_not_first (front rest : List P) (z q : P) (split : lists h = front ++ z :: q :: rest) :
    (lists h).head? ≠ some q := by
  have once := holds.once h
  rw [split] at once ⊢
  cases front with
  | nil =>
      intro same
      cases same
      simp at once
  | cons p front =>
      intro same
      cases same
      simp at once

end

-- Two heads as INIT leaves them.
def twoHeads : NullCells Bool Nat where
  next _ := some none
  prev
    | .head h => some (.head h)
    | .elm _ => some (.head false)

theorem two_heads_fresh (kept : Place Bool Nat → Bool) : Fresh ⟨kept, nullTarget⟩ (fun _ => True) twoHeads where
  heads _ := ⟨rfl, fun _ => rfl⟩
  next _ _ := rfl
  prev _ _ _ := rfl

end AesdChar

import AesdChar.Library.LinkedRing
import Mathlib.Logic.Function.Basic

set_option autoImplicit false

namespace AesdChar

open LinkedRing

-- A head or an element; also the address of its first or next field.
inductive Place (H P : Type) where
  | head (h : H)
  | elm (p : P)
deriving DecidableEq, Repr

-- The fields of heads and elements. next is slh_first, sle_next and their likes,
-- prev is le_prev, tqe_prev, tqh_last and theirs. none: there is no such field,
-- or no such element.
structure Cells (H P N : Type) where
  next : Place H P → Option N
  prev : Place H P → Option (Place H P)

variable {H P N : Type}

-- What a queue structure keeps: which places have a prev field, and what the
-- next field of a place in the queue of h leads to.
structure QueueLayout (H P N : Type) where
  kept : Place H P → Bool
  target : H → N → Place H P

def Linked (layout : QueueLayout H P N) (cells : Cells H P N) (h : H) (x y : Place H P) : Prop :=
  (cells.next x).map (layout.target h) = some y ∧ (layout.kept y → cells.prev y = some x)

-- The memory holds these lists. nodes are the elements there are, in a list or
-- not.
structure Holds (layout : QueueLayout H P N) (nodes : P → Prop) (cells : Cells H P N) (lists : H → List P) : Prop where
  ring : ∀ h, Ring (Linked layout cells h) (.head h) ((lists h).map .elm)
  once : ∀ h, (lists h).Nodup
  apart : ∀ h k p, p ∈ lists h → p ∈ lists k → h = k
  inNodes : ∀ h p, p ∈ lists h → nodes p
  next : ∀ p, nodes p → (cells.next (.elm p)).isSome
  prev : ∀ p, nodes p → layout.kept (.elm p) → (cells.prev (.elm p)).isSome

-- No field is lost.
structure Keeps (cells after : Cells H P N) : Prop where
  next : ∀ x, (cells.next x).isSome → (after.next x).isSome
  prev : ∀ x, (cells.prev x).isSome → (after.prev x).isSome

theorem keeps_all (cells : Cells H P N) : Keeps cells cells := ⟨fun _ has => has, fun _ has => has⟩

theorem place_once (h : H) (list : List P) (once : list.Nodup) : (Place.head h :: list.map .elm).Nodup := by
  refine List.nodup_cons.mpr ⟨by simp, once.map fun p q same => ?_⟩
  cases same
  rfl

theorem joined_same (layout : QueueLayout H P N) (cells after : Cells H P N) (h : H) (x y : Place H P)
    (next : after.next x = cells.next x) (prev : after.prev y = cells.prev y)
    (joined : Linked layout cells h x y) : Linked layout after h x y := by
  obtain ⟨leads, back⟩ := joined
  exact ⟨by rw [next, leads], fun isKept => by rw [prev, back isKept]⟩

def Spare (nodes : P → Prop) (lists : H → List P) (p : P) : Prop := nodes p ∧ ∀ h, p ∉ lists h

-- The place before the rest of a queue, and the place behind its front.
abbrev PlaceBefore (h : H) (front : List P) (a : Place H P) : Prop :=
    (Place.head h :: front.map Place.elm).getLast? = some a

abbrev PlaceBehind (h : H) (rest : List P) (b : Place H P) : Prop :=
    (rest.map Place.elm ++ [Place.head h]).head? = some b

theorem place_before (h : H) (front : List P) : ∃ a, PlaceBefore h front a :=
  ⟨_, List.getLast?_eq_some_getLast (List.cons_ne_nil _ _)⟩

theorem place_after (h : H) (rest : List P) : ∃ b, PlaceBehind h rest b := by
  cases rest with
  | nil => exact ⟨.head h, rfl⟩
  | cons p rest => exact ⟨.elm p, rfl⟩

theorem before_snoc (h : H) (front : List P) (q : P) : PlaceBefore h (front ++ [q]) (.elm q) := by
  rw [PlaceBefore, List.map_append, List.map_singleton, ← List.cons_append, List.getLast?_concat]

theorem before_place (h : H) (front : List P) (a : Place H P) (last : PlaceBefore h front a) :
    (front = [] ∧ a = .head h) ∨ ∃ p ∈ front, a = .elm p := by
  rcases List.eq_nil_or_concat' front with rfl | ⟨earlier, z, rfl⟩
  · exact Or.inl ⟨rfl, (Option.some.inj last).symm⟩
  · exact Or.inr ⟨z, by simp, Option.some.inj (last.symm.trans (before_snoc h earlier z))⟩

theorem behind_place (h : H) (rest : List P) (b : Place H P) (first : PlaceBehind h rest b) :
    (rest = [] ∧ b = .head h) ∨ ∃ p ∈ rest, b = .elm p := by
  cases rest with
  | nil => exact Or.inl ⟨rfl, (Option.some.inj first).symm⟩
  | cons p rest => exact Or.inr ⟨p, by simp, (Option.some.inj first).symm⟩

theorem elm_absent (h : H) (list : List P) (p : P) (absent : p ∉ list) (x : Place H P)
    (member : x ∈ Place.head h :: list.map .elm) :
    x ≠ .elm p := by
  rintro rfl
  rcases List.mem_cons.mp member with isHead | isElm
  · cases isHead
  · obtain ⟨q, isIn, same⟩ := List.mem_map.mp isElm
    cases same
    exact absent isIn

theorem before_apart (h : H) (front : List P) (a : Place H P) (p : P) (absent : p ∉ front)
    (last : PlaceBefore h front a) : a ≠ .elm p :=
  elm_absent h front p absent a (List.mem_of_getLast? last)

theorem before_other (h k : H) (front : List P) (a : Place H P) (other : h ≠ k) (last : PlaceBefore h front a) :
    a ≠ .head k := by
  rintro rfl
  obtain ⟨_, same⟩ | ⟨q, _, impossible⟩ := before_place h front _ last
  · cases same
    exact other rfl
  · cases impossible

theorem after_apart (h : H) (rest : List P) (b : Place H P) (p : P) (absent : p ∉ rest)
    (first : PlaceBehind h rest b) : b ≠ .elm p := by
  rintro rfl
  obtain ⟨_, impossible⟩ | ⟨q, isIn, same⟩ := behind_place h rest _ first
  · cases impossible
  · cases same
    exact absent isIn

theorem holds_joined (layout : QueueLayout H P N) (nodes : P → Prop) (cells : Cells H P N) (lists : H → List P)
    (holds : Holds layout nodes cells lists) (h : H) (front rest : List P) (a b : Place H P)
    (split : lists h = front ++ rest) (last : PlaceBefore h front a)
    (first : PlaceBehind h rest b) : Linked layout cells h a b := by
  have ring := holds.ring h
  rw [split, List.map_append] at ring
  exact ring_joins _ _ _ a ring last b first

theorem places_apart (layout : QueueLayout H P N) (nodes : P → Prop) (cells : Cells H P N) (lists : H → List P)
    (holds : Holds layout nodes cells lists) (h k : H) (other : k ≠ h) (x y : Place H P)
    (inX : x ∈ Place.head k :: (lists k).map .elm) (inY : y ∈ Place.head h :: (lists h).map .elm) : x ≠ y := by
  rintro rfl
  rcases List.mem_cons.mp inX with rfl | isElm
  · rcases List.mem_cons.mp inY with isHead | isElm
    · cases isHead
      exact other rfl
    · obtain ⟨p, _, impossible⟩ := List.mem_map.mp isElm
      cases impossible
  · obtain ⟨p, inK, rfl⟩ := List.mem_map.mp isElm
    by_cases inH : p ∈ lists h
    · exact other (holds.apart k h p inK inH)
    · exact elm_absent h (lists h) p inH _ inY rfl

variable [DecidableEq H]

theorem spliced_member (lists : H → List P) (h : H) (front new rest : List P) (inOld : ∀ p ∈ front ++ rest, p ∈ lists h)
    (k : H) (p : P)
    (member : p ∈ Function.update lists h (front ++ new ++ rest) k) : p ∈ lists k ∨ (k = h ∧ p ∈ new) := by
  by_cases same : k = h
  · subst same
    rw [Function.update_self] at member
    rcases List.mem_append.mp member with inFront | inRest
    · rcases List.mem_append.mp inFront with inFront | isNew
      · exact Or.inl (inOld p (List.mem_append_left rest inFront))
      · exact Or.inr ⟨rfl, isNew⟩
    · exact Or.inl (inOld p (List.mem_append_right front inRest))
  · rw [Function.update_of_ne same] at member
    exact Or.inl member

section

variable (layout : QueueLayout H P N) (nodes : P → Prop) (cells after : Cells H P N) (lists : H → List P)

-- One queue changes between a and b, with elements of no queue.
theorem holds_splice (holds : Holds layout nodes cells lists) (h : H) (front old new rest : List P) (a b : Place H P)
    (split : lists h = front ++ old ++ rest) (last : PlaceBefore h front a)
    (first : PlaceBehind h rest b) (newOnce : new.Nodup)
    (spare : ∀ p ∈ new, Spare nodes lists p) (keeps : Keeps cells after)
    (nexts : ∀ x, x ≠ a → (∀ p ∈ new, x ≠ .elm p) → after.next x = cells.next x)
    (prevs : ∀ y, y ≠ b → (∀ p ∈ new, y ≠ .elm p) → after.prev y = cells.prev y)
    (inner : List.IsChain (Linked layout after h) (a :: new.map .elm ++ [b])) :
    Holds layout nodes after (Function.update lists h (front ++ new ++ rest)) := by
  have oldOnce := holds.once h
  rw [split] at oldOnce
  have restOnce : (front ++ rest).Nodup :=
    oldOnce.sublist ((List.sublist_append_left front old).append_right rest)
  have inOld : ∀ p, p ∈ front ++ rest → p ∈ lists h := by
    intro p member
    rw [split]
    rcases List.mem_append.mp member with inFront | inRest
    · simp [inFront]
    · simp [inRest]
  have aPlace : a ∈ Place.head h :: (lists h).map .elm := by
    obtain ⟨_, rfl⟩ | ⟨p, isIn, rfl⟩ := before_place h front a last
    · exact List.mem_cons_self
    · exact List.mem_cons_of_mem _ (List.mem_map_of_mem (inOld p (List.mem_append_left rest isIn)))
  have bPlace : b ∈ Place.head h :: (lists h).map .elm := by
    obtain ⟨_, rfl⟩ | ⟨p, isIn, rfl⟩ := behind_place h rest b first
    · exact List.mem_cons_self
    · exact List.mem_cons_of_mem _ (List.mem_map_of_mem (inOld p (List.mem_append_right front isIn)))
  have foreign : ∀ k, k ≠ h → ∀ x ∈ Place.head k :: (lists k).map .elm, x ≠ a ∧ x ≠ b ∧ ∀ p ∈ new, x ≠ .elm p :=
    fun k other x member =>
      ⟨places_apart layout nodes cells lists holds h k other x a member aPlace,
        places_apart layout nodes cells lists holds h k other x b member bPlace,
        fun p isNew => elm_absent k (lists k) p ((spare p isNew).2 k) x member⟩
  have unchanged : ∀ k, k ≠ h → Function.update lists h (front ++ new ++ rest) k = lists k := fun k other =>
    Function.update_of_ne other _ _
  have notNew : ∀ p, p ∈ front ++ rest → p ∉ new := fun p member isNew => (spare p isNew).2 h (inOld p member)
  refine ⟨fun k => ?_, fun k => ?_, fun k l p inK inL => ?_, fun k p member => ?_, fun p isNode => ?_,
    fun p isNode isKept => ?_⟩
  · by_cases same : k = h
    · subst same
      have ring := holds.ring k
      rw [split] at ring
      rw [Function.update_self]
      simp only [List.map_append] at ring ⊢
      refine ring_splice (.head k) _ _ _ _ a b ?_ last first ?_ inner ring
      · rw [← List.map_append]
        exact place_once k _ restOnce
      · have others : ∀ z ∈ Place.head k :: (front.map Place.elm ++ rest.map Place.elm), ∀ p ∈ new,
            z ≠ Place.elm p := by
          intro z member p isNew
          rw [← List.map_append] at member
          exact elm_absent k (front ++ rest) p (fun isIn => notNew p isIn isNew) z member
        intro x inX y inY notA notB joined
        exact joined_same layout cells after k x y (nexts x notA (others x inX)) (prevs y notB (others y inY)) joined
    · rw [unchanged k same]
      apply ring_change _ _ (holds.ring k)
      intro x inX y inY joined
      obtain ⟨notA, _, notNewX⟩ := foreign k same x inX
      obtain ⟨_, notB, notNewY⟩ := foreign k same y inY
      exact joined_same layout cells after k x y (nexts x notA notNewX) (prevs y notB notNewY) joined
  · by_cases same : k = h
    · subst same
      rw [Function.update_self, List.append_assoc, List.perm_append_comm_assoc front new rest |>.nodup_iff,
        List.nodup_append]
      exact ⟨newOnce, restOnce, fun p isNew q member same => notNew q member (same ▸ isNew)⟩
    · rw [unchanged k same]
      exact holds.once k
  · rcases spliced_member lists h front new rest inOld k p inK with oldK | ⟨isK, newK⟩
    · rcases spliced_member lists h front new rest inOld l p inL with oldL | ⟨_, newL⟩
      · exact holds.apart k l p oldK oldL
      · exact absurd oldK ((spare p newL).2 k)
    · rcases spliced_member lists h front new rest inOld l p inL with oldL | ⟨isL, _⟩
      · exact absurd oldL ((spare p newK).2 l)
      · exact isK.trans isL.symm
  · rcases spliced_member lists h front new rest inOld k p member with old | ⟨_, isNew⟩
    · exact holds.inNodes k p old
    · exact (spare p isNew).1
  · exact keeps.next _ (holds.next p isNode)
  · exact keeps.prev _ (holds.prev p isNode isKept)

end

end AesdChar

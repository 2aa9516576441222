import Mathlib.Data.List.Nodup
import Mathlib.Logic.Function.Basic

set_option autoImplicit false

namespace Slist

section

-- A singly linked list in a heap: every cell links to the next one, the last
-- one to nothing.
variable {Ptr Cell : Type} (link : Cell → Option Ptr)

inductive Chain (heap : Ptr → Option Cell) : Option Ptr → List Ptr → Prop where
  | nil : Chain heap none []
  | cons (p : Ptr) (cell : Cell) (rest : List Ptr) (read : heap p = some cell) (tail : Chain heap (link cell) rest) :
      Chain heap (some p) (p :: rest)

variable {link} (heap : Ptr → Option Cell)

theorem chain_first (first : Option Ptr) (nodes : List Ptr) (chain : Chain link heap first nodes) :
    first = nodes.head? := by
  cases chain <;> rfl

theorem chain_read (first : Option Ptr) (front rest : List Ptr) (p : Ptr)
    (chain : Chain link heap first (front ++ p :: rest)) :
    ∃ cell, heap p = some cell ∧ Chain link heap (link cell) rest := by
  induction front generalizing first with
  | nil =>
      cases chain with
      | cons _ cell _ read tail => exact ⟨cell, read, tail⟩
  | cons q front ih =>
      cases chain with
      | cons _ cell _ read tail => exact ih (link cell) tail

theorem chain_link (first : Option Ptr) (front rest : List Ptr) (p : Ptr) (cell : Cell)
    (chain : Chain link heap first (front ++ p :: rest)) (read : heap p = some cell) : link cell = rest.head? := by
  obtain ⟨other, readOther, tail⟩ := chain_read heap first front rest p chain
  cases Option.some.inj (read.symm.trans readOther)
  exact chain_first heap _ _ tail

theorem chain_unique (first : Option Ptr) (nodes others : List Ptr) (chain : Chain link heap first nodes)
    (second : Chain link heap first others) : nodes = others := by
  induction chain generalizing others with
  | nil => cases second; rfl
  | cons p cell rest read tail ih =>
      cases second with
      | cons _ other left readOther tailOther =>
          cases Option.some.inj (read.symm.trans readOther)
          rw [ih left tailOther]

-- A list that came back to a cell would never end.
theorem chain_nodup (first : Option Ptr) (nodes : List Ptr) (chain : Chain link heap first nodes) : nodes.Nodup := by
  induction chain with
  | nil => exact List.nodup_nil
  | cons p cell rest read tail ih =>
      refine List.nodup_cons.mpr ⟨fun back => ?_, ih⟩
      obtain ⟨front, left, split⟩ := List.append_of_mem back
      obtain ⟨other, readOther, tailOther⟩ := chain_read heap (link cell) front left p (split ▸ tail)
      cases Option.some.inj (read.symm.trans readOther)
      have same := chain_unique heap (link cell) rest left tail tailOther
      have lengths := congrArg List.length split
      rw [List.length_append, List.length_cons, same] at lengths
      omega

-- Only the links of the list's own cells matter.
theorem chain_links (after : Ptr → Option Cell) (first : Option Ptr) (nodes : List Ptr)
    (chain : Chain link heap first nodes)
    (kept : ∀ p ∈ nodes, ∀ cell, heap p = some cell → ∃ other, after p = some other ∧ link other = link cell) :
    Chain link after first nodes := by
  induction chain with
  | nil => exact .nil
  | cons p cell rest read tail ih =>
      obtain ⟨other, readOther, same⟩ := kept p List.mem_cons_self cell read
      refine .cons p other rest readOther ?_
      rw [same]
      exact ih fun q member => kept q (List.mem_cons_of_mem _ member)

variable [DecidableEq Ptr]

theorem chain_outside (first : Option Ptr) (nodes : List Ptr) (p : Ptr) (cell : Option Cell)
    (chain : Chain link heap first nodes)
    (outside : p ∉ nodes) : Chain link (Function.update heap p cell) first nodes := by
  refine chain_links heap _ first nodes chain fun q member old read => ⟨old, ?_, rfl⟩
  have different : q ≠ p := fun same => outside (same ▸ member)
  rw [Function.update_of_ne different, read]

theorem chain_payload (first : Option Ptr) (nodes : List Ptr) (p : Ptr) (cell other : Cell)
    (chain : Chain link heap first nodes) (read : heap p = some cell) (same : link other = link cell) :
    Chain link (Function.update heap p (some other)) first nodes := by
  refine chain_links heap _ first nodes chain fun q _ old readOld => ?_
  by_cases here : q = p
  · subst here
    cases Option.some.inj (read.symm.trans readOld)
    exact ⟨other, Function.update_self .., same⟩
  · exact ⟨old, by rw [Function.update_of_ne here, readOld], rfl⟩

theorem chain_insert (first : Option Ptr) (nodes : List Ptr) (p : Ptr) (cell : Cell)
    (chain : Chain link heap first nodes) (outside : p ∉ nodes) (linked : link cell = first) :
    Chain link (Function.update heap p (some cell)) (some p) (p :: nodes) := by
  refine .cons p cell nodes (Function.update_self ..) ?_
  rw [linked]
  exact chain_outside heap first nodes p (some cell) chain outside

-- The cell before p takes over its link.
theorem chain_unlink (first : Option Ptr) (front rest : List Ptr) (before p : Ptr) (cell removed : Cell)
    (chain : Chain link heap first (front ++ before :: p :: rest)) (read : heap p = some removed)
    (linked : link cell = link removed) :
    Chain link (Function.update heap before (some cell)) first (front ++ before :: rest) := by
  induction front generalizing first with
  | nil =>
      have once := chain_nodup heap first _ chain
      obtain ⟨other, readOther, last⟩ := chain_read heap first [before] rest p chain
      cases Option.some.inj (read.symm.trans readOther)
      rw [chain_first heap first _ chain]
      refine .cons before cell rest (Function.update_self ..) ?_
      rw [linked]
      exact chain_outside heap _ rest before (some cell) last fun member =>
        (List.nodup_cons.mp once).1 (List.mem_cons_of_mem _ member)
  | cons q front ih =>
      have once := chain_nodup heap first _ chain
      cases chain with
      | cons _ old _ readOld tail =>
          have different : q ≠ before := by
            rintro rfl
            simp at once
          exact .cons q old _ (by rw [Function.update_of_ne different, readOld]) (ih (link old) tail)

end

end Slist

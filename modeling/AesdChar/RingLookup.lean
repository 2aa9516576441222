import AesdChar.RingFifo
import AesdChar.Library.Concat

set_option autoImplicit false

namespace AesdChar

open Concat CyclicQueue

def sizesOf (content : List AesdBufferEntry) : List Nat := content.map fun entry => entry.size.toNat

theorem sizes_get (content : List AesdBufferEntry) (i : Nat) :
    (sizesOf content).getD i 0 = (content.getD i zeroEntry).size.toNat := by
  rw [sizesOf, List.getD_eq_getElem?_getD, List.getD_eq_getElem?_getD, List.getElem?_map]
  cases content[i]? <;> rfl

inductive Lookup (buffer : AesdCircularBuffer) (content : List AesdBufferEntry) (charOffset : UInt64) :
    Option (Nat × UInt64) → Prop where
  | missing (past : (sizesOf content).sum ≤ charOffset.toNat) : Lookup buffer content charOffset none
  | found (index : Nat) (within : UInt64)
      (located : Locates (sizesOf content) charOffset.toNat index within.toNat) :
      Lookup buffer content charOffset (some ((buffer.outOffs.toNat + index) % 10, within))

-- The rounds of the do-while loop: an empty buffer looks the same as a full
-- one, and its ten zero slots are all visited.
def lookupRounds (content : List AesdBufferEntry) : Nat := if content.length = 0 then 10 else content.length

theorem lookup_rounds_le (content : List AesdBufferEntry) (bounded : content.length ≤ 10) :
    lookupRounds content ≤ 10 := by
  unfold lookupRounds
  split <;> omega

theorem lookup_rounds_positive (content : List AesdBufferEntry) : 0 < lookupRounds content := by
  unfold lookupRounds
  split <;> omega

theorem lookup_stops (buffer : AesdCircularBuffer) (content : List AesdBufferEntry) (rep : RingRep buffer content)
    (i : Nat) (round : i < lookupRounds content) :
    ((buffer.outOffs.toNat + i) % 10 + 1) % 10 = buffer.inOffs.toNat ↔ i + 1 = lookupRounds content := by
  have bounded := rep.window.bounded
  have entering := rep.inOffs
  by_cases empty : content.length = 0
  · simp only [lookupRounds, if_pos empty] at round ⊢
    omega
  · simp only [lookupRounds, if_neg empty] at round ⊢
    omega

theorem sum_past_content (content : List AesdBufferEntry) :
    ((sizesOf content).take (lookupRounds content)).sum = (sizesOf content).sum := by
  rw [List.take_of_length_le]
  simp only [sizesOf, List.length_map, lookupRounds]
  split <;> omega

theorem find_entry_loop (buffer : AesdCircularBuffer) (content : List AesdBufferEntry) (charOffset : UInt64)
    (rep : RingRep buffer content) (small : (sizesOf content).sum < 2 ^ 64) (fuel i : Nat) (offset : UInt64)
    (round : i < lookupRounds content) (enough : lookupRounds content - i ≤ fuel)
    (passed : offset.toNat = ((sizesOf content).take i).sum) (notYet : offset.toNat ≤ charOffset.toNat) :
    ∃ result, findEntryLoop buffer charOffset fuel offset ((buffer.outOffs.toNat + i) % 10) = some result ∧
      Lookup buffer content charOffset result := by
  induction fuel generalizing i offset with
  | zero => omega
  | succ fuel ih =>
      have bounded := rep.window.bounded
      have rounds := lookup_rounds_le content bounded
      have slotBound : (buffer.outOffs.toNat + i) % 10 < 10 := Nat.mod_lt _ (by decide)
      have cell := rep.window.cell i (by omega)
      rw [slot_at_lt buffer _ slotBound] at cell
      have grown := sum_take_succ (sizesOf content) i
      rw [sizes_get] at grown
      have total := sum_take_le (sizesOf content) (i + 1)
      have exact : (offset + (content.getD i zeroEntry).size).toNat = ((sizesOf content).take (i + 1)).sum := by
        rw [UInt64.toNat_add, passed, ← grown, Nat.mod_eq_of_lt (by omega)]
      simp only [findEntryLoop, slotBound, dif_pos, cell]
      by_cases here : charOffset < offset + (content.getD i zeroEntry).size
      · have ahead : charOffset.toNat < (offset + (content.getD i zeroEntry).size).toNat :=
          UInt64.lt_iff_toNat_lt.mp here
        have back : (offset + (content.getD i zeroEntry).size - charOffset).toNat =
            (offset + (content.getD i zeroEntry).size).toNat - charOffset.toNat :=
          UInt64.toNat_sub_of_le _ _ (UInt64.le_iff_toNat_le.mpr (by omega))
        have within : ((content.getD i zeroEntry).size -
            (offset + (content.getD i zeroEntry).size - charOffset)).toNat = charOffset.toNat - offset.toNat := by
          rw [UInt64.toNat_sub_of_le _ _ (UInt64.le_iff_toNat_le.mpr (by omega)), back]
          omega
        refine ⟨_, by rw [if_pos here], .found i _ ⟨?_, ?_⟩⟩
        · rw [within, sizes_get]
          omega
        · rw [within]
          omega
      · have behind : ¬ charOffset.toNat < (offset + (content.getD i zeroEntry).size).toNat := fun ahead =>
          here (UInt64.lt_iff_toNat_lt.mpr ahead)
        have stops := lookup_stops buffer content rep i round
        rw [if_neg here]
        by_cases last : i + 1 = lookupRounds content
        · have met := stops.mpr last
          refine ⟨none, by rw [if_neg (not_not_intro met)], .missing ?_⟩
          rw [← sum_past_content content, ← last]
          omega
        · have next : ((buffer.outOffs.toNat + i) % 10 + 1) % 10 = (buffer.outOffs.toNat + (i + 1)) % 10 := by omega
          rw [if_pos fun met => last (stops.mp met), next]
          exact ih (i + 1) _ (by omega) (by omega) exact (by omega)

theorem find_entry_lookup (buffer : AesdCircularBuffer) (content : List AesdBufferEntry) (charOffset : UInt64)
    (rep : RingRep buffer content) (small : (sizesOf content).sum < 2 ^ 64) :
    ∃ result, aesdCircularBufferFindEntryOffsetForFpos buffer charOffset = some result ∧
      Lookup buffer content charOffset result := by
  have inside := rep.window.inside
  have rounds := lookup_rounds_le content rep.window.bounded
  have start : (buffer.outOffs.toNat + 0) % 10 = buffer.outOffs.toNat := by omega
  have found :=
    find_entry_loop buffer content charOffset rep small 10 0 0 (lookup_rounds_positive content) (by omega) rfl
    (Nat.zero_le _)
  rwa [start] at found

end AesdChar

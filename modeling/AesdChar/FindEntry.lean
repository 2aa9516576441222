import AesdChar.RingLookup
import AesdChar.Words

set_option autoImplicit false

namespace AesdChar

open Concat CyclicQueue

-- *entry_offset_byte_rtn is written on a match only, after the loop.
def findEntryStoring (buffer : AesdCircularBuffer) (charOffset entryOffsetByteRtn : UInt64) :
    Option (Option Nat × UInt64) :=
  (aesdCircularBufferFindEntryOffsetForFpos buffer charOffset).map fun
    | none => (none, entryOffsetByteRtn)
    | some (slot, byteToRet) => (some slot, byteToRet)

-- The do-while loop with size_t arithmetic that fails where it would wrap.
def findEntryLoopChecked (buffer : AesdCircularBuffer) (charOffset : UInt64) :
    Nat → UInt64 → Nat → Option (Option (Nat × UInt64))
  | 0, _, _ => none
  | fuel + 1, offset, idx =>
      if bound : idx < 10 then
        let size := buffer.entry[idx].size
        match addChecked offset size with
        | none => none
        | some offset =>
            if charOffset < offset then
              match subChecked offset charOffset with
              | none => none
              | some past => (subChecked size past).map fun byteToRet => some (idx, byteToRet)
            else
              let next := (idx + 1) % 10
              if next ≠ buffer.inOffs.toNat then findEntryLoopChecked buffer charOffset fuel offset next
              else some none
      else none

theorem find_entry_loop_checked (buffer : AesdCircularBuffer) (content : List AesdBufferEntry) (charOffset : UInt64)
    (rep : RingRep buffer content) (small : (sizesOf content).sum < 2 ^ 64) (fuel i : Nat) (offset : UInt64)
    (round : i < lookupRounds content) (passed : offset.toNat = ((sizesOf content).take i).sum)
    (notYet : offset.toNat ≤ charOffset.toNat) :
    findEntryLoopChecked buffer charOffset fuel offset ((buffer.outOffs.toNat + i) % 10) =
      findEntryLoop buffer charOffset fuel offset ((buffer.outOffs.toNat + i) % 10) := by
  induction fuel generalizing i offset with
  | zero => rfl
  | succ fuel ih =>
      have bounded := rep.window.bounded
      have rounds := lookup_rounds_le content bounded
      have slotBound : (buffer.outOffs.toNat + i) % 10 < 10 := Nat.mod_lt _ (by decide)
      have cell := rep.window.cell i (by omega)
      rw [slot_at_lt buffer _ slotBound] at cell
      have grown := sum_take_succ (sizesOf content) i
      rw [sizes_get] at grown
      have total := sum_take_le (sizesOf content) (i + 1)
      have fits : offset.toNat + (content.getD i zeroEntry).size.toNat < 2 ^ 64 := by omega
      have exact := add_exact offset (content.getD i zeroEntry).size fits
      simp only [findEntryLoopChecked, findEntryLoop, slotBound, dif_pos, cell, add_checked_some _ _ fits]
      by_cases here : charOffset < offset + (content.getD i zeroEntry).size
      · have ahead := UInt64.lt_iff_toNat_lt.mp here
        have past := sub_exact (offset + (content.getD i zeroEntry).size) charOffset (by omega)
        have beyond := sub_checked_some (offset + (content.getD i zeroEntry).size) charOffset (by omega)
        have rest := sub_checked_some (content.getD i zeroEntry).size
          (offset + (content.getD i zeroEntry).size - charOffset) (by omega)
        simp only [if_pos here, beyond, rest, Option.map_some]
      · have behind : ¬ charOffset.toNat < (offset + (content.getD i zeroEntry).size).toNat := fun ahead =>
          here (UInt64.lt_iff_toNat_lt.mpr ahead)
        have stops := lookup_stops buffer content rep i round
        by_cases last : i + 1 = lookupRounds content
        · simp only [if_neg here, stops.mpr last, ne_eq, not_true_eq_false, if_false]
        · have next : ((buffer.outOffs.toNat + i) % 10 + 1) % 10 = (buffer.outOffs.toNat + (i + 1)) % 10 := by omega
          have later := ih (i + 1) (offset + (content.getD i zeroEntry).size) (by omega) (by omega) (by omega)
          rw [← next] at later
          have goesOn : ((buffer.outOffs.toNat + i) % 10 + 1) % 10 ≠ buffer.inOffs.toNat := fun met =>
            last (stops.mp met)
          simp only [if_neg here, if_pos goesOn, later]

theorem find_entry_checked (buffer : AesdCircularBuffer) (content : List AesdBufferEntry) (charOffset : UInt64)
    (rep : RingRep buffer content) (small : (sizesOf content).sum < 2 ^ 64) :
    findEntryLoopChecked buffer charOffset 10 0 buffer.outOffs.toNat =
      aesdCircularBufferFindEntryOffsetForFpos buffer charOffset := by
  have start : (buffer.outOffs.toNat + 0) % 10 = buffer.outOffs.toNat := by
    have inside := rep.window.inside
    omega
  have same := find_entry_loop_checked buffer content charOffset rep small 10 0 0 (lookup_rounds_positive content) rfl
    (Nat.zero_le _)
  rwa [start] at same

-- The entry of a retained command that holds a position, and the byte in it.
structure EntryAt (content : List AesdBufferEntry) (charOffset : Nat) (entry : AesdBufferEntry) (byte : Nat) :
    Prop where
  split : ∃ older newer, content = older ++ entry :: newer ∧ (sizesOf older).sum + byte = charOffset ∧
    ∀ lines : List Bytes, lines.map List.length = sizesOf content →
      lines.flatten[charOffset]? = (lines.getD older.length [])[byte]?
  inside : byte < entry.size.toNat

theorem entry_at_located (content : List AesdBufferEntry) (charOffset index within : Nat)
    (located : Locates (sizesOf content) charOffset index within) :
    EntryAt content charOffset (content.getD index zeroEntry) within := by
  have bound := locates_index _ _ _ _ located
  rw [sizesOf, List.length_map] at bound
  have inside := located.inside
  rw [sizes_get] at inside
  have entry : content.getD index zeroEntry = content[index] := by simp [List.getD_eq_getElem?_getD, bound]
  refine ⟨⟨content.take index, content.drop (index + 1), ?_, ?_, ?_⟩, inside⟩
  · rw [entry, List.getElem_cons_drop bound, List.take_append_drop]
  · have before := located.before
    rwa [sizesOf, ← List.map_take] at before
  · intro lines sizes
    rw [List.length_take_of_le (Nat.le_of_lt bound)]
    rw [← sizes] at located
    exact flatten_located lines charOffset index within located

/-- The lookup is indexing into the concatenation of the retained commands, oldest first. -/
theorem lookup_indexes_concatenation (added : List AesdBufferEntry) (charOffset entryOffsetByteRtn : UInt64)
    (small : (sizesOf (added.rtake 10)).sum < 2 ^ 64) :
    ∃ buffer handedBack, addEntries aesdCircularBufferInit added = some (buffer, handedBack) ∧
      logicalContent buffer = added.rtake 10 ∧
      (charOffset.toNat < (sizesOf (added.rtake 10)).sum →
        ∃ slot byte, slot ∈ logicalSlots buffer ∧
          findEntryStoring buffer charOffset entryOffsetByteRtn = some (some slot, byte) ∧
          EntryAt (added.rtake 10) charOffset.toNat (slotAt buffer slot) byte.toNat) ∧
      ((sizesOf (added.rtake 10)).sum ≤ charOffset.toNat →
        findEntryStoring buffer charOffset entryOffsetByteRtn = some (none, entryOffsetByteRtn)) ∧
      findEntryLoopChecked buffer charOffset 10 0 buffer.outOffs.toNat =
        aesdCircularBufferFindEntryOffsetForFpos buffer charOffset := by
  obtain ⟨buffer, run, rep⟩ := add_entries_run aesdCircularBufferInit [] added (by simpa using ring_rep_init)
  rw [List.nil_append] at rep
  obtain ⟨answer, found, lookup⟩ := find_entry_lookup buffer _ charOffset rep small
  refine ⟨buffer, _, run, ring_rep_content buffer _ rep, ?_, ?_, find_entry_checked buffer _ charOffset rep small⟩
  · intro below
    cases lookup with
    | missing past => omega
    | found index within located =>
        have bound := locates_index _ _ _ _ located
        rw [sizesOf, List.length_map] at bound
        have bounded := rep.window.bounded
        have entry := entry_at_located _ _ _ _ located
        rw [← rep.window.cell index (by omega)] at entry
        refine ⟨_, within, ?_, by simp [findEntryStoring, found], entry⟩
        exact List.mem_map.mpr ⟨index, by rw [List.mem_range, ring_rep_count buffer _ rep]; exact bound, rfl⟩
  · intro past
    cases lookup with
    | missing _ => simp [findEntryStoring, found]
    | found index within located =>
        have below := locates_below _ _ _ _ located
        omega

theorem lookup_indexes_past_empty :
    ∃ buffer handedBack, addEntries aesdCircularBufferInit [⟨64, 3⟩, ⟨72, 0⟩, ⟨80, 2⟩] = some (buffer, handedBack) ∧
      ∃ slot byte, findEntryStoring buffer 3 9 = some (some slot, byte) ∧
        EntryAt [⟨64, 3⟩, ⟨72, 0⟩, ⟨80, 2⟩] 3 (slotAt buffer slot) byte.toNat := by
  obtain ⟨buffer, handedBack, run, _, inside, _⟩ :=
    lookup_indexes_concatenation [⟨64, 3⟩, ⟨72, 0⟩, ⟨80, 2⟩] 3 9 (by decide)
  obtain ⟨slot, byte, _, found, entry⟩ := inside (by decide)
  exact ⟨buffer, handedBack, run, slot, byte, found, entry⟩

end AesdChar

import AesdChar.CircularBuffer
import AesdChar.Library.CyclicQueue

set_option autoImplicit false

namespace AesdChar

open CyclicQueue

-- The slots a reader of the buffer walks: all ten from out_offs when full is
-- set, and otherwise those from out_offs up to but excluding in_offs.
def logicalCount (buffer : AesdCircularBuffer) : Nat :=
  if buffer.full then 10
  else (buffer.inOffs.toNat + 10 - buffer.outOffs.toNat) %
    10

def logicalSlots (buffer : AesdCircularBuffer) : List Nat :=
  (List.range (logicalCount buffer)).map fun i => (buffer.outOffs.toNat + i) % 10

def logicalContent (buffer : AesdCircularBuffer) : List AesdBufferEntry :=
  (logicalSlots buffer).map (slotAt buffer)

structure RingRep (buffer : AesdCircularBuffer) (content : List AesdBufferEntry) : Prop where
  window : Cyclic 10 (slotAt buffer) buffer.outOffs.toNat zeroEntry content
  inOffs : buffer.inOffs.toNat = (buffer.outOffs.toNat + content.length) % 10
  full : buffer.full = true ↔ content.length = 10
  unrotated : buffer.full = false → buffer.outOffs = 0

theorem slot_at_lt (buffer : AesdCircularBuffer) (slot : Nat) (bound : slot < 10) :
    slotAt buffer slot = buffer.entry[slot] := by
  simp [slotAt, Nat.mod_eq_of_lt bound]

theorem slot_at_mod (buffer : AesdCircularBuffer) (slot : Nat) :
    slotAt buffer (slot % 10) = slotAt buffer slot := by
  simp [slotAt]

theorem next_offs_nat (offs : UInt8) (bound : offs.toNat < 10) :
    (nextOffs offs).toNat = (offs.toNat + 1) % 10 := by
  simp only [nextOffs, UInt8.toNat_mod, UInt8.toNat_add, UInt8.reduceToNat]
  omega

theorem ring_rep_init : RingRep aesdCircularBufferInit [] := by
  refine ⟨?_, rfl, by decide, fun _ => rfl⟩
  have blank : slotAt aesdCircularBufferInit = fun _ => zeroEntry := by
    funext slot
    simp [slotAt, aesdCircularBufferInit]
  rw [blank]
  exact cyclic_blank _ 0 zeroEntry (by decide)

theorem ring_rep_count (buffer : AesdCircularBuffer) (content : List AesdBufferEntry) (rep : RingRep buffer content) :
    logicalCount buffer = content.length := by
  have bounded := rep.window.bounded
  have inside := rep.window.inside
  have entering := rep.inOffs
  by_cases full : buffer.full = true
  · simp [logicalCount, full, rep.full.mp full]
  · have short : content.length ≠ 10 := fun same => full (rep.full.mpr same)
    simp only [logicalCount, full, if_false, Bool.false_eq_true]
    omega

theorem ring_rep_content (buffer : AesdCircularBuffer) (content : List AesdBufferEntry) (rep : RingRep buffer content) :
    logicalContent buffer = content := by
  apply List.ext_getElem
  · simp [logicalContent, logicalSlots, ring_rep_count buffer content rep]
  · intro i read written
    have bound := rep.window.bounded
    have cell := rep.window.cell i (by omega)
    simp only [logicalContent, logicalSlots, List.getElem_map, List.getElem_range, cell]
    simp [List.getD_eq_getElem?_getD, written]

theorem entry_list_slots (buffer : AesdCircularBuffer) : buffer.entry.toList = (List.range 10).map (slotAt buffer) := by
  refine List.ext_getElem (by simp) fun slot left _ => ?_
  have bound : slot < 10 := by simpa using left
  simp [slot_at_lt buffer slot bound]

theorem ring_rep_slots (buffer : AesdCircularBuffer) (content : List AesdBufferEntry) (rep : RingRep buffer content) :
    buffer.entry.toList.Perm (content ++ List.replicate (10 - content.length) zeroEntry) := by
  rw [entry_list_slots]
  exact cyclic_perm 10 (slotAt buffer) buffer.outOffs.toNat zeroEntry content rep.window

def evictedPtr (content : List AesdBufferEntry) : Ptr :=
  if content.length = 10 then (content.headD zeroEntry).buffptr else nullPtr

theorem slot_at_set (buffer : AesdCircularBuffer) (slot : Nat) (bound : slot < 10) (entry : AesdBufferEntry)
    (inOffs outOffs : UInt8) (full : Bool) (other : Nat) (otherBound : other < 10) :
    slotAt ⟨buffer.entry.set slot entry, inOffs, outOffs, full⟩ other =
      Function.update (slotAt buffer) slot entry other := by
  rw [slot_at_lt _ _ otherBound, Vector.getElem_set, Function.update_apply]
  by_cases same : slot = other
  · simp [same]
  · simp [same, Ne.symm same, slot_at_lt buffer other otherBound]

theorem ring_rep_oldest (buffer : AesdCircularBuffer) (content : List AesdBufferEntry) (rep : RingRep buffer content)
    (full : content.length = 10) : slotAt buffer buffer.inOffs.toNat = content.headD zeroEntry := by
  have entering : buffer.inOffs.toNat = buffer.outOffs.toNat := by
    have inside := rep.window.inside
    have entering := rep.inOffs
    omega
  have cell := rep.window.cell 0 (by decide)
  rw [Nat.add_zero, Nat.mod_eq_of_lt rep.window.inside] at cell
  rw [entering, cell]
  cases content with
  | nil => simp at full
  | cons head tail => rfl

theorem add_entry_full (buffer : AesdCircularBuffer) (content : List AesdBufferEntry) (entry : AesdBufferEntry)
    (rep : RingRep buffer content) (full : buffer.full = true) :
    ∃ next, aesdCircularBufferAddEntry buffer entry = some (next, evictedPtr content) ∧
      RingRep next (push 10 content entry) := by
  have length := rep.full.mp full
  have entering := rep.inOffs
  have inside := rep.window.inside
  have same : buffer.inOffs.toNat = buffer.outOffs.toNat := by omega
  have bound : buffer.inOffs.toNat < 10 := by omega
  have inNext := next_offs_nat buffer.inOffs bound
  have outNext := next_offs_nat buffer.outOffs inside
  have pushedLength : (push 10 content entry).length = 10 := by
    simp [push, rtake_length, length]
  have oldest := ring_rep_oldest buffer content rep length
  rw [slot_at_lt buffer _ bound] at oldest
  refine ⟨⟨buffer.entry.set buffer.inOffs.toNat entry, nextOffs buffer.inOffs, nextOffs buffer.outOffs, true⟩, ?_, ?_⟩
  · simp [aesdCircularBufferAddEntry, bound, full, evictedPtr, length, oldest]
  · refine ⟨?_, ?_, by simp [pushedLength], by simp⟩
    · simp only [outNext]
      refine cyclic_agree 10 _ _ _ zeroEntry _
        (fun slot slotBound => slot_at_set buffer _ bound entry _ _ _ slot slotBound) ?_
      rw [same]
      exact cyclic_push_full 10 (slotAt buffer) _ zeroEntry entry content rep.window length
    · simp only [inNext, outNext, pushedLength]
      omega

theorem add_entry_below (buffer : AesdCircularBuffer) (content : List AesdBufferEntry) (entry : AesdBufferEntry)
    (rep : RingRep buffer content) (full : ¬ buffer.full = true) :
    ∃ next, aesdCircularBufferAddEntry buffer entry = some (next, evictedPtr content) ∧
      RingRep next (push 10 content entry) := by
  have entering := rep.inOffs
  have inside := rep.window.inside
  have bounded := rep.window.bounded
  have bound : buffer.inOffs.toNat < 10 := by omega
  have inNext := next_offs_nat buffer.inOffs bound
  have short : content.length ≠ 10 := fun same => full (rep.full.mpr same)
  have pushed := push_below 10 content entry (by omega)
  have zero : buffer.outOffs = 0 := rep.unrotated (by simpa using full)
  have window : ∀ isFull, Cyclic 10
      (slotAt ⟨buffer.entry.set buffer.inOffs.toNat entry, nextOffs buffer.inOffs, buffer.outOffs, isFull⟩)
      buffer.outOffs.toNat zeroEntry (push 10 content entry) := by
    intro isFull
    refine cyclic_agree 10 _ _ _ zeroEntry _
      (fun slot slotBound => slot_at_set buffer _ bound entry _ _ _ slot slotBound) ?_
    rw [entering]
    exact cyclic_push_below 10 (slotAt buffer) _ zeroEntry entry content rep.window (by omega)
  have nextIn : (nextOffs buffer.inOffs).toNat = (buffer.outOffs.toNat + (push 10 content entry).length) % 10 := by
    simp only [inNext, pushed, List.length_append, List.length_singleton]
    omega
  by_cases meet : nextOffs buffer.inOffs = buffer.outOffs
  · have length : content.length + 1 = 10 := by rw [meet] at inNext; omega
    refine ⟨⟨buffer.entry.set buffer.inOffs.toNat entry, nextOffs buffer.inOffs, buffer.outOffs, true⟩, ?_,
      window true, nextIn, by simp [pushed, length], by simp⟩
    simp [aesdCircularBufferAddEntry, bound, full, meet, evictedPtr, short]
  · have length : content.length + 1 ≠ 10 := by
      intro last
      have sameNat : (nextOffs buffer.inOffs).toNat = buffer.outOffs.toNat := by omega
      exact meet (UInt8.toNat_inj.mp sameNat)
    refine ⟨⟨buffer.entry.set buffer.inOffs.toNat entry, nextOffs buffer.inOffs, buffer.outOffs, false⟩, ?_,
      window false, nextIn, by simp [pushed, length], fun _ => zero⟩
    simp [aesdCircularBufferAddEntry, bound, full, meet, evictedPtr, short]

theorem add_entry_rep (buffer : AesdCircularBuffer) (content : List AesdBufferEntry) (entry : AesdBufferEntry)
    (rep : RingRep buffer content) :
    ∃ next, aesdCircularBufferAddEntry buffer entry = some (next, evictedPtr content) ∧
      RingRep next (push 10 content entry) := by
  by_cases full : buffer.full = true
  · exact add_entry_full buffer content entry rep full
  · exact add_entry_below buffer content entry rep full

def addEntries : AesdCircularBuffer → List AesdBufferEntry → Option (AesdCircularBuffer × List Ptr)
  | buffer, [] => some (buffer, [])
  | buffer, entry :: rest =>
      match aesdCircularBufferAddEntry buffer entry with
      | none => none
      | some (next, handedBack) =>
          match addEntries next rest with
          | none => none
          | some (final, later) => some (final, handedBack :: later)

def handedBackAt (history : List AesdBufferEntry) (call : Nat) : Ptr :=
  if call < 10 then nullPtr else (history.getD (call - 10) zeroEntry).buffptr

theorem evicted_ptr_at (history rest : List AesdBufferEntry) :
    evictedPtr (history.rtake 10) = handedBackAt (history ++ rest) history.length := by
  have length := rtake_length 10 history
  by_cases few : history.length < 10
  · have short : (history.rtake 10).length ≠ 10 := by omega
    simp only [evictedPtr, if_neg short, handedBackAt, if_pos few]
  · have full : (history.rtake 10).length = 10 := by omega
    have inside : history.length - 10 < history.length := by omega
    have oldest : (history.rtake 10).headD zeroEntry = (history ++ rest).getD (history.length - 10) zeroEntry := by
      rw [List.getD_eq_getElem?_getD, List.getElem?_append_left inside, List.rtake, List.headD_eq_head?_getD,
        List.head?_drop]
    simp only [evictedPtr, if_pos full, handedBackAt, if_neg few, oldest]

theorem add_entries_run (buffer : AesdCircularBuffer) (history added : List AesdBufferEntry)
    (rep : RingRep buffer (history.rtake 10)) :
    ∃ final, addEntries buffer added =
        some (final, (List.range' history.length added.length).map (handedBackAt (history ++ added))) ∧
      RingRep final ((history ++ added).rtake 10) := by
  induction added generalizing buffer history with
  | nil => exact ⟨buffer, rfl, by simpa using rep⟩
  | cons entry rest ih =>
      obtain ⟨next, stored, nextRep⟩ := add_entry_rep buffer _ entry rep
      rw [push_rtake] at nextRep
      obtain ⟨final, later, finalRep⟩ := ih next (history ++ [entry]) nextRep
      have joined : history ++ [entry] ++ rest = history ++ entry :: rest := by simp
      rw [joined] at later finalRep
      refine ⟨final, ?_, finalRep⟩
      rw [evicted_ptr_at history (entry :: rest)] at stored
      simp [addEntries, stored, later, List.range'_succ]

theorem ring_refines_fifo (added : List AesdBufferEntry) :
    ∃ buffer handedBack, addEntries aesdCircularBufferInit added = some (buffer, handedBack) ∧
      logicalContent buffer = added.rtake 10 ∧ (logicalContent buffer).length = min added.length 10 ∧
      buffer.inOffs.toNat < 10 ∧ buffer.outOffs.toNat < 10 ∧
      (buffer.full = true ↔ 10 ≤ added.length) ∧
      (∀ slot, slot < 10 → slot ∉ logicalSlots buffer → slotAt buffer slot = zeroEntry) ∧
      handedBack.length = added.length ∧
      (∀ call, call < added.length → call < 10 → handedBack[call]? = some nullPtr) ∧
      (∀ call, call < added.length → 10 ≤ call → handedBack[call]? = (added[call - 10]?).map AesdBufferEntry.buffptr) ∧
      handedBack.drop 10 ++ (logicalContent buffer).map AesdBufferEntry.buffptr =
        added.map AesdBufferEntry.buffptr := by
  obtain ⟨buffer, run, rep⟩ := add_entries_run aesdCircularBufferInit [] added (by simpa using ring_rep_init)
  simp only [List.nil_append, List.length_nil] at run rep
  have content := ring_rep_content buffer _ rep
  have length := rtake_length 10 added
  have inside := rep.window.inside
  have entering := rep.inOffs
  refine ⟨buffer, _, run, content, by rw [content, length], by omega, inside, ?_, ?_, by simp, ?_, ?_, ?_⟩
  · rw [rep.full]
    omega
  · intro slot bound unused
    obtain ⟨i, iBound, reached⟩ := wrap_surjective 10 buffer.outOffs.toNat slot inside bound
    have beyond : (added.rtake 10).length ≤ i := by
      by_contra near
      refine unused (List.mem_map.mpr ⟨i, ?_, reached⟩)
      rw [List.mem_range, ring_rep_count buffer _ rep]
      omega
    rw [← reached, rep.window.cell i iBound, List.getD_eq_getElem?_getD, List.getElem?_eq_none beyond, Option.getD_none]
  · intro call bound few
    simp [bound, handedBackAt, few]
  · intro call bound many
    have inAdded : call - 10 < added.length := by omega
    simp [bound, handedBackAt, Nat.not_lt.mpr many, inAdded, List.getD_eq_getElem?_getD]
  · have returned : (List.range' 0 added.length).drop 10 = List.range' 10 (added.length - 10) := by
      simp [List.drop_range']
    have passed : ((List.range' 10 (added.length - 10)).map (handedBackAt added)) =
        (added.take (added.length - 10)).map AesdBufferEntry.buffptr := by
      apply List.ext_getElem
      · simp
      · intro call left right
        have inAdded : call < added.length := by simp at left; omega
        have late : ¬ 10 + call < 10 := by omega
        simp [handedBackAt, inAdded, late, List.getD_eq_getElem?_getD]
    rw [content, ← List.map_drop, returned, passed, ← List.map_append, List.rtake, List.take_append_drop]

end AesdChar

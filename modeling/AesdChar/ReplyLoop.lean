import AesdChar.Device
import AesdChar.Library.PartialTransfer

set_option autoImplicit false

namespace AesdChar

open PartialTransfer

-- What fread gives, with the indicator that it sets.
inductive FreadResult where
  | block (bytes : Bytes)
  | endOfFile (bytes : Bytes)
  | error (bytes : Bytes)

def FreadResult.bytes : FreadResult → Bytes
  | .block bytes => bytes
  | .endOfFile bytes => bytes
  | .error bytes => bytes

def FreadResult.feof : FreadResult → Bool
  | .endOfFile _ => true
  | _ => false

structure ReplyLoop where
  feof : Bool
  failed : Bool
  accepted : Bytes

def replyLoopStart : ReplyLoop := ⟨false, false, []⟩

-- The error indicator is not looked at, and what send has not taken is dropped.
def replyRound (state : ReplyLoop) (read : FreadResult) (sent : Option Nat) : ReplyLoop :=
  if state.feof then state
  else ⟨read.feof, state.failed || sent.isNone, state.accepted ++ read.bytes.take (sent.getD 0)⟩

def replyRounds (reads : Nat → FreadResult) (sends : Nat → Option Nat) : Nat → ReplyLoop
  | 0 => replyLoopStart
  | n + 1 => replyRound (replyRounds reads sends n) (reads n) (sends n)

section

variable (reads : Nat → FreadResult) (sends : Nat → Option Nat)

theorem reply_rounds_feof (n : Nat) : (replyRounds reads sends n).feof = true ↔ ∃ k < n, (reads k).feof = true := by
  induction n with
  | zero => simp [replyRounds, replyLoopStart]
  | succ n ih =>
      by_cases left : (replyRounds reads sends n).feof = true
      · obtain ⟨k, early, isEnd⟩ := ih.mp left
        rw [replyRounds, replyRound, if_pos left]
        exact iff_of_true left ⟨k, Nat.lt_succ_of_lt early, isEnd⟩
      · rw [replyRounds, replyRound, if_neg left]
        constructor
        · exact fun isEnd => ⟨n, Nat.lt_succ_self n, isEnd⟩
        · intro reported
          obtain ⟨k, early, isEnd⟩ := reported
          rcases Nat.lt_succ_iff_lt_or_eq.mp early with earlier | rfl
          · exact absurd (ih.mpr ⟨k, earlier, isEnd⟩) left
          · exact isEnd

def FewBlocks : Prop := ∃ bound, ∀ k, bound ≤ k → ∀ bytes, reads k ≠ .block bytes

theorem reply_ends_exactly : (∃ n, (replyRounds reads sends n).feof = true) ↔ ∃ k, (reads k).feof = true := by
  constructor
  · intro leaves
    obtain ⟨n, left⟩ := leaves
    obtain ⟨k, _, isEnd⟩ := (reply_rounds_feof reads sends n).mp left
    exact ⟨k, isEnd⟩
  · intro reported
    obtain ⟨k, isEnd⟩ := reported
    exact ⟨k + 1, (reply_rounds_feof reads sends (k + 1)).mpr ⟨k, Nat.lt_succ_self k, isEnd⟩⟩

theorem reply_never_ends :
    FewBlocks (fun _ => .error []) ∧ ¬ ∃ n, (replyRounds (fun _ => .error []) (fun _ => some 0) n).feof = true := by
  refine ⟨⟨0, fun _ _ _ same => by cases same⟩, ?_⟩
  intro leaves
  obtain ⟨n, left⟩ := leaves
  obtain ⟨_, _, isEnd⟩ := (reply_rounds_feof _ _ n).mp left
  cases isEnd

structure DeliversFile (last : Nat) : Prop where
  blocks : ∀ k < last, ∃ bytes, reads k = .block bytes
  ends : ∃ bytes, reads last = .endOfFile bytes
  sized : ∀ k ≤ last, (reads k).bytes.length ≤ 512

def blockOf (k : Nat) : Bytes := (reads k).bytes

def sentOf (k : Nat) : Nat := (sends k).getD 0

def fileContent (last : Nat) : Bytes := content (blockOf reads) (last + 1)

-- send takes some of a block that has any, or gives -1.
def SendsSome (last : Nat) : Prop :=
  ∀ k ≤ last, ∀ count, sends k = some count → count ≤ (blockOf reads k).length ∧ (blockOf reads k ≠ [] → 1 ≤ count)

theorem sent_inside (last : Nat) (sendsSome : SendsSome reads sends last) :
    ∀ k < last + 1, sentOf sends k ≤ (blockOf reads k).length := by
  intro k early
  rw [sentOf]
  cases answer : sends k with
  | none => exact Nat.zero_le _
  | some count => exact (sendsSome k (Nat.le_of_lt_succ early) count answer).1

theorem feof_at_last (last : Nat) (delivers : DeliversFile reads last) (n : Nat) :
    (replyRounds reads sends n).feof = true ↔ last < n := by
  rw [reply_rounds_feof]
  constructor
  · intro reported
    obtain ⟨k, early, isEnd⟩ := reported
    by_contra notYet
    obtain ⟨bytes, block⟩ := delivers.blocks k (by omega)
    rw [block] at isEnd
    cases isEnd
  · intro passed
    obtain ⟨bytes, ends⟩ := delivers.ends
    exact ⟨last, passed, by rw [ends]; rfl⟩

theorem accepted_rounds (last : Nat) (delivers : DeliversFile reads last) (n : Nat) :
    (replyRounds reads sends n).accepted = accepted (blockOf reads) (sentOf sends) (min n (last + 1)) := by
  induction n with
  | zero => rfl
  | succ n ih =>
      by_cases left : (replyRounds reads sends n).feof = true
      · have passed := (feof_at_last reads sends last delivers n).mp left
        have count : min n (last + 1) = min (n + 1) (last + 1) := by omega
        rw [replyRounds, replyRound, if_pos left, ih, count]
      · have before : ¬ last < n := fun passed => left ((feof_at_last reads sends last delivers n).mpr passed)
        have here : min n (last + 1) = n := by omega
        have next : min (n + 1) (last + 1) = n + 1 := by omega
        rw [replyRounds, replyRound, if_neg left, next, accepted_succ, ← here, ← ih, here]
        rfl

def FrontsOnly (last : Nat) : Prop := ∀ n, (replyRounds reads sends n).accepted <+: fileContent reads last

def WholeUnlessFailed (last : Nat) : Prop :=
  (∀ k ≤ last, sends k ≠ none) → ∀ n, last < n → (replyRounds reads sends n).accepted = fileContent reads last

-- Bytes lost before a block do not show in what send takes of it.
structure LossHidden (last : Nat) : Prop where
  unseen : ∀ k < last + 1, LossUnseen (blockOf reads) (sentOf sends) (last + 1) k
  whole : (∀ k ≤ last, sends k ≠ none) → ∀ k < last + 1, sentOf sends k = (blockOf reads k).length

theorem reply_faithful_exactly (last : Nat) (delivers : DeliversFile reads last)
    (sendsSome : SendsSome reads sends last) :
    FrontsOnly reads sends last ∧ WholeUnlessFailed reads sends last ↔ LossHidden reads sends last := by
  have inside := sent_inside reads sends last sendsSome
  have fronts : FrontsOnly reads sends last ↔
      ∀ k < last + 1, LossUnseen (blockOf reads) (sentOf sends) (last + 1) k := by
    rw [← accepted_prefix_iff _ _ _ inside]
    constructor
    · intro front m early
      have prefixed := front m
      rwa [accepted_rounds reads sends last delivers, Nat.min_eq_left early] at prefixed
    · intro front n
      rw [accepted_rounds reads sends last delivers]
      exact front _ (Nat.min_le_right _ _)
  have done : ∀ n, last < n →
      (replyRounds reads sends n).accepted = accepted (blockOf reads) (sentOf sends) (last + 1) := by
    intro n passed
    rw [accepted_rounds reads sends last delivers, Nat.min_eq_right passed]
  constructor
  · intro faithful
    obtain ⟨front, all⟩ := faithful
    refine ⟨fronts.mp front, fun noFailure => ?_⟩
    have prefixed := front (last + 1)
    rw [done _ (Nat.lt_succ_self last)] at prefixed
    rw [← accepted_all_iff _ _ _ inside prefixed, ← done _ (Nat.lt_succ_self last)]
    exact all noFailure (last + 1) (Nat.lt_succ_self last)
  · intro hidden
    have front := fronts.mpr hidden.unseen
    refine ⟨front, fun noFailure n passed => ?_⟩
    have prefixed := front n
    rw [done n passed] at prefixed ⊢
    exact (accepted_all_iff _ _ _ inside prefixed).mpr (hidden.whole noFailure)

theorem loss_hidden_stopped (last first : Nat) (before : ∀ k < first, sentOf sends k = (blockOf reads k).length)
    (stopped : ∀ k, first < k → k ≤ last → sends k = none)
    (ends : first < last ∨ sends first = none ∨ sentOf sends first = (blockOf reads first).length) :
    LossHidden reads sends last := by
  refine ⟨fun k early => ?_, fun noFailure k early => ?_⟩
  · by_cases kept : k ≤ first
    · have nothing : lost (blockOf reads) (sentOf sends) k = 0 :=
        Finset.sum_eq_zero fun j below => by
          rw [before j (Nat.lt_of_lt_of_le (Finset.mem_range.mp below) kept), Nat.sub_self]
      rw [LossUnseen, nothing, Nat.sub_zero]
    · have none : sentOf sends k = 0 := by rw [sentOf, stopped k (by omega) (by omega)]; rfl
      rw [LossUnseen, none, List.take_zero, List.take_zero]
  · by_cases later : first < last
    · exact absurd (stopped last later (Nat.le_refl last)) (noFailure last (Nat.le_refl last))
    · by_cases inside : k < first
      · exact before k inside
      · obtain rfl : k = first := by omega
        exact (ends.resolve_left later).resolve_left (noFailure k (Nat.le_of_lt_succ early))

end

def twoBlocks (first second : Bytes) (k : Nat) : FreadResult := if k = 0 then .block first else .endOfFile second

theorem two_blocks_delivered (first second : Bytes) (firstSized : first.length ≤ 512)
    (secondSized : second.length ≤ 512) :
    DeliversFile (twoBlocks first second) 1 where
  blocks k early := ⟨first, if_pos (Nat.lt_one_iff.mp early)⟩
  ends := ⟨second, rfl⟩
  sized k early := by
    rcases Nat.le_one_iff_eq_zero_or_eq_one.mp early with rfl | rfl
    · exact firstSized
    · exact secondSized

theorem reply_faithful_whole_blocks :
    FrontsOnly (twoBlocks [97, 98] [10]) (fun k => some (if k = 0 then 2 else 1)) 1 ∧
      WholeUnlessFailed (twoBlocks [97, 98] [10]) (fun k => some (if k = 0 then 2 else 1)) 1 := by
  refine (reply_faithful_exactly _ _ 1 (two_blocks_delivered _ _ (by decide) (by decide)) ?_).mpr ⟨?_, ?_⟩
  · intro k early count answer
    obtain rfl := Option.some.inj answer
    rcases Nat.le_one_iff_eq_zero_or_eq_one.mp early with rfl | rfl <;> decide
  · intro k early
    rcases Nat.le_one_iff_eq_zero_or_eq_one.mp (Nat.le_of_lt_succ early) with rfl | rfl <;> rfl
  · intro _ k early
    rcases Nat.le_one_iff_eq_zero_or_eq_one.mp (Nat.le_of_lt_succ early) with rfl | rfl <;> rfl

def longFile : Nat → FreadResult := twoBlocks (List.replicate 512 97) [98, 10]

theorem reply_loses_bytes :
    (DeliversFile longFile 1 ∧ SendsSome longFile (fun k => some (if k = 0 then 511 else 2)) 1 ∧
        ¬ WholeUnlessFailed longFile (fun k => some (if k = 0 then 511 else 2)) 1) ∧
      (DeliversFile longFile 1 ∧ SendsSome longFile (fun k => if k = 0 then none else some 2) 1 ∧
        ¬ FrontsOnly longFile (fun k => if k = 0 then none else some 2) 1) := by
  have delivered : DeliversFile longFile 1 := two_blocks_delivered _ _ (by decide +kernel) (by decide)
  refine ⟨⟨delivered, ?_, fun whole => ?_⟩, delivered, ?_, fun front => ?_⟩
  · intro k early count answer
    obtain rfl := Option.some.inj answer
    rcases Nat.le_one_iff_eq_zero_or_eq_one.mp early with rfl | rfl <;> decide +kernel
  · exact absurd (whole (fun _ _ => by simp) 2 (by decide)) (by decide +kernel)
  · intro k early count answer
    rcases Nat.le_one_iff_eq_zero_or_eq_one.mp early with rfl | rfl
    · cases answer
    · obtain rfl := Option.some.inj answer
      decide +kernel
  · exact absurd (front 2) (by decide +kernel)

end AesdChar

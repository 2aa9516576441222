import AesdChar.ReadRun
import AesdChar.Library.SlidingWindow

set_option autoImplicit false

namespace AesdChar

open CyclicQueue HeapStore SlidingWindow

structure ReplyState where
  kernel : Kernel
  completed : List Bytes
  fPos : Int64
  finished : Bool

-- The loop reads without log_mutex, so any call on another file may come
-- between two of its reads.
inductive ReplyStep where
  | read (count : UInt64)
  | other (filp : Filp) (call : DriverCall)

def retainedLines (kernel : Kernel) : List Bytes := (retained kernel).getD []

def ReplyState.place (state : ReplyState) : Nat :=
  state.completed.flatten.length - (retainedLines state.kernel).flatten.length + position state.fPos

def evictedBy (kernel : Kernel) (line : List Bytes) : List (Move UInt8) :=
  if kernel.dev.buffer.full ∧ line ≠ [] then [.slide ((retainedLines kernel).headD []).length] else []

def replyStep (api : KernelApi) (readBuf : Ptr) (state : ReplyState) : ReplyStep →
    Option (ReplyState × List (Move UInt8))
  | .read count =>
      if state.finished then some (state, [])
      else match aesdRead state.kernel ⟨true, state.fPos⟩ readBuf count state.fPos ⟨true, true⟩ with
        | none => none
        | some result =>
            if result.ret = 0 then some (⟨result.kernel, state.completed, result.fPos, true⟩, [])
            else some (⟨result.kernel, state.completed, result.fPos, false⟩, [.take state.place result.out])
  | .other filp call =>
      match driverCall api state.kernel filp call with
      | none => none
      | some result =>
          let line := completedBy ⟨state.kernel, filp, call, result⟩
          some (⟨result.kernel, state.completed ++ line, state.fPos, state.finished⟩, evictedBy state.kernel line)

def replyRun (api : KernelApi) (readBuf : Ptr) : ReplyState → List ReplyStep → Option (ReplyState × List (Move UInt8))
  | state, [] => some (state, [])
  | state, step :: rest =>
      match replyStep api readBuf state step with
      | none => none
      | some (next, moves) =>
          match replyRun api readBuf next rest with
          | none => none
          | some (final, later) => some (final, moves ++ later)

def evictedLength (completed : List Bytes) : Nat := (completed.take (completed.length - 10)).flatten.length

theorem evicted_split (completed : List Bytes) :
    completed.flatten = (completed.take (completed.length - 10)).flatten ++ (completed.rtake 10).flatten := by
  rw [← List.flatten_append, List.rtake, List.take_append_drop]

theorem evicted_retained (completed : List Bytes) :
    completed.flatten.length = evictedLength completed + (completed.rtake 10).flatten.length := by
  conv => lhs; rw [evicted_split, List.length_append]
  rfl

-- Bytes of the retained lines keep their place in every longer history.
theorem retained_place (completed final : List Bytes) (offset : Nat) (out : Bytes) (grown : completed <+: final)
    (data : out = ((completed.rtake 10).flatten.drop offset).take out.length) :
    out = (final.flatten.drop (evictedLength completed + offset)).take out.length := by
  obtain ⟨later, rfl⟩ := grown
  have fits := congrArg List.length data
  rw [List.length_take, List.length_drop] at fits
  have within : out.length ≤ ((completed.rtake 10).flatten.drop offset).length := by
    rw [List.length_drop]
    omega
  by_cases inside : offset ≤ (completed.rtake 10).flatten.length
  · rw [← List.drop_drop, List.flatten_append, evicted_split completed, List.append_assoc,
      evictedLength, List.drop_left,
      List.drop_append_of_le_length inside, List.take_append_of_le_length within]
    exact data
  · have nothing : out = [] := List.eq_nil_of_length_eq_zero (by omega)
    simp [nothing]

theorem evicted_grown (completed final : List Bytes) (grown : completed <+: final) :
    evictedLength completed = (final.take (completed.length - 10)).flatten.length := by
  obtain ⟨later, rfl⟩ := grown
  rw [evictedLength, List.take_append_of_le_length (by omega)]

theorem evicted_push (completed : List Bytes) (line : Bytes) (full : 10 ≤ completed.length) :
    evictedLength (completed ++ [line]) = evictedLength completed + ((completed.rtake 10).headD []).length := by
  have count : (completed ++ [line]).length - 10 = completed.length - 10 + 1 := by
    rw [List.length_append, List.length_singleton]
    omega
  have inside : completed.length - 10 < completed.length := by omega
  rw [evictedLength, count, List.take_append_of_le_length (by omega), List.take_add_one, List.flatten_append,
    List.length_append, evictedLength, List.rtake, List.headD_eq_head?_getD, List.head?_drop]
  simp [inside]

theorem evicted_room (completed : List Bytes) (line : Bytes) (room : completed.length < 10) :
    evictedLength (completed ++ [line]) = evictedLength completed := by
  have none : completed.length - 10 = 0 := by omega
  have noneMore : (completed ++ [line]).length - 10 = 0 := by
    rw [List.length_append, List.length_singleton]
    omega
  rw [evictedLength, noneMore, evictedLength, none, List.take_zero, List.take_zero]

theorem completed_by_cases (event : Event) : completedBy event = [] ∨ ∃ line, completedBy event = [line] := by
  unfold completedBy
  split
  · split
    · cases ((retained event.result.kernel).getD []).getLast? with
      | none => exact Or.inl rfl
      | some line => exact Or.inr ⟨line, rfl⟩
    · exact Or.inl rfl
  · exact Or.inl rfl

theorem stored_nonempty (api : KernelApi) (heap : Heap) (content : List AesdBufferEntry) (lines : List Bytes)
    (stored : List.Forall₂ (BlockRep api heap) content lines) (line : Bytes) (member : line ∈ lines) : line ≠ [] := by
  induction stored with
  | nil => simp at member
  | cons block _ ih =>
      rcases List.mem_cons.mp member with same | later
      · rw [same]
        exact block.nonempty
      · exact ih later

theorem other_step_slides (api : KernelApi) (kernel : Kernel) (content : List AesdBufferEntry) (completed : List Bytes)
    (working : Option Bytes) (event : Event) (rep : DevRep api kernel content (completed.rtake 10) working) :
    (evictedBy kernel (completedBy event) = [] ∧
      evictedLength (completed ++ completedBy event) = evictedLength completed) ∨
    ∃ n, 0 < n ∧ evictedBy kernel (completedBy event) = [.slide n] ∧
      evictedLength (completed ++ completedBy event) = evictedLength completed + n := by
  have length := rtake_length 10 completed
  have same := rep.stored.length_eq
  have lines : retainedLines kernel = completed.rtake 10 := by
    rw [retainedLines, dev_rep_retained api kernel content _ working rep, Option.getD_some]
  rcases completed_by_cases event with none | ⟨line, one⟩
  · exact Or.inl ⟨by simp [evictedBy, none], by rw [none, List.append_nil]⟩
  · rw [one]
    by_cases full : kernel.dev.buffer.full = true
    · have ten := rep.ring.full.mp full
      have member : (completed.rtake 10).headD [] ∈ completed.rtake 10 := by
        cases linesEq : completed.rtake 10 with
        | nil => rw [linesEq] at same; simp only [List.length_nil] at same; omega
        | cons head tail => exact List.mem_cons_self
      have some := stored_nonempty api kernel.heap content _ rep.stored _ member
      refine Or.inr ⟨((completed.rtake 10).headD []).length, List.length_pos_iff.mpr some, ?_, ?_⟩
      · simp [evictedBy, full, lines]
      · exact evicted_push completed line (by omega)
    · have room : content.length ≠ 10 := fun ten => full (rep.ring.full.mpr ten)
      exact Or.inl ⟨by simp [evictedBy, full], evicted_room completed line (by omega)⟩

structure Delivered (state final : ReplyState) (moves : List (Move UInt8)) : Prop where
  follows : Follows (evictedLength state.completed) (position state.fPos) moves
  grown : state.completed <+: final.completed
  exact : ∀ taken ∈ pieces moves, taken.2 = (final.completed.flatten.drop taken.1).take taken.2.length
  first : ∀ taken ∈ (pieces moves).head?, ∃ count, taken.1 = (final.completed.take count).flatten.length +
    position state.fPos

theorem delivered_quiet (state next final : ReplyState) (moves : List (Move UInt8))
    (grown : state.completed <+: next.completed) (same : next.fPos = state.fPos)
    (still : evictedLength next.completed = evictedLength state.completed) (later : Delivered next final moves) :
    Delivered state final moves := by
  refine ⟨?_, grown.trans later.grown, later.exact, ?_⟩
  · rw [← still, ← same]
    exact later.follows
  · rw [← same]
    exact later.first

theorem delivered_slide (state next final : ReplyState) (n : Nat) (moves : List (Move UInt8))
    (grown : state.completed <+: next.completed) (same : next.fPos = state.fPos) (positive : 0 < n)
    (slid : evictedLength next.completed = evictedLength state.completed + n) (later : Delivered next final moves) :
    Delivered state final (.slide n :: moves) := by
  refine ⟨.slide _ _ n moves positive ?_, grown.trans later.grown, later.exact, ?_⟩
  · rw [← slid, ← same]
    exact later.follows
  · rw [← same]
    exact later.first

theorem delivered_take (state next final : ReplyState) (out : Bytes) (moves : List (Move UInt8))
    (same : next.completed = state.completed) (moved : position next.fPos = position state.fPos + out.length)
    (data : out = ((state.completed.rtake 10).flatten.drop (position state.fPos)).take out.length)
    (later : Delivered next final moves) :
    Delivered state final (.take (evictedLength state.completed + position state.fPos) out :: moves) := by
  have grown : state.completed <+: final.completed := by
    rw [← same]
    exact later.grown
  refine ⟨.take _ _ out moves ?_, grown, ?_, ?_⟩
  · rw [← moved, ← same]
    exact later.follows
  · intro taken member
    rcases List.mem_cons.mp member with here | rest
    · rw [here]
      exact retained_place state.completed final.completed _ out grown data
    · exact later.exact taken rest
  · intro taken member
    cases Option.some.inj member
    exact ⟨state.completed.length - 10, by rw [evicted_grown _ _ grown]⟩

theorem reply_run_delivered (api : KernelApi) (readBuf : Ptr) (state : ReplyState) (steps : List ReplyStep)
    (content : List AesdBufferEntry) (working : Option Bytes) (given : readBuf ≠ nullPtr)
    (rep : DevRep api state.kernel content (state.completed.rtake 10) working) :
    ∃ final moves, replyRun api readBuf state steps = some (final, moves) ∧ Delivered state final moves := by
  induction steps generalizing state content working with
  | nil => exact ⟨state, [], rfl, .done _ _, List.prefix_rfl, by simp [pieces], by simp [pieces]⟩
  | cons step rest ih =>
      cases step with
      | read count =>
          by_cases finished : state.finished = true
          · obtain ⟨final, moves, later, delivered⟩ := ih state content working rep
            exact ⟨final, moves, by simp only [replyRun, replyStep, finished, if_true, later, List.nil_append],
              delivered⟩
          · obtain ⟨out, fPos, ran, advanced, moved, data, _⟩ :=
              aesd_read_copied api state.kernel content _ working ⟨true, state.fPos⟩ readBuf count
                state.fPos rep given rfl
            have place : state.place = evictedLength state.completed + position state.fPos := by
              rw [ReplyState.place, retainedLines, dev_rep_retained api state.kernel content _ working rep,
                Option.getD_some,
                evicted_retained]
              omega
            by_cases ended : byteCount out = 0
            · let next : ReplyState := ⟨state.kernel, state.completed, fPos, true⟩
              obtain ⟨final, moves, later, delivered⟩ := ih next content working rep
              refine ⟨final, moves, by simp only [replyRun, replyStep, finished, ran, ended, if_true, later,
                List.nil_append, next, Bool.false_eq_true, if_false], ?_⟩
              refine delivered_quiet state next final moves List.prefix_rfl ?_ rfl delivered
              simp only [next, advanced, ended, Int64.add_zero]
            · let next : ReplyState := ⟨state.kernel, state.completed, fPos, false⟩
              obtain ⟨final, moves, later, delivered⟩ := ih next content working rep
              refine ⟨final, .take (evictedLength state.completed + position state.fPos) out :: moves, ?_,
                delivered_take state next final out moves rfl moved data delivered⟩
              simp only [replyRun, replyStep, finished, ran, ended, if_false, later, place, List.singleton_append, next,
                Bool.false_eq_true]
      | other filp call =>
          obtain ⟨result, ran, effect⟩ := driver_call_effect api state.kernel content _ working filp call rep
          obtain ⟨nextContent, nextWorking, nextRep⟩ :=
            call_completes api state.kernel content _ working filp call result rep effect
          let next : ReplyState := ⟨result.kernel, state.completed ++ completedBy ⟨state.kernel, filp, call, result⟩,
            state.fPos, state.finished⟩
          obtain ⟨final, moves, later, delivered⟩ := ih next nextContent nextWorking nextRep
          rcases other_step_slides api state.kernel content _ working ⟨state.kernel, filp, call, result⟩ rep with
            ⟨none, still⟩ | ⟨n, positive, one, slid⟩
          · exact ⟨final, moves, by simp only [replyRun, replyStep, ran, later, none, List.nil_append, next],
              delivered_quiet state next final moves (List.prefix_append _ _) rfl still delivered⟩
          · exact ⟨final,
              .slide n :: moves, by simp only [replyRun, replyStep, ran, later, one, List.singleton_append, next],
              delivered_slide state next final n moves (List.prefix_append _ _) rfl positive slid delivered⟩

-- No byte between two delivered ones is skipped or delivered twice, and all
-- of them together are one segment of the history that starts a line.
structure Gapless (completed : List Bytes) (moves : List (Move UInt8)) : Prop where
  joined : Joined (pieces moves)
  segment : ∃ count, text (pieces moves) =
    (completed.flatten.drop (completed.take count).flatten.length).take (text (pieces moves)).length

theorem delivered_gapless (state final : ReplyState) (moves : List (Move UInt8)) (start : position state.fPos = 0)
    (delivered : Delivered state final moves) : Gapless final.completed moves ↔ Still moves := by
  have joined := joined_iff_still _ _ moves delivered.follows
  refine ⟨fun gapless => joined.mp gapless.joined, fun still => ⟨joined.mpr still, ?_⟩⟩
  have exact := delivered.exact
  have first := delivered.first
  have chain := joined.mpr still
  cases taken : pieces moves with
  | nil => exact ⟨0, rfl⟩
  | cons head rest =>
      obtain ⟨place, piece⟩ := head
      rw [taken] at exact first chain
      obtain ⟨count, begins⟩ := first (place, piece) rfl
      rw [start, Nat.add_zero] at begins
      refine ⟨count, ?_⟩
      rw [← begins]
      exact joined_text final.completed.flatten place piece rest exact chain

theorem reply_gapless_exactly (api : KernelApi) (events : List Event) (kernel : Kernel) (readBuf : Ptr)
    (steps : List ReplyStep) (run : Run api events kernel) (given : readBuf ≠ nullPtr) :
    ∃ final moves, replyRun api readBuf ⟨kernel, completedLines events, 0, false⟩ steps = some (final, moves) ∧
      (∀ taken ∈ pieces moves, taken.2 = (final.completed.flatten.drop taken.1).take taken.2.length) ∧
      (Gapless final.completed moves ↔ Still moves) := by
  obtain ⟨content, working, rep⟩ := run_rep api events kernel run
  obtain ⟨final, moves, ran, delivered⟩ :=
    reply_run_delivered api readBuf ⟨kernel, completedLines events, 0, false⟩ steps content working given rep
  exact ⟨final, moves, ran, delivered.exact, delivered_gapless _ final moves rfl delivered⟩

def otherWrite (text : Bytes) (writeBuf block : Ptr) : ReplyStep :=
  .other ⟨true, 0⟩ (sampleWrite text writeBuf block).toDriver.2

theorem reply_gapless_below_ten :
    ∃ final moves, replyRun stockKernel 4096 ⟨loadedModule, completedLines [], 0, false⟩
        [otherWrite [97, 10] 4096 8192, .read 1, otherWrite [98, 10] 4096 12288, .read 5, .read 5, .read 5] =
      some (final, moves) ∧ Gapless final.completed moves := by
  obtain ⟨final, moves, ran, _, gapless⟩ := reply_gapless_exactly stockKernel [] loadedModule 4096
    [otherWrite [97, 10] 4096 8192, .read 1, otherWrite [98, 10] 4096 12288, .read 5, .read 5, .read 5]
    .loaded (by decide)
  have seen : (replyRun stockKernel 4096 ⟨loadedModule, completedLines [], 0, false⟩
      [otherWrite [97, 10] 4096 8192, .read 1, otherWrite [98, 10] 4096 12288, .read 5, .read 5, .read 5]).map Prod.snd
      = some [.take 0 [97], .take 1 [10], .take 2 [98, 10]] := by decide
  rw [ran, Option.map_some] at seen
  have logged : moves = [.take 0 [97], .take 1 [10], .take 2 [98, 10]] := Option.some.inj seen
  refine ⟨final, moves, ran, gapless.mpr ?_⟩
  rw [logged]
  exact ⟨rfl, rfl, trivial⟩

theorem reply_skips_evicted :
    ∃ events kernel final moves, Run stockKernel events kernel ∧
      replyRun stockKernel 4096 ⟨kernel, completedLines events, 0, false⟩
          [.read 2, otherWrite [65, 10] 4096 (8192 * 11), .read 2] = some (final, moves) ∧
      text (pieces moves) = [48, 10, 50, 10] ∧ ¬ text (pieces moves) <:+: final.completed.flatten ∧
      ¬ Gapless final.completed moves := by
  have seen : (runCalls stockKernel loadedModule fullRing).bind (fun ran =>
      (replyRun stockKernel 4096 ⟨ran.2, completedLines ran.1, 0, false⟩
        [.read 2, otherWrite [65, 10] 4096 (8192 * 11), .read 2]).map fun reply =>
          (text (pieces reply.2), reply.1.completed.flatten)) =
      some ([48, 10, 50, 10],
        [48, 10, 49, 10, 50, 10, 51, 10, 52, 10, 53, 10, 54, 10, 55, 10, 56, 10, 57, 10, 65, 10]) := by decide
  obtain ⟨events, kernel, ran, run⟩ := sample_run fullRing (by decide)
  rw [ran, Option.bind_some] at seen
  obtain ⟨⟨final, moves⟩, replied, same⟩ := Option.map_eq_some_iff.mp seen
  obtain ⟨collected, history⟩ := Prod.mk.inj same
  have skipped : ¬ text (pieces moves) <:+: final.completed.flatten := by
    rw [collected, history]
    decide
  refine ⟨events, kernel, final, moves, run, replied, collected, skipped, fun gapless => skipped ?_⟩
  obtain ⟨count, segment⟩ := gapless.segment
  rw [segment]
  exact (List.take_prefix _ _).isInfix.trans (List.drop_suffix _ _).isInfix

end AesdChar

import AesdChar.ReceivePacket

set_option autoImplicit false

namespace AesdChar

open CString

-- buf after these chunks, and the string in it.
def recvBuf (chunks : List Bytes) : Bytes :=
  chunks.foldl (fun buf bytes => bytes ++ buf.drop bytes.length) receiveStart.buf

def recvText (chunks : List Bytes) : Bytes := CString.text (recvBuf chunks)

def EndsReceive (chunks : List Bytes) : Prop :=
  newLine ∈ recvText chunks ∨ (totalCmdLen ≤ chunks.flatten.length ∧ aesdCharIoctlCmd <+: recvText chunks)

instance (chunks : List Bytes) : Decidable (EndsReceive chunks) :=
  inferInstanceAs (Decidable (newLine ∈ recvText chunks ∨
    (totalCmdLen ≤ chunks.flatten.length ∧ aesdCharIoctlCmd <+: recvText chunks)))

-- The chunks the loop asks for after earlier ones.
def received (earlier : List Bytes) : List RecvResult → List Bytes
  | .data bytes _ :: rest => if EndsReceive earlier then earlier else received (earlier ++ [bytes]) rest
  | _ => earlier

-- A round keeps its bounds when the string in buf ends there and the block of
-- its two strings holds a newline early or is as long as memchr believes.
structure RoundInBounds (earlier : List Bytes) (bytes : Bytes) : Prop where
  nul : 0 ∈ recvBuf (earlier ++ [bytes])
  room : newLine ∈ recvText (earlier ++ [bytes]) ∨
    511 ≤ (recvText earlier).length + (recvText (earlier ++ [bytes])).length
  counted : (earlier ++ [bytes]).flatten.length < 2 ^ 31

-- The second number is looked for two bytes after the identifier: that place is
-- in the last string, in what the one before it has left, or further back.
def EndInBounds (chunks : List Bytes) : Prop :=
  if aesdCharIoctlCmd <+: recvText chunks then
    totalCmdLen - 1 ≤ (recvText chunks).length ∨ totalCmdLen - 1 ≤ (recvText chunks.dropLast).length ∨
      strtoul (((recvText chunks.dropLast.dropLast).drop (totalCmdLen - 1)).take (recvText chunks.dropLast).length) ≠
        none
  else chunks.flatten.length ≤ (recvText chunks.dropLast).length + (recvText chunks).length + 1

structure InBounds (chunks : List Bytes) : Prop where
  rounds : ∀ earlier bytes, earlier ++ [bytes] <+: chunks → RoundInBounds earlier bytes
  finish : EndInBounds chunks

theorem recv_buf_snoc (chunks : List Bytes) (bytes : Bytes) :
    recvBuf (chunks ++ [bytes]) = bytes ++ (recvBuf chunks).drop bytes.length := by
  simp [recvBuf, List.foldl_append]

theorem recv_text_nil : recvText [] = [] := by decide

theorem recv_text_length (chunks : List Bytes) (whole : (recvBuf chunks).length = 512) (ended : 0 ∈ recvBuf chunks) :
    (recvText chunks).length ≤ 511 := by
  obtain ⟨_, rest, split⟩ := text_split (recvBuf chunks) ended
  have length := congrArg List.length split
  rw [whole, List.length_append, List.length_cons] at length
  rw [recvText]
  omega

-- The locals of handle_client after these chunks, from the chunks alone.
structure ReceiveInv (chunks : List Bytes) (state : ReceiveState) : Prop where
  buf : state.buf = recvBuf chunks
  whole : (recvBuf chunks).length = 512
  ended : 0 ∈ recvBuf chunks
  total : state.totalBytesRecv = chunks.flatten.length
  running : state.failed = false
  more : state.moreBytesToRead = !decide (EndsReceive chunks)
  found : state.ioctlCmdFound = decide (aesdCharIoctlCmd <+: recvText chunks)
  final : ∃ block, state.finalBuffer = overwrite (recvText chunks) block
  length : state.finalBuffer.length = (recvText chunks.dropLast).length + (recvText chunks).length + 1
  lines : newLine ∈ state.finalBuffer.take 512 → newLine ∈ recvText chunks
  long : newLine ∈ recvText chunks ∨ chunks = [] ∨ 512 ≤ state.finalBuffer.length
  fits : (recvText chunks.dropLast).length ≤ 511
  before : chunks.dropLast = [] ∨ 511 ≤ (recvText chunks.dropLast.dropLast).length + (recvText chunks.dropLast).length
  layers : ∃ below, state.finalBuffer.take 512 <+:
    overwrite (recvText chunks)
      (overwrite (recvText chunks.dropLast) (overwrite (recvText chunks.dropLast.dropLast) below))

theorem receive_inv_start : ReceiveInv [] receiveStart where
  buf := rfl
  whole := start_whole
  ended := by decide
  total := rfl
  running := rfl
  more := by decide
  found := by decide
  final := ⟨[], rfl⟩
  length := by decide
  lines := by decide
  long := Or.inr (Or.inl rfl)
  fits := by decide
  before := Or.inl rfl
  layers := ⟨[], by decide⟩

theorem resized_front (old : Bytes) (size : Nat) (realloc : Answer) (long : 512 ≤ old.length) :
    (resized old size realloc).take 512 <+: old.take 512 := by
  rw [resized]
  by_cases shrunk : size ≤ old.length
  · have none : size - old.length = 0 := by omega
    simp only [none, staleBytes, List.range'_zero, List.map_nil, List.append_nil, List.take_take]
    exact List.take_prefix_take_left (Nat.min_le_left _ _)
  · have kept : old.take size = old := List.take_of_length_le (by omega)
    rw [kept, List.take_append_of_le_length long]

-- What a round that is not the last one leaves of the block before it.
theorem round_layers (chunks : List Bytes) (state : ReceiveState) (next below : Bytes) (realloc : Answer)
    (inv : ReceiveInv chunks state) (noLine : newLine ∉ recvText chunks)
    (lower : state.finalBuffer.take 512 <+: below) :
    (overwrite next (resized state.finalBuffer ((recvText chunks).length + next.length + 1) realloc)).take 512 <+:
      overwrite next below := by
  rcases inv.long with found | rfl | long
  · exact absurd found noLine
  · have length := resized_length state.finalBuffer ((recvText []).length + next.length + 1) realloc
    have empty : (recvText []).length = 0 := by rw [recv_text_nil, List.length_nil]
    rw [overwrite, List.drop_eq_nil_of_le (by omega)]
    exact (List.take_prefix _ _).trans ⟨below.drop (next.length + 1), by simp [overwrite]⟩
  · exact overwrite_prefix next _ below 512 ((resized_front state.finalBuffer _ realloc long).trans lower)

theorem round_lines (chunks : List Bytes) (state : ReceiveState) (next : Bytes) (realloc : Answer)
    (inv : ReceiveInv chunks state) (noLine : newLine ∉ recvText chunks) (short : next.length ≤ 511) :
    newLine ∈ (overwrite next (resized state.finalBuffer ((recvText chunks).length + next.length + 1) realloc)).take
      512 ↔
      newLine ∈ next := by
  constructor
  · intro member
    have layered := (round_layers chunks state next _ realloc inv noLine (List.prefix_refl _)).subset member
    rcases List.mem_append.mp layered with here | tail
    · exact here
    · rcases List.mem_cons.mp tail with zero | old
      · exact absurd zero (by decide)
      · exact absurd (inv.lines (List.mem_of_mem_drop old)) noLine
  · intro member
    rw [overwrite, List.take_append]
    exact List.mem_append_left _ (by rwa [List.take_of_length_le (by omega)])

-- The block a round leaves, where the string in buf is next.
structure RoundBlock (chunks : List Bytes) (next block : Bytes) : Prop where
  made : ∃ old, block = overwrite next old
  length : block.length = (recvText chunks).length + next.length + 1
  lines : newLine ∈ block.take 512 ↔ newLine ∈ next
  layers : ∃ below, block.take 512 <+:
    overwrite next (overwrite (recvText chunks) (overwrite (recvText chunks.dropLast) below))

def afterRound (chunks : List Bytes) (block : Bytes) (newLineFound : Option Nat) : ReceiveState :=
  ⟨recvBuf chunks, block, chunks.flatten.length,
    !newLineFound.isSome &&
      !(decide (totalCmdLen ≤ chunks.flatten.length) && decide (aesdCharIoctlCmd <+: recvText chunks)),
    false, decide (aesdCharIoctlCmd <+: recvText chunks)⟩

theorem round_whole (chunks : List Bytes) (bytes : Bytes) (whole : (recvBuf chunks).length = 512)
    (sized : bytes.length ≤ 512) : (recvBuf (chunks ++ [bytes])).length = 512 := by
  rw [recv_buf_snoc, List.length_append, List.length_drop, whole]
  omega

theorem flatten_snoc_length (chunks : List Bytes) (bytes : Bytes) :
    (chunks ++ [bytes]).flatten.length = chunks.flatten.length + bytes.length := by
  rw [List.flatten_append, List.length_append, List.flatten_singleton]

theorem round_run (chunks : List Bytes) (state : ReceiveState) (bytes : Bytes) (realloc : Answer)
    (inv : ReceiveInv chunks state) (noLine : newLine ∉ recvText chunks) (granted : realloc.address ≠ none)
    (sized : bytes.length ≤ 512) (nul : 0 ∈ recvBuf (chunks ++ [bytes]))
    (counted : (chunks ++ [bytes]).flatten.length < 2 ^ 31) :
    ∃ block, RoundBlock chunks (recvText (chunks ++ [bytes])) block ∧
      receiveChunk state bytes realloc = (CString.memchr block newLine 512).map
        (afterRound (chunks ++ [bytes]) block) := by
  obtain ⟨old, final⟩ := inv.final
  obtain ⟨plain, _⟩ := text_split (recvBuf chunks) inv.ended
  obtain ⟨nextPlain, rest, split⟩ := text_split (recvBuf (chunks ++ [bytes])) nul
  have short := recv_text_length (chunks ++ [bytes]) (round_whole chunks bytes inv.whole sized) nul
  have total : state.totalBytesRecv + bytes.length = (chunks ++ [bytes]).flatten.length := by
    rw [inv.total, flatten_snoc_length]
  have buf : bytes ++ state.buf.drop bytes.length = recvText (chunks ++ [bytes]) ++ 0 :: rest := by
    rw [inv.buf, ← recv_buf_snoc]
    exact split
  have ran := receive_chunk_text state bytes (recvText chunks) _ (recvText (chunks ++ [bytes])) rest
    realloc final plain buf nextPlain granted (by rw [total]; exact counted)
  rw [← buf, inv.buf, ← recv_buf_snoc, total, inv.running] at ran
  have size :=
    resized_length state.finalBuffer ((recvText chunks).length + (recvText (chunks ++ [bytes])).length + 1) realloc
  obtain ⟨below, layers⟩ := inv.layers
  refine ⟨_, ⟨⟨_, rfl⟩, ?_, round_lines chunks state _ realloc inv noLine short,
    ⟨overwrite (recvText chunks.dropLast.dropLast) below, ?_⟩⟩, ran⟩
  · rw [overwrite_length _ _ (by rw [size]; omega), size]
  · exact round_layers chunks state _ _ realloc inv noLine layers

theorem round_next (chunks : List Bytes) (state : ReceiveState) (bytes block : Bytes) (newLineFound : Option Nat)
    (inv : ReceiveInv chunks state) (noLine : newLine ∉ recvText chunks) (sized : bytes.length ≤ 512)
    (bounds : RoundInBounds chunks bytes) (round : RoundBlock chunks (recvText (chunks ++ [bytes])) block)
    (searched : CString.memchr block newLine 512 = some newLineFound) :
    ReceiveInv (chunks ++ [bytes]) (afterRound (chunks ++ [bytes]) block newLineFound) where
  buf := rfl
  whole := round_whole chunks bytes inv.whole sized
  ended := bounds.nul
  total := rfl
  running := rfl
  more := by
    have isFound := memchr_found block newLine 512 newLineFound searched
    rw [Bool.eq_iff_iff]
    simp [afterRound, isFound, round.lines, EndsReceive]
  found := rfl
  final := round.made
  length := by rw [List.dropLast_concat]; exact round.length
  lines := round.lines.mp
  long := by
    rcases bounds.room with found | room
    · exact Or.inl found
    · have length : (afterRound (chunks ++ [bytes]) block newLineFound).finalBuffer.length = _ := round.length
      exact Or.inr (Or.inr (by omega))
  fits := by
    rw [List.dropLast_concat]
    exact recv_text_length chunks inv.whole inv.ended
  before := by
    rw [List.dropLast_concat]
    rcases inv.long with found | first | long
    · exact absurd found noLine
    · exact Or.inl first
    · have length := inv.length
      exact Or.inr (by omega)
  layers := by rw [List.dropLast_concat]; exact round.layers

theorem round_in_bounds (chunks : List Bytes) (state : ReceiveState) (bytes : Bytes) (realloc : Answer)
    (inv : ReceiveInv chunks state) (noLine : newLine ∉ recvText chunks) (granted : realloc.address ≠ none)
    (sized : bytes.length ≤ 512) (ran : receiveChunk state bytes realloc ≠ none) : RoundInBounds chunks bytes := by
  have nul : 0 ∈ recvBuf (chunks ++ [bytes]) := by
    by_contra unended
    rw [recv_buf_snoc, ← inv.buf] at unended
    apply ran
    cases measured : strlen state.finalBuffer with
    | none => simp [receiveChunk, measured]
    | some n => simp [receiveChunk, measured, strlen_open _ unended]
  have counted : (chunks ++ [bytes]).flatten.length < 2 ^ 31 := by
    by_contra overflow
    rw [flatten_snoc_length, ← inv.total] at overflow
    obtain ⟨next, round⟩ := Option.ne_none_iff_exists'.mp ran
    simp only [receiveChunk, bind, Option.bind_eq_some_iff, granted, if_false, Nat.not_lt.mp overflow, if_true] at round
    obtain ⟨_, _, _, _, impossible⟩ := round
    simp at impossible
  obtain ⟨block, round, same⟩ := round_run chunks state bytes realloc inv noLine granted sized nul counted
  rw [same, Ne, Option.map_eq_none_iff, ← Ne, memchr_inside, round.lines, round.length] at ran
  exact ⟨nul, ran.imp id fun room => by omega, counted⟩

-- One round of the loop: it keeps its bounds and the invariant, or it has no
-- defined behaviour.
theorem receive_round (chunks : List Bytes) (state : ReceiveState) (bytes : Bytes) (realloc : Answer)
    (inv : ReceiveInv chunks state) (noLine : newLine ∉ recvText chunks) (granted : realloc.address ≠ none)
    (sized : bytes.length ≤ 512) (bounds : RoundInBounds chunks bytes) :
    ∃ next, receiveChunk state bytes realloc = some next ∧ ReceiveInv (chunks ++ [bytes]) next := by
  obtain ⟨block, round, same⟩ :=
    round_run chunks state bytes realloc inv noLine granted sized bounds.nul bounds.counted
  have inside : CString.memchr block newLine 512 ≠ none := by
    rw [memchr_inside, round.lines, round.length]
    exact bounds.room.imp id fun room => by omega
  obtain ⟨newLineFound, searched⟩ := Option.ne_none_iff_exists'.mp inside
  exact ⟨_, by rw [same, searched, Option.map_some],
    round_next chunks state bytes block newLineFound inv noLine sized bounds round searched⟩

theorem round_prefix (chunks earlier others : List Bytes) (bytes next : Bytes) (same : earlier.length = chunks.length)
    (here : chunks ++ [bytes] <+: others) (there : earlier ++ [next] <+: others) : earlier = chunks ∧ next = bytes := by
  have lengths : (earlier ++ [next]).length = (chunks ++ [bytes]).length := by
    rw [List.length_append, List.length_append, same, List.length_singleton, List.length_singleton]
  have equal := List.prefix_of_prefix_length_le there here (Nat.le_of_eq lengths)
  obtain ⟨sameFront, sameLast⟩ := List.append_inj (equal.eq_of_length lengths) same
  exact ⟨sameFront, List.singleton_inj.mp sameLast⟩

theorem received_prefix (chunks : List Bytes) (events : List RecvResult) : chunks <+: received chunks events := by
  induction events generalizing chunks with
  | nil => exact List.prefix_refl _
  | cons event rest ih =>
      cases event with
      | error => exact List.prefix_refl _
      | closed => exact List.prefix_refl _
      | data bytes realloc =>
          rw [received]
          split
          · exact List.prefix_refl _
          · exact (List.prefix_append _ _).trans (ih _)

theorem nul_inside (front rest block : Bytes) (prefixed : block <+: front ++ 0 :: rest)
    (long : front.length < block.length) :
    0 ∈ block := by
  have whole : front ++ [0] <+: front ++ 0 :: rest := ⟨rest, by rw [List.append_assoc, List.singleton_append]⟩
  have inside : front ++ [0] <+: block :=
    List.prefix_of_prefix_length_le whole prefixed (by rw [List.length_append, List.length_singleton]; exact long)
  exact inside.subset (by simp)

-- The last string is the identifier and a newline, so what follows it is left
-- from the string two rounds before.
theorem second_number_behind (chunks : List Bytes) (state : ReceiveState) (inv : ReceiveInv chunks state)
    (identified : aesdCharIoctlCmd <+: recvText chunks) (short : (recvText chunks).length < totalCmdLen - 1)
    (shorter : (recvText chunks.dropLast).length < totalCmdLen - 1) :
    state.finalBuffer.drop (totalCmdLen - 1) =
      ((recvText chunks.dropLast.dropLast).drop (totalCmdLen - 1)).take (recvText chunks.dropLast).length := by
  have length := inv.length
  simp only [totalCmdLen] at short shorter ⊢
  have newLineLast : (recvText chunks).length = 20 := by
    have atLeast := identified.length_le
    simp only [aesdCharIoctlCmd, List.length_cons, List.length_nil] at atLeast
    rcases inv.long with found | rfl | long
    · by_contra notTwenty
      have exact := identified.eq_of_length (by simp only [aesdCharIoctlCmd, List.length_cons, List.length_nil]; omega)
      rw [← exact] at found
      exact absurd found (by decide)
    · rw [recv_text_nil, List.length_nil] at atLeast
      omega
    · omega
  obtain ⟨below, layers⟩ := inv.layers
  have all : state.finalBuffer.take 512 = state.finalBuffer := List.take_of_length_le (by omega)
  rw [all] at layers
  have behind := List.IsPrefix.drop layers 21
  rw [overwrite_drop _ _ _ (by omega), overwrite_drop _ _ _ (by omega)] at behind
  have size : (state.finalBuffer.drop 21).length = (recvText chunks.dropLast).length := by
    rw [List.length_drop]
    omega
  rcases inv.before with first | room
  · have empty : (recvText chunks.dropLast).length = 0 := by rw [first, recv_text_nil, List.length_nil]
    rw [empty, List.take_zero, List.eq_nil_of_length_eq_zero (size.trans empty)]
  · rw [overwrite_front _ _ _ (by omega)] at behind
    have cut := List.prefix_iff_eq_take.mp behind
    rw [size, List.take_append_of_le_length (by rw [List.length_drop]; omega)] at cut
    exact cut

theorem second_number_inside (chunks : List Bytes) (state : ReceiveState) (inv : ReceiveInv chunks state)
    (identified : aesdCharIoctlCmd <+: recvText chunks) :
    strtoul (state.finalBuffer.drop (totalCmdLen - 1)) ≠ none ↔
      totalCmdLen - 1 ≤ (recvText chunks).length ∨ totalCmdLen - 1 ≤ (recvText chunks.dropLast).length ∨
        strtoul (((recvText chunks.dropLast.dropLast).drop (totalCmdLen - 1)).take (recvText chunks.dropLast).length) ≠
          none := by
  by_cases long : totalCmdLen - 1 ≤ (recvText chunks).length
  · obtain ⟨block, final⟩ := inv.final
    rw [final, overwrite_front _ _ _ long]
    exact iff_of_true (strtoul_nul _ _) (Or.inl long)
  · by_cases longBefore : totalCmdLen - 1 ≤ (recvText chunks.dropLast).length
    · refine iff_of_true (strtoul_ended _ ?_) (Or.inr (Or.inl longBefore))
      have length := inv.length
      have fits := inv.fits
      obtain ⟨below, layers⟩ := inv.layers
      have behind := List.IsPrefix.drop layers (totalCmdLen - 1)
      rw [overwrite_drop _ _ _ (by omega), overwrite_front _ _ _ longBefore] at behind
      have ended := nul_inside _ _ _ behind (by
        rw [List.length_drop, List.length_drop, List.length_take]
        omega)
      rw [List.drop_take] at ended
      exact List.mem_of_mem_take ended
    · rw [second_number_behind chunks state inv identified (by omega) (by omega)]
      exact ⟨fun inside => Or.inr (Or.inr inside), fun condition =>
        (condition.resolve_left long).resolve_left longBefore⟩

theorem seekto_inside (finalBuffer : Bytes) :
    seektoOf finalBuffer ≠ none ↔
      strtoul (finalBuffer.drop cmdIdentifierLen) ≠ none ∧ strtoul (finalBuffer.drop (totalCmdLen - 1)) ≠ none := by
  rw [seektoOf]
  cases strtoul (finalBuffer.drop cmdIdentifierLen) <;> cases strtoul (finalBuffer.drop (totalCmdLen - 1)) <;> simp

theorem serve_request (state : ReceiveState) :
    (requestOf state).bind serve ≠ none ↔
      if state.ioctlCmdFound then seektoOf state.finalBuffer ≠ none
      else state.totalBytesRecv ≤ state.finalBuffer.length := by
  rw [requestOf]
  by_cases found : state.ioctlCmdFound = true
  · simp [found, serve]
  · by_cases fits : state.totalBytesRecv ≤ state.finalBuffer.length
    · simp [found, fits, serve]
    · simp [found, fits]

theorem end_in_bounds (chunks : List Bytes) (state : ReceiveState) (inv : ReceiveInv chunks state) :
    (requestOf state).bind serve ≠ none ↔ EndInBounds chunks := by
  rw [serve_request, inv.found, EndInBounds]
  by_cases identified : aesdCharIoctlCmd <+: recvText chunks
  · obtain ⟨block, final⟩ := inv.final
    have long : cmdIdentifierLen ≤ (recvText chunks).length := identified.length_le
    have first : strtoul (state.finalBuffer.drop cmdIdentifierLen) ≠ none := by
      rw [final, overwrite_front _ _ _ long]
      exact strtoul_nul _ _
    rw [if_pos (decide_eq_true identified), if_pos identified, seekto_inside,
      second_number_inside chunks state inv identified]
    exact and_iff_right first
  · rw [if_neg (by simp [identified]), if_neg identified, inv.total, inv.length]

theorem serve_from_request (state final : ReceiveState) (events rest : List RecvResult)
    (ran : receiveLoop state events = some (final, rest)) :
    serveFrom state events ≠ none ↔ (requestOf final).bind serve ≠ none := by
  simp only [serveFrom, handleFrom, ran]
  cases requestOf final with
  | none => simp
  | some request => cases served : serve request <;> simp [served]

theorem serve_from_stops (chunks : List Bytes) (state final : ReceiveState) (events rest : List RecvResult)
    (inv : ReceiveInv chunks state) (ran : receiveLoop state events = some (final, rest))
    (sameFound : final.ioctlCmdFound = state.ioctlCmdFound) (sameBuffer : final.finalBuffer = state.finalBuffer)
    (sameTotal : final.totalBytesRecv = state.totalBytesRecv) (same : received chunks events = chunks) :
    serveFrom state events ≠ none ↔
      (∀ earlier bytes, chunks.length ≤ earlier.length → earlier ++ [bytes] <+: received chunks events →
        RoundInBounds earlier bytes) ∧ EndInBounds (received chunks events) := by
  rw [serve_from_request state final events rest ran, same, serve_request, sameFound, sameBuffer, sameTotal,
    ← serve_request, end_in_bounds chunks state inv]
  refine (and_iff_right ?_).symm
  intro earlier bytes long prefixed
  have length := prefixed.length_le
  rw [List.length_append, List.length_singleton] at length
  omega

theorem serve_from_bounds (chunks : List Bytes) (state : ReceiveState) (events : List RecvResult)
    (inv : ReceiveInv chunks state)
    (sized : ∀ bytes realloc, RecvResult.data bytes realloc ∈ events → bytes.length ≤ 512 ∧ realloc.address ≠ none) :
    serveFrom state events ≠ none ↔
      (∀ earlier bytes, chunks.length ≤ earlier.length → earlier ++ [bytes] <+: received chunks events →
        RoundInBounds earlier bytes) ∧ EndInBounds (received chunks events) := by
  induction events generalizing chunks state with
  | nil => exact serve_from_stops chunks state _ [] [] inv rfl rfl rfl rfl rfl
  | cons event rest ih =>
      by_cases goesOn : EndsReceive chunks
      · have stopped : (state.moreBytesToRead && !state.failed) = false := by simp [inv.more, goesOn]
        refine serve_from_stops chunks state state (event :: rest) (event :: rest) inv ?_ rfl rfl rfl ?_
        · simp [receiveLoop, stopped]
        · cases event <;> simp [received, goesOn]
      · have active : (state.moreBytesToRead && !state.failed) = true := by simp [inv.more, inv.running, goesOn]
        cases event with
        | error =>
            exact serve_from_stops chunks state { state with moreBytesToRead := false, failed := true } _ rest inv
              (by simp [receiveLoop, active]) rfl rfl rfl rfl
        | closed =>
            exact serve_from_stops chunks state { state with moreBytesToRead := false } _ rest inv
              (by simp [receiveLoop, active]) rfl rfl rfl rfl
        | data bytes realloc =>
            have noLine : newLine ∉ recvText chunks := fun found => goesOn (Or.inl found)
            obtain ⟨small, granted⟩ := sized bytes realloc List.mem_cons_self
            have later := received_prefix (chunks ++ [bytes]) rest
            rw [received, if_neg goesOn]
            by_cases bounds : RoundInBounds chunks bytes
            · obtain ⟨next, ran, nextInv⟩ := receive_round chunks state bytes realloc inv noLine granted small bounds
              have continues : serveFrom state (.data bytes realloc :: rest) = serveFrom next rest := by
                simp only [serveFrom, handleFrom, receiveLoop, active, if_true, ran]
              rw [continues, ih (chunks ++ [bytes]) next nextInv fun others answer member =>
                sized others answer (List.mem_cons_of_mem _ member)]
              refine and_congr_left fun _ => ⟨fun rounds earlier others long prefixed => ?_,
                fun rounds earlier others long => rounds earlier others (Nat.le_trans (by simp) long)⟩
              by_cases same : earlier.length = chunks.length
              · obtain ⟨rfl, rfl⟩ := round_prefix chunks earlier _ bytes others same later prefixed
                exact bounds
              · refine rounds earlier others ?_ prefixed
                rw [List.length_append, List.length_singleton]
                omega
            · have undefined : receiveChunk state bytes realloc = none := by
                by_contra ran
                exact bounds (round_in_bounds chunks state bytes realloc inv noLine granted small ran)
              refine iff_of_false ?_ fun inside => bounds (inside.1 chunks bytes (Nat.le_refl _) later)
              simp [serveFrom, handleFrom, receiveLoop, active, undefined]

theorem accesses_in_bounds (malloc : Bool) (events : List RecvResult)
    (sized : ∀ bytes realloc, RecvResult.data bytes realloc ∈ events →
      1 ≤ bytes.length ∧ bytes.length ≤ 512 ∧ realloc.address ≠ none) :
    serveClient malloc events ≠ none ↔ malloc = true ∧ InBounds (received [] events) := by
  cases malloc with
  | false => simp [serveClient]
  | true =>
      rw [serveClient, if_pos rfl,
        serve_from_bounds [] receiveStart events receive_inv_start fun bytes realloc member =>
        (sized bytes realloc member).2]
      exact ⟨fun inside => ⟨rfl, fun earlier bytes => inside.1 earlier bytes (Nat.zero_le _), inside.2⟩,
        fun inside => ⟨fun earlier bytes _ => inside.2.rounds earlier bytes, inside.2.finish⟩⟩

theorem accesses_in_bounds_one_line : InBounds (received [] [.data [97, 98, 10] userMemory]) := by
  refine ((accesses_in_bounds true [.data [97, 98, 10] userMemory] ?_).mp (by decide)).2
  intro bytes realloc member
  obtain ⟨rfl, rfl⟩ := RecvResult.data.inj (List.mem_singleton.mp member)
  decide

-- strtoul and memchr leave their blocks, strlen leaves buf, fwrite takes three bytes from two.
theorem accesses_out_of_bounds :
    serveClient true [.data [97] userMemory] = none ∧
      serveClient true [.data (List.replicate 511 97 ++ [10]) userMemory] = none ∧
      serveClient true [.data [10, 0, 98] userMemory] = none ∧
      serveClient true [.data (aesdCharIoctlCmd ++ [10]) userMemory] = none := by
  refine ⟨by decide, by decide +kernel, by decide, by decide⟩

end AesdChar

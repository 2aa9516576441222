import AesdChar.HandleClient

set_option autoImplicit false

namespace AesdChar

open CString Framing

-- A round whose realloc succeeds: final_buffer becomes the string in buf, which
-- still holds what longer chunks have left behind the new one.
structure Received (state next : ReceiveState) (bytes : Bytes) : Prop where
  buf : next.buf = bytes ++ state.buf.drop bytes.length
  total : next.totalBytesRecv = state.totalBytesRecv + bytes.length
  copied : ∃ text rest tail, next.buf = text ++ 0 :: rest ∧ 0 ∉ text ∧ next.finalBuffer = text ++ 0 :: tail ∧
    ∃ n, strlen state.finalBuffer = some n ∧ next.finalBuffer.length = n + text.length + 1
  searched : ∃ answer, CString.memchr next.finalBuffer newLine 512 = some answer

theorem receive_chunk_cases (state next : ReceiveState) (bytes : Bytes) (realloc : Answer)
    (ran : receiveChunk state bytes realloc = some next) :
    (realloc.address = none ∧ next = { state with buf := bytes ++ state.buf.drop bytes.length, failed := true }) ∨
    (realloc.address ≠ none ∧ Received state next bytes) := by
  simp only [receiveChunk, bind, Option.bind_eq_some_iff] at ran
  obtain ⟨n, finalLen, m, bufLen, ran⟩ := ran
  by_cases refused : realloc.address = none
  · rw [if_pos refused] at ran
    exact Or.inl ⟨refused, (Option.some.inj ran).symm⟩
  · rw [if_neg refused] at ran
    by_cases overflow : 2 ^ 31 ≤ state.totalBytesRecv + bytes.length
    · rw [if_pos overflow] at ran
      cases ran
    · rw [if_neg overflow] at ran
      simp only [pure, Option.bind_eq_some_iff] at ran
      obtain ⟨finalBuffer, copy, answer, searched, ioctlCmdFound, compared, done⟩ := ran
      cases Option.some.inj done
      obtain ⟨text, rest, split, absent, room, copied⟩ := strcpy_split _ _ _ copy
      have measured := strlen_text text rest absent
      rw [← split, bufLen] at measured
      cases Option.some.inj measured
      refine Or.inr ⟨refused, rfl, rfl, ⟨text, rest, _, split, absent, copied, n, finalLen, ?_⟩, answer, searched⟩
      have length := resized_length state.finalBuffer (n + text.length + 1) realloc
      simp only [copied, List.length_append, List.length_cons, List.length_drop, length]
      rw [length] at room
      omega

-- The round forwards: buf and final_buffer hold texts, and memory is granted.
theorem receive_chunk_text (state : ReceiveState) (bytes text tail next rest : Bytes) (realloc : Answer)
    (final : state.finalBuffer = text ++ 0 :: tail) (plain : 0 ∉ text)
    (buf : bytes ++ state.buf.drop bytes.length = next ++ 0 :: rest) (nextPlain : 0 ∉ next)
    (granted : realloc.address ≠ none) (counted : state.totalBytesRecv + bytes.length < 2 ^ 31) :
    receiveChunk state bytes realloc =
      (CString.memchr (overwrite next (resized state.finalBuffer (text.length + next.length + 1) realloc)) newLine
        512).map fun answer =>
          ⟨next ++ 0 :: rest, overwrite next (resized state.finalBuffer (text.length + next.length + 1) realloc),
          state.totalBytesRecv + bytes.length,
          !answer.isSome &&
            !(decide (totalCmdLen ≤ state.totalBytesRecv + bytes.length) && decide (aesdCharIoctlCmd <+: next)),
          state.failed, decide (aesdCharIoctlCmd <+: next)⟩ := by
  have finalLen : strlen state.finalBuffer = some text.length := by rw [final, strlen_text text tail plain]
  have bufLen := strlen_text next rest nextPlain
  have length := resized_length state.finalBuffer (text.length + next.length + 1) realloc
  have copied := strcpy_text (resized state.finalBuffer (text.length + next.length + 1) realloc) next rest nextPlain
    (by omega)
  have compared := strncmp_front next ((resized state.finalBuffer (text.length + next.length + 1) realloc).drop
    (next.length + 1)) aesdCharIoctlCmd cmdIdentifierLen (by decide) (by decide)
  have whole : aesdCharIoctlCmd.take cmdIdentifierLen = aesdCharIoctlCmd := rfl
  rw [whole] at compared
  simp only [receiveChunk, finalLen, buf, bufLen, bind, Option.bind_some, granted, if_false,
    Nat.not_le.mpr counted, copied]
  simp only [overwrite]
  cases CString.memchr (next ++ 0 :: (resized state.finalBuffer (text.length + next.length + 1) realloc).drop
      (next.length + 1)) newLine 512 with
  | none => rfl
  | some answer =>
      simp only [Option.bind_some, compared]
      rfl

theorem receive_chunk_buf (state next : ReceiveState) (bytes : Bytes) (realloc : Answer)
    (whole : state.buf.length = 512) (sized : bytes.length ≤ 512)
    (ran : receiveChunk state bytes realloc = some next) : next.buf.length = 512 := by
  have same : next.buf = bytes ++ state.buf.drop bytes.length := by
    rcases receive_chunk_cases state next bytes realloc ran with ⟨_, refused⟩ | ⟨_, received⟩
    · rw [refused]
    · exact received.buf
  rw [same, List.length_append, List.length_drop]
  omega

theorem loop_suffix (state final : ReceiveState) (events rest : List RecvResult)
    (ran : receiveLoop state events = some (final, rest)) : rest.length ≤ events.length := by
  induction events generalizing state with
  | nil =>
      cases Option.some.inj ran
      exact Nat.le_refl _
  | cons event later ih =>
      simp only [receiveLoop] at ran
      split at ran
      · cases event with
        | error => cases Option.some.inj ran; exact Nat.le_succ _
        | closed => cases Option.some.inj ran; exact Nat.le_succ _
        | data bytes realloc =>
            cases round : receiveChunk state bytes realloc with
            | none => simp [round] at ran
            | some next =>
                simp only [round] at ran
                exact Nat.le_succ_of_le (ih next ran)
      · cases Option.some.inj ran
        exact Nat.le_refl _

theorem loop_consumes (state final : ReceiveState) (event : RecvResult) (later rest : List RecvResult)
    (active : (state.moreBytesToRead && !state.failed) = true)
    (ran : receiveLoop state (event :: later) = some (final, rest)) : rest.length ≤ later.length := by
  simp only [receiveLoop, active, if_true] at ran
  cases event with
  | error => cases Option.some.inj ran; exact Nat.le_refl _
  | closed => cases Option.some.inj ran; exact Nat.le_refl _
  | data bytes realloc =>
      cases round : receiveChunk state bytes realloc with
      | none => simp [round] at ran
      | some next =>
          simp only [round] at ran
          exact loop_suffix next final later rest ran

theorem handle_from_cases (state : ReceiveState) (events rest : List RecvResult) (text : Bytes)
    (handled : handleFrom state events = some (.append text, rest)) :
    ∃ final, receiveLoop state events = some (final, rest) ∧ final.totalBytesRecv ≤ final.finalBuffer.length ∧
      text = final.finalBuffer.take final.totalBytesRecv := by
  simp only [handleFrom] at handled
  cases ran : receiveLoop state events with
  | none => simp [ran] at handled
  | some result =>
      obtain ⟨final, later⟩ := result
      simp only [ran, Option.map_eq_some_iff, Prod.mk.injEq] at handled
      obtain ⟨request, asked, rfl, rfl⟩ := handled
      simp only [requestOf] at asked
      split at asked
      · cases Option.some.inj asked
      · split at asked
        · rename_i fits
          cases Option.some.inj asked
          exact ⟨final, rfl, fits, rfl⟩
        · cases asked

theorem handled_stops (state : ReceiveState) (more : List RecvResult) (text : Bytes)
    (handled : handleFrom state more = some (.append text, more)) :
    state.totalBytesRecv ≤ state.finalBuffer.length ∧ text = state.finalBuffer.take state.totalBytesRecv := by
  obtain ⟨final, ran, fits, same⟩ := handle_from_cases state more more text handled
  cases more with
  | nil =>
      cases Option.some.inj ran
      exact ⟨fits, same⟩
  | cons event later =>
      by_cases active : (state.moreBytesToRead && !state.failed) = true
      · have consumed := loop_consumes state final event later _ active ran
        rw [List.length_cons] at consumed
        omega
      · simp only [receiveLoop, active] at ran
        cases Option.some.inj ran
        exact ⟨fits, same⟩

def recvOf (chunk : Bytes × Answer) : RecvResult := .data chunk.1 chunk.2

theorem handled_chunk (state : ReceiveState) (chunk : Bytes × Answer) (rest : List (Bytes × Answer))
    (more : List RecvResult) (text : Bytes)
    (handled : handleFrom state ((chunk :: rest).map recvOf ++ more) = some (.append text, more)) :
    ∃ next, receiveChunk state chunk.1 chunk.2 = some next ∧
      handleFrom next (rest.map recvOf ++ more) = some (.append text, more) := by
  obtain ⟨final, ran, _, _⟩ := handle_from_cases state _ more text handled
  by_cases active : (state.moreBytesToRead && !state.failed) = true
  · simp only [handleFrom, List.map_cons, List.cons_append, receiveLoop, active, if_true, recvOf] at handled
    cases round : receiveChunk state chunk.1 chunk.2 with
    | none => simp [round] at handled
    | some next =>
        simp only [round] at handled
        exact ⟨next, rfl, handled⟩
  · simp only [List.map_cons, List.cons_append, receiveLoop, active] at ran
    have lengths := congrArg List.length (Prod.mk.inj (Option.some.inj ran)).2
    rw [List.length_cons, List.length_append] at lengths
    omega

-- A packet whose first 511 bytes have neither a NUL nor a newline is not what
-- final_buffer holds after its last chunk: strcpy has put that chunk, or a NUL,
-- among the first 511 bytes.
theorem last_chunk_overwrites (state next : ReceiveState) (packet bytes : Bytes) (received : Received state next bytes)
    (whole : next.buf.length = 512) (sized : bytes.length ≤ 512) (ends : ∃ body, bytes = body ++ [newLine])
    (noNul : 0 ∉ packet.take 511) (noLine : newLine ∉ packet.take 511) (long : 512 ≤ packet.length)
    (fits : next.totalBytesRecv ≤ next.finalBuffer.length) :
    packet ≠ next.finalBuffer.take next.totalBytesRecv := by
  intro same
  obtain ⟨text, rest, tail, split, absent, copied, _⟩ := received.copied
  have lengths := congrArg List.length same
  rw [List.length_take] at lengths
  have front : packet.take 511 = next.finalBuffer.take 511 := by
    rw [same, List.take_take]
    congr 1
    omega
  rw [copied] at front
  have measured := congrArg List.length split
  rw [whole, List.length_append, List.length_cons] at measured
  by_cases short : text.length < 511
  · obtain ⟨k, succ⟩ := Nat.exists_eq_succ_of_ne_zero (by omega : 511 - text.length ≠ 0)
    apply noNul
    rw [front, List.take_append, succ, List.take_succ_cons]
    simp
  · have exact : text.length = 511 := by omega
    have restEmpty : rest = [] := List.eq_nil_of_length_eq_zero (by omega)
    have all : text.take 511 = text := List.take_of_length_le (by omega)
    rw [List.take_append_of_le_length (by omega), all] at front
    rw [received.buf, restEmpty] at split
    obtain ⟨body, rfl⟩ := ends
    by_cases full : (body ++ [newLine]).length = 512
    · have noOld : (body ++ [newLine]).length ≤ 512 := sized
      have last : state.buf.drop (body ++ [newLine]).length = [] := by
        have bufLength := congrArg List.length received.buf
        rw [whole, List.length_append] at bufLength
        exact List.eq_nil_of_length_eq_zero (by omega)
      rw [last, List.append_nil] at split
      have wrong := (List.append_inj' split rfl).2
      exact absurd wrong (by decide)
    · apply noLine
      rw [front]
      have shorter : (body ++ [newLine]).length ≤ text.length := by omega
      have prefixed : body ++ [newLine] <+: text :=
        List.prefix_of_prefix_length_le ⟨_, split⟩ (List.prefix_append _ _) shorter
      have member : newLine ∈ body ++ [newLine] := by simp
      exact prefixed.subset member

theorem failed_stops (state : ReceiveState) (events rest : List RecvResult) (text : Bytes)
    (failed : state.failed = true) (handled : handleFrom state events = some (.append text, rest)) :
    rest = events ∧ text = state.finalBuffer.take state.totalBytesRecv := by
  obtain ⟨final, ran, _, same⟩ := handle_from_cases state events rest text handled
  cases events with
  | nil =>
      cases Option.some.inj ran
      exact ⟨rfl, same⟩
  | cons event later =>
      simp only [receiveLoop, failed, Bool.not_true, Bool.and_false, Bool.false_eq_true, if_false] at ran
      cases Option.some.inj ran
      exact ⟨rfl, same⟩

theorem later_chunks (packet : Bytes) (state : ReceiveState) (chunks : List (Bytes × Answer)) (more : List RecvResult)
    (noNul : 0 ∉ packet.take 511) (noLine : newLine ∉ packet.take 511) (long : 512 ≤ packet.length)
    (whole : state.buf.length = 512) (sized : ∀ chunk ∈ chunks, 1 ≤ chunk.1.length ∧ chunk.1.length ≤ 512)
    (ends : ∀ chunk ∈ chunks.getLast?, ∃ body, chunk.1 = body ++ [newLine]) (nonempty : chunks ≠ [])
    (counted : state.totalBytesRecv + (chunks.map Prod.fst).flatten.length = packet.length) :
    handleFrom state (chunks.map recvOf ++ more) ≠ some (.append packet, more) := by
  induction chunks generalizing state with
  | nil => exact absurd rfl nonempty
  | cons chunk rest ih =>
      intro handled
      obtain ⟨next, round, later⟩ := handled_chunk state chunk rest more packet handled
      have nextWhole := receive_chunk_buf state next chunk.1 chunk.2 whole (sized chunk (by simp)).2 round
      have positive := (sized chunk (by simp)).1
      rw [List.map_cons, List.flatten_cons, List.length_append] at counted
      rcases receive_chunk_cases state next chunk.1 chunk.2 round with ⟨_, refused⟩ | ⟨_, received⟩
      · obtain ⟨_, same⟩ := failed_stops next _ more packet (by rw [refused]) later
        have lengths := congrArg List.length same
        rw [List.length_take, refused] at lengths
        dsimp only at lengths
        omega
      · cases rest with
        | nil =>
            obtain ⟨fits, same⟩ := handled_stops next more packet later
            exact last_chunk_overwrites state next packet chunk.1 received nextWhole (sized chunk (by simp)).2
              (ends chunk rfl) noNul noLine long fits same
        | cons second others =>
            refine ih next nextWhole (fun chunk member => sized chunk (List.mem_cons_of_mem _ member)) ?_
              (by simp) ?_ later
            · exact fun last member => ends last (by simpa [List.getLast?_cons_cons] using member)
            · rw [received.total]
              omega

theorem start_buf : receiveStart.buf = List.replicate 512 0 := rfl

theorem start_whole : receiveStart.buf.length = 512 := by rw [start_buf, List.length_replicate]

theorem start_strlen (n : Nat) (measured : strlen receiveStart.finalBuffer = some n) : n = 0 := by
  have start : strlen receiveStart.finalBuffer = some 0 := by decide
  exact Option.some.inj (measured.symm.trans start)

-- memchr over the 512 bytes of final_buffer stays inside a first chunk without
-- a newline only when 511 bytes of it have no NUL.
theorem first_chunk_plain (next : ReceiveState) (bytes : Bytes) (sized : bytes.length ≤ 512) (partly : newLine ∉ bytes)
    (received : Received receiveStart next bytes) : 511 ≤ bytes.length ∧ 0 ∉ bytes.take 511 := by
  obtain ⟨text, rest, tail, split, absent, copied, n, finalLen, length⟩ := received.copied
  obtain ⟨answer, searched⟩ := received.searched
  have zero := start_strlen n finalLen
  have tailEmpty : tail = [] := by
    rw [copied, List.length_append, List.length_cons] at length
    exact List.eq_nil_of_length_eq_zero (by omega)
  have buf : next.buf = bytes ++ List.replicate (512 - bytes.length) 0 := by
    rw [received.buf, start_buf, List.drop_replicate]
  have noLine : newLine ∉ text := by
    intro member
    have inBuf : newLine ∈ next.buf := by
      rw [split]
      exact List.mem_append_left _ member
    rw [buf] at inBuf
    rcases List.mem_append.mp inBuf with here | padding
    · exact partly here
    · exact absurd (List.eq_of_mem_replicate padding) (by decide)
  have noLineFinal : newLine ∉ next.finalBuffer := by
    rw [copied, tailEmpty]
    intro member
    rcases List.mem_append.mp member with inText | last
    · exact noLine inText
    · exact absurd (List.mem_singleton.mp last) (by decide)
  have room := memchr_absent next.finalBuffer newLine 512 answer noLineFinal searched
  have bufLength := congrArg List.length split
  rw [buf, List.length_append, List.length_replicate, List.length_append, List.length_cons] at bufLength
  have front : (bytes ++ List.replicate (512 - bytes.length) 0).take 511 = text := by
    rw [← buf, split, List.take_append_of_le_length (by omega), List.take_of_length_le (by omega)]
  have long : 511 ≤ bytes.length := by
    by_contra short
    obtain ⟨k, succ⟩ := Nat.exists_eq_succ_of_ne_zero (by omega : 511 - bytes.length ≠ 0)
    apply absent
    rw [← front, List.take_append, List.take_replicate]
    have count : min (511 - bytes.length) (512 - bytes.length) = k + 1 := by omega
    rw [count]
    simp
  rw [List.take_append_of_le_length long] at front
  exact ⟨long, by rw [front]; exact absent⟩

-- The condition: one recv for the whole packet, no more than 511 bytes, none of
-- them NUL, and memory for it.
structure WholePacket (malloc : Bool) (packet : Bytes) (chunks : List (Bytes × Answer)) : Prop where
  memory : malloc = true
  single : ∃ realloc : Answer, chunks = [(packet, realloc)] ∧ realloc.address ≠ none
  short : packet.length ≤ 511
  noNul : 0 ∉ packet

theorem whole_packet_single (next : ReceiveState) (packet : Bytes) (isLine : IsLine newLine packet)
    (whole : next.buf.length = 512) (received : Received receiveStart next packet)
    (fits : next.totalBytesRecv ≤ next.finalBuffer.length) : packet.length ≤ 511 ∧ 0 ∉ packet := by
  obtain ⟨text, rest, tail, split, absent, copied, n, finalLen, length⟩ := received.copied
  obtain ⟨body, ends, _⟩ := isLine
  have zero := start_strlen n finalLen
  have total := received.total
  simp only [receiveStart, Nat.zero_add] at total
  have measured := congrArg List.length split
  rw [whole, List.length_append, List.length_cons] at measured
  have buf := received.buf
  rw [split] at buf
  have notLonger : packet.length ≤ text.length := by
    by_contra longer
    have exact : (text ++ [0]).length = packet.length := by
      rw [List.length_append, List.length_singleton]
      omega
    have same : text ++ [0] = packet := by
      rw [← List.singleton_append (l := rest), ← List.append_assoc] at buf
      exact (List.append_inj buf exact).1
    rw [ends] at same
    exact absurd (List.append_inj' same rfl).2 (by decide)
  have prefixed : packet <+: text :=
    List.prefix_of_prefix_length_le (buf ▸ List.prefix_append packet _) (List.prefix_append text _) notLonger
  exact ⟨by omega, fun member => absent (prefixed.subset member)⟩

theorem last_chunk_ends (packet : Bytes) (chunks : List (Bytes × Answer)) (last : Bytes × Answer)
    (isLine : IsLine newLine packet) (split : (chunks.map Prod.fst).flatten = packet) (final : last ∈ chunks.getLast?)
    (positive : 1 ≤ last.1.length) : ∃ body, last.1 = body ++ [newLine] := by
  obtain ⟨init, rfl⟩ := List.getLast?_eq_some_iff.mp final
  obtain ⟨body, ends, _⟩ := isLine
  rcases List.eq_nil_or_concat last.1 with none | ⟨front, byte, same⟩
  · simp [none] at positive
  · rw [ends, List.map_append, List.flatten_append, List.map_singleton, List.flatten_singleton, same,
      List.concat_eq_append, ← List.append_assoc] at split
    have byteEq : byte = newLine := by simpa using (List.append_inj' split rfl).2
    exact ⟨front, by rw [same, List.concat_eq_append, byteEq]⟩

-- A packet in two chunks or more: the first round only ends inside the block
-- when its chunk is as long as buf, and the later ones overwrite it.
theorem split_not_appended (packet : Bytes) (chunk second : Bytes × Answer) (others : List (Bytes × Answer))
    (more : List RecvResult) (next : ReceiveState) (isLine : IsLine newLine packet)
    (split : ((chunk :: second :: others).map Prod.fst).flatten = packet)
    (sized : ∀ chunk' ∈ chunk :: second :: others, 1 ≤ chunk'.1.length ∧ chunk'.1.length ≤ 512)
    (received : Received receiveStart next chunk.1) (whole : next.buf.length = 512) :
    handleFrom next ((second :: others).map recvOf ++ more) ≠ some (.append packet, more) := by
  have bounds := sized chunk List.mem_cons_self
  have secondSized := sized second (by simp)
  have lengths := congrArg List.length split
  simp only [List.map_cons, List.flatten_cons, List.length_append] at lengths
  have cut : packet = chunk.1 ++ (second.1 ++ (others.map Prod.fst).flatten) := by
    rw [← split, List.map_cons, List.flatten_cons, List.map_cons, List.flatten_cons]
  have partly : newLine ∉ chunk.1 := by
    refine line_front newLine chunk.1 _ (cut ▸ isLine) fun nothing => ?_
    have none := congrArg List.length (List.append_eq_nil_iff.mp nothing).1
    rw [List.length_nil] at none
    omega
  obtain ⟨long, noNul⟩ := first_chunk_plain next chunk.1 bounds.2 partly received
  have front : packet.take 511 = chunk.1.take 511 := by
    rw [cut, List.take_append_of_le_length long]
  have start : receiveStart.totalBytesRecv = 0 := rfl
  refine later_chunks packet next (second :: others) more (by rwa [front]) ?_ (by omega) whole
    (fun chunk member => sized chunk (List.mem_cons_of_mem _ member)) ?_ (by simp) ?_
  · rw [front]
    exact fun member => partly (List.mem_of_mem_take member)
  · exact fun last member => last_chunk_ends packet (chunk :: second :: others) last isLine split
      (by simpa [List.getLast?_cons_cons] using member)
      (sized last (List.mem_cons_of_mem _ (List.mem_of_getLast? member))).1
  · rw [received.total, start]
    simp only [List.map_cons, List.flatten_cons, List.length_append]
    omega

theorem appended_is_whole (malloc : Bool) (packet : Bytes) (chunks : List (Bytes × Answer)) (more : List RecvResult)
    (isLine : IsLine newLine packet) (split : (chunks.map Prod.fst).flatten = packet)
    (sized : ∀ chunk ∈ chunks, 1 ≤ chunk.1.length ∧ chunk.1.length ≤ 512)
    (handled : handleClient malloc (chunks.map recvOf ++ more) = some (.append packet, more)) :
    WholePacket malloc packet chunks := by
  cases malloc with
  | false => cases handled
  | true =>
      cases chunks with
      | nil =>
          obtain ⟨body, ends, _⟩ := isLine
          rw [← split] at ends
          simp at ends
      | cons chunk rest =>
          obtain ⟨next, round, later⟩ := handled_chunk receiveStart chunk rest more packet handled
          have bounds := sized chunk (by simp)
          have whole := receive_chunk_buf receiveStart next chunk.1 chunk.2 start_whole bounds.2 round
          rcases receive_chunk_cases receiveStart next chunk.1 chunk.2 round with ⟨_, refused⟩ | ⟨granted, received⟩
          · obtain ⟨_, same⟩ := failed_stops next _ more packet (by rw [refused]) later
            obtain ⟨body, ends, _⟩ := isLine
            have nothing : packet = [] := by
              rw [same, refused]
              exact List.take_zero
            rw [ends] at nothing
            simp at nothing
          · cases rest with
            | nil =>
                obtain ⟨fits, _⟩ := handled_stops next more packet later
                have same : chunk.1 = packet := by simpa using split
                rw [same] at received
                obtain ⟨short, noNul⟩ := whole_packet_single next packet isLine whole received fits
                exact ⟨rfl, ⟨chunk.2, by rw [← same], granted⟩, short, noNul⟩
            | cons second others =>
                exact absurd later
                  (split_not_appended packet chunk second others more next isLine split sized received whole)

theorem whole_packet_round (packet : Bytes) (realloc : Answer) (isEnded : newLine ∈ packet)
    (granted : realloc.address ≠ none) (short : packet.length ≤ 511) (noNul : 0 ∉ packet) :
    ∃ buf, receiveChunk receiveStart packet realloc =
      some ⟨buf, packet ++ [0], packet.length, false, false, decide (aesdCharIoctlCmd <+: packet)⟩ := by
  obtain ⟨k, room⟩ := Nat.exists_eq_succ_of_ne_zero (by omega : 512 - packet.length ≠ 0)
  have buf : packet ++ receiveStart.buf.drop packet.length = packet ++ 0 :: List.replicate k 0 := by
    rw [start_buf, List.drop_replicate, room, List.replicate_succ]
  have total : receiveStart.totalBytesRecv + packet.length = packet.length := Nat.zero_add _
  have ran := receive_chunk_text receiveStart packet [] [] packet (List.replicate k 0) realloc rfl (by simp) buf noNul
    granted (by omega)
  have length := resized_length receiveStart.finalBuffer (([] : Bytes).length + packet.length + 1) realloc
  have final : overwrite packet (resized receiveStart.finalBuffer (([] : Bytes).length + packet.length + 1) realloc) =
      packet ++ [0] := by
    rw [overwrite, List.drop_eq_nil_of_le (by rw [length, List.length_nil]; omega)]
  obtain ⟨index, searched⟩ := memchr_present (packet ++ [0]) newLine 512 (by
    rw [List.take_of_length_le (by rw [List.length_append, List.length_singleton]; omega)]
    exact List.mem_append_left _ isEnded)
  rw [final, searched, total] at ran
  exact ⟨_, ran⟩

theorem whole_is_appended (malloc : Bool) (packet : Bytes) (chunks : List (Bytes × Answer)) (more : List RecvResult)
    (isLine : IsLine newLine packet) (notSeek : ¬ aesdCharIoctlCmd <+: packet)
    (condition : WholePacket malloc packet chunks) :
    handleClient malloc (chunks.map recvOf ++ more) = some (.append packet, more) := by
  obtain ⟨rfl, ⟨realloc, rfl, granted⟩, short, noNul⟩ := condition
  obtain ⟨body, ends, _⟩ := isLine
  obtain ⟨buf, round⟩ := whole_packet_round packet realloc (by rw [ends]; simp) granted short noNul
  rw [decide_eq_false notSeek] at round
  have request : ∀ stop, requestOf ⟨buf, packet ++ [0], packet.length, stop, false, false⟩ = some (.append packet) := by
    intro stop
    simp [requestOf]
  have active : (receiveStart.moreBytesToRead && !receiveStart.failed) = true := rfl
  simp only [handleClient, if_true, handleFrom, List.map_cons, List.map_nil, List.singleton_append, recvOf, receiveLoop,
    active, round]
  cases more with
  | nil => simp only [receiveLoop, request, Option.map_some]
  | cons event later =>
      simp only [receiveLoop, Bool.false_and, Bool.false_eq_true, if_false, request, Option.map_some]

theorem packet_appended_exactly (malloc : Bool) (packet : Bytes) (chunks : List (Bytes × Answer))
    (more : List RecvResult) (isLine : IsLine newLine packet) (notSeek : ¬ aesdCharIoctlCmd <+: packet)
    (split : (chunks.map Prod.fst).flatten = packet)
    (sized : ∀ chunk ∈ chunks, 1 ≤ chunk.1.length ∧ chunk.1.length ≤ 512) :
    handleClient malloc (chunks.map recvOf ++ more) = some (.append packet, more) ↔ WholePacket malloc packet chunks :=
  ⟨appended_is_whole malloc packet chunks more isLine split sized,
    whole_is_appended malloc packet chunks more isLine notSeek⟩

def userMemory : Answer := ⟨some 4096, fun _ => 7⟩

theorem packet_appended_single :
    handleClient true [.data [97, 98, 10] userMemory] = some (.append [97, 98, 10], []) :=
  (packet_appended_exactly true [97, 98, 10] [([97, 98, 10], userMemory)] [] ⟨[97, 98], rfl, by decide⟩ (by decide) rfl
    (by decide)).mpr ⟨rfl, ⟨userMemory, rfl, by decide⟩, by decide, by decide⟩

def splitPacket : Bytes := List.replicate 511 97 ++ [98, 10]

def splitChunks : List (Bytes × Answer) := [(List.replicate 511 97, userMemory), ([98, 10], userMemory)]

-- 511 bytes and then two: what reaches the device starts with the second chunk.
theorem packet_garbled_two_chunks :
    IsLine newLine splitPacket ∧ ¬ aesdCharIoctlCmd <+: splitPacket ∧
      (splitChunks.map Prod.fst).flatten = splitPacket ∧
      (∀ chunk ∈ splitChunks, 1 ≤ chunk.1.length ∧ chunk.1.length ≤ 512) ∧
      (handleClient true (splitChunks.map recvOf)).map Prod.fst =
        some (.append ([98, 10] ++ List.replicate 509 97 ++ [0, 7])) ∧
      handleClient true (splitChunks.map recvOf) ≠ some (.append splitPacket, []) := by
  have isLine : IsLine newLine splitPacket :=
    ⟨List.replicate 511 97 ++ [98], (List.append_assoc _ [98] [10]).symm, by decide +kernel⟩
  have garbled : (handleClient true (splitChunks.map recvOf)).map Prod.fst =
      some (.append ([98, 10] ++ List.replicate 509 97 ++ [0, 7])) := by decide +kernel
  have different : splitPacket ≠ [98, 10] ++ List.replicate 509 97 ++ [0, 7] := by decide +kernel
  refine ⟨isLine, by decide +kernel, rfl, by decide +kernel, garbled, ?_⟩
  intro appended
  rw [appended] at garbled
  exact different (Request.append.inj (Option.some.inj garbled))

end AesdChar

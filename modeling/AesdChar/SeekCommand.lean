import AesdChar.ReceivePacket

set_option autoImplicit false

namespace AesdChar

open CString

def comma : UInt8 := 44

-- What a client sends to seek to byte y of entry x.
def seekPacket (x y : UInt32) : Bytes :=
  aesdCharIoctlCmd ++ (decimal x.toNat ++ comma :: (decimal y.toNat ++ [newLine]))

theorem decimal_word_length (n : UInt32) : (decimal n.toNat).length ≤ 10 := by
  have small := n.toNat_lt
  have long := decimal_length_lt n.toNat 10 (by decide)
  omega

theorem seek_packet_length (x y : UInt32) : (seekPacket x y).length ≤ 41 := by
  have first := decimal_word_length x
  have second := decimal_word_length y
  have command : aesdCharIoctlCmd.length = 19 := rfl
  simp only [seekPacket, List.length_append, List.length_cons, List.length_nil, command]
  omega

theorem seek_packet_plain (x y : UInt32) : 0 ∉ seekPacket x y := by
  have first := decimal_plain x.toNat 0 rfl
  have second := decimal_plain y.toNat 0 rfl
  simp [seekPacket, first, second, aesdCharIoctlCmd, comma, newLine]

theorem first_number (x y : UInt32) :
    strtoul ((seekPacket x y ++ [0]).drop cmdIdentifierLen) = some (UInt64.ofNat x.toNat) := by
  have rest : (seekPacket x y ++ [0]).drop cmdIdentifierLen =
      decimal x.toNat ++ comma :: (decimal y.toNat ++ [newLine] ++ [0]) := by
    simp [seekPacket, aesdCharIoctlCmd, cmdIdentifierLen]
  have small := x.toNat_lt
  have front := strtoul_front (decimal x.toNat) (decimal y.toNat ++ [newLine] ++ [0]) comma (decimal_digits x.toNat) rfl
    (fun _ => by decide) (by rw [decimal_value]; omega)
  rw [rest, front, decimal_value]

-- The place for the second number is right only after a first one of one digit.
theorem second_number_one_digit (x y : UInt32) (oneDigit : x < 10) :
    strtoul ((seekPacket x y ++ [0]).drop (totalCmdLen - 1)) = some (UInt64.ofNat y.toNat) := by
  have length : (decimal x.toNat).length = 1 := by
    have long := decimal_length_lt x.toNat 1 (by decide)
    have nonempty := decimal_nonempty x.toNat
    rw [UInt32.lt_iff_toNat_lt] at oneDigit
    simp only [UInt32.reduceToNat] at oneDigit
    omega
  obtain ⟨digit, single⟩ := List.length_eq_one_iff.mp length
  have rest : (seekPacket x y ++ [0]).drop (totalCmdLen - 1) = decimal y.toNat ++ newLine :: [0] := by
    simp [seekPacket, aesdCharIoctlCmd, totalCmdLen, single]
  have small := y.toNat_lt
  have front := strtoul_front (decimal y.toNat) [0] newLine (decimal_digits y.toNat) rfl
    (fun empty => absurd (decimal_nonempty y.toNat) (by simp [empty])) (by rw [decimal_value]; omega)
  rw [rest, front, decimal_value]

-- After a longer one it is in the middle of it.
theorem second_number_inside_first (x y : UInt32) (longer : ¬ x < 10) :
    strtoul ((seekPacket x y ++ [0]).drop (totalCmdLen - 1)) =
      some (UInt64.ofNat (x.toNat % 10 ^ ((decimal x.toNat).length - 2))) := by
  rw [UInt32.lt_iff_toNat_lt] at longer
  simp only [UInt32.reduceToNat] at longer
  have length := (decimal_length_lt x.toNat 1 (by decide)).mpr (by omega)
  have rest : (seekPacket x y ++ [0]).drop (totalCmdLen - 1) =
      (decimal x.toNat).drop 2 ++ comma :: (decimal y.toNat ++ [newLine] ++ [0]) := by
    have command : aesdCharIoctlCmd.length = 19 := rfl
    rw [seekPacket, List.append_assoc, List.drop_append, List.drop_eq_nil_of_le (by rw [command]; decide), command,
      List.append_assoc, List.nil_append, List.drop_append_of_le_length (by simp only [totalCmdLen]; omega)]
    rfl
  have small := x.toNat_lt
  have value := decimal_value_drop x.toNat 2 (by omega)
  have front := strtoul_front ((decimal x.toNat).drop 2) (decimal y.toNat ++ [newLine] ++ [0]) comma
    (fun digit member => decimal_digits x.toNat digit (List.mem_of_mem_drop member)) rfl (fun _ => by decide)
    (by rw [value]; exact Nat.lt_of_le_of_lt (Nat.mod_le _ _) (by omega))
  rw [rest, front, value]

def decodedOffset (x y : UInt32) : UInt32 :=
  if x < 10 then y else UInt32.ofNat (x.toNat % 10 ^ ((decimal x.toNat).length - 2))

theorem seek_packet_decoded (x y : UInt32) : seektoOf (seekPacket x y ++ [0]) = some ⟨x, decodedOffset x y⟩ := by
  by_cases oneDigit : x < 10
  · simp [seektoOf, first_number, second_number_one_digit x y oneDigit, decodedOffset, oneDigit]
  · simp [seektoOf, first_number, second_number_inside_first x y oneDigit, decodedOffset, oneDigit]

-- Whatever the numbers are, the command ends the loop and reaches the ioctl.
theorem seek_packet_served (x y : UInt32) (realloc : Answer) (more : List RecvResult)
    (granted : realloc.address ≠ none) :
    serveClient true (.data (seekPacket x y) realloc :: more) = some (.seek ⟨x, decodedOffset x y⟩, more) := by
  have isEnded : newLine ∈ seekPacket x y := by simp [seekPacket]
  have length := seek_packet_length x y
  obtain ⟨buf, round⟩ := whole_packet_round (seekPacket x y) realloc isEnded granted (by omega) (seek_packet_plain x y)
  have isCommand : aesdCharIoctlCmd <+: seekPacket x y := List.prefix_append _ _
  rw [decide_eq_true isCommand] at round
  have active : (receiveStart.moreBytesToRead && !receiveStart.failed) = true := rfl
  have handled : handleFrom receiveStart (.data (seekPacket x y) realloc :: more) =
      some (.seek (seekPacket x y ++ [0]), more) := by
    simp only [handleFrom, receiveLoop, active, if_true, round]
    cases more with
    | nil => rfl
    | cons event later => rfl
  rw [serveClient, if_pos rfl, serveFrom, handled]
  simp only [serve, seek_packet_decoded, Option.map_some]

theorem seek_packet_refused (x y : UInt32) (realloc : Answer) (more : List RecvResult) (seekto : AesdSeekto)
    (refused : realloc.address = none) :
    serveClient true (.data (seekPacket x y) realloc :: more) ≠ some (.seek seekto, more) := by
  have active : (receiveStart.moreBytesToRead && !receiveStart.failed) = true := rfl
  simp only [serveClient, if_true, serveFrom, handleFrom, receiveLoop, active]
  cases ran : receiveChunk receiveStart (seekPacket x y) realloc with
  | none => simp
  | some next =>
      rcases receive_chunk_cases receiveStart next _ realloc ran with ⟨_, rfl⟩ | ⟨granted, _⟩
      · have notFound : receiveStart.ioctlCmdFound = false := rfl
        have nothing : receiveStart.totalBytesRecv = 0 := rfl
        cases more <;> simp [receiveLoop, requestOf, notFound, nothing, serve]
      · exact absurd refused granted

theorem offset_decoded (x y : UInt32) :
    decodedOffset x y = y ↔ x < 10 ∨ y.toNat = x.toNat % 10 ^ ((decimal x.toNat).length - 2) := by
  by_cases oneDigit : x < 10
  · simp [decodedOffset, oneDigit]
  · have small := Nat.lt_of_le_of_lt (Nat.mod_le x.toNat (10 ^ ((decimal x.toNat).length - 2))) x.toNat_lt
    rw [decodedOffset, if_neg oneDigit, or_iff_right oneDigit, ← UInt32.toNat_inj, UInt32.toNat_ofNat',
      Nat.mod_eq_of_lt small]
    exact eq_comm

theorem seek_command_round_trips (malloc : Bool) (x y : UInt32) (realloc : Answer) (more : List RecvResult) :
    serveClient malloc (.data (seekPacket x y) realloc :: more) = some (.seek ⟨x, y⟩, more) ↔
      malloc = true ∧ realloc.address ≠ none ∧
        (x < 10 ∨ y.toNat = x.toNat % 10 ^ ((decimal x.toNat).length - 2)) := by
  cases malloc with
  | false => simp [serveClient]
  | true =>
      by_cases refused : realloc.address = none
      · exact iff_of_false (seek_packet_refused x y realloc more ⟨x, y⟩ refused) fun condition => condition.2.1 refused
      · rw [seek_packet_served x y realloc more refused, ← offset_decoded]
        simp [refused]

-- "AESDCHAR_IOCSEEKTO:10,5": the second number is read at the comma.
theorem seek_command_loses_offset :
    (serveClient true [.data (seekPacket 10 5) userMemory]).map Prod.fst = some (.seek ⟨10, 0⟩) ∧
      serveClient true [.data (seekPacket 10 5) userMemory] ≠ some (.seek ⟨10, 5⟩, []) := by
  have lost : (serveClient true [.data (seekPacket 10 5) userMemory]).map Prod.fst = some (.seek ⟨10, 0⟩) := by
    decide +kernel
  refine ⟨lost, ?_⟩
  intro kept
  rw [kept] at lost
  exact absurd lost (by decide)

end AesdChar

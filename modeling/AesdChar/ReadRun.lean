import AesdChar.DriverRun

set_option autoImplicit false

namespace AesdChar

open Concat HeapStore

-- The lookup takes f_pos as an unsigned word.
def position (fPos : Int64) : Nat := fPos.toUInt64.toNat

theorem position_advance (fPos : Int64) (bytes : Bytes) (fits : position fPos + bytes.length < 2 ^ 64) :
    position (fPos + byteCount bytes) = position fPos + bytes.length := by
  have word : (fPos + byteCount bytes).toUInt64 = fPos.toUInt64 + UInt64.ofNat bytes.length := by
    rw [byteCount, Int64.toUInt64_add, UInt64.toUInt64_toInt64]
  have count := word_of_nat bytes.length (by omega)
  rw [position, word, UInt64.toNat_add, count]
  exact Nat.mod_eq_of_lt fits

theorem byte_count_exact (bytes : Bytes) (fits : bytes.length < 2 ^ 63) : (byteCount bytes).toInt = bytes.length := by
  have count := word_of_nat bytes.length (by omega)
  rw [byteCount, word_to_int _ (by omega), count]

theorem aesd_read_copied (api : KernelApi) (kernel : Kernel) (content : List AesdBufferEntry) (lines : List Bytes)
    (working : Option Bytes) (filp : Filp) (buf : Ptr) (count : UInt64) (fPos : Int64)
    (rep : DevRep api kernel content lines working) (given : buf ≠ nullPtr) (opened : filp.privateData = true) :
    ∃ out fPos', aesdRead kernel filp buf count fPos ⟨true, true⟩ = some ⟨kernel, fPos', byteCount out, out⟩ ∧
      fPos' = fPos + byteCount out ∧ position fPos' = position fPos + out.length ∧
      out = (lines.flatten.drop (position fPos)).take out.length ∧ out.length ≤ count.toNat ∧
      (out = [] ↔ count = 0 ∨ lines.flatten.length ≤ position fPos) := by
  have fits := retained_fits api kernel content lines working rep
  have lengths := read_bytes_length lines (position fPos) count.toNat
  have word : position fPos < 2 ^ 64 := fPos.toUInt64.toNat_lt
  refine ⟨readBytes lines (position fPos) count.toNat, _, ?_, rfl, position_advance fPos _ (by omega),
    read_bytes_content lines _ _, lengths.1, ?_, ?_⟩
  · rw [aesd_read_open api kernel content lines working filp buf count fPos true rep given opened,
      if_pos (by simp [copyToUser])]
    rfl
  · intro nothing
    by_cases zero : count.toNat = 0
    · exact Or.inl (UInt64.toNat_inj.mp zero)
    · by_cases past : lines.flatten.length ≤ position fPos
      · exact Or.inr past
      · exact absurd nothing (read_bytes_some lines _ _ (by omega) (by omega))
  · rintro (zero | past)
    · rw [zero]
      exact List.take_zero
    · exact read_bytes_past lines _ _ past

-- Before the end of the content a read brings at least one byte.
theorem aesd_read_inside (api : KernelApi) (kernel : Kernel) (content : List AesdBufferEntry) (lines : List Bytes)
    (working : Option Bytes) (filp : Filp) (buf : Ptr) (count : UInt64) (fPos : Int64)
    (rep : DevRep api kernel content lines working) (given : buf ≠ nullPtr) (opened : filp.privateData = true)
    (asked : count ≠ 0) (inside : position fPos < lines.flatten.length) :
    ∃ out fPos', aesdRead kernel filp buf count fPos ⟨true, true⟩ = some ⟨kernel, fPos', byteCount out, out⟩ ∧
      fPos' = fPos + byteCount out ∧ position fPos' = position fPos + out.length ∧
      out = (lines.flatten.drop (position fPos)).take out.length ∧ 0 < out.length ∧ out.length ≤ count.toNat ∧
      out.length ≤ lines.flatten.length - position fPos ∧ (byteCount out).toInt = out.length := by
  have fits := retained_fits api kernel content lines working rep
  obtain ⟨out, fPos', ran, advanced, moved, bytes, few, empty⟩ :=
    aesd_read_copied api kernel content lines working filp buf count fPos rep given opened
  have some : out ≠ [] := fun nothing => by
    rcases empty.mp nothing with zero | past
    · exact asked zero
    · omega
  have outFits := congrArg List.length bytes
  rw [List.length_take, List.length_drop] at outFits
  exact ⟨out, fPos', ran, advanced, moved, bytes, List.length_pos_iff.mpr some, few, by omega,
    byte_count_exact out (by omega)⟩

theorem aesd_read_faulted (api : KernelApi) (kernel : Kernel) (content : List AesdBufferEntry) (lines : List Bytes)
    (working : Option Bytes) (filp : Filp) (buf : Ptr) (count : UInt64) (fPos : Int64)
    (rep : DevRep api kernel content lines working) (given : buf ≠ nullPtr) (opened : filp.privateData = true)
    (asked : count ≠ 0) (inside : position fPos < lines.flatten.length) :
    aesdRead kernel filp buf count fPos ⟨true, false⟩ = some ⟨kernel, fPos, -eFault, []⟩ := by
  have positive : 0 < count.toNat := Nat.pos_of_ne_zero fun zero => asked (UInt64.toNat_inj.mp zero)
  have data := read_bytes_some lines (position fPos) count.toNat inside positive
  rw [aesd_read_open api kernel content lines working filp buf count fPos false rep given opened, if_neg]
  simpa [copyToUser, position] using data

theorem aesd_read_at_end (api : KernelApi) (kernel : Kernel) (content : List AesdBufferEntry) (lines : List Bytes)
    (working : Option Bytes) (filp : Filp) (buf : Ptr) (count : UInt64) (fPos : Int64) (copied : Bool)
    (rep : DevRep api kernel content lines working) (given : buf ≠ nullPtr) (opened : filp.privateData = true)
    (done : count = 0 ∨ lines.flatten.length ≤ position fPos) :
    aesdRead kernel filp buf count fPos ⟨true, copied⟩ = some ⟨kernel, fPos, 0, []⟩ := by
  have nothing : readBytes lines (position fPos) count.toNat = [] := by
    rcases done with zero | past
    · rw [zero]
      exact List.take_zero
    · exact read_bytes_past lines _ _ past
  rw [position] at nothing
  rw [aesd_read_open api kernel content lines working filp buf count fPos copied rep given opened, nothing]
  simp [copyToUser, byteCount]

def readRun (kernel : Kernel) (filp : Filp) (buf : Ptr) : List UInt64 → Option (Filp × List CallResult)
  | [] => some (filp, [])
  | count :: rest =>
      match aesdRead kernel filp buf count filp.fPos ⟨true, true⟩ with
      | none => none
      | some result =>
          match readRun result.kernel { filp with fPos := result.fPos } buf rest with
          | none => none
          | some (final, later) => some (final, result :: later)

def delivered (results : List CallResult) : Bytes := results.flatMap CallResult.out

theorem read_run_delivers (api : KernelApi) (kernel : Kernel) (content : List AesdBufferEntry) (lines : List Bytes)
    (working : Option Bytes) (filp : Filp) (buf : Ptr) (counts : List UInt64)
    (rep : DevRep api kernel content lines working) (given : buf ≠ nullPtr) (opened : filp.privateData = true) :
    ∃ final results, readRun kernel filp buf counts = some (final, results) ∧ final.privateData = true ∧
      delivered results = (lines.flatten.drop (position filp.fPos)).take (delivered results).length ∧
      position final.fPos = position filp.fPos + (delivered results).length := by
  induction counts generalizing filp with
  | nil => exact ⟨filp, [], rfl, opened, by simp [delivered], rfl⟩
  | cons count rest ih =>
      obtain ⟨out, fPos, ran, _, moved, bytes, _⟩ :=
        aesd_read_copied api kernel content lines working filp buf count filp.fPos rep given opened
      obtain ⟨final, results, later, finalOpened, text, finalMoved⟩ := ih { filp with fPos } opened
      rw [moved] at text finalMoved
      have joined : delivered (⟨kernel, fPos, byteCount out, out⟩ :: results) = out ++ delivered results := rfl
      refine ⟨final, ⟨kernel, fPos, byteCount out, out⟩ :: results, by simp only [readRun, ran, later],
        finalOpened, ?_, ?_⟩
      · rw [joined, List.length_append, List.take_add, ← bytes, List.drop_drop, ← text]
      · rw [joined, List.length_append, finalMoved]
        omega

theorem reads_to_end (api : KernelApi) (kernel : Kernel) (content : List AesdBufferEntry) (lines : List Bytes)
    (working : Option Bytes) (filp : Filp) (buf : Ptr) (counts : Nat → UInt64) (remaining : Nat)
    (rep : DevRep api kernel content lines working) (given : buf ≠ nullPtr) (opened : filp.privateData = true)
    (positive : ∀ i, counts i ≠ 0) (bound : lines.flatten.length - position filp.fPos = remaining) :
    ∃ calls final results, calls ≤ remaining ∧
      readRun kernel filp buf ((List.range calls).map counts) = some (final, results) ∧
      (∀ result ∈ results, 0 < result.ret) ∧ delivered results = lines.flatten.drop (position filp.fPos) ∧
      aesdRead kernel final buf (counts calls) final.fPos ⟨true, true⟩ = some ⟨kernel, final.fPos, 0, []⟩ := by
  induction remaining using Nat.strong_induction_on generalizing filp counts with
  | _ remaining ih =>
      by_cases past : lines.flatten.length ≤ position filp.fPos
      · refine ⟨0, filp, [], Nat.zero_le _, rfl, by simp, ?_,
          aesd_read_at_end api kernel content lines working filp buf _ _ true rep given opened (Or.inr past)⟩
        rw [List.drop_eq_nil_of_le past]
        rfl
      · obtain ⟨out, fPos, ran, _, moved, bytes, outPositive, _, outFits, exact⟩ :=
          aesd_read_inside api kernel content lines working filp buf (counts 0) filp.fPos rep given opened (positive 0)
            (by omega)
        obtain ⟨calls, final, results, few, later, data, text, last⟩ :=
          ih (remaining - out.length) (by omega) { filp with fPos } (fun i => counts (i + 1)) opened
            (fun i => positive (i + 1)) (by rw [moved]; omega)
        refine ⟨calls + 1, final, ⟨kernel, fPos, byteCount out, out⟩ :: results, by omega, ?_, ?_, ?_, last⟩
        · rw [List.range_succ_eq_map, List.map_cons, List.map_map]
          simp only [readRun, ran]
          simp only [Function.comp_def, Nat.succ_eq_add_one, later]
        · intro result member
          rcases List.mem_cons.mp member with first | rest
          · rw [first, Int64.lt_iff_toInt_lt, exact]
            simpa using outPositive
          · exact data result rest
        · have joined : delivered (⟨kernel, fPos, byteCount out, out⟩ :: results) = out ++ delivered results := rfl
          rw [joined, text, moved, ← List.drop_drop]
          exact (congrArg (· ++ _) bytes).trans (List.take_append_drop _ _)

theorem reads_deliver_retained (api : KernelApi) (events : List Event) (kernel : Kernel) (filp : Filp) (buf : Ptr)
    (run : Run api events kernel) (given : buf ≠ nullPtr) (opened : filp.privateData = true) :
    ∃ lines, retained kernel = some lines ∧
      (∀ count fPos, count ≠ 0 → position fPos < lines.flatten.length →
        ∃ result, aesdRead kernel filp buf count fPos ⟨true, true⟩ = some result ∧ result.kernel = kernel ∧
          1 ≤ result.ret.toInt ∧ result.ret.toInt ≤ count.toNat ∧
          result.out = (lines.flatten.drop (position fPos)).take result.ret.toInt.toNat ∧
          result.out.length = result.ret.toInt ∧
          result.fPos = fPos + result.ret ∧ (position result.fPos : Int) = position fPos + result.ret.toInt) ∧
      (∀ count fPos copied, count = 0 ∨ lines.flatten.length ≤ position fPos →
        aesdRead kernel filp buf count fPos ⟨true, copied⟩ = some ⟨kernel, fPos, 0, []⟩) ∧
      (∀ count fPos, count ≠ 0 → position fPos < lines.flatten.length →
        aesdRead kernel filp buf count fPos ⟨true, false⟩ = some ⟨kernel, fPos, -eFault, []⟩) ∧
      (∀ counts, ∃ final results, readRun kernel filp buf counts = some (final, results) ∧
        delivered results = (lines.flatten.drop (position filp.fPos)).take (delivered results).length ∧
        position final.fPos = position filp.fPos + (delivered results).length) ∧
      ∀ counts : Nat → UInt64, (∀ i, counts i ≠ 0) →
        ∃ calls final results, calls ≤ lines.flatten.length - position filp.fPos ∧
          readRun kernel filp buf ((List.range calls).map counts) = some (final, results) ∧
          (∀ result ∈ results, 0 < result.ret) ∧ delivered results = lines.flatten.drop (position filp.fPos) ∧
          aesdRead kernel final buf (counts calls) final.fPos ⟨true, true⟩ = some ⟨kernel, final.fPos, 0, []⟩ := by
  obtain ⟨content, working, rep⟩ := run_rep api events kernel run
  refine ⟨_, dev_rep_retained api kernel content _ working rep, ?_, ?_, ?_, ?_, ?_⟩
  · intro count fPos asked inside
    obtain ⟨out, next, ran, advanced, moved, bytes, outPositive, few, _, exact⟩ :=
      aesd_read_inside api kernel content _ working filp buf count fPos rep given opened asked inside
    refine ⟨_, ran, rfl, ?_, ?_, ?_, exact.symm, advanced, ?_⟩
    · simp only [exact]
      omega
    · simp only [exact]
      omega
    · simp only [exact, Int.toNat_natCast]
      exact bytes
    · simp only [exact, moved]
      omega
  · intro count fPos copied done
    exact aesd_read_at_end api kernel content _ working filp buf count fPos copied rep given opened done
  · intro count fPos asked inside
    exact aesd_read_faulted api kernel content _ working filp buf count fPos rep given opened asked inside
  · intro counts
    obtain ⟨final, results, ran, _, text, moved⟩ :=
      read_run_delivers api kernel content _ working filp buf counts rep given opened
    exact ⟨final, results, ran, text, moved⟩
  · intro counts positive
    exact reads_to_end api kernel content _ working filp buf counts _ rep given opened positive rfl

theorem reads_deliver_one_line :
    ∃ events kernel lines, Run stockKernel events kernel ∧ retained kernel = some lines ∧
      ∃ final results, readRun kernel ⟨true, 0⟩ 4096 [1, 5] = some (final, results) ∧
        delivered results = (lines.flatten.drop 0).take (delivered results).length := by
  obtain ⟨events, kernel, _, run⟩ := sample_run [(sampleWrite [97, 10] 4096 8192).toDriver] (by decide)
  obtain ⟨lines, stored, _, _, _, reads, _⟩ :=
    reads_deliver_retained stockKernel events kernel ⟨true, 0⟩ 4096 run (by decide) rfl
  obtain ⟨final, results, ran, text, _⟩ := reads [1, 5]
  exact ⟨events, kernel, lines, run, stored, final, results, ran, text⟩

end AesdChar

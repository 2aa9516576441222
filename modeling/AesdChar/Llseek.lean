import AesdChar.Seek

set_option autoImplicit false

namespace AesdChar

open Concat CyclicQueue HeapStore

-- SEEK_SET, SEEK_CUR and SEEK_END.
def seekTarget (fPos off : Int64) (whence : Int32) (size : Int) : Option Int :=
  if whence = 0 then some off.toInt
  else if whence = 1 then some (fPos.toInt + off.toInt)
  else if whence = 2 then some (size + off.toInt)
  else none

inductive SeekAnswer (fPos : Int64) (size : Int) (target : Option Int) : Int64 × Int64 → Prop where
  | moved (p : Int64) (hit : target = some p.toInt) (lower : 0 ≤ p.toInt) (upper : p.toInt ≤ size) :
      SeekAnswer fPos size target (p, p)
  | refused (ret : Int64) (negative : ret < 0) (miss : ∀ t, target = some t → t < 0 ∨ size < t) :
      SeekAnswer fPos size target (ret, fPos)

-- What fixed_size_llseek promises at a position of the file. SEEK_CUR with an
-- offset of 0 is a case of its own there.
def FixedSizeLlseek (api : KernelApi) (fPos : Int64) : Prop :=
  ∀ off whence (size : Int64), 0 ≤ size.toInt → ¬ (whence = 1 ∧ off = 0) →
    SeekAnswer fPos size.toInt (seekTarget fPos off whence size.toInt) (api.fixedSizeLlseek fPos off whence size)

theorem int_add_wraps (p q : Int64) (nonneg : 0 ≤ p.toInt) :
    (p + q).toInt = p.toInt + q.toInt ∨ (2 ^ 63 ≤ p.toInt + q.toInt ∧ (p + q).toInt < 0) := by
  have pBound := p.toInt_lt
  have qBound := q.toInt_lt
  have qLower := q.le_toInt
  rw [Int64.toInt_add]
  by_cases fits : p.toInt + q.toInt < 2 ^ 63
  · exact Or.inl (Int.bmod_eq_of_le (by omega) (by omega))
  · refine Or.inr ⟨by omega, ?_⟩
    rw [Int.bmod_def]
    omega

theorem documented_answer (fPos size position : Int64) (target : Int) (positive : 0 ≤ size.toInt)
    (reached : position.toInt = target ∨ (2 ^ 63 ≤ target ∧ position.toInt < 0)) :
    SeekAnswer fPos size.toInt (some target)
      (if position < 0 ∨ size < position then (-22, fPos) else (position, position)) := by
  have bound := size.toInt_lt
  by_cases outside : position < 0 ∨ size < position
  · rw [if_pos outside]
    rw [Int64.lt_iff_toInt_lt, Int64.lt_iff_toInt_lt] at outside
    refine .refused (-22) (by decide) fun t same => ?_
    cases same
    simp only [Int64.toInt_zero] at outside
    omega
  · rw [if_neg outside]
    rw [Int64.lt_iff_toInt_lt, Int64.lt_iff_toInt_lt] at outside
    simp only [Int64.toInt_zero] at outside
    exact .moved position (congrArg some (by omega)) (by omega) (by omega)

theorem documented_llseek (fPos : Int64) (nonneg : 0 ≤ fPos.toInt) : FixedSizeLlseek stockKernel fPos := by
  intro off whence size positive _
  simp only [stockKernel, documentedLlseek, seekTarget]
  by_cases set : whence = 0
  · simp only [if_pos set]
    exact documented_answer fPos size off off.toInt positive (Or.inl rfl)
  · by_cases current : whence = 1
    · simp only [if_neg set, if_pos current]
      exact documented_answer fPos size _ _ positive (int_add_wraps fPos off nonneg)
    · by_cases fromEnd : whence = 2
      · simp only [if_neg set, if_neg current, if_pos fromEnd]
        exact documented_answer fPos size _ _ positive (int_add_wraps size off positive)
      · simp only [if_neg set, if_neg current, if_neg fromEnd]
        exact .refused (-22) (by decide) fun t same => by cases same

theorem fold_sizes (entries : List AesdBufferEntry) (start : UInt64)
    (fits : start.toNat + (sizesOf entries).sum < 2 ^ 64) :
    (entries.foldl (fun size entry => size + entry.size) start).toNat = start.toNat + (sizesOf entries).sum := by
  induction entries generalizing start with
  | nil => simp [sizesOf]
  | cons entry rest ih =>
      have split : (sizesOf (entry :: rest)).sum = entry.size.toNat + (sizesOf rest).sum := by simp [sizesOf]
      have first : (start + entry.size).toNat = start.toNat + entry.size.toNat := by
        rw [UInt64.toNat_add, Nat.mod_eq_of_lt (by omega)]
      rw [List.foldl_cons, ih _ (by omega), first, split, Nat.add_assoc]

-- The sum over the ten slots counts the retained commands, since every other
-- slot has size 0.
theorem buffer_size_content (api : KernelApi) (kernel : Kernel) (content : List AesdBufferEntry) (lines : List Bytes)
    (working : Option Bytes) (rep : DevRep api kernel content lines working) :
    (bufferSize kernel.dev.buffer).toNat = lines.flatten.length := by
  have slots := (ring_rep_slots _ content rep.ring).map fun entry => entry.size.toNat
  have fits := retained_fits api kernel content lines working rep
  have sum : (sizesOf kernel.dev.buffer.entry.toList).sum = lines.flatten.length := by
    rw [List.length_flatten, ← stored_sizes api kernel.heap content lines rep.stored, sizesOf, sizesOf, slots.sum_eq]
    simp [zeroEntry]
  rw [bufferSize, fold_sizes _ 0 (by rw [sum]; exact lt_trans (by simpa using fits) (by decide)), sum]
  exact Nat.zero_add _

def SeekLands (api : KernelApi) (kernel : Kernel) (filp : Filp) (off : Int64) (whence : Int32)
    (text : Bytes) (t : Int) :
    Prop :=
  ∃ fPos : Int64, fPos.toInt = t ∧ aesdLlseek api kernel filp off whence true = ⟨kernel, fPos, fPos, []⟩ ∧
    ReadsOut kernel { filp with fPos } (text.drop t.toNat)

theorem position_exact (fPos : Int64) (nonneg : 0 ≤ fPos.toInt) : position fPos = fPos.toInt.toNat := by
  rw [position, Int64.toNat_toUInt64_of_le (Int64.le_iff_toInt_le.mpr nonneg)]
  rfl

/-- aesd_llseek knows the same content and the same end of it as aesd_read. -/
theorem llseek_agrees_with_reads (api : KernelApi) (events : List Event) (kernel : Kernel) (filp : Filp) (off : Int64)
    (whence : Int32) (run : Run api events kernel) (opened : filp.privateData = true)
    (contract : FixedSizeLlseek api filp.fPos) (moves : ¬ (whence = 1 ∧ off = 0)) :
    ∃ lines, retained kernel = some lines ∧ (bufferSize kernel.dev.buffer).toNat = lines.flatten.length ∧
      (∀ t, seekTarget filp.fPos off whence lines.flatten.length = some t → 0 ≤ t → t ≤ lines.flatten.length →
        SeekLands api kernel filp off whence lines.flatten t) ∧
      ((∀ t, seekTarget filp.fPos off whence lines.flatten.length = some t → t < 0 ∨ lines.flatten.length < t) →
        aesdLlseek api kernel filp off whence true = ⟨kernel, filp.fPos, -eInval, []⟩) := by
  obtain ⟨content, working, rep⟩ := run_rep api events kernel run
  have size := buffer_size_content api kernel content _ working rep
  have fits := retained_fits api kernel content _ working rep
  have exact : (bufferSize kernel.dev.buffer).toInt64.toInt =
      (((completedLines events).rtake 10).flatten.length : Int) := by
    rw [word_to_int _ (by omega), size]
  have answer :=
    contract off whence (bufferSize kernel.dev.buffer).toInt64 (by rw [exact]; exact Int.natCast_nonneg _) moves
  rw [exact] at answer
  refine ⟨_, dev_rep_retained api kernel content _ working rep, size, ?_, ?_⟩
  · intro t target lower upper
    generalize answered :
      api.fixedSizeLlseek filp.fPos off whence (bufferSize kernel.dev.buffer).toInt64 = pair at answer
    cases answer with
    | refused ret negative miss => have outside := miss t target; omega
    | moved p hit nonneg within =>
        have same : p.toInt = t := Option.some.inj (hit.symm.trans target)
        have forward : ¬ p < 0 := by
          rw [Int64.lt_iff_toInt_lt, Int64.toInt_zero]
          omega
        refine ⟨p, same, by simp [aesdLlseek, opened, answered, forward], ?_⟩
        rw [reads_out_iff api kernel content _ working { filp with fPos := p } _ rep opened,
          position_exact p nonneg, same]
  · intro miss
    generalize answered :
      api.fixedSizeLlseek filp.fPos off whence (bufferSize kernel.dev.buffer).toInt64 = pair at answer
    cases answer with
    | refused ret negative _ => simp [aesdLlseek, opened, answered, negative]
    | moved p hit nonneg within => have outside := miss p.toInt hit; omega

theorem llseek_agrees_second_byte :
    ∃ events kernel lines, Run stockKernel events kernel ∧ retained kernel = some lines ∧
      SeekLands stockKernel kernel ⟨true, 0⟩ 1 0 lines.flatten 1 := by
  obtain ⟨events, kernel, ran, run⟩ := sample_run [(sampleWrite [97, 10] 4096 8192).toDriver] (by decide)
  obtain ⟨lines, stored, _, lands, _⟩ := llseek_agrees_with_reads stockKernel events kernel ⟨true, 0⟩ 1 0 run rfl
    (documented_llseek 0 (by decide)) (by decide)
  have kept : (runCalls stockKernel loadedModule [(sampleWrite [97, 10] 4096 8192).toDriver]).map
      (fun final => retained final.2) = some (some [[97, 10]]) := by decide
  rw [ran, Option.map_some, stored] at kept
  cases Option.some.inj (Option.some.inj kept)
  exact ⟨events, kernel, _, run, stored, lands 1 rfl (by decide) (by decide)⟩

end AesdChar

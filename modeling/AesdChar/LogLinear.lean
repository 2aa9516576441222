import AesdChar.Library.LockRefine
import AesdChar.LogRefines
import AesdChar.Serialisable
import Mathlib.Data.Finset.Card
import Mathlib.Logic.Equiv.Basic

set_option autoImplicit false

namespace AesdChar

open CyclicQueue HeapStore LockProgram

-- The same device with its blocks at other addresses. Reserved pointers stay.
structure Moves (move : Ptr → Ptr) : Prop where
  back : ∀ a, move (move a) = a
  reserved : ∀ a, zeroOrNullPtr a = true → move a = a

def AesdBufferEntry.relocate (move : Ptr → Ptr) (entry : AesdBufferEntry) : AesdBufferEntry :=
  ⟨move entry.buffptr, entry.size⟩

def AesdCircularBuffer.relocate (move : Ptr → Ptr) (buffer : AesdCircularBuffer) : AesdCircularBuffer :=
  { buffer with entry := buffer.entry.map (AesdBufferEntry.relocate move) }

def AesdDev.relocate (move : Ptr → Ptr) (dev : AesdDev) : AesdDev :=
  ⟨dev.buffer.relocate move, dev.workingEntry.relocate move⟩

theorem relocate_slot (move : Ptr → Ptr) (buffer : AesdCircularBuffer) (slot : Nat) :
    slotAt (buffer.relocate move) slot = (slotAt buffer slot).relocate move := by
  simp [slotAt, AesdCircularBuffer.relocate]

section

variable {move : Ptr → Ptr} (moves : Moves move)

include moves

theorem moves_injective (a b : Ptr) (same : move a = move b) : a = b := by
  rw [← moves.back a, same, moves.back]

theorem moves_real (a : Ptr) (real : zeroOrNullPtr a = false) : zeroOrNullPtr (move a) = false := by
  cases kept : zeroOrNullPtr (move a) with
  | false => rfl
  | true =>
      have fixed := moves.reserved (move a) kept
      rw [moves.back] at fixed
      rw [← fixed, real] at kept
      cases kept

theorem relocate_ring (buffer : AesdCircularBuffer) (content : List AesdBufferEntry) (rep : RingRep buffer content) :
    RingRep (buffer.relocate move) (content.map (AesdBufferEntry.relocate move)) := by
  have blank : zeroEntry.relocate move = zeroEntry := by
    simp [AesdBufferEntry.relocate, zeroEntry, moves.reserved nullPtr null_reserved]
  refine ⟨⟨?_, rep.window.inside, fun i bound => ?_⟩, ?_, ?_, rep.unrotated⟩
  · simpa using rep.window.bounded
  · rw [relocate_slot]
    dsimp only [AesdCircularBuffer.relocate]
    rw [rep.window.cell i bound]
    simp only [List.getD_eq_getElem?_getD, List.getElem?_map]
    cases content[i]? with
    | none => exact blank
    | some entry => rfl
  · rw [List.length_map]
    exact rep.inOffs
  · rw [List.length_map]
    exact rep.full

theorem relocate_block (api : KernelApi) (heap moved : Heap) (entry : AesdBufferEntry) (line : Bytes)
    (agree : moved (move entry.buffptr) = heap entry.buffptr) (block : BlockRep api heap entry line) :
    BlockRep api moved (entry.relocate move) line :=
  ⟨moves_real moves _ block.real, agree.trans block.live, block.size, block.fits, block.nonempty⟩

theorem relocate_stored (api : KernelApi) (heap moved : Heap) (content : List AesdBufferEntry) (lines : List Bytes)
    (agree : ∀ entry ∈ content, zeroOrNullPtr entry.buffptr = false → moved (move entry.buffptr) = heap entry.buffptr)
    (stored : List.Forall₂ (BlockRep api heap) content lines) :
    List.Forall₂ (BlockRep api moved) (content.map (AesdBufferEntry.relocate move)) lines := by
  induction stored with
  | nil => exact .nil
  | cons block _ ih =>
      exact .cons (relocate_block moves api heap moved _ _ (agree _ (by simp) block.real) block)
        (ih fun entry member => agree entry (by simp [member]))

theorem relocate_device (api : KernelApi) (kernel : Kernel) (heap : Heap) (content : List AesdBufferEntry)
    (lines : List Bytes) (working : Option Bytes) (rep : DevRep api kernel content lines working)
    (agree : ∀ a, Owned kernel content a → zeroOrNullPtr a = false → heap (move a) = kernel.heap a) :
    DevRep api ⟨heap, kernel.dev.relocate move⟩ (content.map (AesdBufferEntry.relocate move)) lines working := by
  refine ⟨relocate_ring moves _ content rep.ring, ?_, ?_, ?_, ?_⟩
  · exact relocate_stored moves api kernel.heap heap content lines
      (fun entry member real => agree _ (Or.inr ⟨entry, member, rfl⟩) real) rep.stored
  · have pending := rep.pending
    have owned : Owned kernel content kernel.dev.workingEntry.buffptr := Or.inl rfl
    have here := agree _ owned
    dsimp only [AesdDev.relocate]
    generalize kernel.dev.workingEntry = entry at pending here
    cases pending with
    | empty reserved zero =>
        exact .empty (by rw [AesdBufferEntry.relocate, moves.reserved _ reserved]; exact reserved) zero
    | pending line block => exact .pending line (relocate_block moves api _ _ entry line (here block.real) block)
    | lost gone claimed fits =>
        exact .lost (by rw [AesdBufferEntry.relocate, gone]; exact moves.reserved nullPtr null_reserved) claimed fits
  · rw [List.map_map]
    have injective : Function.Injective move := fun a b same => moves_injective moves a b same
    have distinct := rep.distinct.map injective
    rw [List.map_map] at distinct
    exact distinct
  · intro entry member same
    obtain ⟨origin, inside, rfl⟩ := List.mem_map.mp member
    exact rep.apart origin inside (moves_injective moves _ _ same)

theorem relocate_log (api : KernelApi) (kernel : Kernel) (heap : Heap) (content : List AesdBufferEntry)
    (working : Option Bytes) (log : CommandLog) (rep : LogRep api kernel content working log)
    (agree : ∀ a, Owned kernel content a → zeroOrNullPtr a = false → heap (move a) = kernel.heap a) :
    Logged api ⟨heap, kernel.dev.relocate move⟩ log := by
  refine ⟨_, working, relocate_device moves api kernel heap content _ working rep.device agree, ?_, rep.number⟩
  have pending := rep.pending
  generalize log.pending = begun at pending ⊢
  cases pending with
  | text bytes => exact .text bytes
  | lost => exact .lost

end

def ownedPtrs (kernel : Kernel) (content : List AesdBufferEntry) : List Ptr :=
  kernel.dev.workingEntry.buffptr :: content.map AesdBufferEntry.buffptr

theorem owned_ptrs (kernel : Kernel) (content : List AesdBufferEntry) (a : Ptr) (owned : Owned kernel content a) :
    a ∈ ownedPtrs kernel content := by
  rcases owned with rfl | ⟨entry, member, rfl⟩
  · exact List.mem_cons_self
  · exact List.mem_cons_of_mem _ (List.mem_map_of_mem member)

theorem spare_address (kernel : Kernel) (content : List AesdBufferEntry) (few : content.length ≤ 10) :
    ∃ q, zeroOrNullPtr q = false ∧ q ∉ ownedPtrs kernel content := by
  have owners : (ownedPtrs kernel content).toFinset.card ≤ 11 := by
    have listed : (ownedPtrs kernel content).length = content.length + 1 := by
      rw [ownedPtrs, List.length_cons, List.length_map]
    exact le_trans (List.toFinset_card_le _) (by omega)
  have candidates : ((Finset.range 12).image fun i => UInt64.ofNat (17 + i)).card = 12 := by decide
  obtain ⟨q, chosen, free⟩ := Finset.exists_mem_notMem_of_card_lt_card
    (show (ownedPtrs kernel content).toFinset.card <
      ((Finset.range 12).image fun i => UInt64.ofNat (17 + i)).card by omega)
  refine ⟨q, ?_, by simpa using free⟩
  have every : ∀ i ∈ Finset.range 12, zeroOrNullPtr (UInt64.ofNat (17 + i)) = false := by decide
  obtain ⟨i, inside, rfl⟩ := Finset.mem_image.mp chosen
  exact every i inside

theorem swap_moves (p q : Ptr) (pReal : zeroOrNullPtr p = false) (qReal : zeroOrNullPtr q = false) :
    Moves (Equiv.swap p q) := by
  refine ⟨Equiv.swap_apply_self p q, fun a reserved => Equiv.swap_apply_of_ne_of_ne ?_ ?_⟩
  · rintro rfl
    rw [pReal] at reserved
    cases reserved
  · rintro rfl
    rw [qReal] at reserved
    cases reserved

-- No log needs a particular address.
theorem logged_elsewhere (api : KernelApi) (kernel : Kernel) (log : CommandLog) (p : Ptr)
    (logged : Logged api kernel log) :
    ∃ other, Logged api other log ∧ other.heap p = none := by
  obtain ⟨content, working, rep⟩ := logged
  have few := rep.device.ring.window.bounded
  have moved : ∀ move, Moves move → zeroOrNullPtr p = true ∨ move p ∉ ownedPtrs kernel content →
      ∃ other, Logged api other log ∧ other.heap p = none := by
    intro move moves spare
    refine ⟨⟨fun a => if zeroOrNullPtr a = false ∧
      move a ∈ ownedPtrs kernel content then kernel.heap (move a) else none, _⟩,
      relocate_log moves api kernel _ content working log rep fun a owned real => ?_, ?_⟩
    · rw [moves.back, if_pos ⟨moves_real moves a real, owned_ptrs kernel content a owned⟩]
    · refine if_neg fun kept => ?_
      rcases spare with reserved | free
      · rw [kept.1] at reserved
        cases reserved
      · exact free kept.2
  by_cases real : zeroOrNullPtr p = false
  · obtain ⟨q, qReal, free⟩ := spare_address kernel content few
    exact moved _ (swap_moves p q real qReal) (Or.inr (by rw [Equiv.swap_apply_left]; exact free))
  · exact moved id ⟨fun _ => rfl, fun _ _ => rfl⟩ (Or.inl (by simpa using real))

def logSpec (api : KernelApi) (call : DriverCall) (log : CommandLog) (file : OpenFile) (next : CommandLog)
    (moved : OpenFile) (reply : CallReply) : Prop :=
  ∃ grants fPos, log.call api file.1 grants call = ⟨next, fPos, reply⟩ ∧ moved = file.moveTo fPos ∧
    log.Allows api grants reply.ret call

theorem pending_size (api : KernelApi) (kernel : Kernel) (content : List AesdBufferEntry) (working : Option Bytes)
    (log : CommandLog) (rep : LogRep api kernel content working log) :
    log.pending.size = kernel.dev.workingEntry.size.toNat := by
  have length := base_length api kernel working ⟨none, fun _ => 0⟩ rep.device.pending
  rw [← pending_base kernel working log.pending _ rep.pending] at length
  rw [← length]
  cases log.pending with
  | text bytes => rfl
  | lost size => simp [Pending.base, Pending.size]

theorem call_allowed (api : KernelApi) (kernel : Kernel) (log : CommandLog) (filp : Filp) (call : DriverCall)
    (result : CallResult) (logged : Logged api kernel log) (ran : driverCall api kernel filp call = some result) :
    log.Allows api (grantsOf api kernel filp call) result.ret call := by
  obtain ⟨content, working, rep⟩ := logged
  cases call with
  | write buf count env =>
      cases buf with
      | none => trivial
      | some user =>
          obtain ⟨found, foundRan, effect, denied, counted⟩ :=
            aesd_write_outcome api kernel content _ working filp (some user)
            count filp.fPos env rep.device
          cases Option.some.inj (ran.symm.trans foundRan)
          refine ⟨fun granted => ?_, fun empty => ?_, fun success => ?_⟩
          · exact kmalloc_allocatable api kernel.heap count env.kmalloc (by simpa [grantsOf] using granted)
          · simp [grantsOf, kmalloc, empty, zero_size_not_null]
          · have granted : writeGranted api kernel filp (some user) count env = true := by
              by_contra refused
              exact Int64.not_lt.mpr success (denied (by simpa using refused))
            have kept : kreallocRefused api kernel filp (some user) count env = false := by
              by_contra refused
              rw [(by simpa using refused : kreallocRefused api kernel filp (some user) count env = true)] at effect
              cases effect
              exact absurd success (show ¬0 ≤ -eNoMem by decide)
            rw [pending_size api kernel content working log rep]
            exact (counted granted kept).2
  | _ => trivial

theorem log_meets (api : KernelApi) :
    Meets (fun request => exec (callCode api request)) allocated (logSpec api) (Logged api) := by
  constructor
  · intro kernel log call file after moved reply logged ran
    rw [exec_call_code] at ran
    obtain ⟨result, called, same⟩ := Option.map_eq_some_iff.mp ran
    simp only [Prod.mk.injEq] at same
    obtain ⟨rfl, rfl, rfl⟩ := same
    obtain ⟨found, foundRan, refines⟩ := driver_call_refines api kernel log file.1 call logged
    cases Option.some.inj (called.symm.trans foundRan)
    have allowed := call_allowed api kernel log file.1 call result logged called
    refine ⟨_, ⟨grantsOf api kernel file.1 call, result.fPos, ?_, rfl, allowed⟩, refines.logged, refines.silent⟩
    rw [← refines.fPos, ← refines.reply]
  · intro kernel log call logged
    cases call with
    | write buf count env =>
        cases address : env.kmalloc.address with
        | none => exact ⟨kernel, logged, fun a claimed => by simp [allocated, address] at claimed⟩
        | some p =>
            obtain ⟨other, same, free⟩ := logged_elsewhere api kernel log p logged
            refine ⟨other, same, fun a claimed => ?_⟩
            have here : some p = some a := address.symm.trans claimed
            cases here
            exact free
    | read => exact ⟨kernel, logged, fun _ claimed => claimed.elim⟩
    | llseek => exact ⟨kernel, logged, fun _ claimed => claimed.elim⟩
    | ioctl => exact ⟨kernel, logged, fun _ claimed => claimed.elim⟩

/-- At any state of any interleaving the calls so far are calls of the log one after another. -/
theorem calls_linearize_to_log {ι : Type} [DecidableEq ι] (api : KernelApi) (events : List Event) (kernel : Kernel)
    (reached : AesdChar.Run api events kernel) (files : ι → OpenFile) (trace : List (Label DriverCall ι))
    (system : System Ptr Bytes AesdDev OpenFile CallReply DriverCall ι)
    (run : LockProgram.Run (callCode api) kernel files trace system) :
    ∃ (start next : CommandLog) (order : List (ι × Turn DriverCall CallReply)) (positions : ι → OpenFile),
      start.completed = completedLines events ∧ retained kernel = some start.lines ∧
      Explained (logSpec api) start files order next positions ∧ lockers order = acquisitions trace ∧
      (∀ client, TurnsMatch (system.clients client) (turnsOf client order)) ∧
      ((∀ client, (system.clients client).running = none) →
        retained system.store = some next.lines ∧ positions = fun client => (system.clients client).own) := by
  obtain ⟨start, _, completed, logged⟩ := run_logged api events kernel reached
  obtain ⟨order, next, positions, explained, acquired, turns, settled⟩ :=
    run_explained (calls_disciplined api) ⟨events, reached⟩ (logSpec api) (Logged api) (log_meets api) start logged run
  refine ⟨start, next, order, positions, completed, logged_retained api kernel start logged, explained, acquired, turns,
    fun idle => ?_⟩
  obtain ⟨related, own⟩ := settled idle
  exact ⟨logged_retained api system.store next related, own⟩

theorem calls_linearize_two_clients :
    ∃ trace system, play (callCode stockKernel) (idleSystem loadedModule fun _ => openedFile) twoClients =
      some (trace, system) ∧
      ∃ (start next : CommandLog) (order : List (Bool × Turn DriverCall CallReply)) (positions : Bool → OpenFile),
        Explained (logSpec stockKernel) start (fun _ => openedFile) order next positions ∧
        lockers order = acquisitions trace ∧ ∀ client, TurnsMatch (system.clients client) (turnsOf client order) := by
  have ends : (play (callCode stockKernel) (idleSystem loadedModule fun _ => openedFile) twoClients).isSome = true := by
    decide +kernel
  obtain ⟨⟨trace, system⟩, played⟩ := Option.isSome_iff_exists.mp ends
  have run := play_run (callCode stockKernel) loadedModule (fun _ => openedFile) twoClients [] trace _
    system .idle played
  obtain ⟨start, next, order, positions, _, _, explained, acquired, turns, _⟩ :=
    calls_linearize_to_log stockKernel [] loadedModule .loaded (fun _ => openedFile) trace system run
  exact ⟨trace, system, played, start, next, order, positions, explained, acquired, turns⟩

end AesdChar

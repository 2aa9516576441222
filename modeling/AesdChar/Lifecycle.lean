import AesdChar.LostBlocks
import AesdChar.SeekBounds

set_option autoImplicit false

namespace AesdChar

open CyclicQueue HeapStore

-- A device number: MKDEV(major, minor).
structure Devno where
  major : UInt32
  minor : UInt32
deriving DecidableEq, Repr

def aesdMinor : UInt32 := 0

-- The module in the kernel: aesd_device with the heap, aesd_major, the regions
-- that are registered, also those of others, the device numbers with
-- aesd_device.cdev behind them, and the open files. completed and lost record
-- the lines completed since the load and the blocks lost so far.
structure Machine (ι : Type) where
  kernel : Kernel
  aesdMajor : UInt32
  regions : List Devno
  cdevs : List Devno
  loaded : Bool
  files : ι → Option Filp
  completed : List Bytes
  lost : List Ptr

variable {ι : Type}

def Machine.devno (machine : Machine ι) : Devno := ⟨machine.aesdMajor, aesdMinor⟩

def Machine.setupCdev (machine : Machine ι) (cdevAdd : Int64) : Machine ι × Int64 :=
  if cdevAdd = 0 then ({ machine with cdevs := machine.cdevs ++ [machine.devno] }, 0) else (machine, cdevAdd)

-- alloc_chrdev_region gives an error or a major number. A failure of it leaves
-- dev, and so aesd_major, zero.
def Machine.initModule (machine : Machine ι) (region : Except Int64 UInt32) (cdevAdd : Int64) : Machine ι × Int64 :=
  match region with
  | .error result => ({ machine with aesdMajor := 0 }, result)
  | .ok major =>
      let dev : Devno := ⟨major, aesdMinor⟩
      let (device, _) := aesdInitModule machine.kernel.dev 0 cdevAdd
      let (machine, result) := Machine.setupCdev
        { machine with
          aesdMajor := major
          regions := machine.regions ++ [dev]
          kernel := ⟨machine.kernel.heap, device⟩ } cdevAdd
      if result ≠ 0 then ({ machine with regions := machine.regions.erase dev }, result) else (machine, result)

def Machine.cleanupModule (machine : Machine ι) : Option (Machine ι) := do
  let kernel ← aesdCleanupModule machine.kernel
  some { machine with
    cdevs := machine.cdevs.erase machine.devno
    kernel
    regions := machine.regions.erase machine.devno }

-- What the kernel does with the module: it loads it when it is not there, and
-- unloads it when no file of its is open. alloc_chrdev_region gives numbers
-- that are free, and errors are negative.
inductive LifeStep [DecidableEq ι] (api : KernelApi) : Machine ι → Machine ι → Prop where
  | load (machine : Machine ι) (region : Except Int64 UInt32) (cdevAdd : Int64) (unloaded : machine.loaded = false)
      (free : ∀ major, region = .ok major → ⟨major, aesdMinor⟩ ∉ machine.regions)
      (errors : ∀ result, region = .error result → result < 0) :
      LifeStep api machine
        { (machine.initModule region cdevAdd).1 with
          loaded := decide ((machine.initModule region cdevAdd).2 = 0)
          completed := [] }
  | opened (machine : Machine ι) (i : ι) (free : machine.files i = none) (dev : Devno) (there : dev ∈ machine.cdevs) :
      LifeStep api machine { machine with files := Function.update machine.files i (some (aesdOpen ⟨false, 0⟩)) }
  | called (machine : Machine ι) (i : ι) (filp : Filp) (call : DriverCall) (result : CallResult)
      (isOpen : machine.files i = some filp) (ran : driverCall api machine.kernel filp call = some result) :
      LifeStep api machine
        { machine with
          kernel := result.kernel
          files := Function.update machine.files i (some { filp with fPos := result.fPos })
          completed := machine.completed ++ completedBy ⟨machine.kernel, filp, call, result⟩
          lost := machine.lost ++ lostBy api ⟨machine.kernel, filp, call, result⟩ }
  | released (machine : Machine ι) (i : ι) (filp : Filp) (isOpen : machine.files i = some filp) :
      LifeStep api machine { machine with files := Function.update machine.files i none }
  | unload (machine next : Machine ι) (loaded : machine.loaded = true) (closed : ∀ i, machine.files i = none)
      (cleaned : machine.cleanupModule = some next) :
      LifeStep api machine
        { next with
          loaded := false
          lost := machine.lost ++ droppedBlock machine.kernel }

inductive Life [DecidableEq ι] (api : KernelApi) (start : Machine ι) : Machine ι → Prop where
  | start : Life api start start
  | step (machine next : Machine ι) (earlier : Life api start machine) (taken : LifeStep api machine next) :
      Life api start next

-- Before the first load. dev and major are what the memory happens to hold.
def neverLoaded (dev : AesdDev) (major : UInt32) (others : List Devno) : Machine ι where
  kernel := ⟨noBlocks, dev⟩
  aesdMajor := major
  regions := others
  cdevs := []
  loaded := false
  files _ := none
  completed := []
  lost := []

-- What is registered for the driver.
def Machine.registered (machine : Machine ι) : List Devno := if machine.loaded then [machine.devno] else []

structure LifeInv (api : KernelApi) (others : List Devno) (machine : Machine ι) : Prop where
  regions : machine.regions = others ++ machine.registered
  apart : ∀ dev ∈ machine.registered, dev ∉ others
  cdevs : machine.cdevs = machine.registered
  closed : machine.loaded = false → ∀ i, machine.files i = none
  files : ∀ i filp, machine.files i = some filp → filp.privateData = true
  device : machine.loaded = true → ∃ content working,
    DevRep api machine.kernel content (machine.completed.rtake 10) working
  accounts : machine.loaded = true → Accounts machine.kernel machine.lost
  leftOver : machine.loaded = false → ∀ p, Live machine.kernel.heap p ↔ p ∈ machine.lost
  real : ∀ p ∈ machine.lost, zeroOrNullPtr p = false
  once : machine.lost.Nodup

section

variable (api : KernelApi) (others : List Devno) (machine : Machine ι)

theorem never_loaded_inv (dev : AesdDev) (major : UInt32) :
    LifeInv api others (neverLoaded dev major others : Machine ι) := by
  refine ⟨by simp [neverLoaded, Machine.registered], by simp [neverLoaded, Machine.registered],
    by simp [neverLoaded, Machine.registered], fun _ _ => rfl, fun i filp impossible => (by cases impossible),
    fun impossible => (by cases impossible), fun impossible => (by cases impossible), fun _ p => ?_,
    fun p impossible => (by cases impossible), List.nodup_nil⟩
  refine ⟨fun live => ?_, fun impossible => (by cases impossible)⟩
  obtain ⟨_, impossible⟩ := live
  cases impossible

theorem fresh_device (heap : Heap) : DevRep api ⟨heap, ⟨aesdCircularBufferInit, zeroEntry⟩⟩ [] [] (some []) :=
  ⟨ring_rep_init, .nil, .empty null_reserved rfl, by simp, by simp⟩

theorem fresh_accounts (heap : Heap) (lost : List Ptr) (left : ∀ p, Live heap p ↔ p ∈ lost)
    (real : ∀ p ∈ lost, zeroOrNullPtr p = false) (once : lost.Nodup) :
    Accounts ⟨heap, ⟨aesdCircularBufferInit, zeroEntry⟩⟩ lost := by
  have slots : logicalContent aesdCircularBufferInit = [] := ring_rep_content _ [] ring_rep_init
  have unheld : ∀ p, zeroOrNullPtr p = false →
      ¬ Owned ⟨heap, ⟨aesdCircularBufferInit, zeroEntry⟩⟩ (logicalContent aesdCircularBufferInit) p := by
    rintro p realP (same | ⟨entry, member, _⟩)
    · exact real_not_null p realP same
    · rw [slots] at member
      cases member
  refine ⟨fun p => ?_, fun p member => ⟨real p member, unheld p (real p member)⟩, once⟩
  rw [left p]
  exact ⟨Or.inl, fun held => held.resolve_right fun owned => unheld p owned.1 owned.2⟩

-- A load that fails leaves nothing registered.
theorem init_module_cases (region : Except Int64 UInt32) (cdevAdd : Int64)
    (free : ∀ major, region = .ok major → ⟨major, aesdMinor⟩ ∉ machine.regions)
    (errors : ∀ result, region = .error result → result < 0) :
    (∃ major dev result, result ≠ 0 ∧
      machine.initModule region cdevAdd =
        ({ machine with aesdMajor := major, kernel := ⟨machine.kernel.heap, dev⟩ }, result)) ∨
    (∃ major, region = .ok major ∧ machine.initModule region cdevAdd =
      ({ machine with
          aesdMajor := major
          regions := machine.regions ++ [⟨major, aesdMinor⟩]
          cdevs := machine.cdevs ++ [⟨major, aesdMinor⟩]
          kernel := ⟨machine.kernel.heap, ⟨aesdCircularBufferInit, zeroEntry⟩⟩ }, 0)) := by
  cases region with
  | error result =>
      refine Or.inl ⟨0, machine.kernel.dev, result, ?_, rfl⟩
      rintro rfl
      exact absurd (errors 0 rfl) (by decide)
  | ok major =>
      by_cases added : cdevAdd = 0
      · subst added
        exact Or.inr ⟨major, rfl, rfl⟩
      · have back : (machine.regions ++ [(⟨major, aesdMinor⟩ : Devno)]).erase ⟨major, aesdMinor⟩ = machine.regions := by
          rw [List.erase_append_right _ (free major rfl), List.erase_cons_head, List.append_nil]
        have granted : ¬ (0 : Int64) < 0 := by decide
        refine Or.inl ⟨major, ⟨aesdCircularBufferInit, zeroEntry⟩, cdevAdd, added, ?_⟩
        simp [Machine.initModule, Machine.setupCdev, aesdInitModule, added, granted, back]

theorem load_inv (region : Except Int64 UInt32) (cdevAdd : Int64) (unloaded : machine.loaded = false)
    (free : ∀ major, region = .ok major → ⟨major, aesdMinor⟩ ∉ machine.regions)
    (errors : ∀ result, region = .error result → result < 0) (inv : LifeInv api others machine) :
    LifeInv api others
      { (machine.initModule region cdevAdd).1 with
        loaded := decide ((machine.initModule region cdevAdd).2 = 0)
        completed := [] } := by
  have regions := inv.regions
  have cdevs := inv.cdevs
  rw [Machine.registered, if_neg (by simp [unloaded])] at regions cdevs
  rw [List.append_nil] at regions
  obtain ⟨major, dev, result, failed, ended⟩ | ⟨major, isMajor, ended⟩ :=
    init_module_cases machine region cdevAdd free errors
  · rw [ended]
    simp only [failed, decide_false]
    exact ⟨by simp [Machine.registered, regions], by simp [Machine.registered], by simp [Machine.registered, cdevs],
      fun _ => inv.closed unloaded, inv.files, fun impossible => (by cases impossible), fun impossible =>
        (by cases impossible),
      fun _ => inv.leftOver unloaded, inv.real, inv.once⟩
  · rw [ended]
    have unregistered := free major isMajor
    rw [regions] at unregistered
    refine ⟨by simp [Machine.registered, Machine.devno, regions],
      ?_, by simp [Machine.registered, Machine.devno, cdevs],
      fun impossible => (by cases impossible), inv.files, fun _ => ⟨[], some [], fresh_device api machine.kernel.heap⟩,
      fun _ => fresh_accounts machine.kernel.heap machine.lost (inv.leftOver unloaded) inv.real inv.once,
      fun impossible => (by cases impossible), inv.real, inv.once⟩
    simpa [Machine.registered, Machine.devno] using unregistered

-- What is live after the unload has been lost before it, or at it.
theorem cleanup_left (kernel final : Kernel) (content : List AesdBufferEntry) (lines : List Bytes)
    (working : Option Bytes) (lost : List Ptr) (rep : DevRep api kernel content lines working)
    (cleaned : aesdCleanupModule kernel = some final) (before : Accounts kernel lost)
    (p : Ptr) : Live final.heap p ↔ p ∈ lost ++ droppedBlock kernel := by
  have dropped := dropped_accounts api kernel content lines working lost rep before
  have accounted := dropped.live p
  have unheld := dropped.unheld p
  rw [show (kernel.setWorking { kernel.dev.workingEntry with buffptr := nullPtr }).dev.buffer =
    kernel.dev.buffer from rfl,
    ring_rep_content _ content rep.ring] at accounted unheld
  obtain ⟨found, ran, gone, kept⟩ := cleanup_frees api kernel content lines working rep
  cases Option.some.inj (cleaned.symm.trans ran)
  constructor
  · rintro ⟨block, live⟩
    have notStored : ∀ entry ∈ content, entry.buffptr ≠ p := by
      rintro entry member rfl
      rw [gone entry member] at live
      cases live
    rw [kept p notStored] at live
    refine (accounted.mp ⟨block, live⟩).resolve_right ?_
    rintro ⟨real, same | ⟨entry, member, same⟩⟩
    · exact real_not_null p real same
    · exact notStored entry member same.symm
  · intro member
    obtain ⟨block, live⟩ := accounted.mpr (Or.inl member)
    have notStored : ∀ entry ∈ content, entry.buffptr ≠ p := fun entry inContent same =>
      (unheld member).2 (Or.inr ⟨entry, inContent, same.symm⟩)
    exact ⟨block, by rw [kept p notStored]; exact live⟩

theorem unload_inv (next : Machine ι) (loaded : machine.loaded = true) (closed : ∀ i, machine.files i = none)
    (cleaned : machine.cleanupModule = some next) (inv : LifeInv api others machine) :
    LifeInv api others { next with loaded := false, lost := machine.lost ++ droppedBlock machine.kernel } := by
  obtain ⟨kernel, freed, same⟩ := Option.bind_eq_some_iff.mp cleaned
  cases Option.some.inj same
  obtain ⟨content, working, rep⟩ := inv.device loaded
  have left := cleanup_left api machine.kernel kernel content _ working machine.lost rep freed (inv.accounts loaded)
  have dropped := dropped_accounts api machine.kernel content _ working machine.lost rep (inv.accounts loaded)
  have regions := inv.regions
  have cdevs := inv.cdevs
  have apart := inv.apart
  rw [Machine.registered, if_pos loaded] at regions cdevs apart
  have notOthers := apart machine.devno (by simp)
  have emptied : machine.cdevs.erase machine.devno = [] := by rw [cdevs, List.erase_cons_head]
  have released : machine.regions.erase machine.devno = others := by
    rw [regions, List.erase_append_right _ notOthers, List.erase_cons_head, List.append_nil]
  exact ⟨by simp [Machine.registered, released], by simp [Machine.registered], by simp [Machine.registered, emptied],
    fun _ => closed, inv.files, fun impossible => (by cases impossible), fun impossible =>
      (by cases impossible), fun _ => left,
    fun p member => (dropped.unheld p member).1, dropped.once⟩

theorem open_loaded (i : ι) (filp : Filp) (isOpen : machine.files i = some filp) (inv : LifeInv api others machine) :
    machine.loaded = true := by
  by_contra unloaded
  rw [inv.closed (by simpa using unloaded) i] at isOpen
  cases isOpen

theorem files_update [DecidableEq ι] (files : ι → Option Filp) (i : ι) (file : Option Filp)
    (before : ∀ j filp, files j = some filp → filp.privateData = true)
    (now : ∀ filp, file = some filp → filp.privateData = true) (j : ι) (filp : Filp)
    (isOpen : Function.update files i file j = some filp) : filp.privateData = true := by
  by_cases here : j = i
  · subst here
    rw [Function.update_self] at isOpen
    exact now filp isOpen
  · rw [Function.update_of_ne here] at isOpen
    exact before j filp isOpen

theorem file_inv [DecidableEq ι] (i : ι) (file : Option Filp) (loaded : machine.loaded = true)
    (now : ∀ filp, file = some filp → filp.privateData = true) (inv : LifeInv api others machine) :
    LifeInv api others { machine with files := Function.update machine.files i file } := by
  refine ⟨inv.regions, inv.apart, inv.cdevs, fun unloaded => ?_,
    files_update machine.files i file inv.files now, inv.device,
    inv.accounts, inv.leftOver, inv.real, inv.once⟩
  exact absurd loaded (by simp [show machine.loaded = false from unloaded])

theorem call_inv [DecidableEq ι] (i : ι) (filp : Filp) (call : DriverCall) (result : CallResult)
    (isOpen : machine.files i = some filp) (ran : driverCall api machine.kernel filp call = some result)
    (inv : LifeInv api others machine) :
    LifeInv api others
      { machine with
        kernel := result.kernel
        files := Function.update machine.files i (some { filp with fPos := result.fPos })
        completed := machine.completed ++ completedBy ⟨machine.kernel, filp, call, result⟩
        lost := machine.lost ++ lostBy api ⟨machine.kernel, filp, call, result⟩ } := by
  have loaded := open_loaded api others machine i filp isOpen inv
  have opened := inv.files i filp isOpen
  have notUnloaded : machine.loaded ≠ false := by simp [loaded]
  obtain ⟨content, working, rep⟩ := inv.device loaded
  obtain ⟨found, foundRan, effect⟩ := driver_call_effect api machine.kernel content _ working filp call rep
  cases Option.some.inj (ran.symm.trans foundRan)
  have accounts := call_accounts api machine.kernel content _ working filp call result machine.lost rep opened ran
    (inv.accounts loaded)
  refine ⟨inv.regions, inv.apart, inv.cdevs, fun unloaded => absurd unloaded notUnloaded,
    files_update machine.files i _ inv.files ?_,
    fun _ => call_completes api machine.kernel content machine.completed working filp call result rep effect, fun _ =>
      accounts,
    fun unloaded => absurd unloaded notUnloaded, fun p member => (accounts.unheld p member).1, accounts.once⟩
  rintro _ ⟨⟩
  exact opened

theorem life_step_inv [DecidableEq ι] (next : Machine ι) (step : LifeStep api machine next)
    (inv : LifeInv api others machine) :
    LifeInv api others next := by
  cases step with
  | load region cdevAdd unloaded free errors =>
      exact load_inv api others machine region cdevAdd unloaded free errors inv
  | opened i free dev there =>
      have loaded : machine.loaded = true := by
        by_contra unloaded
        rw [inv.cdevs, Machine.registered, if_neg unloaded] at there
        cases there
      apply file_inv api others machine i _ loaded _ inv
      rintro _ ⟨⟩
      rfl
  | called i filp call result isOpen ran => exact call_inv api others machine i filp call result isOpen ran inv
  | released i filp isOpen =>
      apply file_inv api others machine i none (open_loaded api others machine i filp isOpen inv) _ inv
      rintro _ ⟨⟩
  | unload next loaded closed cleaned => exact unload_inv api others machine next loaded closed cleaned inv

theorem life_inv [DecidableEq ι] (start : Machine ι) (life : Life api start machine) (inv : LifeInv api others start) :
    LifeInv api others machine := by
  induction life with
  | start => exact inv
  | step machine next earlier taken ih => exact life_step_inv api others machine next taken ih

end

-- Registrations come and go with the module; a file is open only while it is
-- loaded, and a call on it is undefined only where aesd_ioctl seeks to slot 10.
structure LifeSound (api : KernelApi) (others : List Devno) (machine : Machine ι) : Prop where
  regions : machine.regions = others ++ machine.registered
  cdevs : machine.cdevs = machine.registered
  files : ∀ i filp, machine.files i = some filp → machine.loaded = true ∧ filp.privateData = true ∧
    ∀ call, (∃ result, driverCall api machine.kernel filp call = some result) ∧
      (callInBounds api machine.kernel filp call = none ↔ SeeksTen call)
  unloads : machine.loaded = true → ∃ next, machine.cleanupModule = some next
  lines : machine.loaded = true → retained machine.kernel = some (machine.completed.rtake 10)
  live : ∀ p, Live machine.kernel.heap p ↔
    p ∈ machine.lost ∨ (machine.loaded = true ∧ zeroOrNullPtr p = false ∧
      Owned machine.kernel (logicalContent machine.kernel.dev.buffer) p)
  apart : machine.loaded = true → ∀ p ∈ machine.lost,
    ¬ Owned machine.kernel (logicalContent machine.kernel.dev.buffer) p
  once : machine.lost.Nodup

theorem module_life_sound [DecidableEq ι] (api : KernelApi) (dev : AesdDev) (major : UInt32) (others : List Devno)
    (machine : Machine ι) (life : Life api (neverLoaded dev major others) machine) : LifeSound api others machine := by
  have inv := life_inv api others machine _ life (never_loaded_inv api others dev major)
  refine ⟨inv.regions, inv.cdevs, fun i filp isOpen => ?_, fun loaded => ?_, fun loaded => ?_,
    fun p => ?_, fun loaded => ?_,
    inv.once⟩
  · have loaded := open_loaded api others machine i filp isOpen inv
    obtain ⟨content, working, rep⟩ := inv.device loaded
    refine ⟨loaded, inv.files i filp isOpen, fun call => ?_⟩
    obtain ⟨result, ran, _⟩ := driver_call_effect api machine.kernel content _ working filp call rep
    refine ⟨⟨result, ran⟩, ?_⟩
    cases call with
    | ioctl cmd seekTo env => exact ioctl_defined machine.kernel filp cmd seekTo env (inv.files i filp isOpen)
    | _ => simp [callInBounds, SeeksTen, ran]
  · obtain ⟨content, working, rep⟩ := inv.device loaded
    obtain ⟨final, cleaned, _⟩ := cleanup_frees api machine.kernel content _ working rep
    exact ⟨_, by rw [Machine.cleanupModule, cleaned]; rfl⟩
  · obtain ⟨content, working, rep⟩ := inv.device loaded
    exact dev_rep_retained api machine.kernel content _ working rep
  · cases loaded : machine.loaded with
    | true => simpa using (inv.accounts loaded).live p
    | false => simpa using inv.leftOver loaded p
  · exact fun p member => ((inv.accounts loaded).unheld p member).2

-- The second load begins with the block lost that was pending at the first unload.
theorem module_life_sound_two_loads :
    ∃ machine : Machine Nat, Life stockKernel (neverLoaded ⟨aesdCircularBufferInit, zeroEntry⟩ 0 [⟨1, 0⟩]) machine ∧
      machine.loaded = true ∧ machine.lost = [8192] ∧ LifeSound stockKernel [⟨1, 0⟩] machine := by
  let call := (sampleWrite [97, 98] 4096 8192).toDriver.2
  have moved : ((driverCall stockKernel loadedModule ⟨true, 0⟩ call).bind fun result =>
      (aesdCleanupModule result.kernel).map fun _ => result.kernel.dev.workingEntry.buffptr) = some 8192 := by decide
  obtain ⟨result, ran, cleaned⟩ := Option.bind_eq_some_iff.mp moved
  obtain ⟨final, cleaned, block⟩ := Option.map_eq_some_iff.mp cleaned
  let start : Machine Nat := neverLoaded ⟨aesdCircularBufferInit, zeroEntry⟩ 0 [⟨1, 0⟩]
  have loaded : Life stockKernel start _ :=
    .step _ _ .start (.load start (.ok 240) 0 rfl (by simp [start, neverLoaded, aesdMinor]) (by simp))
  have opened : Life stockKernel start _ := .step _ _ loaded (.opened _ 0 rfl ⟨240, 0⟩ (List.mem_singleton.mpr rfl))
  have called : Life stockKernel start _ := .step _ _ opened (.called _ 0 ⟨true, 0⟩ call result rfl ran)
  have released : Life stockKernel start _ := .step _ _ called (.released _ 0 _ rfl)
  have closed :
    ∀ i : Nat, Function.update (Function.update (Function.update (fun _ => none) 0 (some (aesdOpen ⟨false, 0⟩))) 0
      (some ⟨true, result.fPos⟩)) 0 none i = none := by simp [Function.update_apply]
  have unloaded : Life stockKernel start _ :=
    .step _ _ released (.unload _ _ rfl closed (by rw [Machine.cleanupModule, cleaned]; rfl))
  have free : (⟨241, 0⟩ : Devno) ∉ ([⟨1, 0⟩] ++ [⟨240, 0⟩] : List Devno).erase ⟨240, 0⟩ := by decide
  have again : Life stockKernel start _ :=
    .step _ _ unloaded (.load _ (.ok 241) 0 rfl (by rintro _ ⟨⟩; exact free) (by simp))
  have lost : [] ++ lostBy stockKernel ⟨loadedModule, ⟨true, 0⟩, call, result⟩ ++
      droppedBlock result.kernel = [8192] := by
    rw [droppedBlock, block]
    rfl
  exact ⟨_, again, rfl, lost, module_life_sound stockKernel _ _ _ _ again⟩

end AesdChar

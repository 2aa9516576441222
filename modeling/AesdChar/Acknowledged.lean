import AesdChar.DriverRun

set_option autoImplicit false

namespace AesdChar

open CyclicQueue Framing HeapStore

def byteHistory (completed : List Bytes) (kernel : Kernel) : Option Bytes :=
  (workingBytes kernel).map fun pending => completed.flatten ++ pending

-- A call that returned r has appended the first r bytes of its user's buffer
-- and moved its file by r.
def Acknowledged (completed : List Bytes) (user : Bytes) (event : Event) : Prop :=
  ∃ history, byteHistory completed event.kernel = some history ∧
    byteHistory (completed ++ completedBy event) event.result.kernel =
      some (history ++ user.take event.result.ret.toInt.toNat) ∧
    event.result.fPos = event.filp.fPos + event.result.ret

def acknowledgedBy (event : Event) : Bytes :=
  match event.call with
  | .write (some user) _ _ => if 0 ≤ event.result.ret then user.take event.result.ret.toInt.toNat else []
  | _ => []

def acknowledged (events : List Event) : Bytes := events.flatMap acknowledgedBy

-- No byte stands after the first newline, no earlier krealloc has lost the
-- pending line, and krealloc does not lose it now.
structure KeepsAll (api : KernelApi) (kernel : Kernel) (filp : Filp) (user : Bytes) (count : UInt64) (env : WriteEnv) :
    Prop where
  oneLine : newLine ∉ (userBytes user count).dropLast
  intact : kernel.dev.workingEntry.buffptr ≠ nullPtr ∨ kernel.dev.workingEntry.size = 0
  granted : kreallocRefused api kernel filp (some user) count env = true → kernel.dev.workingEntry.size = 0

def EventKeepsAll (api : KernelApi) (event : Event) : Prop :=
  match event.call with
  | .write (some user) count env => KeepsAll api event.kernel event.filp user count env
  | _ => True

theorem intact_iff (api : KernelApi) (kernel : Kernel) (working : Option Bytes)
    (pending : WorkingRep api kernel.heap kernel.dev.workingEntry working) :
    (kernel.dev.workingEntry.buffptr ≠ nullPtr ∨ kernel.dev.workingEntry.size = 0) ↔ ∃ bytes, working = some bytes := by
  generalize kernel.dev.workingEntry = entry at pending
  cases pending with
  | empty reserved zero => exact ⟨fun _ => ⟨[], rfl⟩, fun _ => Or.inr zero⟩
  | pending line block => exact ⟨fun _ => ⟨line, rfl⟩, fun _ => Or.inl (real_not_null _ block.real)⟩
  | lost gone claimed fits =>
      refine ⟨fun intact => ?_, fun ⟨bytes, same⟩ => by cases same⟩
      rcases intact with held | zero
      · exact absurd gone held
      · exact absurd zero claimed

theorem write_acknowledged_iff (api : KernelApi) (kernel : Kernel) (content : List AesdBufferEntry)
    (completed : List Bytes) (working : Option Bytes) (filp : Filp) (user : Bytes) (count : UInt64) (env : WriteEnv)
    (result : CallResult) (rep : DevRep api kernel content (completed.rtake 10) working) (success : 0 ≤ result.ret)
    (ran : aesdWrite api kernel filp (some user) count filp.fPos env = some result) :
    Acknowledged completed user ⟨kernel, filp, .write (some user) count env, result⟩ ↔
      KeepsAll api kernel filp user count env := by
  obtain ⟨found, foundRan, effect⟩ :=
    aesd_write_effect api kernel content _ working filp (some user) count filp.fPos env rep
  cases Option.some.inj (ran.symm.trans foundRan)
  obtain ⟨given, same, granted, mapped, exact, moved, nextContent, pending, nextRep, text⟩ :=
    write_appends api kernel content completed working filp (some user) count env _ result success effect
  cases same
  have after := dev_rep_working api result.kernel nextContent _ _ nextRep
  have before := dev_rep_working api kernel content _ working rep
  have intact := intact_iff api kernel working rep.pending
  have whole := up_to_whole newLine (userBytes user count)
  constructor
  · rintro ⟨history, old, new, _⟩
    obtain ⟨bytes, same, rfl⟩ := Option.map_eq_some_iff.mp old
    rw [before] at same
    subst same
    rw [byteHistory, after, Option.map_some, text, exact] at new
    have appended := Option.some.inj new
    simp only [baseBytes, Option.getD_some, List.append_assoc, List.append_cancel_left_eq] at appended
    exact ⟨whole.mp appended, intact.mpr ⟨bytes, rfl⟩, by rw [granted]; intro impossible; cases impossible⟩
  · intro keeps
    obtain ⟨bytes, rfl⟩ := intact.mp keeps.intact
    refine ⟨completed.flatten ++ bytes, by rw [byteHistory, before, Option.map_some], ?_, moved⟩
    have all : accepted user count = user.take count.toNat := whole.mpr keeps.oneLine
    rw [byteHistory, after, Option.map_some, text, exact, all, baseBytes, Option.getD_some, List.append_assoc]

theorem keeps_all_keeps_pending (api : KernelApi) (event : Event) (keeps : EventKeepsAll api event) :
    ¬ EventDropsPending api event := by
  obtain ⟨kernel, filp, call, result⟩ := event
  cases call with
  | write buf count env =>
      intro drops
      have refused := drops.refused
      cases buf with
      | none => cases refused
      | some user => exact drops.claimed (keeps.granted refused)
  | _ => exact fun drops => drops

theorem keeps_all_contribution (api : KernelApi) (events : List Event) (kernel : Kernel) (filp : Filp)
    (call : DriverCall) (result : CallResult) (earlier : Run api events kernel)
    (ran : driverCall api kernel filp call = some result) (keeps : EventKeepsAll api ⟨kernel, filp, call, result⟩) :
    contributionBy ⟨kernel, filp, call, result⟩ = acknowledgedBy ⟨kernel, filp, call, result⟩ := by
  obtain ⟨content, working, rep⟩ := run_rep api events kernel earlier
  obtain ⟨found, foundRan, effect⟩ := driver_call_effect api kernel content _ _ filp call rep
  cases Option.some.inj (ran.symm.trans foundRan)
  cases effect with
  | write buf count env _ effect =>
      by_cases success : 0 ≤ result.ret
      · obtain ⟨user, given, _, _, exact, _⟩ :=
          write_appends api kernel content _ working filp buf count env _ result success effect
        subst given
        have all : accepted user count = user.take count.toNat :=
          (up_to_whole newLine (userBytes user count)).mpr keeps.oneLine
        simp [contributionBy, contribution, acknowledgedBy, success, Int64.not_lt.mpr success, exact, all]
      · cases buf <;> simp [contributionBy, contribution, acknowledgedBy, success, Int64.not_le.mp success]
  | other _ _ silent same =>
      cases call with
      | write buf count env => exact absurd rfl (silent buf count env)
      | _ => rfl

theorem run_keeps_all (api : KernelApi) (events : List Event) (kernel : Kernel) (run : Run api events kernel)
    (keeps : ∀ event ∈ events, EventKeepsAll api event) : streamOf events = acknowledged events := by
  induction run with
  | loaded => rfl
  | called events kernel filp call result earlier ran ih =>
      have before := ih fun event member => keeps event (List.mem_append_left _ member)
      have last := keeps_all_contribution api events kernel filp call result earlier ran (keeps _ (by simp))
      simp only [streamOf, acknowledged] at before
      simp [streamOf, acknowledged, before, last]

theorem write_acknowledges_exactly (api : KernelApi) (events : List Event) (kernel : Kernel)
    (run : Run api events kernel) :
    (∀ filp user count env result, driverCall api kernel filp (.write (some user) count env) = some result →
      0 ≤ result.ret →
      (Acknowledged (completedLines events) user ⟨kernel, filp, .write (some user) count env, result⟩ ↔
        KeepsAll api kernel filp user count env)) ∧
    ((∀ event ∈ events, EventKeepsAll api event) →
      byteHistory (completedLines events) kernel = some (acknowledged events)) := by
  constructor
  · intro filp user count env result ran success
    obtain ⟨content, working, rep⟩ := run_rep api events kernel run
    exact write_acknowledged_iff api kernel content _ working filp user count env result rep success ran
  · intro keeps
    obtain ⟨content, bytes, rep, text⟩ := run_keeps_stream api events kernel run fun event member =>
      keeps_all_keeps_pending api event (keeps event member)
    rw [byteHistory, dev_rep_working api kernel content _ _ rep, Option.map_some, text,
      run_keeps_all api events kernel run keeps]

theorem write_acknowledges_first_write :
    ∃ result, driverCall stockKernel loadedModule ⟨true, 0⟩ (sampleWrite [97, 10] 4096 8192).toDriver.2 = some result ∧
      Acknowledged (completedLines []) [97, 10]
        ⟨loadedModule, ⟨true, 0⟩, (sampleWrite [97, 10] 4096 8192).toDriver.2, result⟩ := by
  have called : ((driverCall stockKernel loadedModule ⟨true, 0⟩ (sampleWrite [97, 10] 4096 8192).toDriver.2).map
      CallResult.ret) = some 2 := by decide
  obtain ⟨result, ran, ret⟩ := Option.map_eq_some_iff.mp called
  refine ⟨result, ran, ?_⟩
  have keeps : KeepsAll stockKernel loadedModule ⟨true, 0⟩ [97, 10] 2
      ⟨⟨some 4096, fun _ => 0⟩, true, true, ⟨some 8192, fun _ => 0⟩⟩ :=
    ⟨by decide, Or.inr rfl, by decide⟩
  exact ((write_acknowledges_exactly stockKernel [] loadedModule .loaded).1 ⟨true, 0⟩ [97, 10] 2 _ result ran
    (by rw [ret]; decide)).mpr keeps

theorem write_acknowledges_dropped_byte :
    ∃ result,
      driverCall stockKernel loadedModule ⟨true, 0⟩ (sampleWrite [97, 10, 98] 4096 8192).toDriver.2 = some result ∧
      result.ret = 3 ∧ ¬ Acknowledged (completedLines []) [97, 10, 98]
        ⟨loadedModule, ⟨true, 0⟩, (sampleWrite [97, 10, 98] 4096 8192).toDriver.2, result⟩ := by
  have called : (driverCall stockKernel loadedModule ⟨true, 0⟩ (sampleWrite [97, 10, 98] 4096 8192).toDriver.2).map
      (fun result => (result.ret, byteHistory (completedBy
        ⟨loadedModule, ⟨true, 0⟩, (sampleWrite [97, 10, 98] 4096 8192).toDriver.2, result⟩) result.kernel)) =
      some (3, some [97, 10]) := by decide
  obtain ⟨result, ran, seen⟩ := Option.map_eq_some_iff.mp called
  obtain ⟨ret, after⟩ := Prod.mk.inj seen
  refine ⟨result, ran, ret, fun ⟨history, before, appended, _⟩ => ?_⟩
  have start : byteHistory (completedLines []) loadedModule = some [] := by decide
  cases Option.some.inj (start.symm.trans before)
  have wrong := Option.some.inj (after.symm.trans appended)
  rw [ret] at wrong
  exact absurd wrong (by decide)

end AesdChar

import Mathlib.Logic.Function.Basic

set_option autoImplicit false

namespace AesdChar

structure ThreadData (μ : Type) where
  threadCompleteSuccess : Bool
  waitToObtainMs : Int32
  waitToReleaseMs : Int32
  mutex : μ

-- sleep takes the int as an unsigned count.
def secToWait (ms : Int32) : UInt32 := (ms / 1000).toUInt32

inductive FuncPlace where
  | entry
  | obtainSleep (wake : Nat)
  | lock
  | releaseSleep (wake : Nat)
  | unlock
  | complete
  | returned
deriving DecidableEq

def FuncPlace.holds : FuncPlace → Bool
  | .releaseSleep _ => true
  | .unlock => true
  | _ => false

-- woken by a signal, and the times of pthread_create, lock and unlock.
structure FuncThread (α : Type) where
  threadParam : α
  secToWaitToRelease : UInt32
  place : FuncPlace
  woken : Bool
  started : Nat
  obtained : Option Nat
  released : Option Nat

inductive Holder (τ : Type) where
  | thread (id : τ)
  | other
  | abandoned
deriving DecidableEq

inductive FuncEvent where
  | slept
  | interrupted
  | success
  | error

def FuncThread.go {α : Type} (thread : FuncThread α) (place : FuncPlace) : FuncThread α := { thread with place }

def sleepEnds {α : Type} (clock wake : Nat) (thread : FuncThread α) (place : FuncPlace) : FuncEvent →
    Option (FuncThread α)
  | .slept => if wake ≤ clock then some (thread.go place) else none
  | .interrupted => some { thread with place, woken := true }
  | _ => none

-- none: nothing of the kind can happen now.
def threadfunc {τ μ α : Type} [DecidableEq τ] (clock : Nat) (id : τ) (thread : FuncThread α) (data : ThreadData μ)
    (owner : Option (Holder τ)) (event : FuncEvent) : Option (FuncThread α × ThreadData μ × Option (Holder τ)) :=
  match thread.place, event with
  | .entry, .success =>
      some ({ thread with
          secToWaitToRelease := secToWait data.waitToReleaseMs
          place := .obtainSleep (clock + 1000 * (secToWait data.waitToObtainMs).toNat) }, data, owner)
  | .obtainSleep wake, _ => (sleepEnds clock wake thread .lock event).map fun next => (next, data, owner)
  | .lock, .success =>
      if owner = none then
        some ({ thread with
            place := .releaseSleep (clock + 1000 * thread.secToWaitToRelease.toNat)
            obtained := some clock }, data, some (.thread id))
      else none
  | .lock, .error => some (thread.go .returned, data, owner)
  | .releaseSleep wake, _ => (sleepEnds clock wake thread .unlock event).map fun next => (next, data, owner)
  | .unlock, .success => some ({ thread with place := .complete, released := some clock }, data, none)
  | .unlock, .error => some (thread.go .returned, data, some .abandoned)
  | .complete, .success => some (thread.go .returned, { data with threadCompleteSuccess := true }, owner)
  | _, _ => none

-- The clock counts milliseconds. data are the live blocks of malloc, lost those
-- that nobody can free.
structure Threading (τ μ α : Type) where
  clock : Nat
  owner : μ → Option (Holder τ)
  data : α → Option (ThreadData μ)
  thread : τ → Option (FuncThread α)
  lost : List α

section

variable {τ μ α : Type} [DecidableEq τ] [DecidableEq μ] [DecidableEq α]

-- none: undefined behaviour, malloc's NULL is written through.
def startThreadObtainingMutex (threads : Threading τ μ α) (malloc : Option α) (create : Option τ) (mutex : μ)
    (waitToObtainMs waitToReleaseMs : Int32) : Option (Threading τ μ α × Bool) :=
  malloc.map fun threadStruct =>
    let threads : Threading τ μ α :=
      { threads with
        data := Function.update threads.data threadStruct (some ⟨false, waitToObtainMs, waitToReleaseMs, mutex⟩) }
    match create with
    | some id =>
        ({ threads with
            thread := Function.update threads.thread id
              (some ⟨threadStruct, 0, .entry, false, threads.clock, none, none⟩) }, true)
    | none => ({ threads with lost := threadStruct :: threads.lost }, false)

def Threading.step (threads : Threading τ μ α) (id : τ) (event : FuncEvent) : Option (Threading τ μ α) :=
  match threads.thread id with
  | none => none
  | some thread =>
      match threads.data thread.threadParam with
      | none => none
      | some data =>
          (threadfunc threads.clock id thread data (threads.owner data.mutex) event).map fun next =>
            { threads with
              owner := Function.update threads.owner data.mutex next.2.2
              data := Function.update threads.data thread.threadParam (some next.2.1)
              thread := Function.update threads.thread id (some next.1) }

inductive ThreadingStep : Threading τ μ α → Threading τ μ α → Prop where
  | tick (threads : Threading τ μ α) : ThreadingStep threads { threads with clock := threads.clock + 1 }
  | start (threads next : Threading τ μ α) (threadStruct : α) (create : Option τ) (mutex : μ)
      (waitToObtainMs waitToReleaseMs : Int32) (ok : Bool) (fresh : threads.data threadStruct = none)
      (newId : ∀ id, create = some id → threads.thread id = none)
      (ran : startThreadObtainingMutex threads (some threadStruct) create mutex waitToObtainMs waitToReleaseMs =
        some (next, ok)) : ThreadingStep threads next
  | func (threads next : Threading τ μ α) (id : τ) (event : FuncEvent) (ran : threads.step id event = some next) :
      ThreadingStep threads next
  | join (threads : Threading τ μ α) (id : τ) (thread : FuncThread α) (here : threads.thread id = some thread)
      (returned : thread.place = .returned) :
      ThreadingStep threads
        { threads with
          thread := Function.update threads.thread id none
          data := Function.update threads.data thread.threadParam none }
  | otherLocks (threads : Threading τ μ α) (mutex : μ) (free : threads.owner mutex = none) :
      ThreadingStep threads { threads with owner := Function.update threads.owner mutex (some .other) }
  | otherUnlocks (threads : Threading τ μ α) (mutex : μ) (taken : threads.owner mutex = some .other) :
      ThreadingStep threads { threads with owner := Function.update threads.owner mutex none }

inductive ThreadingRun (start : Threading τ μ α) : Threading τ μ α → Prop where
  | start : ThreadingRun start start
  | step (threads next : Threading τ μ α) (earlier : ThreadingRun start threads) (taken : ThreadingStep threads next) :
      ThreadingRun start next

end

def noThreads {τ μ α : Type} (clock : Nat) : Threading τ μ α := ⟨clock, fun _ => none, fun _ => none, fun _ => none, []⟩

inductive FuncSound {μ : Type} (data : ThreadData μ) (clock started : Nat) (woken : Bool) :
    FuncPlace → Option Nat → Option Nat → Prop where
  | entry (past : started ≤ clock) : FuncSound data clock started woken .entry none none
  | obtainSleep (wake : Nat) (past : started ≤ clock)
      (long : started + 1000 * (secToWait data.waitToObtainMs).toNat ≤ wake) :
      FuncSound data clock started woken (.obtainSleep wake) none none
  | lock (past : started ≤ clock)
      (waited : woken = false → started + 1000 * (secToWait data.waitToObtainMs).toNat ≤ clock) :
      FuncSound data clock started woken .lock none none
  | releaseSleep (wake obtained : Nat) (past : started ≤ obtained) (earlier : obtained ≤ clock)
      (waited : woken = false → started + 1000 * (secToWait data.waitToObtainMs).toNat ≤ obtained)
      (long : obtained + 1000 * (secToWait data.waitToReleaseMs).toNat ≤ wake) :
      FuncSound data clock started woken (.releaseSleep wake) (some obtained) none
  | unlock (obtained : Nat) (past : started ≤ obtained) (earlier : obtained ≤ clock)
      (waited : woken = false → started + 1000 * (secToWait data.waitToObtainMs).toNat ≤ obtained)
      (held : woken = false → obtained + 1000 * (secToWait data.waitToReleaseMs).toNat ≤ clock) :
      FuncSound data clock started woken .unlock (some obtained) none
  | complete (obtained released : Nat) (past : started ≤ obtained) (earlier : obtained ≤ released)
      (waited : woken = false → started + 1000 * (secToWait data.waitToObtainMs).toNat ≤ obtained)
      (held : woken = false → obtained + 1000 * (secToWait data.waitToReleaseMs).toNat ≤ released) :
      FuncSound data clock started woken .complete (some obtained) (some released)
  | done (obtained released : Nat) (past : started ≤ obtained) (earlier : obtained ≤ released)
      (waited : woken = false → started + 1000 * (secToWait data.waitToObtainMs).toNat ≤ obtained)
      (held : woken = false → obtained + 1000 * (secToWait data.waitToReleaseMs).toNat ≤ released) :
      FuncSound data clock started woken .returned (some obtained) (some released)
  | notObtained (waited : woken = false → started + 1000 * (secToWait data.waitToObtainMs).toNat ≤ clock) :
      FuncSound data clock started woken .returned none none
  | notReleased (obtained : Nat) (past : started ≤ obtained)
      (waited : woken = false → started + 1000 * (secToWait data.waitToObtainMs).toNat ≤ obtained)
      (held : woken = false → obtained + 1000 * (secToWait data.waitToReleaseMs).toNat ≤ clock) :
      FuncSound data clock started woken .returned (some obtained) none

structure ThreadSound {μ α : Type} (clock : Nat) (data : ThreadData μ) (thread : FuncThread α) : Prop where
  sound : FuncSound data clock thread.started thread.woken thread.place thread.obtained thread.released
  asked : thread.place ≠ .entry → thread.secToWaitToRelease = secToWait data.waitToReleaseMs
  success : data.threadCompleteSuccess = true ↔ thread.place = .returned ∧ thread.released.isSome

theorem sleep_ends_cases {α : Type} (clock wake : Nat) (thread next : FuncThread α) (place : FuncPlace)
    (event : FuncEvent) (ran : sleepEnds clock wake thread place event = some next) :
    (next = thread.go place ∧ wake ≤ clock) ∨ next = { thread with place, woken := true } := by
  cases event with
  | slept =>
      rw [sleepEnds] at ran
      split at ran
      · rename_i elapsed
        exact Or.inl ⟨(Option.some.inj ran).symm, elapsed⟩
      · cases ran
  | interrupted => exact Or.inr (Option.some.inj ran).symm
  | success => cases ran
  | error => cases ran

structure FuncKeeps {τ μ α : Type} (clock : Nat) (id : τ) (thread : FuncThread α) (data : ThreadData μ)
    (owner : Option (Holder τ)) (next : FuncThread α × ThreadData μ × Option (Holder τ)) : Prop where
  sound : ThreadSound clock next.2.1 next.1
  param : next.1.threadParam = thread.threadParam
  mutex : next.2.1.mutex = data.mutex
  holder : next.2.2 = some (.thread id) ↔ next.1.place.holds = true
  others : ∀ other, other ≠ id → (next.2.2 = some (.thread other) ↔ owner = some (.thread other))

section

variable {τ μ α : Type} [DecidableEq τ] (clock : Nat) (id : τ) (thread : FuncThread α) (data : ThreadData μ)
  (owner : Option (Holder τ)) (next : FuncThread α × ThreadData μ × Option (Holder τ))

omit [DecidableEq τ] in
theorem owner_kept (after : FuncThread α) (dataAfter : ThreadData μ) (sound : ThreadSound clock dataAfter after)
    (param : after.threadParam = thread.threadParam) (mutex : dataAfter.mutex = data.mutex)
    (same : after.place.holds = thread.place.holds)
    (held : owner = some (.thread id) ↔ thread.place.holds = true) :
    FuncKeeps clock id thread data owner (after, dataAfter, owner) :=
  ⟨sound, param, mutex, by rw [same]; exact held, fun _ _ => Iff.rfl⟩

omit [DecidableEq τ] in
theorem not_successful (sound : ThreadSound clock data thread) (going : thread.place ≠ .returned) :
    data.threadCompleteSuccess = false := by
  cases set : data.threadCompleteSuccess with
  | false => rfl
  | true => exact absurd (sound.success.mp set).1 going

theorem entry_keeps (ran : threadfunc clock id thread data owner .success = some next)
    (standing : thread.place = .entry) (sound : ThreadSound clock data thread)
    (held : owner = some (.thread id) ↔ thread.place.holds = true) :
    FuncKeeps clock id thread data owner next := by
  have unset := not_successful clock thread data sound (by rw [standing]; simp)
  obtain ⟨param, sec, place, woken, started, obtained, released⟩ := thread
  obtain ⟨record, _, _⟩ := sound
  dsimp only at standing record
  subst standing
  cases record with
  | entry past =>
      cases ran
      refine owner_kept clock id _ data owner _ data
        ⟨.obtainSleep _ past (Nat.add_le_add_right past _), fun _ => rfl, ?_⟩
        rfl rfl rfl held
      simp [unset]

omit [DecidableEq τ] in
theorem obtain_sleep_keeps (wake : Nat) (after : FuncThread α) (event : FuncEvent)
    (ran : sleepEnds clock wake thread .lock event = some after) (standing : thread.place = .obtainSleep wake)
    (sound : ThreadSound clock data thread) (held : owner = some (.thread id) ↔ thread.place.holds = true) :
    FuncKeeps clock id thread data owner (after, data, owner) := by
  have unset := not_successful clock thread data sound (by rw [standing]; simp)
  have ends := sleep_ends_cases clock wake thread after .lock event ran
  obtain ⟨param, sec, place, woken, started, obtained, released⟩ := thread
  obtain ⟨record, asked, _⟩ := sound
  dsimp only at standing record
  subst standing
  have seconds := asked (by simp)
  cases record with
  | obtainSleep _ past long =>
      rcases ends with ⟨rfl, elapsed⟩ | rfl
      · refine owner_kept clock id _ data owner _ data
          ⟨.lock past fun _ => Nat.le_trans long elapsed, fun _ => seconds, ?_⟩
          rfl rfl rfl held
        simp [unset, FuncThread.go]
      · refine owner_kept clock id _ data owner _ data ⟨.lock past fun quiet => (by cases quiet), fun _ => seconds, ?_⟩
          rfl rfl rfl held
        simp [unset]

theorem lock_keeps (event : FuncEvent) (ran : threadfunc clock id thread data owner event = some next)
    (standing : thread.place = .lock) (sound : ThreadSound clock data thread)
    (held : owner = some (.thread id) ↔ thread.place.holds = true) : FuncKeeps clock id thread data owner next := by
  have unset := not_successful clock thread data sound (by rw [standing]; simp)
  obtain ⟨param, sec, place, woken, started, obtained, released⟩ := thread
  obtain ⟨record, asked, _⟩ := sound
  dsimp only at standing record
  subst standing
  have seconds := asked (by simp)
  dsimp only at seconds
  cases record with
  | lock past waited =>
      cases event with
      | slept => cases ran
      | interrupted => cases ran
      | success =>
          simp only [threadfunc] at ran
          split at ran
          · rename_i free
            obtain rfl := Option.some.inj ran
            refine ⟨⟨.releaseSleep _ clock past (Nat.le_refl _) waited (Nat.le_of_eq (by rw [seconds])),
              fun _ => seconds, ?_⟩,
              rfl, rfl, ?_, ?_⟩
            · simp [unset]
            · simp [FuncPlace.holds]
            · intro other apart
              simp [free, Ne.symm apart]
          · cases ran
      | error =>
          cases ran
          refine owner_kept clock id _ data owner _ data ⟨.notObtained waited, fun _ => seconds, ?_⟩ rfl rfl rfl held
          simp [unset, FuncThread.go]

omit [DecidableEq τ] in
theorem release_sleep_keeps (wake : Nat) (after : FuncThread α) (event : FuncEvent)
    (ran : sleepEnds clock wake thread .unlock event = some after) (standing : thread.place = .releaseSleep wake)
    (sound : ThreadSound clock data thread) (held : owner = some (.thread id) ↔ thread.place.holds = true) :
    FuncKeeps clock id thread data owner (after, data, owner) := by
  have unset := not_successful clock thread data sound (by rw [standing]; simp)
  have ends := sleep_ends_cases clock wake thread after .unlock event ran
  obtain ⟨param, sec, place, woken, started, obtained, released⟩ := thread
  obtain ⟨record, asked, _⟩ := sound
  dsimp only at standing record
  subst standing
  have seconds := asked (by simp)
  cases record with
  | releaseSleep _ got past earlier waited long =>
      rcases ends with ⟨rfl, elapsed⟩ | rfl
      · refine owner_kept clock id _ data owner _ data
          ⟨.unlock got past earlier waited fun _ => Nat.le_trans long elapsed, fun _ => seconds, ?_⟩ rfl rfl rfl held
        simp [unset, FuncThread.go]
      · refine owner_kept clock id _ data owner _ data
          ⟨.unlock got past earlier (fun quiet => (by cases quiet)) fun quiet => (by cases quiet), fun _ => seconds, ?_⟩
          rfl rfl rfl held
        simp [unset]

theorem unlock_keeps (event : FuncEvent) (ran : threadfunc clock id thread data owner event = some next)
    (standing : thread.place = .unlock) (sound : ThreadSound clock data thread)
    (held : owner = some (.thread id) ↔ thread.place.holds = true) : FuncKeeps clock id thread data owner next := by
  have unset := not_successful clock thread data sound (by rw [standing]; simp)
  have mine : owner = some (.thread id) := held.mpr (by rw [standing]; rfl)
  obtain ⟨param, sec, place, woken, started, obtained, released⟩ := thread
  obtain ⟨record, asked, _⟩ := sound
  dsimp only at standing record
  subst standing
  have seconds := asked (by simp)
  cases record with
  | unlock got past earlier waited heldFor =>
      cases event with
      | slept => cases ran
      | interrupted => cases ran
      | success =>
          cases ran
          refine ⟨⟨.complete got clock past earlier waited heldFor, fun _ => seconds, ?_⟩, rfl, rfl, ?_, ?_⟩
          · simp [unset]
          · simp [FuncPlace.holds]
          · intro other apart
            simp [mine, Ne.symm apart]
      | error =>
          cases ran
          refine ⟨⟨.notReleased got past waited heldFor, fun _ => seconds, ?_⟩, rfl, rfl, ?_, ?_⟩
          · simp [unset, FuncThread.go]
          · simp [FuncPlace.holds, FuncThread.go]
          · intro other apart
            simp [mine, Ne.symm apart]

theorem complete_keeps (ran : threadfunc clock id thread data owner .success = some next)
    (standing : thread.place = .complete) (sound : ThreadSound clock data thread)
    (held : owner = some (.thread id) ↔ thread.place.holds = true) :
    FuncKeeps clock id thread data owner next := by
  obtain ⟨param, sec, place, woken, started, obtained, released⟩ := thread
  obtain ⟨record, asked, _⟩ := sound
  dsimp only at standing record
  subst standing
  have seconds := asked (by simp)
  cases record with
  | complete got gave past earlier waited heldFor =>
      cases ran
      refine owner_kept clock id _ data owner _ _ ⟨.done got gave past earlier waited heldFor, fun _ => seconds, ?_⟩
        rfl rfl rfl held
      simp [FuncThread.go]

theorem threadfunc_keeps (event : FuncEvent) (ran : threadfunc clock id thread data owner event = some next)
    (sound : ThreadSound clock data thread) (held : owner = some (.thread id) ↔ thread.place.holds = true) :
    FuncKeeps clock id thread data owner next := by
  cases standing : thread.place with
  | entry =>
      cases event with
      | success => exact entry_keeps clock id thread data owner next ran standing sound held
      | _ => simp [threadfunc, standing] at ran
  | obtainSleep wake =>
      simp only [threadfunc, standing] at ran
      obtain ⟨after, ended, rfl⟩ := Option.map_eq_some_iff.mp ran
      exact obtain_sleep_keeps clock id thread data owner wake after event ended standing sound held
  | lock => exact lock_keeps clock id thread data owner next event ran standing sound held
  | releaseSleep wake =>
      simp only [threadfunc, standing] at ran
      obtain ⟨after, ended, rfl⟩ := Option.map_eq_some_iff.mp ran
      exact release_sleep_keeps clock id thread data owner wake after event ended standing sound held
  | unlock => exact unlock_keeps clock id thread data owner next event ran standing sound held
  | complete =>
      cases event with
      | success => exact complete_keeps clock id thread data owner next ran standing sound held
      | _ => simp [threadfunc, standing] at ran
  | returned => simp [threadfunc, standing] at ran

end

end AesdChar

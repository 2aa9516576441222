import AesdChar.ThreadingInv
import Mathlib.Data.Int.Order.Basic

set_option autoImplicit false

namespace AesdChar

section

variable {τ μ α : Type} [DecidableEq τ] [DecidableEq μ] [DecidableEq α]

theorem threading_run_trans (start mid final : Threading τ μ α) (first : ThreadingRun start mid)
    (later : ThreadingRun mid final) : ThreadingRun start final := by
  induction later with
  | start => exact first
  | step threads next _ taken ih => exact .step threads next ih taken

-- threads at another time, with another thread, block and owner of its mutex.
def Threading.put (threads : Threading τ μ α) (clock : Nat) (id : τ) (thread : FuncThread α) (data : ThreadData μ)
    (owner : Option (Holder τ)) : Threading τ μ α :=
  { threads with
    clock
    owner := Function.update threads.owner data.mutex owner
    data := Function.update threads.data thread.threadParam (some data)
    thread := Function.update threads.thread id (some thread) }

variable (threads : Threading τ μ α) (clock : Nat) (id : τ) (thread : FuncThread α) (data : ThreadData μ)
  (owner : Option (Holder τ))

theorem put_self (here : threads.thread id = some thread) (live : threads.data thread.threadParam = some data)
    (owned : threads.owner data.mutex = owner) : threads.put threads.clock id thread data owner = threads := by
  rw [Threading.put, ← here, ← live, ← owned, Function.update_eq_self, Function.update_eq_self, Function.update_eq_self]

theorem put_ticks (later : Nat) (past : clock ≤ later) :
    ThreadingRun (threads.put clock id thread data owner) (threads.put later id thread data owner) := by
  obtain ⟨n, rfl⟩ := Nat.exists_eq_add_of_le past
  clear past
  induction n with
  | zero => exact .start
  | succ n ih => exact .step _ _ ih (.tick _)

theorem put_func (after : FuncThread α) (dataAfter : ThreadData μ) (ownerAfter : Option (Holder τ)) (event : FuncEvent)
    (ran : threadfunc clock id thread data owner event = some (after, dataAfter, ownerAfter))
    (param : after.threadParam = thread.threadParam) (mutex : dataAfter.mutex = data.mutex) :
    ThreadingStep (threads.put clock id thread data owner) (threads.put clock id after dataAfter ownerAfter) := by
  refine .func _ _ id event ?_
  simp only [Threading.step, Threading.put, Function.update_self, ran, Option.map_some,
    Function.update_idem, param, mutex]

def ThreadData.succeeded {μ : Type} (data : ThreadData μ) : ThreadData μ := { data with threadCompleteSuccess := true }

theorem complete_runs :
    ThreadingRun (threads.put clock id (thread.go .complete) data owner)
      (threads.put clock id (thread.go .returned) data.succeeded owner) :=
  .step _ _ .start (put_func threads clock id _ data owner _ _ owner .success rfl rfl rfl)

theorem unlock_runs :
    ThreadingRun (threads.put clock id (thread.go .unlock) data owner)
      (threads.put clock id { thread with place := .returned, released := some clock } data.succeeded none) :=
  threading_run_trans _ _ _ (.step _ _ .start (put_func threads clock id _ data owner _ _ none .success rfl rfl rfl))
    (complete_runs threads clock id { thread with released := some clock } data none)

theorem release_sleep_runs (wake : Nat) :
    ThreadingRun (threads.put clock id (thread.go (.releaseSleep wake)) data owner)
      (threads.put (max clock wake) id { thread with place := .returned, released := some (max clock wake) }
        data.succeeded none) := by
  have elapsed : wake ≤ max clock wake := Nat.le_max_right _ _
  have woke : ThreadingStep (threads.put (max clock wake) id (thread.go (.releaseSleep wake)) data owner)
      (threads.put (max clock wake) id (thread.go .unlock) data owner) := by
    refine put_func threads _ id _ data owner _ _ owner .slept ?_ rfl rfl
    simp [threadfunc, FuncThread.go, sleepEnds, elapsed]
  have slept := put_ticks threads clock id (thread.go (.releaseSleep wake)) data owner _ (Nat.le_max_left clock wake)
  exact threading_run_trans _ _ _ (.step _ _ slept woke) (unlock_runs threads _ id thread data owner)

theorem lock_runs :
    ThreadingRun (threads.put clock id (thread.go .lock) data none)
      (threads.put (clock + 1000 * thread.secToWaitToRelease.toNat) id
        { thread with
          place := .returned
          obtained := some clock
          released := some (clock + 1000 * thread.secToWaitToRelease.toNat) } data.succeeded none) := by
  have locked : ThreadingStep (threads.put clock id (thread.go .lock) data none)
      (threads.put clock id
        ({ thread with obtained := some clock }.go (.releaseSleep (clock + 1000 * thread.secToWaitToRelease.toNat)))
        data (some (.thread id))) :=
        put_func threads clock id _ data none _ _ _ .success (by simp [threadfunc, FuncThread.go]) rfl rfl
  have rest := release_sleep_runs threads clock id { thread with obtained := some clock } data (some (.thread id))
    (clock + 1000 * thread.secToWaitToRelease.toNat)
  rw [Nat.max_eq_right (Nat.le_add_right _ _)] at rest
  exact threading_run_trans _ _ _ (.step _ _ .start locked) rest

theorem obtain_sleep_runs (wake : Nat) :
    ThreadingRun (threads.put clock id (thread.go (.obtainSleep wake)) data none)
      (threads.put (max clock wake + 1000 * thread.secToWaitToRelease.toNat) id
        { thread with
          place := .returned
          obtained := some (max clock wake)
          released := some (max clock wake + 1000 * thread.secToWaitToRelease.toNat) } data.succeeded none) := by
  have elapsed : wake ≤ max clock wake := Nat.le_max_right _ _
  have woke : ThreadingStep (threads.put (max clock wake) id (thread.go (.obtainSleep wake)) data none)
      (threads.put (max clock wake) id (thread.go .lock) data none) := by
    refine put_func threads _ id _ data none _ _ none .slept ?_ rfl rfl
    simp [threadfunc, FuncThread.go, sleepEnds, elapsed]
  have slept := put_ticks threads clock id (thread.go (.obtainSleep wake)) data none _ (Nat.le_max_left clock wake)
  exact threading_run_trans _ _ _ (.step _ _ slept woke) (lock_runs threads _ id thread data)

theorem entry_runs :
    ThreadingRun (threads.put clock id (thread.go .entry) data none)
      (threads.put
        (clock + 1000 * (secToWait data.waitToObtainMs).toNat + 1000 * (secToWait data.waitToReleaseMs).toNat) id
        { thread with
          secToWaitToRelease := secToWait data.waitToReleaseMs
          place := .returned
          obtained := some (clock + 1000 * (secToWait data.waitToObtainMs).toNat)
          released := some (clock + 1000 * (secToWait data.waitToObtainMs).toNat +
            1000 * (secToWait data.waitToReleaseMs).toNat) } data.succeeded none) := by
  have began : ThreadingStep (threads.put clock id (thread.go .entry) data none)
      (threads.put clock id
        ({ thread with secToWaitToRelease := secToWait data.waitToReleaseMs }.go
          (.obtainSleep (clock + 1000 * (secToWait data.waitToObtainMs).toNat))) data none) :=
    put_func threads clock id _ data none _ _ none .success rfl rfl rfl
  have rest :=
    obtain_sleep_runs threads clock id { thread with secToWaitToRelease := secToWait data.waitToReleaseMs } data
    (clock + 1000 * (secToWait data.waitToObtainMs).toNat)
  rw [Nat.max_eq_right (Nat.le_add_right _ _)] at rest
  exact threading_run_trans _ _ _ (.step _ _ .start began) rest

-- Every mutex is free or held by a thread that will give it back.
def NoneStuck (threads : Threading τ μ α) : Prop :=
  ∀ mutex, threads.owner mutex ≠ some .other ∧ threads.owner mutex ≠ some .abandoned

def Succeeded (threads : Threading τ μ α) (id : τ) : Prop :=
  ∃ thread data, threads.thread id = some thread ∧ threads.data thread.threadParam = some data ∧
    thread.place = .returned ∧
    data.threadCompleteSuccess = true

-- A thread is as it was, or has succeeded since.
def Progressed (threads final : Threading τ μ α) : Prop :=
  ∀ id thread, threads.thread id = some thread →
    (final.thread id = some thread ∧ final.data thread.threadParam = threads.data thread.threadParam) ∨
    Succeeded final id

omit [DecidableEq τ] [DecidableEq μ] [DecidableEq α] in
theorem succeeded_later (mid final : Threading τ μ α) (later : Progressed mid final) (id : τ)
    (succeeded : Succeeded mid id) :
    Succeeded final id := by
  obtain ⟨thread, data, there, live, returned, success⟩ := succeeded
  rcases later id thread there with ⟨kept, block⟩ | again
  · exact ⟨thread, data, kept, block.trans live, returned, success⟩
  · exact again

omit [DecidableEq τ] [DecidableEq μ] [DecidableEq α] in
theorem progressed_trans (threads mid final : Threading τ μ α) (first : Progressed threads mid)
    (later : Progressed mid final) :
    Progressed threads final := by
  intro id thread here
  rcases first id thread here with ⟨kept, block⟩ | succeeded
  · rcases later id thread kept with ⟨still, same⟩ | succeeded
    · exact Or.inl ⟨still, same.trans block⟩
    · exact Or.inr succeeded
  · exact Or.inr (succeeded_later mid final later id succeeded)

structure ReachesSuccess (threads : Threading τ μ α) (id : τ) (final : Threading τ μ α) : Prop where
  run : ThreadingRun threads final
  success : Succeeded final id
  progressed : Progressed threads final
  free : NoneStuck final

theorem put_finishes (after : FuncThread α)
    (run : ThreadingRun threads (threads.put clock id after data.succeeded owner)) (inv : ThreadingInv threads)
    (here : threads.thread id = some thread) (param : after.threadParam = thread.threadParam)
    (returned : after.place = .returned) (notStuck : owner ≠ some .other ∧ owner ≠ some .abandoned)
    (free : NoneStuck threads) :
    ReachesSuccess threads id (threads.put clock id after data.succeeded owner) := by
  have success : Succeeded (threads.put clock id after data.succeeded owner) id :=
    ⟨after, data.succeeded, Function.update_self .., Function.update_self .., returned, rfl⟩
  refine ⟨run, success, fun other another there => ?_, fun mutex => ?_⟩
  · by_cases same : other = id
    · rw [same]
      exact Or.inr success
    · have apart : another.threadParam ≠ after.threadParam := by
        rw [param]
        exact fun equal => same (inv.apart other id another thread there here equal)
      exact Or.inl ⟨(Function.update_of_ne same _ _).trans there, Function.update_of_ne apart _ _⟩
  · simp only [Threading.put]
    by_cases same : mutex = data.succeeded.mutex
    · rw [same, Function.update_self]
      exact notStuck
    · rw [Function.update_of_ne same]
      exact free mutex

theorem holder_finishes (inv : ThreadingInv threads) (here : threads.thread id = some thread)
    (live : threads.data thread.threadParam = some data) (holds : thread.place.holds = true)
    (free : NoneStuck threads) :
    ∃ final, ReachesSuccess threads id final ∧ final.owner data.mutex = none := by
  have start := put_self threads id thread data _ here live rfl
  cases standing : thread.place with
  | releaseSleep wake =>
      have run := release_sleep_runs threads threads.clock id thread data (threads.owner data.mutex) wake
      rw [FuncThread.go, ← standing, start] at run
      exact ⟨_, put_finishes threads _ id thread data none _ run inv here rfl rfl (by simp) free,
        Function.update_self ..⟩
  | unlock =>
      have run := unlock_runs threads threads.clock id thread data (threads.owner data.mutex)
      rw [FuncThread.go, ← standing, start] at run
      exact ⟨_, put_finishes threads _ id thread data none _ run inv here rfl rfl (by simp) free,
        Function.update_self ..⟩
  | _ => simp [FuncPlace.holds, standing] at holds

theorem unhindered_finishes (inv : ThreadingInv threads) (here : threads.thread id = some thread)
    (live : threads.data thread.threadParam = some data) (going : thread.place ≠ .returned)
    (unowned : thread.place.holds = false → threads.owner data.mutex = none) (free : NoneStuck threads) :
    ∃ final, ReachesSuccess threads id final := by
  cases holding : thread.place.holds with
  | true =>
      obtain ⟨final, finishes, _⟩ := holder_finishes threads id thread data inv here live holding free
      exact ⟨final, finishes⟩
  | false =>
      have start := put_self threads id thread data _ here live (unowned holding)
      cases standing : thread.place with
      | entry =>
          have run := entry_runs threads threads.clock id thread data
          rw [FuncThread.go, ← standing, start] at run
          exact ⟨_, put_finishes threads _ id thread data none _ run inv here rfl rfl (by simp) free⟩
      | obtainSleep wake =>
          have run := obtain_sleep_runs threads threads.clock id thread data wake
          rw [FuncThread.go, ← standing, start] at run
          exact ⟨_, put_finishes threads _ id thread data none _ run inv here rfl rfl (by simp) free⟩
      | lock =>
          have run := lock_runs threads threads.clock id thread data
          rw [FuncThread.go, ← standing, start] at run
          exact ⟨_, put_finishes threads _ id thread data none _ run inv here rfl rfl (by simp) free⟩
      | complete =>
          have run := complete_runs threads threads.clock id thread data none
          rw [FuncThread.go, ← standing, start] at run
          exact ⟨_, put_finishes threads _ id thread data none _ run inv here rfl rfl (by simp) free⟩
      | returned => exact absurd standing going
      | releaseSleep wake => simp [FuncPlace.holds, standing] at holding
      | unlock => simp [FuncPlace.holds, standing] at holding

-- Whoever has the mutex of a thread goes first.
theorem thread_finishes (inv : ThreadingInv threads) (here : threads.thread id = some thread)
    (going : thread.place ≠ .returned) (free : NoneStuck threads) : ∃ final, ReachesSuccess threads id final := by
  obtain ⟨data, live, _⟩ := inv.live id thread here
  cases owned : threads.owner data.mutex with
  | none => exact unhindered_finishes threads id thread data inv here live going (fun _ => owned) free
  | some holder =>
      cases holder with
      | other => exact absurd owned (free data.mutex).1
      | abandoned => exact absurd owned (free data.mutex).2
      | thread other =>
          by_cases same : other = id
          · rw [same] at owned
            have holds := ((inv.holder id thread data here live data.mutex).mp owned).2
            exact unhindered_finishes threads id thread data inv here live going
              (fun idle => absurd holds (by simp [idle])) free
          · cases there : threads.thread other with
            | none => exact absurd owned (inv.gone other there data.mutex)
            | some another =>
                obtain ⟨dataToo, liveToo, _⟩ := inv.live other another there
                obtain ⟨mutex, holds⟩ := (inv.holder other another dataToo there liveToo data.mutex).mp owned
                obtain ⟨mid, first, given⟩ := holder_finishes threads other another dataToo inv there liveToo holds free
                rcases first.progressed id thread here with ⟨kept, block⟩ | succeeded
                · have midInv := threading_run_inv mid threads first.run inv
                  obtain ⟨final, later⟩ := unhindered_finishes mid id thread data midInv kept (block.trans live) going
                    (fun _ => by rw [← mutex, given]) first.free
                  exact ⟨final, threading_run_trans _ _ _ first.run later.run, later.success,
                    progressed_trans _ _ _ first.progressed later.progressed, later.free⟩
                · exact ⟨mid, first.run, succeeded, first.progressed, first.free⟩

-- One thread after the other: those that have returned stay as they are.
theorem all_finish (inv : ThreadingInv threads) (free : NoneStuck threads) (ids : List τ) :
    ∃ final, ThreadingRun threads final ∧ Progressed threads final ∧ NoneStuck final ∧
      ∀ id ∈ ids, ∀ thread, threads.thread id = some thread → thread.place ≠ .returned → Succeeded final id := by
  induction ids with
  | nil => exact ⟨threads, .start, fun _ _ here => Or.inl ⟨here, rfl⟩, free, by simp⟩
  | cons id rest ih =>
      obtain ⟨mid, first, progressed, still, done⟩ := ih
      by_cases waits : ∃ thread, mid.thread id = some thread ∧ thread.place ≠ .returned
      · obtain ⟨thread, here, going⟩ := waits
        obtain ⟨final, finishes⟩ :=
          thread_finishes mid id thread (threading_run_inv mid threads first inv) here going still
        refine ⟨final, threading_run_trans _ _ _ first finishes.run,
          progressed_trans _ _ _ progressed finishes.progressed,
          finishes.free, fun other member thread there moving => ?_⟩
        rcases List.mem_cons.mp member with rfl | older
        · exact finishes.success
        · exact succeeded_later mid final finishes.progressed other (done other older thread there moving)
      · refine ⟨mid, first, progressed, still, fun other member thread there moving => ?_⟩
        rcases List.mem_cons.mp member with rfl | older
        · rcases progressed other thread there with ⟨kept, _⟩ | succeeded
          · exact absurd ⟨thread, kept, moving⟩ waits
          · exact succeeded
        · exact done other older thread there moving

end

/-- Unless a mutex is kept for good, no interleaving of the threads is a dead end. -/
theorem threads_can_return {τ μ α : Type} [DecidableEq τ] [DecidableEq μ] [DecidableEq α] (clock : Nat)
    (threads : Threading τ μ α) (run : ThreadingRun (noThreads clock) threads) (free : NoneStuck threads)
    (ids : List τ) :
    ∃ final, ThreadingRun threads final ∧
      ∀ id ∈ ids, ∀ thread, threads.thread id = some thread →
        ∃ after data, final.thread id = some after ∧ final.data after.threadParam = some data ∧
          after.place = .returned ∧
          (thread.place ≠ .returned → data.threadCompleteSuccess = true) := by
  have inv := threading_run_inv threads (noThreads clock) run (no_threads_inv clock)
  obtain ⟨final, onward, progressed, _, done⟩ := all_finish threads inv free ids
  refine ⟨final, onward, fun id member thread here => ?_⟩
  have finalInv := threading_run_inv final threads onward inv
  by_cases returned : thread.place = .returned
  · rcases progressed id thread here with ⟨kept, block⟩ | ⟨after, data, there, live, elapsed, success⟩
    · obtain ⟨data, live, _⟩ := finalInv.live id thread kept
      exact ⟨thread, data, kept, live, returned, fun going => absurd returned going⟩
    · exact ⟨after, data, there, live, elapsed, fun _ => success⟩
  · obtain ⟨after, data, there, live, elapsed, success⟩ := done id member thread here returned
    exact ⟨after, data, there, live, elapsed, fun _ => success⟩

theorem threads_can_return_two_threads :
    ∃ (threads final : Threading Nat Nat Nat) (after : FuncThread Nat) (data : ThreadData Nat),
      ThreadingRun (noThreads 0) threads ∧ ThreadingRun threads final ∧ final.thread 1 = some after ∧
      final.data after.threadParam = some data ∧ after.place = .returned ∧ data.threadCompleteSuccess = true := by
  obtain ⟨threads, _, another, run, _, _, there, waits, owners⟩ := two_threads_run
  have free : NoneStuck threads := by
    intro mutex
    rcases owners mutex with none | held
    · rw [none]
      exact ⟨by simp, by simp⟩
    · rw [held]
      exact ⟨by simp, by simp⟩
  obtain ⟨final, onward, returns⟩ := threads_can_return 0 threads run free [0, 1]
  obtain ⟨after, data, found, live, returned, success⟩ := returns 1 (by simp) another there
  exact ⟨threads, final, after, data, run, onward, found, live, returned, success (by rw [waits]; simp)⟩

theorem sec_to_wait_nonnegative (ms : Int32) (nonnegative : 0 ≤ ms.toInt) :
    ((secToWait ms).toNat : Int) = ms.toInt / 1000 := by
  have quotient : (ms / 1000).toInt = ms.toInt / 1000 := by
    rw [Int32.toInt_div_of_ne_right ms 1000 (by decide), show (1000 : Int32).toInt = 1000 by decide,
      Int.tdiv_eq_ediv_of_nonneg nonnegative]
  have above : 0 ≤ ms / 1000 := by
    rw [Int32.le_iff_toInt_le, quotient]
    exact Int.ediv_nonneg nonnegative (by decide)
  rw [secToWait, Int32.toNat_toUInt32_of_le above, ← quotient]
  exact Int.toNat_of_nonneg (Int32.le_iff_toInt_le.mp above)

-- What the comment of start_thread_obtaining_mutex says: the thread sleeps
-- the one number of milliseconds before it obtains the mutex, and holds it for
-- the other.
def KeepsWaits (τ μ α : Type) [DecidableEq τ] [DecidableEq μ] [DecidableEq α]
    (waitToObtainMs waitToReleaseMs : Int32) : Prop :=
  ∀ (clock : Nat) (threads : Threading τ μ α), ThreadingRun (noThreads clock) threads →
    ∀ id thread data, threads.thread id = some thread → threads.data thread.threadParam = some data →
      data.waitToObtainMs = waitToObtainMs → data.waitToReleaseMs = waitToReleaseMs → thread.woken = false →
      ∀ got, thread.obtained = some got → thread.started + waitToObtainMs.toInt ≤ got ∧
        ∀ gave, thread.released = some gave → got + waitToReleaseMs.toInt ≤ gave

def WholeSeconds (ms : Int32) : Prop := ms.toInt ≤ 0 ∨ 1000 ∣ ms.toInt

theorem whole_seconds_iff (ms : Int32) : WholeSeconds ms ↔ ms.toInt ≤ 1000 * ((secToWait ms).toNat : Int) := by
  by_cases negative : ms.toInt ≤ 0
  · exact iff_of_true (Or.inl negative) (by omega)
  · rw [sec_to_wait_nonnegative ms (by omega), WholeSeconds, or_iff_right negative, Int.dvd_iff_emod_eq_zero]
    omega

section

variable {τ μ α : Type} [DecidableEq τ] [DecidableEq μ] [DecidableEq α]

-- A thread that meets nobody and no signal waits no longer than it asked.
theorem lone_thread_times (id : τ) (threadStruct : α) (mutex : μ) (waitToObtainMs waitToReleaseMs : Int32) :
    ∃ (threads : Threading τ μ α) (thread : FuncThread α) (data : ThreadData μ), ThreadingRun (noThreads 0) threads ∧
      threads.thread id = some thread ∧ threads.data thread.threadParam = some data ∧
      data.waitToObtainMs = waitToObtainMs ∧ data.waitToReleaseMs = waitToReleaseMs ∧ thread.woken = false ∧
      thread.started = 0 ∧ thread.obtained = some (1000 * (secToWait waitToObtainMs).toNat) ∧
      thread.released = some (1000 * (secToWait waitToObtainMs).toNat + 1000 * (secToWait waitToReleaseMs).toNat) := by
  let thread : FuncThread α := ⟨threadStruct, 0, .entry, false, 0, none, none⟩
  let data : ThreadData μ := ⟨false, waitToObtainMs, waitToReleaseMs, mutex⟩
  let begun : Threading τ μ α :=
    { noThreads 0 with
      data := Function.update (fun _ => none) threadStruct (some data)
      thread := Function.update (fun _ => none) id (some thread) }
  have started : ThreadingStep (noThreads 0) begun :=
    .start _ _ threadStruct (some id) mutex waitToObtainMs waitToReleaseMs true rfl (fun _ _ => rfl) rfl
  have here : begun.thread id = some thread := Function.update_self id (some thread) fun _ => none
  have live : begun.data threadStruct = some data := Function.update_self threadStruct (some data) fun _ => none
  have same : begun.put 0 id thread data none = begun := put_self begun id thread data none here live rfl
  have run := entry_runs begun 0 id thread data
  rw [show thread.go .entry = thread from rfl, same, Nat.zero_add] at run
  exact ⟨_, _, _, threading_run_trans _ _ _ (.step _ _ .start started) run, Function.update_self ..,
    Function.update_self ..,
    rfl, rfl, rfl, rfl, rfl, rfl⟩

end

/-- The comment of the header holds exactly for waits without a rest. -/
theorem waits_kept_exactly {τ μ α : Type} [DecidableEq τ] [DecidableEq μ] [DecidableEq α] (id : τ) (threadStruct : α)
    (mutex : μ) (waitToObtainMs waitToReleaseMs : Int32) :
    KeepsWaits τ μ α waitToObtainMs waitToReleaseMs ↔ WholeSeconds waitToObtainMs ∧ WholeSeconds waitToReleaseMs := by
  rw [whole_seconds_iff, whole_seconds_iff]
  constructor
  · intro keeps
    obtain ⟨threads, thread, data, run, here, live, obtainMs, releaseMs, quiet, started, obtained, released⟩ :=
      lone_thread_times id threadStruct mutex waitToObtainMs waitToReleaseMs
    obtain ⟨before, after⟩ := keeps 0 threads run id thread data here live obtainMs releaseMs quiet _ obtained
    have held := after _ released
    rw [started] at before
    exact ⟨by omega, by omega⟩
  · rintro ⟨obtainWhole, releaseWhole⟩ clock threads run other thread data here live rfl rfl quiet got obtained
    obtain ⟨found, present, sound⟩ :=
      (threading_run_inv threads (noThreads clock) run (no_threads_inv clock)).live other thread here
    obtain rfl := Option.some.inj (present.symm.trans live)
    have outcome := sound_outcome threads.clock found thread sound
    have waited := (outcome.obtained got obtained).2 quiet
    refine ⟨by omega, fun gave released => ?_⟩
    obtain ⟨time, same, _, held⟩ := outcome.released gave released
    obtain rfl := Option.some.inj (same.symm.trans obtained)
    have long := held quiet
    omega

end AesdChar

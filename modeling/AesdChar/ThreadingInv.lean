import AesdChar.Threading

set_option autoImplicit false

namespace AesdChar

theorem func_sound_later {μ : Type} (data : ThreadData μ) (clock later started : Nat) (woken : Bool) (place : FuncPlace)
    (obtained released : Option Nat) (past : clock ≤ later)
    (sound : FuncSound data clock started woken place obtained released) :
    FuncSound data later started woken place obtained released := by
  cases sound with
  | entry begun => exact .entry (Nat.le_trans begun past)
  | obtainSleep wake begun long => exact .obtainSleep wake (Nat.le_trans begun past) long
  | lock begun waited => exact .lock (Nat.le_trans begun past) fun quiet => Nat.le_trans (waited quiet) past
  | releaseSleep wake got begun earlier waited long =>
      exact .releaseSleep wake got begun (Nat.le_trans earlier past) waited long
  | unlock got begun earlier waited held =>
      exact .unlock got begun (Nat.le_trans earlier past) waited fun quiet => Nat.le_trans (held quiet) past
  | complete got gave begun earlier waited held => exact .complete got gave begun earlier waited held
  | done got gave begun earlier waited held => exact .done got gave begun earlier waited held
  | notObtained waited => exact .notObtained fun quiet => Nat.le_trans (waited quiet) past
  | notReleased got begun waited held =>
      exact .notReleased got begun waited fun quiet => Nat.le_trans (held quiet) past

-- Every thread has its own live block, and a mutex names the thread that has
-- locked and not yet unlocked it. The other live blocks are the lost ones.
structure ThreadingInv {τ μ α : Type} (threads : Threading τ μ α) : Prop where
  live : ∀ id thread, threads.thread id = some thread →
    ∃ data, threads.data thread.threadParam = some data ∧ ThreadSound threads.clock data thread
  holder : ∀ id thread data, threads.thread id = some thread → threads.data thread.threadParam = some data →
    ∀ mutex, threads.owner mutex = some (.thread id) ↔ data.mutex = mutex ∧ thread.place.holds = true
  gone : ∀ id, threads.thread id = none → ∀ mutex, threads.owner mutex ≠ some (.thread id)
  apart : ∀ id other thread another, threads.thread id = some thread → threads.thread other = some another →
    thread.threadParam = another.threadParam → id = other
  once : threads.lost.Nodup
  unreached : ∀ id thread, threads.thread id = some thread → thread.threadParam ∉ threads.lost
  blocks : ∀ p, (threads.data p).isSome ↔
    p ∈ threads.lost ∨ ∃ id thread, threads.thread id = some thread ∧ thread.threadParam = p

theorem update_found {τ β : Type} [DecidableEq τ] (map : τ → Option β) (id other : τ) (value another : β)
    (found : Function.update map id (some value) other = some another) :
    (other = id ∧ another = value) ∨ (other ≠ id ∧ map other = some another) := by
  by_cases same : other = id
  · rw [same, Function.update_self] at found
    exact Or.inl ⟨same, (Option.some.inj found).symm⟩
  · rw [Function.update_of_ne same] at found
    exact Or.inr ⟨same, found⟩

theorem no_threads_inv {τ μ α : Type} (clock : Nat) : ThreadingInv (noThreads clock : Threading τ μ α) := by
  constructor <;> simp [noThreads]

section

variable {τ μ α : Type} [DecidableEq τ] [DecidableEq μ] [DecidableEq α] (threads : Threading τ μ α)

omit [DecidableEq τ] [DecidableEq μ] [DecidableEq α] in
theorem tick_inv (inv : ThreadingInv threads) : ThreadingInv { threads with clock := threads.clock + 1 } := by
  refine ⟨fun id thread here => ?_, inv.holder, inv.gone, inv.apart, inv.once, inv.unreached, inv.blocks⟩
  obtain ⟨data, live, sound⟩ := inv.live id thread here
  refine ⟨data, live, ?_, sound.asked, sound.success⟩
  exact func_sound_later data threads.clock _ _ _ _ _ _ (Nat.le_succ _) sound.sound

omit [DecidableEq τ] [DecidableEq α] in
-- Somebody else takes or leaves a mutex that no thread has.
theorem other_inv (mutex : μ) (before after : Option (Holder τ)) (was : threads.owner mutex = before)
    (notBefore : ∀ id, before ≠ some (.thread id)) (notAfter : ∀ id, after ≠ some (.thread id))
    (inv : ThreadingInv threads) :
    ThreadingInv { threads with owner := Function.update threads.owner mutex after } := by
  have same : ∀ id m, Function.update threads.owner mutex after m = some (.thread id) ↔
      threads.owner m = some (.thread id) := by
    intro id m
    by_cases here : m = mutex
    · rw [here, Function.update_self, was]
      exact iff_of_false (notAfter id) (notBefore id)
    · rw [Function.update_of_ne here]
  refine ⟨inv.live, fun id thread data here live m => ?_, fun id none m => ?_, inv.apart, inv.once,
    inv.unreached, inv.blocks⟩
  · exact (same id m).trans (inv.holder id thread data here live m)
  · exact fun held => inv.gone id none m ((same id m).mp held)

omit [DecidableEq μ] in
theorem join_inv (id : τ) (thread : FuncThread α) (here : threads.thread id = some thread)
    (returned : thread.place = .returned) (inv : ThreadingInv threads) :
    ThreadingInv { threads with
      thread := Function.update threads.thread id none
      data := Function.update threads.data thread.threadParam none } := by
  have kept : ∀ other another, Function.update threads.thread id none other = some another →
      other ≠ id ∧ threads.thread other = some another := by
    intro other another there
    by_cases same : other = id
    · rw [same, Function.update_self] at there
      cases there
    · rw [Function.update_of_ne same] at there
      exact ⟨same, there⟩
  have elsewhere : ∀ other another, other ≠ id → threads.thread other = some another →
      another.threadParam ≠ thread.threadParam :=
    fun other another different there equal => different (inv.apart other id another thread there here equal)
  constructor <;> dsimp only
  · intro other another there
    obtain ⟨different, before⟩ := kept other another there
    obtain ⟨data, live, sound⟩ := inv.live other another before
    exact ⟨data, by rw [Function.update_of_ne (elsewhere other another different before), live], sound⟩
  · intro other another data there live mutex
    obtain ⟨different, before⟩ := kept other another there
    rw [Function.update_of_ne (elsewhere other another different before)] at live
    exact inv.holder other another data before live mutex
  · intro other none mutex held
    by_cases same : other = id
    · obtain ⟨data, live, _⟩ := inv.live id thread here
      have holding := ((inv.holder id thread data here live mutex).mp (same ▸ held)).2
      rw [returned] at holding
      cases holding
    · exact inv.gone other (by rwa [Function.update_of_ne same] at none) mutex held
  · intro first second one two there too equal
    exact inv.apart first second one two (kept first one there).2 (kept second two too).2 equal
  · exact inv.once
  · intro other another there
    exact inv.unreached other another (kept other another there).2
  · intro p
    by_cases same : p = thread.threadParam
    · rw [same, Function.update_self]
      refine iff_of_false (by simp) ?_
      rintro (listed | ⟨other, another, there, equal⟩)
      · exact inv.unreached id thread here listed
      · obtain ⟨different, before⟩ := kept other another there
        exact elsewhere other another different before equal
    · rw [Function.update_of_ne same, inv.blocks p]
      refine or_congr_right ⟨?_, ?_⟩
      · rintro ⟨other, another, there, rfl⟩
        refine ⟨other, another, ?_, rfl⟩
        rw [Function.update_of_ne, there]
        rintro rfl
        exact same (by rw [Option.some.inj (there.symm.trans here)])
      · rintro ⟨other, another, there, rfl⟩
        exact ⟨other, another, (kept other another there).2, rfl⟩

omit [DecidableEq τ] [DecidableEq μ] [DecidableEq α] in
theorem malloc_inv (threadStruct : α) (fresh : threads.data threadStruct = none)
    (inv : ThreadingInv threads) :
    (∀ id thread, threads.thread id = some thread → thread.threadParam ≠ threadStruct) ∧
    threadStruct ∉ threads.lost := by
  have absent :
    ¬ (threadStruct ∈ threads.lost ∨ ∃ id thread, threads.thread id = some thread ∧
    thread.threadParam = threadStruct) := by
    rw [← inv.blocks, fresh]
    simp
  exact ⟨fun id thread here equal => absent (Or.inr ⟨id, thread, here, equal⟩), fun listed => absent (Or.inl listed)⟩

omit [DecidableEq μ] in
theorem created_inv (id : τ) (threadStruct : α) (data : ThreadData μ) (fresh : threads.data threadStruct = none)
    (newId : threads.thread id = none) (unset : data.threadCompleteSuccess = false) (inv : ThreadingInv threads) :
    ThreadingInv { threads with
      data := Function.update threads.data threadStruct (some data)
      thread :=
        Function.update threads.thread id (some ⟨threadStruct, 0, .entry, false, threads.clock, none, none⟩) } := by
  obtain ⟨elsewhere, unlisted⟩ := malloc_inv threads threadStruct fresh inv
  have kept := update_found threads.thread id
  constructor <;> dsimp only
  · intro other another there
    rcases kept other _ another there with ⟨_, rfl⟩ | ⟨_, before⟩
    · refine ⟨data, Function.update_self .., .entry (Nat.le_refl _), fun going => absurd rfl going, ?_⟩
      simp [unset]
    · rw [Function.update_of_ne (elsewhere other another before)]
      exact inv.live other another before
  · intro other another found there live mutex
    rcases kept other _ another there with ⟨rfl, rfl⟩ | ⟨_, before⟩
    · exact iff_of_false (inv.gone other newId mutex) (by simp [FuncPlace.holds])
    · rw [Function.update_of_ne (elsewhere other another before)] at live
      exact inv.holder other another found before live mutex
  · intro other none mutex
    by_cases same : other = id
    · rw [same]
      exact inv.gone id newId mutex
    · rw [Function.update_of_ne same] at none
      exact inv.gone other none mutex
  · intro first second one two there too equal
    rcases kept first _ one there with ⟨rfl, rfl⟩ | ⟨_, before⟩
    · rcases kept second _ two too with ⟨rfl, rfl⟩ | ⟨_, beforeToo⟩
      · rfl
      · exact absurd equal.symm (elsewhere second two beforeToo)
    · rcases kept second _ two too with ⟨rfl, rfl⟩ | ⟨_, beforeToo⟩
      · exact absurd equal (elsewhere first one before)
      · exact inv.apart first second one two before beforeToo equal
  · exact inv.once
  · intro other another there
    rcases kept other _ another there with ⟨_, rfl⟩ | ⟨_, before⟩
    · exact unlisted
    · exact inv.unreached other another before
  · intro p
    by_cases same : p = threadStruct
    · rw [same, Function.update_self]
      exact iff_of_true rfl (Or.inr ⟨id, _, Function.update_self .., rfl⟩)
    · rw [Function.update_of_ne same, inv.blocks p]
      refine or_congr_right ⟨?_, ?_⟩
      · rintro ⟨other, another, there, rfl⟩
        refine ⟨other, another, ?_, rfl⟩
        rw [Function.update_of_ne, there]
        rintro rfl
        rw [newId] at there
        cases there
      · rintro ⟨other, another, there, rfl⟩
        rcases kept other _ another there with ⟨_, rfl⟩ | ⟨_, before⟩
        · exact absurd rfl same
        · exact ⟨other, another, before, rfl⟩

omit [DecidableEq τ] [DecidableEq μ] in
theorem not_created_inv (threadStruct : α) (data : ThreadData μ) (fresh : threads.data threadStruct = none)
    (inv : ThreadingInv threads) :
    ThreadingInv { threads with
      data := Function.update threads.data threadStruct (some data)
      lost := threadStruct :: threads.lost } := by
  obtain ⟨elsewhere, unlisted⟩ := malloc_inv threads threadStruct fresh inv
  constructor <;> dsimp only
  · intro id thread here
    rw [Function.update_of_ne (elsewhere id thread here)]
    exact inv.live id thread here
  · intro id thread found here live mutex
    rw [Function.update_of_ne (elsewhere id thread here)] at live
    exact inv.holder id thread found here live mutex
  · exact inv.gone
  · exact inv.apart
  · exact List.nodup_cons.mpr ⟨unlisted, inv.once⟩
  · intro id thread here listed
    rcases List.mem_cons.mp listed with same | older
    · exact elsewhere id thread here same
    · exact inv.unreached id thread here older
  · intro p
    by_cases same : p = threadStruct
    · rw [same, Function.update_self]
      exact iff_of_true rfl (Or.inl List.mem_cons_self)
    · rw [Function.update_of_ne same, inv.blocks p, List.mem_cons]
      exact or_congr_left ⟨Or.inr, fun listed => listed.resolve_left same⟩

omit [DecidableEq μ] in
theorem start_thread_inv (next : Threading τ μ α) (threadStruct : α) (create : Option τ) (mutex : μ)
    (waitToObtainMs waitToReleaseMs : Int32) (ok : Bool) (fresh : threads.data threadStruct = none)
    (newId : ∀ id, create = some id → threads.thread id = none)
    (ran : startThreadObtainingMutex threads (some threadStruct) create mutex waitToObtainMs waitToReleaseMs
      = some (next, ok))
    (inv : ThreadingInv threads) : ThreadingInv next := by
  cases create with
  | some id =>
      cases ran
      exact created_inv threads id threadStruct _ fresh (newId id rfl) rfl inv
  | none =>
      cases ran
      exact not_created_inv threads threadStruct _ fresh inv

omit [DecidableEq τ] [DecidableEq α] in
theorem owner_elsewhere (mutex locked : μ) (owner : Option (Holder τ)) (other : τ)
    (same : owner = some (.thread other) ↔ threads.owner locked = some (.thread other)) :
    Function.update threads.owner locked owner mutex = some (.thread other) ↔
      threads.owner mutex = some (.thread other) := by
  by_cases here : mutex = locked
  · rw [here, Function.update_self]
    exact same
  · rw [Function.update_of_ne here]

omit [DecidableEq μ] in
theorem func_blocks (id : τ) (thread after : FuncThread α) (data : ThreadData μ) (inv : ThreadingInv threads)
    (here : threads.thread id = some thread) (param : after.threadParam = thread.threadParam) (p : α) :
    (Function.update threads.data thread.threadParam (some data) p).isSome ↔
      p ∈ threads.lost ∨ ∃ other another, Function.update threads.thread id (some after) other = some another ∧
        another.threadParam = p := by
  have same : (Function.update threads.data thread.threadParam (some data) p).isSome = (threads.data p).isSome := by
    by_cases equal : p = thread.threadParam
    · obtain ⟨before, live, _⟩ := inv.live id thread here
      rw [equal, Function.update_self, live]
      rfl
    · rw [Function.update_of_ne equal]
  rw [same, inv.blocks p]
  refine or_congr_right ⟨?_, ?_⟩
  · rintro ⟨other, another, there, rfl⟩
    by_cases equal : other = id
    · subst equal
      obtain rfl := Option.some.inj (there.symm.trans here)
      exact ⟨other, after, Function.update_self .., param⟩
    · exact ⟨other, another, by rw [Function.update_of_ne equal, there], rfl⟩
  · rintro ⟨other, another, there, rfl⟩
    rcases update_found threads.thread id other _ another there with ⟨_, rfl⟩ | ⟨_, before⟩
    · exact ⟨id, thread, here, param.symm⟩
    · exact ⟨other, another, before, rfl⟩

theorem func_keeps_inv (id : τ) (thread after : FuncThread α) (data dataAfter : ThreadData μ)
    (owner : Option (Holder τ)) (inv : ThreadingInv threads) (here : threads.thread id = some thread)
    (live : threads.data thread.threadParam = some data)
    (keeps : FuncKeeps threads.clock id thread data (threads.owner data.mutex) (after, dataAfter, owner)) :
    ThreadingInv { threads with
      owner := Function.update threads.owner data.mutex owner
      data := Function.update threads.data thread.threadParam (some dataAfter)
      thread := Function.update threads.thread id (some after) } := by
  obtain ⟨sound, param, mutexAfter, holder, others⟩ := keeps
  dsimp only at sound param mutexAfter holder others
  have kept := update_found threads.thread id
  have elsewhere : ∀ other another, other ≠ id → threads.thread other = some another →
      another.threadParam ≠ thread.threadParam :=
    fun other another different there equal => different (inv.apart other id another thread there here equal)
  have owners := fun other different mutex =>
    owner_elsewhere threads mutex data.mutex owner other (others other different)
  constructor <;> dsimp only
  · intro other another there
    rcases kept other _ another there with ⟨_, rfl⟩ | ⟨different, before⟩
    · exact ⟨dataAfter, by rw [param, Function.update_self], sound⟩
    · rw [Function.update_of_ne (elsewhere other another different before)]
      exact inv.live other another before
  · intro other another found there present mutex
    rcases kept other _ another there with ⟨rfl, rfl⟩ | ⟨different, before⟩
    · rw [param, Function.update_self] at present
      obtain rfl := Option.some.inj present
      by_cases same : mutex = data.mutex
      · rw [same, Function.update_self, mutexAfter]
        exact holder.trans (and_iff_right rfl).symm
      · rw [Function.update_of_ne same, inv.holder other thread data here live mutex, mutexAfter]
        exact iff_of_false (fun equal => same equal.1.symm) fun equal => same equal.1.symm
    · rw [Function.update_of_ne (elsewhere other another different before)] at present
      exact (owners other different mutex).trans (inv.holder other another found before present mutex)
  · intro other none mutex held
    have different : other ≠ id := by
      rintro rfl
      rw [Function.update_self] at none
      cases none
    rw [Function.update_of_ne different] at none
    exact inv.gone other none mutex ((owners other different mutex).mp held)
  · intro first second one two there too equal
    rcases kept first _ one there with ⟨rfl, rfl⟩ | ⟨different, before⟩
    · rcases kept second _ two too with ⟨rfl, rfl⟩ | ⟨differentToo, beforeToo⟩
      · rfl
      · exact absurd (equal.symm.trans param) (elsewhere second two differentToo beforeToo)
    · rcases kept second _ two too with ⟨rfl, rfl⟩ | ⟨_, beforeToo⟩
      · exact absurd (equal.trans param) (elsewhere first one different before)
      · exact inv.apart first second one two before beforeToo equal
  · exact inv.once
  · intro other another there
    rcases kept other _ another there with ⟨_, rfl⟩ | ⟨_, before⟩
    · rw [param]
      exact inv.unreached id thread here
    · exact inv.unreached other another before
  · exact func_blocks threads id thread after dataAfter inv here param

theorem func_step_inv (next : Threading τ μ α) (id : τ) (event : FuncEvent) (ran : threads.step id event = some next)
    (inv : ThreadingInv threads) : ThreadingInv next := by
  rw [Threading.step] at ran
  cases here : threads.thread id with
  | none => simp [here] at ran
  | some thread =>
      obtain ⟨data, live, sound⟩ := inv.live id thread here
      simp only [here, live] at ran
      obtain ⟨⟨after, dataAfter, owner⟩, went, rfl⟩ := Option.map_eq_some_iff.mp ran
      have held : threads.owner data.mutex = some (.thread id) ↔ thread.place.holds = true :=
        (inv.holder id thread data here live data.mutex).trans (and_iff_right rfl)
      have keeps := threadfunc_keeps threads.clock id thread data _ _ event went sound held
      exact func_keeps_inv threads id thread after data dataAfter owner inv here live keeps

theorem threading_step_inv (next : Threading τ μ α) (step : ThreadingStep threads next) (inv : ThreadingInv threads) :
    ThreadingInv next := by
  cases step with
  | tick => exact tick_inv threads inv
  | start next threadStruct create mutex waitToObtainMs waitToReleaseMs ok fresh newId ran =>
      exact start_thread_inv threads next threadStruct create mutex waitToObtainMs waitToReleaseMs ok
        fresh newId ran inv
  | func next id event ran => exact func_step_inv threads next id event ran inv
  | join id thread here returned => exact join_inv threads id thread here returned inv
  | otherLocks mutex free => exact other_inv threads mutex none (some .other) free (by simp) (by simp) inv
  | otherUnlocks mutex taken => exact other_inv threads mutex (some .other) none taken (by simp) (by simp) inv

theorem threading_run_inv (start : Threading τ μ α) (run : ThreadingRun start threads) (inv : ThreadingInv start) :
    ThreadingInv threads := by
  induction run with
  | start => exact inv
  | step threads next _ step ih => exact threading_step_inv threads next step ih

end

-- What the block of a thread and the times of its calls tell: it reports success
-- exactly when it has had the mutex and given it back. atLock and atUnlock are of
-- the calls under way and of those that failed.
structure FuncOutcome {μ α : Type} (clock : Nat) (data : ThreadData μ) (thread : FuncThread α) : Prop where
  success : data.threadCompleteSuccess = true ↔
    thread.place = .returned ∧ thread.obtained.isSome ∧ thread.released.isSome
  obtained : ∀ time, thread.obtained = some time → thread.started ≤ time ∧
    (thread.woken = false → thread.started + 1000 * (secToWait data.waitToObtainMs).toNat ≤ time)
  released : ∀ time, thread.released = some time → ∃ got, thread.obtained = some got ∧ got ≤ time ∧
    (thread.woken = false → got + 1000 * (secToWait data.waitToReleaseMs).toNat ≤ time)
  holding : thread.place.holds = true → thread.obtained.isSome
  atLock : thread.place = .lock ∨ thread.place = .returned ∧ thread.obtained = none → thread.woken = false →
    thread.started + 1000 * (secToWait data.waitToObtainMs).toNat ≤ clock
  atUnlock : thread.place = .unlock ∨ thread.place = .returned ∧ thread.released = none → thread.woken = false →
    ∀ got, thread.obtained = some got → got + 1000 * (secToWait data.waitToReleaseMs).toNat ≤ clock

theorem sound_outcome {μ α : Type} (clock : Nat) (data : ThreadData μ) (thread : FuncThread α)
    (sound : ThreadSound clock data thread) : FuncOutcome clock data thread := by
  obtain ⟨param, sec, place, woken, started, obtained, released⟩ := thread
  obtain ⟨record, _, success⟩ := sound
  dsimp only at record success
  cases record with
  | entry => exact ⟨by simpa using success, by simp, by simp, by simp [FuncPlace.holds], by simp, by simp⟩
  | obtainSleep => exact ⟨by simpa using success, by simp, by simp, by simp [FuncPlace.holds], by simp, by simp⟩
  | lock past waited =>
      exact ⟨by simpa using success, by simp, by simp, by simp [FuncPlace.holds], fun _ => waited, by simp⟩
  | releaseSleep wake got past earlier waited =>
      exact ⟨by simpa using success, by simpa using ⟨past, waited⟩, by simp, by simp, by simp, by simp⟩
  | unlock got past earlier waited held =>
      exact ⟨by simpa using success, by simpa using ⟨past, waited⟩, by simp, by simp, by simp, by simpa using held⟩
  | complete got gave past earlier waited held =>
      exact ⟨by simpa using success, by simpa using ⟨past, waited⟩, by simpa using ⟨earlier, held⟩,
        by simp, by simp, by simp⟩
  | done got gave past earlier waited held =>
      exact ⟨by simpa using success, by simpa using ⟨past, waited⟩, by simpa using ⟨earlier, held⟩,
        by simp, by simp, by simp⟩
  | notObtained waited =>
      exact ⟨by simpa using success, by simp, by simp, by simp [FuncPlace.holds], fun _ => waited, by simp⟩
  | notReleased got past waited held =>
      exact ⟨by simpa using success, by simpa using ⟨past, waited⟩, by simp, by simp, by simp, by simpa using held⟩

/-- At most one thread is between lock and unlock of a mutex, and no thread meets a freed block. -/
theorem threads_take_turns {τ μ α : Type} [DecidableEq τ] [DecidableEq μ] [DecidableEq α] (clock : Nat)
    (threads : Threading τ μ α) (run : ThreadingRun (noThreads clock) threads) :
    (∀ id other thread another data dataToo, threads.thread id = some thread → threads.thread other = some another →
      threads.data thread.threadParam = some data → threads.data another.threadParam = some dataToo →
      data.mutex = dataToo.mutex → thread.place.holds = true → another.place.holds = true → id = other) ∧
    (∀ id thread, threads.thread id = some thread →
      ∃ data, threads.data thread.threadParam = some data ∧ FuncOutcome threads.clock data thread) ∧
    (∀ id other thread another, threads.thread id = some thread → threads.thread other = some another →
      thread.threadParam = another.threadParam → id = other) ∧
    threads.lost.Nodup ∧ (∀ id thread, threads.thread id = some thread → thread.threadParam ∉ threads.lost) ∧
    ∀ p, (threads.data p).isSome ↔ p ∈ threads.lost ∨ ∃ id thread, threads.thread id = some thread ∧
      thread.threadParam = p := by
  have inv := threading_run_inv threads (noThreads clock) run (no_threads_inv clock)
  refine ⟨?_, ?_, inv.apart, inv.once, inv.unreached, inv.blocks⟩
  · intro id other thread another data dataToo here there live liveToo same holds holdsToo
    have mine := (inv.holder id thread data here live data.mutex).mpr ⟨rfl, holds⟩
    have others := (inv.holder other another dataToo there liveToo data.mutex).mpr ⟨same.symm, holdsToo⟩
    exact Holder.thread.inj (Option.some.inj (mine.symm.trans others))
  · intro id thread here
    obtain ⟨data, live, sound⟩ := inv.live id thread here
    exact ⟨data, live, sound_outcome threads.clock data thread sound⟩

-- Two threads that wait for nothing: the first has the mutex, the second is at
-- lock.
theorem two_threads_run :
    ∃ (threads : Threading Nat Nat Nat) (thread another : FuncThread Nat), ThreadingRun (noThreads 0) threads ∧
      threads.thread 0 = some thread ∧ thread.place = .releaseSleep 0 ∧ threads.thread 1 = some another ∧
      another.place = .lock ∧ ∀ mutex, threads.owner mutex = none ∨ threads.owner mutex = some (.thread 0) := by
  have first : ThreadingRun (noThreads 0 : Threading Nat Nat Nat) _ :=
    .step _ _ .start (.start _ _ 10 (some 0) 5 0 0 true rfl (fun _ _ => rfl) rfl)
  have second : ThreadingRun (noThreads 0 : Threading Nat Nat Nat) _ :=
    .step _ _ first (.start _ _ 11 (some 1) 5 0 0 true rfl (fun _ same => by cases same; rfl) rfl)
  have began : ThreadingRun (noThreads 0 : Threading Nat Nat Nat) _ := .step _ _ second (.func _ _ 0 .success rfl)
  have slept : ThreadingRun (noThreads 0 : Threading Nat Nat Nat) _ := .step _ _ began (.func _ _ 0 .slept rfl)
  have locked : ThreadingRun (noThreads 0 : Threading Nat Nat Nat) _ := .step _ _ slept (.func _ _ 0 .success rfl)
  have beganToo : ThreadingRun (noThreads 0 : Threading Nat Nat Nat) _ := .step _ _ locked (.func _ _ 1 .success rfl)
  have sleptToo : ThreadingRun (noThreads 0 : Threading Nat Nat Nat) _ := .step _ _ beganToo (.func _ _ 1 .slept rfl)
  refine ⟨_, _, _, sleptToo, rfl, rfl, rfl, rfl, fun mutex => ?_⟩
  by_cases same : mutex = 5
  · rw [same]
    exact Or.inr rfl
  · refine Or.inl ?_
    simp [same, noThreads]

theorem threads_take_turns_two_threads :
    ∃ (threads : Threading Nat Nat Nat) (thread another : FuncThread Nat) (data dataToo : ThreadData Nat),
      ThreadingRun (noThreads 0) threads ∧ threads.thread 0 = some thread ∧ thread.place.holds = true ∧
      threads.data thread.threadParam = some data ∧ FuncOutcome threads.clock data thread ∧
      threads.thread 1 = some another ∧ another.place = .lock ∧
      threads.data another.threadParam = some dataToo ∧ FuncOutcome threads.clock dataToo another := by
  obtain ⟨threads, thread, another, run, here, standing, hereToo, standingToo, _⟩ := two_threads_run
  obtain ⟨_, outcomes, _⟩ := threads_take_turns 0 threads run
  obtain ⟨data, live, outcome⟩ := outcomes 0 thread here
  obtain ⟨dataToo, liveToo, outcomeToo⟩ := outcomes 1 another hereToo
  exact ⟨threads, thread, another, data, dataToo, run, here, by rw [standing]; rfl, live, outcome, hereToo, standingToo,
    liveToo, outcomeToo⟩

end AesdChar

import AesdChar.DriverRun

set_option autoImplicit false

namespace AesdChar

open CyclicQueue Framing HeapStore

-- Where a thread of handle_client stands: before pthread_mutex_lock, between it
-- and the end of fclose with the bytes already written, before
-- pthread_mutex_unlock, or with its file open for the ioctl and the reply.
inductive Phase where
  | waiting
  | appending (sent : Bytes) (filp : Filp)
  | appended
  | replying (filp : Filp)

-- log_mutex and the threads over one device. completed and order record the
-- lines completed on the device and the owners of log_mutex so far.
structure Server (ι : Type) where
  kernel : Kernel
  completed : List Bytes
  logMutex : Option ι
  order : List ι
  phase : ι → Phase

-- plan is the packet of each client, none for a client that only seeks and
-- reads.
def startServer {ι : Type} (plan : ι → Option Bytes) (kernel : Kernel) (completed : List Bytes) : Server ι :=
  ⟨kernel, completed, none, [], fun i => if (plan i).isSome then .waiting else .replying ⟨true, 0⟩⟩

def Server.go {ι : Type} [DecidableEq ι] (server : Server ι) (i : ι) (phase : Phase) : Server ι :=
  { server with phase := Function.update server.phase i phase }

-- The steps of handle_client. stdio chooses the chunks of a packet; the reads,
-- seeks and the ioctl of a reply need no mutex.
inductive ServerStep {ι : Type} [DecidableEq ι] (api : KernelApi) (plan : ι → Option Bytes) : Server ι →
    Server ι → Prop where
  | lock (server : Server ι) (i : ι) (turn : server.phase i = .waiting) (free : server.logMutex = none) :
      ServerStep api plan server
        ({ server with logMutex := some i, order := server.order ++ [i] }.go i (.appending [] ⟨true, 0⟩))
  | write (server : Server ι) (i : ι) (packet sent user : Bytes) (filp : Filp) (count : UInt64) (env : WriteEnv)
      (result : CallResult) (turn : server.phase i = .appending sent filp) (own : plan i = some packet)
      (chunk : userBytes user count ≠ []) (consecutive : sent ++ userBytes user count <+: packet)
      (ran : driverCall api server.kernel filp (.write (some user) count env) = some result)
      (success : 0 ≤ result.ret) :
      ServerStep api plan server
        ({ server with
            kernel := result.kernel
            completed :=
              server.completed ++ completedBy ⟨server.kernel, filp, .write (some user) count env, result⟩ }.go i
          (.appending (sent ++ userBytes user count) { filp with fPos := result.fPos }))
  | close (server : Server ι) (i : ι) (packet : Bytes) (filp : Filp) (turn : server.phase i = .appending packet filp)
      (own : plan i = some packet) : ServerStep api plan server (server.go i .appended)
  | unlock (server : Server ι) (i : ι) (turn : server.phase i = .appended) :
      ServerStep api plan server ({ server with logMutex := none }.go i (.replying ⟨true, 0⟩))
  | reply (server : Server ι) (i : ι) (filp : Filp) (call : DriverCall) (result : CallResult)
      (turn : server.phase i = .replying filp) (silent : ∀ buf count env, call ≠ .write buf count env)
      (ran : driverCall api server.kernel filp call = some result) :
      ServerStep api plan server
        ({ server with kernel := result.kernel }.go i (.replying { filp with fPos := result.fPos }))

inductive ServerRun {ι : Type} [DecidableEq ι] (api : KernelApi) (plan : ι → Option Bytes) (start : Server ι) :
    Server ι → Prop where
  | start : ServerRun api plan start start
  | step (server next : Server ι) (earlier : ServerRun api plan start server)
      (taken : ServerStep api plan server next) :
      ServerRun api plan start next

def flushed {ι : Type} (plan : ι → Option Bytes) (server : Server ι) (i : ι) : Bool :=
  match server.phase i with
  | .waiting => false
  | .appending sent _ => decide (plan i = some sent)
  | .appended => true
  | .replying _ => true

def written {ι : Type} (plan : ι → Option Bytes) (server : Server ι) : Bytes :=
  match server.logMutex with
  | none => []
  | some i =>
      match server.phase i with
      | .appending sent _ => if plan i = some sent then [] else sent
      | _ => []

def Phase.holds : Phase → Bool
  | .appending _ _ => true
  | .appended => true
  | _ => false

-- Exactly the owner of log_mutex is between lock and unlock.
structure LockInv {ι : Type} (plan : ι → Option Bytes) (server : Server ι) : Prop where
  owner : ∀ i, (server.phase i).holds = true ↔ server.logMutex = some i
  last : ∀ i, server.logMutex = some i → server.order.getLast? = some i
  entered : ∀ i ∈ server.order, server.phase i ≠ .waiting
  once : server.order.Nodup
  planned : ∀ i, server.phase i = .waiting → (plan i).isSome

structure ServerInv {ι : Type} (api : KernelApi) (plan : ι → Option Bytes) (before : List Bytes) (server : Server ι) :
    Prop where
  lock : LockInv plan server
  rep : ∃ content, DevRep api server.kernel content (server.completed.rtake 10) (some (written plan server))
  lines : server.completed = before ++ (server.order.filter (flushed plan server)).filterMap plan

-- One chunk of a packet, written to the device that holds the chunks before
-- it: it completes the line exactly when it is the last.
theorem write_chunk (api : KernelApi) (kernel : Kernel) (content : List AesdBufferEntry) (completed : List Bytes)
    (packet sent user : Bytes) (filp : Filp) (count : UInt64) (env : WriteEnv) (result : CallResult)
    (isLine : IsLine newLine packet) (chunk : userBytes user count ≠ [])
    (consecutive : sent ++ userBytes user count <+: packet)
    (rep : DevRep api kernel content (completed.rtake 10) (some sent)) (success : 0 ≤ result.ret)
    (ran : driverCall api kernel filp (.write (some user) count env) = some result) :
    (sent ++ userBytes user count ≠ packet ∧
      completedBy ⟨kernel, filp, .write (some user) count env, result⟩ = [] ∧
      ∃ next, DevRep api result.kernel next (completed.rtake 10) (some (sent ++ userBytes user count))) ∨
    (sent ++ userBytes user count = packet ∧
      completedBy ⟨kernel, filp, .write (some user) count env, result⟩ = [packet] ∧
      ∃ next, DevRep api result.kernel next ((completed ++ [packet]).rtake 10) (some [])) := by
  obtain ⟨found, foundRan, effect⟩ := aesd_write_effect api kernel content _ _ filp (some user) count filp.fPos env rep
  cases Option.some.inj (ran.symm.trans foundRan)
  generalize kreallocRefused api kernel filp (some user) count env = refused at effect
  cases effect with
  | rejected ret negative => exact absurd negative (Int64.not_lt.mpr success)
  | leaked heap unopened kept => exact absurd success (by decide : ¬ 0 ≤ -ePerm)
  | refused => exact absurd success (by decide : ¬ 0 ≤ -eNoMem)
  | kept given next nextContent same mapped fits absent nextRep =>
      cases same
      refine Or.inl ⟨fun whole => ?_, by simp [completedBy, absent], nextContent, ?_⟩
      · rw [← whole] at isLine
        exact absent (line_tail newLine sent _ isLine chunk)
      · rwa [accepted_open user count absent, baseBytes, Option.getD_some] at nextRep
  | completed given next nextContent same mapped fits present nextRep =>
      cases same
      obtain ⟨front, rest, split, absent⟩ := split_first newLine (userBytes user count) present
      obtain ⟨later, extended⟩ := consecutive
      have ended : rest ++ later = [] := by
        refine line_ends newLine packet (sent ++ front) (rest ++ later) isLine ?_
        rw [← extended, split]
        simp
      obtain ⟨noRest, noLater⟩ := List.append_eq_nil_iff.mp ended
      have whole : sent ++ userBytes user count = packet := by rw [← extended, noLater, List.append_nil]
      have all : accepted user count = userBytes user count := by
        rw [accepted, split, noRest, up_to_close newLine front [] absent]
      rw [all, baseBytes, Option.getD_some, whole] at nextRep
      refine Or.inr ⟨whole, ?_, nextContent, ?_⟩
      · exact completed_by_line api kernel next nextContent _ packet user _ filp count env _ fits present nextRep
      · rwa [← push_rtake]

theorem order_ends {ι : Type} (order : List ι) (i : ι) (last : order.getLast? = some i) (once : order.Nodup) :
    ∃ earlier, order = earlier ++ [i] ∧ i ∉ earlier := by
  obtain ⟨earlier, rfl⟩ := List.getLast?_eq_some_iff.mp last
  refine ⟨earlier, rfl, ?_⟩
  have apart := (List.nodup_append.mp once).2.2
  exact fun member => apart i member i (by simp) rfl

theorem start_inv {ι : Type} (api : KernelApi) (plan : ι → Option Bytes) (kernel : Kernel)
    (content : List AesdBufferEntry) (before : List Bytes)
    (rep : DevRep api kernel content (before.rtake 10) (some [])) :
    ServerInv api plan before (startServer plan kernel before) := by
  refine ⟨⟨?_, by simp [startServer], by simp [startServer], by simp [startServer], ?_⟩, ⟨content, rep⟩,
    by simp [startServer]⟩
  · intro i
    simp only [startServer]
    split <;> simp [Phase.holds]
  · intro i waiting
    simp only [startServer] at waiting
    split at waiting
    · assumption
    · cases waiting

theorem written_appending {ι : Type} (plan : ι → Option Bytes) (server : Server ι) (i : ι) (sent : Bytes) (filp : Filp)
    (owned : server.logMutex = some i) (turn : server.phase i = .appending sent filp) :
    written plan server = if plan i = some sent then [] else sent := by
  simp [written, owned, turn]

theorem flushed_appending {ι : Type} (plan : ι → Option Bytes) (server : Server ι) (i : ι) (sent : Bytes) (filp : Filp)
    (turn : server.phase i = .appending sent filp) : flushed plan server i = decide (plan i = some sent) := by
  simp [flushed, turn]

section

variable {ι : Type} [DecidableEq ι] (api : KernelApi) (plan : ι → Option Bytes) (before : List Bytes)
    (server : Server ι)
  (i : ι)

theorem go_phase (j : ι) (phase : Phase) :
    (server.go i phase).phase j = if j = i then phase else server.phase j := by
  simp [Server.go, Function.update_apply]

theorem flushed_go (j : ι) (phase : Phase)
    (other : j ≠ i) : flushed plan (server.go i phase) j = flushed plan server j := by
  rw [flushed, go_phase, if_neg other, flushed]

theorem flushed_filter (phase : Phase)
    (order : List ι) (same : flushed plan (server.go i phase) i = flushed plan server i) :
    order.filter (flushed plan (server.go i phase)) = order.filter (flushed plan server) := by
  congr 1
  funext j
  by_cases here : j = i
  · rw [here, same]
  · exact flushed_go plan server i j phase here

theorem moved_phases (phase : Phase) (moving : phase ≠ .waiting) (inv : LockInv plan server) :
    (∀ j, j = i ∨ j ∈ server.order → (server.go i phase).phase j ≠ .waiting) ∧
    (∀ j, (server.go i phase).phase j = .waiting → (plan j).isSome) := by
  constructor
  · intro j member
    rw [go_phase]
    by_cases here : j = i
    · rwa [if_pos here]
    · rw [if_neg here]
      exact inv.entered j (member.resolve_left here)
  · intro j waiting
    rw [go_phase] at waiting
    by_cases here : j = i
    · rw [if_pos here] at waiting
      exact absurd waiting moving
    · rw [if_neg here] at waiting
      exact inv.planned j waiting

theorem lock_taken (phase : Phase)
    (turn : server.phase i = .waiting) (free : server.logMutex = none) (held : phase.holds = true)
    (moving : phase ≠ .waiting) (inv : LockInv plan server) :
    LockInv plan ({ server with logMutex := some i, order := server.order ++ [i] }.go i phase) := by
  have fresh : i ∉ server.order := fun member => inv.entered i member turn
  obtain ⟨entered, planned⟩ := moved_phases plan server i phase moving inv
  refine ⟨fun j => ?_, fun j owned => by simpa [Server.go] using owned, fun j member => entered j ?_, ?_, planned⟩
  · have owner := inv.owner j
    rw [free] at owner
    rw [go_phase]
    by_cases here : j = i
    · simp [here, held, Server.go]
    · simpa [here, Server.go, Ne.symm here] using owner
  · rcases List.mem_append.mp member with old | last
    · exact Or.inr old
    · exact Or.inl (List.mem_singleton.mp last)
  · refine List.nodup_append.mpr ⟨inv.once, by simp, ?_⟩
    rintro j member k last rfl
    exact fresh (by rwa [← List.mem_singleton.mp last])

theorem lock_kept (phase : Phase)
    (kernel : Kernel) (completed : List Bytes) (same : phase.holds = (server.phase i).holds) (moving : phase ≠ .waiting)
    (inv : LockInv plan server) :
    LockInv plan ({ server with kernel := kernel, completed := completed }.go i phase) := by
  obtain ⟨entered, planned⟩ := moved_phases plan server i phase moving inv
  refine ⟨fun j => ?_, inv.last, fun j member => entered j (Or.inr member), inv.once, planned⟩
  rw [go_phase]
  by_cases here : j = i
  · rw [if_pos here, same, here]
    exact inv.owner i
  · rw [if_neg here]
    exact inv.owner j

theorem lock_released (phase : Phase)
    (owned : server.logMutex = some i) (released : phase.holds = false) (moving : phase ≠ .waiting)
    (inv : LockInv plan server) : LockInv plan ({ server with logMutex := none }.go i phase) := by
  obtain ⟨entered, planned⟩ := moved_phases plan server i phase moving inv
  refine ⟨fun j => ?_, fun j free => (by cases free), fun j member => entered j (Or.inr member), inv.once, planned⟩
  rw [go_phase]
  by_cases here : j = i
  · simp [here, released, Server.go]
  · have owner := inv.owner j
    rw [owned] at owner
    simpa [here, Server.go, Ne.symm here] using owner

theorem lock_inv (packets : ∀ j packet, plan j = some packet → IsLine newLine packet)
    (turn : server.phase i = .waiting) (free : server.logMutex = none) (inv : ServerInv api plan before server) :
    ServerInv api plan before
      ({ server with logMutex := some i, order := server.order ++ [i] }.go i (.appending [] ⟨true, 0⟩)) := by
  have unsent : plan i ≠ some [] := by
    intro empty
    obtain ⟨body, split, _⟩ := packets i [] empty
    simp at split
  have flushedSame : flushed plan (server.go i (.appending [] ⟨true, 0⟩)) i = flushed plan server i := by
    simp [flushed, go_phase, turn, unsent]
  refine ⟨lock_taken plan server i _ turn free rfl (by simp) inv.lock, ?_, ?_⟩
  · obtain ⟨content, rep⟩ := inv.rep
    have none : written plan server = [] := by rw [written, free]
    have fresh : written plan ({ server with logMutex := some i, order := server.order ++ [i] }.go i
        (.appending [] ⟨true, 0⟩)) = [] := by
      simp [written, Server.go]
    exact ⟨content, by rw [fresh, ← none]; exact rep⟩
  · have unflushed : flushed plan server i = false := by simp [flushed, turn]
    have last : [i].filter (flushed plan (server.go i (.appending [] ⟨true, 0⟩))) = [] := by
      simp [flushedSame, unflushed]
    have lines := inv.lines
    rw [← flushed_filter plan server i (.appending [] ⟨true, 0⟩) server.order flushedSame] at lines
    refine lines.trans ?_
    have extended : (server.order ++ [i]).filter (flushed plan (server.go i (.appending [] ⟨true, 0⟩))) =
        server.order.filter (flushed plan (server.go i (.appending [] ⟨true, 0⟩))) := by
      rw [List.filter_append, last, List.append_nil]
    exact congrArg (fun order => before ++ order.filterMap plan) extended.symm

-- The owner of log_mutex is the last of the order, so its line comes last.
theorem flushed_lines (phase : Phase) (packet : Bytes) (lock : LockInv plan server) (owned : server.logMutex = some i)
    (own : plan i = some packet) (unflushed : flushed plan server i = false) :
    (server.order.filter (flushed plan (server.go i phase))).filterMap plan =
      (server.order.filter (flushed plan server)).filterMap plan ++
        if flushed plan (server.go i phase) i then [packet] else [] := by
  cases done : flushed plan (server.go i phase) i with
  | false =>
      have still : flushed plan (server.go i phase) i = flushed plan server i := done.trans unflushed.symm
      rw [flushed_filter plan server i phase server.order still]
      simp
  | true =>
      obtain ⟨earlier, ends, apart⟩ := order_ends server.order i (lock.last i owned) lock.once
      have same : earlier.filter (flushed plan (server.go i phase)) = earlier.filter (flushed plan server) := by
        refine List.filter_congr fun j member => flushed_go plan server i j phase ?_
        rintro rfl
        exact apart member
      rw [ends, List.filter_append, List.filter_append, same]
      simp [done, unflushed, own]

theorem write_inv (packet sent user : Bytes) (filp : Filp) (count : UInt64) (env : WriteEnv)
    (result : CallResult) (packets : ∀ j packet, plan j = some packet → IsLine newLine packet)
    (turn : server.phase i = .appending sent filp) (own : plan i = some packet) (chunk : userBytes user count ≠ [])
    (consecutive : sent ++ userBytes user count <+: packet)
    (ran : driverCall api server.kernel filp (.write (some user) count env) = some result) (success : 0 ≤ result.ret)
    (inv : ServerInv api plan before server) :
    ServerInv api plan before
      ({ server with
          kernel := result.kernel
          completed := server.completed ++ completedBy ⟨server.kernel, filp, .write (some user) count env, result⟩ }.go
            i (.appending (sent ++ userBytes user count) { filp with fPos := result.fPos })) := by
  have owned : server.logMutex = some i := (inv.lock.owner i).mp (by simp [turn, Phase.holds])
  have unsent : packet ≠ sent := by
    intro same
    have lengths := consecutive.length_le
    have positive := List.length_pos_iff.mpr chunk
    rw [List.length_append, same] at lengths
    omega
  generalize phaseEq : Phase.appending (sent ++ userBytes user count) { filp with fPos := result.fPos } = phase
  have kept := lock_kept plan server i phase result.kernel
    (server.completed ++ completedBy ⟨server.kernel, filp, .write (some user) count env, result⟩)
    (by rw [turn, ← phaseEq]; rfl) (by simp [← phaseEq]) inv.lock
  have unflushed : flushed plan server i = false := by
    simp [flushed_appending plan server i sent filp turn, own, unsent]
  have nextFlushed : flushed plan (server.go i phase) i = decide (packet = sent ++ userBytes user count) := by
    rw [flushed_appending plan _ i _ _ ((go_phase server i i phase).trans (by rw [if_pos rfl, ← phaseEq])), own]
    simp
  obtain ⟨content, rep⟩ := inv.rep
  have pending := written_appending plan server i sent filp owned turn
  rw [own, if_neg fun same => unsent (Option.some.inj same)] at pending
  rw [pending] at rep
  have nextPending := written_appending plan
    ({ server with
        kernel := result.kernel
        completed := server.completed ++ completedBy ⟨server.kernel, filp, .write (some user) count env, result⟩ }.go i
          phase)
    i (sent ++ userBytes user count) { filp with fPos := result.fPos } owned
    ((go_phase _ i i phase).trans (by rw [if_pos rfl, phaseEq]))
  rw [own] at nextPending
  have lines := flushed_lines plan server i phase packet inv.lock owned own unflushed
  rw [nextFlushed] at lines
  rcases write_chunk api server.kernel content server.completed packet sent user filp count env result
      (packets i packet own) chunk consecutive rep success ran with
    ⟨partly, none, next, nextRep⟩ | ⟨whole, line, next, nextRep⟩
  · rw [if_neg fun same => partly (Option.some.inj same).symm] at nextPending
    refine ⟨kept, ⟨next, ?_⟩, ?_⟩
    · rw [nextPending]
      simpa [Server.go, none] using nextRep
    · change server.completed ++ _ = before ++ (server.order.filter (flushed plan (server.go i phase))).filterMap plan
      rw [none, lines, inv.lines]
      simp [Ne.symm partly]
  · rw [if_pos (by rw [whole])] at nextPending
    refine ⟨kept, ⟨next, ?_⟩, ?_⟩
    · rw [nextPending]
      simpa [Server.go, line] using nextRep
    · change server.completed ++ _ = before ++ (server.order.filter (flushed plan (server.go i phase))).filterMap plan
      rw [line, lines, inv.lines]
      simp [whole]

theorem close_inv (packet : Bytes) (filp : Filp) (turn : server.phase i = .appending packet filp)
    (own : plan i = some packet) (inv : ServerInv api plan before server) :
    ServerInv api plan before (server.go i .appended) := by
  have owned : server.logMutex = some i := (inv.lock.owner i).mp (by simp [turn, Phase.holds])
  have still : flushed plan (server.go i .appended) i = flushed plan server i := by
    rw [flushed_appending plan server i packet filp turn, own]
    simp [flushed, go_phase]
  have pending := written_appending plan server i packet filp owned turn
  rw [own, if_pos rfl] at pending
  have nextPending : written plan (server.go i .appended) = [] := by simp [written, Server.go, owned]
  refine ⟨lock_kept plan server i .appended server.kernel server.completed (by rw [turn]; rfl) (by simp) inv.lock, ?_,
    ?_⟩
  · obtain ⟨content, rep⟩ := inv.rep
    exact ⟨content, by rw [nextPending, ← pending]; exact rep⟩
  · have lines := inv.lines
    rwa [← flushed_filter plan server i .appended server.order still] at lines

theorem unlock_inv (filp : Filp) (turn : server.phase i = .appended) (inv : ServerInv api plan before server) :
    ServerInv api plan before ({ server with logMutex := none }.go i (.replying filp)) := by
  have owned : server.logMutex = some i := (inv.lock.owner i).mp (by simp [turn, Phase.holds])
  have still : flushed plan (server.go i (.replying filp)) i = flushed plan server i := by
    simp [flushed, go_phase, turn]
  have pending : written plan server = [] := by simp [written, owned, turn]
  refine ⟨lock_released plan server i (.replying filp) owned rfl (by simp) inv.lock, ?_, ?_⟩
  · obtain ⟨content, rep⟩ := inv.rep
    rw [pending] at rep
    exact ⟨content, rep⟩
  · have lines := inv.lines
    rwa [← flushed_filter plan server i (.replying filp) server.order still] at lines

theorem reply_inv (filp : Filp) (call : DriverCall) (result : CallResult)
    (turn : server.phase i = .replying filp) (silent : ∀ buf count env, call ≠ .write buf count env)
    (ran : driverCall api server.kernel filp call = some result) (inv : ServerInv api plan before server) :
    ServerInv api plan before
      ({ server with kernel := result.kernel }.go i (.replying { filp with fPos := result.fPos })) := by
  obtain ⟨content, rep⟩ := inv.rep
  obtain ⟨found, foundRan, effect⟩ := driver_call_effect api server.kernel content _ _ filp call rep
  cases Option.some.inj (ran.symm.trans foundRan)
  have same : result.kernel = server.kernel := by
    cases effect with
    | write buf count env _ _ => exact absurd rfl (silent buf count env)
    | other _ _ _ same => exact same
  rw [same]
  generalize phaseEq : Phase.replying { filp with fPos := result.fPos } = phase
  have still : flushed plan (server.go i phase) i = flushed plan server i := by
    simp [flushed, go_phase, turn, ← phaseEq]
  have pending : written plan (server.go i phase) = written plan server := by
    cases owned : server.logMutex with
    | none => simp [written, Server.go, owned]
    | some j =>
        have other : j ≠ i := by
          rintro rfl
          have holds := (inv.lock.owner j).mpr owned
          rw [turn] at holds
          cases holds
        simp [written, Server.go, owned, other]
  refine ⟨lock_kept plan server i phase server.kernel server.completed (by rw [turn, ← phaseEq]; rfl)
    (by simp [← phaseEq])
    inv.lock, ⟨content, ?_⟩, ?_⟩
  · rw [← pending] at rep
    exact rep
  · have lines := inv.lines
    rwa [← flushed_filter plan server i phase server.order still] at lines

theorem server_step_inv (next : Server ι) (packets : ∀ j packet, plan j = some packet → IsLine newLine packet)
    (inv : ServerInv api plan before server) (step : ServerStep api plan server next) :
    ServerInv api plan before next := by
  cases step with
  | lock i turn free => exact lock_inv api plan before server i packets turn free inv
  | write i packet sent user filp count env result turn own chunk consecutive ran success =>
      exact write_inv api plan before server i packet sent user filp count env result packets turn own
        chunk consecutive ran success inv
  | close i packet filp turn own => exact close_inv api plan before server i packet filp turn own inv
  | unlock i turn => exact unlock_inv api plan before server i ⟨true, 0⟩ turn inv
  | reply i filp call result turn silent ran =>
      exact reply_inv api plan before server i filp call result turn silent ran inv

end

theorem server_run_inv {ι : Type} [DecidableEq ι] (api : KernelApi) (plan : ι → Option Bytes) (before : List Bytes)
    (start server : Server ι) (packets : ∀ j packet, plan j = some packet → IsLine newLine packet)
    (inv : ServerInv api plan before start) (run : ServerRun api plan start server) :
    ServerInv api plan before server := by
  induction run with
  | start => exact inv
  | step server next earlier taken ih => exact server_step_inv api plan before server next packets ih taken

theorem working_empty (api : KernelApi) (heap : Heap) (entry : AesdBufferEntry) (working : Option Bytes)
    (rep : WorkingRep api heap entry working) (empty : entry.size = 0) : working = some [] := by
  cases rep with
  | empty reserved zero => rfl
  | pending line block =>
      have size := block.size
      rw [empty] at size
      exact absurd (List.eq_nil_of_length_eq_zero size.symm) block.nonempty
  | lost gone claimed fits => exact absurd empty claimed

theorem packets_never_mixed {ι : Type} [DecidableEq ι] (api : KernelApi) (plan : ι → Option Bytes) (events : List Event)
    (kernel : Kernel) (server : Server ι) (packets : ∀ i packet, plan i = some packet → IsLine newLine packet)
    (run : Run api events kernel) (empty : kernel.dev.workingEntry.size = 0)
    (steps : ServerRun api plan (startServer plan kernel (completedLines events)) server) :
    server.completed = completedLines events ++ (server.order.filter (flushed plan server)).filterMap plan ∧
      retained server.kernel = some (server.completed.rtake 10) ∧
      workingBytes server.kernel = some (written plan server) ∧
      (∀ i, (server.phase i).holds = true ↔ server.logMutex = some i) ∧ server.order.Nodup := by
  obtain ⟨content, working, rep⟩ := run_rep api events kernel run
  rw [working_empty api kernel.heap _ working rep.pending empty] at rep
  have inv := server_run_inv api plan _ _ server packets (start_inv api plan kernel content _ rep) steps
  obtain ⟨next, nextRep⟩ := inv.rep
  exact ⟨inv.lines, dev_rep_retained api server.kernel next _ _ nextRep,
    dev_rep_working api server.kernel next _ _ nextRep,
    inv.lock.owner, inv.lock.once⟩

def twoTexts (i : Nat) : Option Bytes :=
  if i = 0 then some [97, 98, 10] else if i = 1 then some [99, 100, 101, 10] else none

theorem packets_never_mixed_two_clients :
    ∃ server : Server Nat,
      ServerRun stockKernel twoTexts (startServer twoTexts loadedModule (completedLines [])) server ∧
      server.logMutex = some 1 ∧ server.order = [0, 1] ∧ server.completed = [[97, 98, 10]] ∧
      retained server.kernel = some [[97, 98, 10]] ∧ workingBytes server.kernel = some [99, 100] := by
  have called : ((driverCall stockKernel loadedModule ⟨true, 0⟩ (sampleWrite [97, 98, 10] 4096 8192).toDriver.2).bind
      fun first => (driverCall stockKernel first.kernel ⟨true, 0⟩ (sampleWrite [99, 100] 4096 12288).toDriver.2).map
        fun second => (first.ret, second.ret)) = some (3, 2) := by decide
  obtain ⟨first, wroteFirst, called⟩ := Option.bind_eq_some_iff.mp called
  obtain ⟨second, wroteSecond, called⟩ := Option.map_eq_some_iff.mp called
  obtain ⟨firstRet, secondRet⟩ := Prod.mk.inj called
  let start := startServer twoTexts loadedModule (completedLines [])
  have locked : ServerRun stockKernel twoTexts start _ := .step start _ .start (.lock start 0 rfl rfl)
  have wrote : ServerRun stockKernel twoTexts start _ := .step _ _ locked
    (.write _ 0 [97, 98, 10] [] [97, 98, 10] ⟨true, 0⟩ 3 _ first rfl rfl (by decide) ⟨[], by decide⟩ wroteFirst
      (by rw [firstRet]; decide))
  have closed : ServerRun stockKernel twoTexts start _ := .step _ _ wrote (.close _ 0 [97, 98, 10] _ rfl rfl)
  have unlocked : ServerRun stockKernel twoTexts start _ := .step _ _ closed (.unlock _ 0 rfl)
  have lockedToo : ServerRun stockKernel twoTexts start _ := .step _ _ unlocked (.lock _ 1 rfl rfl)
  have wroteToo : ServerRun stockKernel twoTexts start _ := .step _ _ lockedToo
    (.write _ 1 [99, 100, 101, 10] [] [99, 100] ⟨true, 0⟩ 2 _ second rfl rfl (by decide)
      ⟨[101, 10], by decide⟩ wroteSecond (by rw [secondRet]; decide))
  have packets : ∀ i packet, twoTexts i = some packet → IsLine newLine packet := by
    intro i packet own
    simp only [twoTexts] at own
    split at own
    · cases own
      exact ⟨[97, 98], rfl, by decide⟩
    · split at own
      · cases own
        exact ⟨[99, 100, 101], rfl, by decide⟩
      · cases own
  obtain ⟨completed, kept, pending, _⟩ :=
    packets_never_mixed stockKernel twoTexts [] loadedModule _ packets .loaded rfl wroteToo
  have one := completed.trans (show _ = [[97, 98, 10]] from rfl)
  exact ⟨_, wroteToo, rfl, rfl, one, kept.trans (congrArg (fun done => some (List.rtake done 10)) one), pending⟩

end AesdChar

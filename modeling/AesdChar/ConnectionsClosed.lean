import AesdChar.Connections

set_option autoImplicit false

namespace AesdChar

-- The descriptors open belong to one thread each, to main, or to nobody: then
-- main has given up.
structure ConnectionInv (state : Connections) : Prop where
  once : state.opened.Nodup
  used : ∀ thread fd, state.main.connection thread = some fd →
    fd ∈ state.opened ∧ fd ∉ state.lost ∧ state.main.pending ≠ some fd
  single : ∀ thread other fd, state.main.connection thread = some fd →
    state.main.connection other = some fd → thread = other
  pending : ∀ fd, state.main.pending = some fd → fd ∈ state.opened ∧ fd ∉ state.lost
  lost : ∀ fd ∈ state.lost, fd ∈ state.opened
  served : ∀ fd ∈ state.opened,
    fd ∈ state.lost ∨ state.main.pending = some fd ∨ ∃ thread, state.main.connection thread = some fd
  count : state.accepted = state.closed + state.opened.length
  few : state.lost = [] ∨ (state.lost.length = 1 ∧ state.main.failed = true ∧ state.main.pending = none)

theorem no_connections_inv (failed : Bool) : ConnectionInv (noConnections failed) := by
  constructor <;> simp [noConnections, mainStart, MainState.connection, MainState.pending]

section

variable (state : Connections) (inv : ConnectionInv state)

include inv

-- Once one is lost main has failed, and waits for no thread.
theorem none_lost (busy : state.main.failed = false ∨ state.main.pending ≠ none) : state.lost = [] := by
  refine inv.few.resolve_right fun lost => ?_
  rcases busy with going | waits
  · rw [going] at lost
    cases lost.2.1
  · exact waits lost.2.2

theorem served_unless_lost (noneLost : state.lost = []) (fd : Nat) (listed : fd ∈ state.opened) :
    state.main.pending = some fd ∨ ∃ thread, state.main.connection thread = some fd := by
  rcases inv.served fd listed with lost | kept
  · rw [noneLost] at lost
    cases lost
  · exact kept

theorem quiet_connection_inv (after : MainState)
    (same : ∀ thread, after.connection thread = state.main.connection thread)
    (pending : after.pending = state.main.pending) (failed : after.failed = state.main.failed) :
    ConnectionInv ⟨after, state.opened, state.lost, state.accepted, state.closed⟩ := by
  constructor <;> simp only [same, pending, failed]
  · exact inv.once
  · exact inv.used
  · exact inv.single
  · exact inv.pending
  · exact inv.lost
  · exact inv.served
  · exact inv.count
  · exact inv.few

theorem accept_connection_inv (after : MainState) (fd : Nat)
    (same : ∀ thread, after.connection thread = state.main.connection thread) (before : state.main.pending = none)
    (pending : after.pending = some fd) (going : state.main.failed = false) (fresh : fd ∉ state.opened) :
    ConnectionInv ⟨after, fd :: state.opened, state.lost, state.accepted + 1, state.closed⟩ := by
  have noneLost := none_lost state inv (Or.inl going)
  constructor <;> simp only [same, pending, noneLost]
  · exact List.nodup_cons.mpr ⟨fresh, inv.once⟩
  · intro thread other given
    obtain ⟨listed, _, _⟩ := inv.used thread other given
    refine ⟨List.mem_cons_of_mem _ listed, List.not_mem_nil, ?_⟩
    rintro ⟨⟩
    exact fresh listed
  · exact inv.single
  · rintro other ⟨⟩
    exact ⟨List.mem_cons_self, List.not_mem_nil⟩
  · simp
  · intro other member
    rcases List.mem_cons.mp member with rfl | listed
    · exact Or.inr (Or.inl rfl)
    · rcases served_unless_lost state inv noneLost other listed with waiting | given
      · rw [before] at waiting
        cases waiting
      · exact Or.inr (Or.inr given)
  · have count := inv.count
    rw [List.length_cons]
    omega
  · exact Or.inl trivial

theorem refuse_connection_inv (after : MainState) (fd : Nat)
    (same : ∀ thread, after.connection thread = state.main.connection thread) (before : state.main.pending = none)
    (pending : after.pending = none) (going : state.main.failed = false) (failed : after.failed = true)
    (fresh : fd ∉ state.opened) :
    ConnectionInv ⟨after, fd :: state.opened, fd :: state.lost, state.accepted + 1, state.closed⟩ := by
  have noneLost := none_lost state inv (Or.inl going)
  constructor <;> simp only [same, pending, noneLost, failed]
  · exact List.nodup_cons.mpr ⟨fresh, inv.once⟩
  · intro thread other given
    obtain ⟨listed, _, _⟩ := inv.used thread other given
    refine ⟨List.mem_cons_of_mem _ listed, fun lost => ?_, by simp⟩
    rw [List.mem_singleton.mp lost] at listed
    exact fresh listed
  · exact inv.single
  · simp
  · intro other lost
    rw [List.mem_singleton.mp lost]
    exact List.mem_cons_self
  · intro other member
    rcases List.mem_cons.mp member with rfl | listed
    · exact Or.inl List.mem_cons_self
    · rcases served_unless_lost state inv noneLost other listed with waiting | given
      · rw [before] at waiting
        cases waiting
      · exact Or.inr (Or.inr given)
  · have count := inv.count
    rw [List.length_cons]
    omega
  · exact Or.inr ⟨rfl, trivial, trivial⟩

theorem create_connection_inv (after : MainState) (fd thread : Nat) (before : state.main.pending = some fd)
    (pending : after.pending = none) (fresh : state.main.connection thread = none)
    (given : after.connection thread = some fd)
    (others : ∀ other, other ≠ thread → after.connection other = state.main.connection other) :
    ConnectionInv ⟨after, state.opened, state.lost, state.accepted, state.closed⟩ := by
  obtain ⟨listed, notLost⟩ := inv.pending fd before
  have noneLost := none_lost state inv (Or.inr (by simp [before]))
  have owned : ∀ other held, after.connection other = some held →
      (other = thread ∧ held = fd) ∨ (other ≠ thread ∧ state.main.connection other = some held) := by
    intro other held has
    by_cases same : other = thread
    · rw [same, given] at has
      exact Or.inl ⟨same, (Option.some.inj has).symm⟩
    · exact Or.inr ⟨same, by rwa [← others other same]⟩
  constructor <;> simp only [pending, noneLost]
  · exact inv.once
  · intro other held has
    rcases owned other held has with ⟨_, rfl⟩ | ⟨_, had⟩
    · exact ⟨listed, List.not_mem_nil, by simp⟩
    · exact ⟨(inv.used other held had).1, List.not_mem_nil, by simp⟩
  · intro first second held has hasToo
    rcases owned first held has with ⟨rfl, rfl⟩ | ⟨_, had⟩
    · rcases owned second held hasToo with ⟨rfl, _⟩ | ⟨_, hadToo⟩
      · rfl
      · exact absurd before (inv.used second held hadToo).2.2
    · rcases owned second held hasToo with ⟨rfl, rfl⟩ | ⟨_, hadToo⟩
      · exact absurd before (inv.used first held had).2.2
      · exact inv.single first second held had hadToo
  · simp
  · simp
  · intro other member
    rcases served_unless_lost state inv noneLost other member with waiting | ⟨holder, has⟩
    · rw [before] at waiting
      cases waiting
      exact Or.inr (Or.inr ⟨thread, given⟩)
    · refine Or.inr (Or.inr ⟨holder, ?_⟩)
      rw [others, has]
      rintro rfl
      rw [fresh] at has
      cases has
  · exact inv.count
  · exact Or.inl trivial

theorem orphan_connection_inv (after : MainState) (fd : Nat)
    (same : ∀ thread, after.connection thread = state.main.connection thread) (before : state.main.pending = some fd)
    (pending : after.pending = none) (failed : after.failed = true) :
    ConnectionInv ⟨after, state.opened, fd :: state.lost, state.accepted, state.closed⟩ := by
  obtain ⟨listed, notLost⟩ := inv.pending fd before
  have noneLost := none_lost state inv (Or.inr (by simp [before]))
  constructor <;> simp only [same, pending, noneLost, failed]
  · exact inv.once
  · intro thread other given
    obtain ⟨open_, _, apart⟩ := inv.used thread other given
    refine ⟨open_, fun lost => apart ?_, by simp⟩
    rw [before, List.mem_singleton.mp lost]
  · exact inv.single
  · simp
  · intro other lost
    rw [List.mem_singleton.mp lost]
    exact listed
  · intro other member
    rcases served_unless_lost state inv noneLost other member with waiting | given
    · rw [before] at waiting
      cases waiting
      exact Or.inl List.mem_cons_self
    · exact Or.inr (Or.inr given)
  · exact inv.count
  · exact Or.inr ⟨rfl, trivial, trivial⟩

theorem main_connection_inv (after : MainState) (accepted lost : Option Nat)
    (connects : Connects state.main after accepted lost) (unused : ∀ fd, accepted = some fd → fd ∉ state.opened) :
    ConnectionInv ⟨after, accepted.toList ++ state.opened, lost.toList ++ state.lost,
      state.accepted + accepted.toList.length, state.closed⟩ := by
  cases connects with
  | quiet same pending failed => exact quiet_connection_inv state inv after same pending failed
  | accept fd same before pending going =>
      exact accept_connection_inv state inv after fd same before pending going (unused fd rfl)
  | refuse fd same before pending going failed =>
      exact refuse_connection_inv state inv after fd same before pending going failed (unused fd rfl)
  | create fd thread before pending fresh given others failed =>
      exact create_connection_inv state inv after fd thread before pending fresh given others
  | orphan fd same before pending failed => exact orphan_connection_inv state inv after fd same before pending failed

theorem close_connection_inv (after : MainState) (fd thread : Nat) (before : state.main.connection thread = some fd)
    (gone : after.connection thread = none)
    (others : ∀ other, other ≠ thread → after.connection other = state.main.connection other)
    (pending : after.pending = state.main.pending) (failed : after.failed = state.main.failed) :
    ConnectionInv ⟨after, state.opened.erase fd, state.lost, state.accepted, state.closed + 1⟩ := by
  obtain ⟨listed, notLost, notPending⟩ := inv.used thread fd before
  have owned : ∀ other held, after.connection other = some held → other ≠ thread ∧
      state.main.connection other = some held := by
    intro other held has
    have different : other ≠ thread := by
      rintro rfl
      rw [gone] at has
      cases has
    exact ⟨different, by rwa [← others other different]⟩
  have stays : ∀ held, held ≠ fd → held ∈ state.opened → held ∈ state.opened.erase fd :=
    fun held different member => (List.mem_erase_of_ne different).mpr member
  constructor <;> simp only [pending, failed]
  · exact inv.once.erase fd
  · intro other held has
    obtain ⟨different, had⟩ := owned other held has
    obtain ⟨member, unlost, unpending⟩ := inv.used other held had
    refine ⟨stays held ?_ member, unlost, unpending⟩
    rintro rfl
    exact different (inv.single other thread held had before)
  · intro first second held has hasToo
    exact inv.single first second held (owned first held has).2 (owned second held hasToo).2
  · intro held waiting
    obtain ⟨member, unlost⟩ := inv.pending held waiting
    refine ⟨stays held ?_ member, unlost⟩
    rintro rfl
    exact notPending waiting
  · intro held lost
    refine stays held ?_ (inv.lost held lost)
    rintro rfl
    exact notLost lost
  · intro held member
    obtain ⟨different, still⟩ := (inv.once.mem_erase_iff).mp member
    rcases inv.served held still with lost | waiting | ⟨holder, has⟩
    · exact Or.inl lost
    · exact Or.inr (Or.inl waiting)
    · refine Or.inr (Or.inr ⟨holder, ?_⟩)
      rw [others, has]
      rintro rfl
      exact different (Option.some.inj (has.symm.trans before))
  · have count := inv.count
    have length := List.length_erase_of_mem listed
    have positive := List.length_pos_of_mem listed
    omega
  · exact inv.few

theorem thread_connection_inv (after : MainState) (closed : Option Nat) (closes : Closes state.main after closed)
    (pending : after.pending = state.main.pending) (failed : after.failed = state.main.failed) :
    ConnectionInv ⟨after, state.opened.diff closed.toList, state.lost, state.accepted,
      state.closed + closed.toList.length⟩ := by
  cases closes with
  | quiet same => exact quiet_connection_inv state inv after same pending failed
  | close fd thread before gone others =>
      rw [Option.toList_some, List.diff_cons, List.diff_nil]
      exact close_connection_inv state inv after fd thread before gone others pending failed

end

theorem connection_run_main (failed : Bool) (state : Connections) (run : ConnectionRun (noConnections failed) state) :
    MainRun (mainStart failed) state.main := by
  induction run with
  | start => exact .refl
  | step state after _ move ih =>
      cases move with
      | main call clientFd after ran unused => exact .step _ _ ih (.main call ran)
      | thread thread after ran => exact .step _ _ ih (.thread thread ran)
      | signal => exact .step _ _ ih (.signal rfl)

theorem connection_move_inv (pass : List Nat) (state after : Connections) (mainInv : MainInv pass state.main)
    (inv : ConnectionInv state) (move : ConnectionMove state after) : ConnectionInv after := by
  cases move with
  | main call clientFd after ran unused =>
      exact main_connection_inv state inv after _ _ (main_connects state.main after pass call clientFd mainInv ran)
        unused
  | thread thread after ran =>
      obtain ⟨closes, pending, failed⟩ := thread_closes state.main after thread ran
      exact thread_connection_inv state inv after _ closes pending failed
  | signal => exact ⟨inv.once, inv.used, inv.single, inv.pending, inv.lost, inv.served, inv.count, inv.few⟩

theorem connection_run_inv (failed : Bool) (state : Connections) (run : ConnectionRun (noConnections failed) state) :
    ConnectionInv state := by
  induction run with
  | start => exact no_connections_inv failed
  | step state after earlier move ih =>
      obtain ⟨_, _, pass, mainInv⟩ :=
        run_passes (mainStart failed) state.main [] (main_start_inv failed) (connection_run_main failed state earlier)
      exact connection_move_inv pass state after mainInv ih move

theorem closed_connection (state : MainState) (thread fd : Nat) (closes : closedFd state thread = some fd) :
    state.connection thread = some fd := by
  rw [closedFd] at closes
  split at closes
  · rename_i found
    cases closes
    simp [MainState.connection, found, fdOf]
  · cases closes

/-- What a thread closes is open and its own, whatever numbers the kernel gives again. -/
theorem connections_closed_once (failed : Bool) (state : Connections)
    (run : ConnectionRun (noConnections failed) state) :
    (∀ thread fd, closedFd state.main thread = some fd →
      fd ∈ state.opened ∧ fd ∉ state.lost ∧ ∀ other, state.main.connection other = some fd → other = thread) ∧
    state.opened.Nodup ∧
    (∀ fd, fd ∈ state.opened ↔
      fd ∈ state.lost ∨ state.main.pending = some fd ∨ ∃ thread, state.main.connection thread = some fd) ∧
    state.accepted = state.closed + state.opened.length ∧
    (state.lost = [] ∨ (state.lost.length = 1 ∧ state.main.failed = true)) ∧
    (state.main.place = .returned → state.opened = state.lost) := by
  have inv := connection_run_inv failed state run
  refine ⟨fun thread fd closes => ?_, inv.once, fun fd => ⟨inv.served fd, ?_⟩, inv.count,
    inv.few.imp_right fun few => ⟨few.1, few.2.1⟩, fun returned => ?_⟩
  · have own := closed_connection state.main thread fd closes
    obtain ⟨listed, notLost, _⟩ := inv.used thread fd own
    exact ⟨listed, notLost, fun other has => inv.single other thread fd has own⟩
  · rintro (lost | pending | ⟨thread, has⟩)
    · exact inv.lost fd lost
    · exact (inv.pending fd pending).1
    · exact (inv.used thread fd has).1
  · obtain ⟨_, _, pass, mainInv⟩ :=
      run_passes (mainStart failed) state.main [] (main_start_inv failed) (connection_run_main failed state run)
    obtain ⟨noThreads, _⟩ := inv_finished pass state.main mainInv returned
    have onlyLost : ∀ fd ∈ state.opened, fd ∈ state.lost := by
      intro fd member
      rcases inv.served fd member with lost | pending | ⟨thread, has⟩
      · exact lost
      · simp [MainState.pending, returned] at pending
      · simp [MainState.connection, noThreads thread] at has
    rcases inv.few with none | ⟨one, _⟩
    · rw [none]
      rw [none] at onlyLost
      exact List.eq_nil_iff_forall_not_mem.mpr fun fd member => List.not_mem_nil (onlyLost fd member)
    · obtain ⟨fd, single⟩ := List.length_eq_one_iff.mp one
      have member := inv.lost fd (by simp [single])
      rw [single] at onlyLost ⊢
      refine List.perm_singleton.mp
        ((List.perm_ext_iff_of_nodup inv.once (List.nodup_singleton fd)).mpr fun other => ?_)
      refine ⟨onlyLost other, fun same => ?_⟩
      rwa [List.mem_singleton.mp same]

theorem connections_closed_once_same_number :
    ∃ state, ConnectionRun (noConnections false) state ∧ state.opened = [5] ∧ state.lost = [5] ∧ state.accepted = 2 ∧
      state.closed = 1 ∧ state.opened.Nodup := by
  have accepted : ConnectionRun (noConnections false) _ :=
    .step _ _ .start (.main _ (.client 5 100 staleNode) 0 _ rfl (by decide))
  have created : ConnectionRun (noConnections false) _ := .step _ _ accepted (.main _ (.creates 1) 0 _ rfl (by decide))
  have handling : ConnectionRun (noConnections false) _ := .step _ _ created (.thread _ 1 _ rfl)
  have inserted : ConnectionRun (noConnections false) _ := .step _ _ handling (.main _ .other 0 _ rfl (by decide))
  have closed : ConnectionRun (noConnections false) _ := .step _ _ inserted (.thread _ 1 _ rfl)
  have complete : ConnectionRun (noConnections false) _ := .step _ _ closed (.thread _ 1 _ rfl)
  have visiting : ConnectionRun (noConnections false) _ := .step _ _ complete (.main _ .other 0 _ rfl (by decide))
  have joining : ConnectionRun (noConnections false) _ := .step _ _ visiting (.main _ .other 0 _ rfl (by decide))
  have ended : ConnectionRun (noConnections false) _ := .step _ _ joining (.thread _ 1 _ rfl)
  have joined : ConnectionRun (noConnections false) _ := .step _ _ ended (.main _ .other 0 _ rfl (by decide))
  have removed : ConnectionRun (noConnections false) _ := .step _ _ joined (.main _ .other 0 _ rfl (by decide))
  have freed : ConnectionRun (noConnections false) _ := .step _ _ removed (.main _ .other 0 _ rfl (by decide))
  have passed : ConnectionRun (noConnections false) _ := .step _ _ freed (.main _ .other 0 _ rfl (by decide))
  have again : ConnectionRun (noConnections false) _ :=
    .step _ _ passed (.main _ (.client 5 100 staleNode) 0 _ rfl (by decide))
  have refused : ConnectionRun (noConnections false) _ := .step _ _ again (.main _ .createFails 0 _ rfl (by decide))
  exact ⟨_, refused, rfl, rfl, rfl, rfl, (connections_closed_once false _ refused).2.1⟩

end AesdChar

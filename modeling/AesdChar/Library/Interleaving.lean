import AesdChar.Library.LockRun
import Mathlib.Data.List.Basic

set_option autoImplicit false

namespace LockProgram

open HeapStore

section

variable {α β δ ω ρ κ ι : Type}

def Disciplined (body : κ → Code α β δ ω ρ) (inv : Store α β δ → Prop) (claimed : κ → α → Prop) : Prop :=
  ∀ request own, Before inv (claimed request) (body request) noBlocks own

inductive SessionStep (client : ι) (holder : Option ι) (session : Session α β δ ω ρ κ) (call : Call α β δ ω ρ κ) :
    Action κ → Option ι → Session α β δ ω ρ κ → Prop where
  | finish (reply : ρ) (turn : Turn κ ρ) (code : call.code = .ret reply) :
      SessionStep client holder session call .finish holder ⟨session.own, none, session.returned ++ [turn]⟩
  | statement (own : ω) (code : Code α β δ ω ρ) :
      SessionStep client holder session call (.statement call.inside) holder
        ⟨own, some { call with code }, session.returned⟩
  | acquire (locked interrupted : Code α β δ ω ρ) (code : call.code = .lock true locked interrupted) :
      SessionStep client holder session call (.acquire call.request) (some client)
        ⟨session.own, some ⟨call.request, locked, true, true⟩, session.returned⟩
  | interrupt (code : Code α β δ ω ρ) :
      SessionStep client holder session call .interrupt holder ⟨session.own, some { call with code }, session.returned⟩
  | release (code : Code α β δ ω ρ) :
      SessionStep client holder session call .release none
        ⟨session.own, some { call with code, inside := false }, session.returned⟩

variable [DecidableEq ι]

theorem proceed_session (system next : System α β δ ω ρ κ ι) (client : ι) (call : Call α β δ ω ρ κ) (action : Action κ)
    (moved : proceed system client call = some (action, next)) :
    ∃ session, SessionStep client system.holder (system.clients client) call action next.holder session ∧
      next.clients = Function.update system.clients client session := by
  obtain ⟨request, code, gotLock, inside⟩ := call
  cases code with
  | ret reply =>
      simp only [proceed, Option.some.injEq, Prod.mk.injEq] at moved
      obtain ⟨rfl, rfl⟩ := moved
      exact ⟨_, .finish reply _ rfl, rfl⟩
  | step statement later =>
      simp only [proceed] at moved
      split at moved
      · split at moved
        · cases moved
        · simp only [Option.some.injEq, Prod.mk.injEq] at moved
          obtain ⟨rfl, rfl⟩ := moved
          exact ⟨_, .statement _ _, rfl⟩
      · cases moved
  | lock granted locked interrupted =>
      cases granted with
      | true =>
          simp only [proceed] at moved
          split at moved
          · simp only [Option.some.injEq, Prod.mk.injEq] at moved
            obtain ⟨rfl, rfl⟩ := moved
            exact ⟨_, .acquire locked interrupted rfl, rfl⟩
          · cases moved
      | false =>
          simp only [proceed, Option.some.injEq, Prod.mk.injEq] at moved
          obtain ⟨rfl, rfl⟩ := moved
          exact ⟨_, .interrupt _, rfl⟩
  | unlock later =>
      simp only [proceed, Option.some.injEq, Prod.mk.injEq] at moved
      obtain ⟨rfl, rfl⟩ := moved
      exact ⟨_, .release _, rfl⟩

end

section

variable {α β δ ω ρ κ ι : Type} [DecidableEq ι] {body : κ → Code α β δ ω ρ} {inv : Store α β δ → Prop}
  {claimed : κ → α → Prop} {store : Store α β δ} {owns : ι → ω} {trace : List (Label κ ι)}
  {system : System α β δ ω ρ κ ι} {order : List (ι × Turn κ ρ)} {serial : Store α β δ} {files : ι → ω}
  {parts : Option ι → Blocks α β}

theorem coupled_idle (valid : inv store) :
    Coupled body inv claimed store owns [] (idleSystem store owns) [] store owns
      (Function.update (fun _ : Option ι => noBlocks) none store.heap) := by
  refine ⟨.none, valid, ⟨fun _ => none, ?_⟩, ?_, ?_, ?_, rfl⟩
  · intro owner a
    cases owner with
    | none => simp [idleSystem]
    | some client => simp [noBlocks]
  · intro _
    exact ⟨Function.update_self _ _ _, rfl⟩
  · intro held
    exact absurd rfl held
  · intro client
    rw [Function.update_of_ne (by simp)]
    exact .idle

theorem start_step (disciplined : Disciplined body inv claimed)
    (coupled : Coupled body inv claimed store owns trace system order serial files parts) (client : ι) (request : κ)
    (idle : (system.clients client).running = none) :
    ∃ parts, Coupled body inv claimed store owns (trace ++ [label system client (.start request)])
      (system.put client { system.clients client with running := some ⟨request, body request, false, false⟩ })
      order serial files parts := by
  have tracked := coupled.tracked client
  generalize heldEq : decide (system.holder = some client) = held at tracked
  generalize blocksEq : parts (some client) = blocks at tracked
  generalize sessionEq : system.clients client = session at tracked idle
  cases tracked with
  | idle =>
      refine ⟨_, plain_step coupled client (by simpa using heldEq) system.store.heap noBlocks ?_ _ _ ?_ ?_⟩
      · rw [← blocksEq, Function.update_eq_self]
        exact coupled.split
      · rw [acquisitions_append]
        exact List.append_nil _
      · exact .before request (body request) (files client) noBlocks (fun _ => Or.inl rfl)
          (disciplined request (files client)) (replays_start _ _)
  | before => cases idle
  | locked => cases idle
  | after => cases idle

theorem proceed_step (coupled : Coupled body inv claimed store owns trace system order serial files parts) (client : ι)
    (call : Call α β δ ω ρ κ) (running : (system.clients client).running = some call) (action : Action κ)
    (next : System α β δ ω ρ κ ι) (moved : proceed system client call = some (action, next)) :
    ∃ order serial files parts,
      Coupled body inv claimed store owns (trace ++ [label system client action]) next order serial files parts := by
  have tracked := coupled.tracked client
  generalize heldEq : decide (system.holder = some client) = held at tracked
  generalize blocksEq : parts (some client) = blocks at tracked
  generalize sessionEq : system.clients client = session at tracked running
  generalize settledEq : turnsOf client order = settled at tracked
  cases tracked with
  | idle => cases running
  | before request code own _ within ready replays =>
      cases Option.some.inj running
      subst blocksEq settledEq
      exact before_step coupled client (by simpa using heldEq) request code own sessionEq within ready
        replays action next moved
  | locked request code own _ reply returned turn runs =>
      cases Option.some.inj running
      subst blocksEq
      obtain ⟨parts, kept⟩ :=
        locked_step coupled client (by simpa using heldEq) request code own reply returned sessionEq
        (settledEq.trans turn) runs action next moved
      exact ⟨order, serial, files, parts, kept⟩
  | after request code own _ gotLock reply returned turn finishes =>
      cases Option.some.inj running
      subst blocksEq
      obtain ⟨parts, kept⟩ := after_step coupled client (by simpa using heldEq) request code own gotLock reply returned
        sessionEq (settledEq.trans turn) finishes action next moved
      exact ⟨order, serial, files, parts, kept⟩

theorem run_coupled (disciplined : Disciplined body inv claimed) (valid : inv store)
    (run : Run body store owns trace system) :
    ∃ order serial files parts, Coupled body inv claimed store owns trace system order serial files parts := by
  induction run with
  | idle => exact ⟨[], store, owns, _, coupled_idle valid⟩
  | start trace system client request _ free ih =>
      obtain ⟨order, serial, files, parts, coupled⟩ := ih
      obtain ⟨parts, kept⟩ := start_step disciplined coupled client request free
      exact ⟨order, serial, files, parts, kept⟩
  | proceed trace system next client call action _ running moved ih =>
      obtain ⟨order, serial, files, parts, coupled⟩ := ih
      exact proceed_step coupled client call running action next moved

-- How a call stands to the lock, in every state an interleaving reaches.
structure Standing (system : System α β δ ω ρ κ ι) (client : ι) (call : Call α β δ ω ρ κ) : Prop where
  inside : call.inside = true ↔ system.holder = some client
  got : call.inside = true → call.gotLock = true
  returning : ∀ reply, call.code = .ret reply → system.holder ≠ some client
  locking : ∀ granted locked interrupted, call.code = .lock granted locked interrupted → call.gotLock = false

theorem call_standing (coupled : Coupled body inv claimed store owns trace system order serial files parts) (client : ι)
    (call : Call α β δ ω ρ κ)
    (running : (system.clients client).running = some call) : Standing system client call := by
  have tracked := coupled.tracked client
  generalize heldEq : decide (system.holder = some client) = held at tracked
  generalize parts (some client) = blocks at tracked
  generalize system.clients client = session at tracked running
  cases tracked with
  | idle => cases running
  | before request code own _ within ready replays =>
      cases Option.some.inj running
      have outside : system.holder ≠ some client := by simpa using heldEq
      exact ⟨by simp [outside], by simp, fun _ _ => outside, fun _ _ _ _ => rfl⟩
  | locked request code own _ reply returned turn runs =>
      cases Option.some.inj running
      have holds : system.holder = some client := by simpa using heldEq
      refine ⟨by simp [holds], by simp, ?_, ?_⟩
      · rintro result rfl
        exact runs.elim
      · rintro granted locked interrupted rfl
        exact runs.elim
  | after request code own _ gotLock reply returned turn finishes =>
      cases Option.some.inj running
      have outside : system.holder ≠ some client := by simpa using heldEq
      refine ⟨by simp [outside], by simp, fun _ _ => outside, ?_⟩
      rintro granted locked interrupted rfl
      exact finishes.elim

theorem holder_running (coupled : Coupled body inv claimed store owns trace system order serial files parts)
    (client : ι) (holds : system.holder = some client) :
    ∃ call, (system.clients client).running = some call ∧ ∀ reply, call.code ≠ .ret reply := by
  cases running : (system.clients client).running with
  | some call =>
      have standing := call_standing coupled client call running
      exact ⟨call, rfl, fun reply code => standing.returning reply code holds⟩
  | none =>
      have tracked := coupled.tracked client
      simp only [holds, decide_true] at tracked
      generalize parts (some client) = blocks at tracked
      generalize system.clients client = session at tracked running
      cases tracked with
      | locked => cases running

-- When every call has returned, the calls might as well have run one after
-- another in the order in which they took the lock.
theorem coupled_serial (coupled : Coupled body inv claimed store owns trace system order serial files parts)
    (idle : ∀ client, (system.clients client).running = none) :
    Serial (fun request => exec (body request)) claimed store owns order system.store
      (fun client => (system.clients client).own) ∧
    (∀ client, turnsOf client order = (system.clients client).returned) ∧ lockers order = acquisitions trace := by
  have stopped : ∀ client, parts (some client) = noBlocks ∧
      system.clients client = ⟨files client, none, turnsOf client order⟩ := by
    intro client
    have tracked := coupled.tracked client
    have free := idle client
    generalize decide (system.holder = some client) = held at tracked
    generalize parts (some client) = blocks at tracked ⊢
    generalize system.clients client = session at tracked free ⊢
    cases tracked with
    | idle => exact ⟨rfl, rfl⟩
    | before => cases free
    | locked => cases free
    | after => cases free
  have free : system.holder = none := by
    cases holder : system.holder with
    | none => rfl
    | some client =>
        obtain ⟨call, running, _⟩ := holder_running coupled client holder
        rw [idle client] at running
        cases running
  obtain ⟨device, dev⟩ := coupled.free free
  have heap : system.store.heap = serial.heap := by
    rw [← device]
    refine split_only coupled.split none fun owner different => ?_
    obtain ⟨client, rfl⟩ := Option.ne_none_iff_exists'.mp different
    exact (stopped client).1
  have same : system.store = serial := by
    rw [show system.store = ⟨system.store.heap, system.store.dev⟩ from rfl, heap, dev]
  have own : (fun client => (system.clients client).own) = files := by
    funext client
    rw [(stopped client).2]
  refine ⟨?_, fun client => ?_, coupled.acquired⟩
  · rw [same, own]
    exact coupled.replayed
  · rw [(stopped client).2]

theorem coupled_safe (coupled : Coupled body inv claimed store owns trace system order serial files parts) (client : ι)
    (call : Call α β δ ω ρ κ) (running : (system.clients client).running = some call) (τ : Type)
    (statement : Statement α β δ ω τ) (later : τ → Code α β δ ω ρ) (code : call.code = .step statement later)
    (allowed : statement.allowed system.store = true) :
    ∃ result, statement.run system.store (system.clients client).own = some result := by
  obtain ⟨others, apart, whole, _⟩ := own_part coupled client
  have tracked := coupled.tracked client
  generalize decide (system.holder = some client) = held at tracked
  generalize parts (some client) = blocks at tracked apart whole
  generalize system.clients client = session at tracked running ⊢
  have quietly : ∀ own left moved value, Quiet statement blocks own left moved value →
      ∃ result, statement.run system.store own = some result := by
    intro own left moved value quiet
    obtain ⟨_, ran⟩ := quiet_framed statement blocks left others own moved value _ quiet apart (whole ▸ allowed)
    rw [← whole] at ran
    exact ⟨_, ran⟩
  cases tracked with
  | idle => cases running
  | before request _ own _ within ready replays =>
      cases Option.some.inj running
      subst code
      rcases ready with ⟨final, reply, left, moved, value, _, quiet, _⟩ | ⟨grown, moved, value, _, _, quiet, _⟩
      · exact quietly own left moved value quiet
      · exact quietly own grown moved value quiet
  | locked request _ own _ reply returned turn runs =>
      cases Option.some.inj running
      subst code
      obtain ⟨middle, moved, value, ran, _⟩ := runs
      obtain ⟨_, framed⟩ := statement.framed _ others own middle moved value apart (whole ▸ allowed) ran
      rw [show (Store.mk blocks system.store.dev).extend others = system.store from whole.symm] at framed
      exact ⟨_, framed⟩
  | after request _ own _ gotLock reply returned turn finishes =>
      cases Option.some.inj running
      subst code
      obtain ⟨left, moved, value, _, quiet, _⟩ := finishes
      exact quietly own left moved value quiet

theorem sublist_concat {γ : Type} (front list : List γ) (x z : γ) (inside : (front ++ [x]).Sublist (list ++ [z])) :
    (front ++ [x]).Sublist list ∨ x = z ∧ front.Sublist list := by
  obtain ⟨left, right, split, inList, last⟩ := List.sublist_append_iff.mp inside
  rcases List.sublist_singleton.mp last with rfl | rfl
  · rw [List.append_nil] at split
    exact Or.inl (split ▸ inList)
  · obtain ⟨rfl, same⟩ := List.append_inj' split rfl
    exact Or.inr ⟨List.singleton_inj.mp same, inList⟩

omit [DecidableEq ι] in
theorem locked_statements_append (trace : List (Label κ ι)) (step : Label κ ι) :
    lockedStatements (trace ++ [step]) = lockedStatements trace ++ lockedStatements [step] := List.filterMap_append

-- What the locked statements so far say about a client. A number is that of a
-- call of the client.
structure Placed (statements : List (ι × Nat)) (client : ι) (holder : Option ι) (session : Session α β δ ω ρ κ) :
    Prop where
  holding : holder = some client → ∀ other, [(client, session.returned.length), other].Sublist statements →
    other = (client, session.returned.length)
  past : ∀ number, (client, number) ∈ statements → number < session.returned.length ∨
    number = session.returned.length ∧ ∃ call, session.running = some call ∧ call.gotLock = true

structure Grouped (statements : List (ι × Nat)) (system : System α β δ ω ρ κ ι) : Prop where
  grouped : ∀ one other, [one, other, one].Sublist statements → other = one
  placed : ∀ client, Placed statements client system.holder (system.clients client)

omit [DecidableEq ι] in
theorem placed_kept (statements : List (ι × Nat)) (client : ι) (holder later : Option ι) (session : Session α β δ ω ρ κ)
    (call next : Call α β δ ω ρ κ) (own : ω) (placed : Placed statements client holder session)
    (running : session.running = some call) (flag : next.gotLock = call.gotLock)
    (same : later = some client → holder = some client) :
    Placed statements client later ⟨own, some next, session.returned⟩ := by
  refine ⟨fun holds => placed.holding (same holds), fun number member => ?_⟩
  rcases placed.past number member with before | ⟨now, known, found, got⟩
  · exact Or.inl before
  · cases Option.some.inj (running.symm.trans found)
    exact Or.inr ⟨now, next, rfl, flag.trans got⟩

theorem grouped_silent (statements : List (ι × Nat)) (next : System α β δ ω ρ κ ι) (client : ι)
    (session : Session α β δ ω ρ κ) (grouped : Grouped statements system)
    (clients : next.clients = Function.update system.clients client session)
    (placed : Placed statements client next.holder session)
    (others : ∀ other, other ≠ client → next.holder = some other → system.holder = some other) :
    Grouped statements next := by
  refine ⟨grouped.grouped, fun other => ?_⟩
  by_cases same : other = client
  · rw [same, clients, Function.update_self]
    exact placed
  · rw [clients, Function.update_of_ne same]
    exact ⟨fun holds => (grouped.placed other).holding (others other same holds), (grouped.placed other).past⟩

theorem grouped_start (statements : List (ι × Nat)) (client : ι) (call : Call α β δ ω ρ κ)
    (grouped : Grouped statements system) (idle : (system.clients client).running = none)
    (outside : system.holder ≠ some client) :
    Grouped statements (system.put client { system.clients client with running := some call }) := by
  refine grouped_silent statements _ client _ grouped rfl ⟨fun holds => absurd holds outside, ?_⟩ fun _ _ holds => holds
  intro number member
  rcases (grouped.placed client).past number member with earlier | ⟨_, running, at_, _⟩
  · exact Or.inl earlier
  · rw [idle] at at_
    cases at_

-- The locked statement of a call comes after those of its section.
theorem grouped_locked (statements : List (ι × Nat)) (next : System α β δ ω ρ κ ι) (client : ι)
    (call : Call α β δ ω ρ κ) (own : ω) (code : Code α β δ ω ρ) (grouped : Grouped statements system)
    (holds : system.holder = some client) (got : call.gotLock = true) (holder : next.holder = system.holder)
    (clients : next.clients = Function.update system.clients client
      ⟨own, some { call with code }, (system.clients client).returned⟩) :
    Grouped (statements ++ [(client, (system.clients client).returned.length)]) next := by
  refine ⟨?_, fun other => ?_⟩
  · intro one other inside
    rcases sublist_concat [one, other] statements one _ inside with earlier | ⟨rfl, pair⟩
    · exact grouped.grouped one other earlier
    · exact (grouped.placed client).holding holds other pair
  · by_cases same : other = client
    · subst same
      rw [clients, Function.update_self, holder]
      refine ⟨fun _ later inside => ?_, fun number member => ?_⟩
      · rcases sublist_concat [_] statements later _ inside with earlier | ⟨rfl, _⟩
        · exact (grouped.placed other).holding holds later earlier
        · rfl
      · rcases List.mem_append.mp member with earlier | last
        · rcases (grouped.placed other).past number earlier with before | ⟨now, _⟩
          · exact Or.inl before
          · exact Or.inr ⟨now, _, rfl, got⟩
        · have now : number = (system.clients other).returned.length := by simpa using last
          exact Or.inr ⟨now, _, rfl, got⟩
    · rw [clients, Function.update_of_ne same, holder, holds]
      refine ⟨fun mine => absurd (Option.some.inj mine).symm same, fun number member => ?_⟩
      rcases List.mem_append.mp member with earlier | last
      · exact (grouped.placed other).past number earlier
      · exact absurd (by simpa using last : other = client ∧ _).1 same

theorem grouped_proceed (statements : List (ι × Nat)) (next : System α β δ ω ρ κ ι) (client : ι)
    (call : Call α β δ ω ρ κ) (action : Action κ) (grouped : Grouped statements system)
    (running : (system.clients client).running = some call) (standing : Standing system client call)
    (moved : proceed system client call = some (action, next)) :
    Grouped (statements ++ lockedStatements [label system client action]) next := by
  obtain ⟨session, step, clients⟩ := proceed_session system next client call action moved
  have placed := grouped.placed client
  have unlisted : lockedStatements [label system client action] = [] →
      statements ++ lockedStatements [label system client action] = statements := by
    intro nothing
    rw [nothing, List.append_nil]
  generalize holderEq : next.holder = holder at step
  cases step with
  | finish reply turn code =>
      rw [unlisted rfl]
      refine grouped_silent statements next client _ grouped clients ⟨fun holds => ?_, fun number member => ?_⟩
        fun _ _ holds => holderEq ▸ holds
      · exact absurd (holderEq ▸ holds) (standing.returning reply code)
      · rw [List.length_append]
        rcases placed.past number member with before | ⟨now, _⟩
        · exact Or.inl (Nat.lt_succ_of_lt before)
        · exact Or.inl (by rw [now]; exact Nat.lt_succ_self _)
  | statement own code =>
      cases inside : call.inside with
      | true =>
          exact grouped_locked statements next client call own code grouped (standing.inside.mp inside)
            (standing.got inside)
            holderEq clients
      | false =>
          rw [inside] at unlisted
          rw [unlisted rfl]
          exact grouped_silent statements next client _ grouped clients
            (placed_kept statements client _ _ _ call _ own placed running rfl fun holds => holderEq ▸ holds)
            fun _ _ holds => holderEq ▸ holds
  | acquire locked interrupted code =>
      rw [unlisted rfl]
      have unlocked := standing.locking true locked interrupted code
      have fresh : ∀ number, (client, number) ∈ statements → number < (system.clients client).returned.length := by
        intro number member
        rcases placed.past number member with before | ⟨_, known, found, got⟩
        · exact before
        · cases Option.some.inj (running.symm.trans found)
          rw [unlocked] at got
          cases got
      refine grouped_silent statements next client _ grouped clients
        ⟨fun _ other inside => ?_, fun number member => ?_⟩ ?_
      · exact absurd (fresh _ (inside.subset (by simp))) (Nat.lt_irrefl _)
      · exact Or.inl (fresh number member)
      · intro other different holds
        exact absurd (Option.some.inj (holderEq.symm.trans holds)).symm different
  | interrupt code =>
      rw [unlisted rfl]
      exact grouped_silent statements next client _ grouped clients
        (placed_kept statements client _ _ _ call _ _ placed running rfl fun holds => holderEq ▸ holds)
        fun _ _ holds => holderEq ▸ holds
  | release code =>
      rw [unlisted rfl]
      have released : ∀ other, next.holder = some other → system.holder = some other := by
        intro other holds
        rw [holderEq] at holds
        cases holds
      exact grouped_silent statements next client _ grouped clients
        (placed_kept statements client _ _ _ call _ _ placed running rfl (released client)) fun other _ =>
        released other

theorem run_grouped (disciplined : Disciplined body inv claimed) (valid : inv store)
    (run : Run body store owns trace system) :
    Grouped (lockedStatements trace) system := by
  induction run with
  | idle => exact ⟨by simp [lockedStatements], fun client => ⟨by simp [lockedStatements], by simp [lockedStatements]⟩⟩
  | start trace system client request earlier free ih =>
      obtain ⟨order, serial, files, parts, coupled⟩ := run_coupled disciplined valid earlier
      have outside : system.holder ≠ some client := by
        intro holds
        obtain ⟨call, running, _⟩ := holder_running coupled client holds
        rw [free] at running
        cases running
      rw [locked_statements_append, show lockedStatements [label system client (.start request)] =
        [] from rfl, List.append_nil]
      exact grouped_start _ client _ ih free outside
  | proceed trace system next client call action earlier running moved ih =>
      obtain ⟨order, serial, files, parts, coupled⟩ := run_coupled disciplined valid earlier
      rw [locked_statements_append]
      exact grouped_proceed _ next client call action ih running (call_standing coupled client call running) moved

end

end LockProgram

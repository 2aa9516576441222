import AesdChar.Library.Interleaving

set_option autoImplicit false

namespace LockProgram

open HeapStore

section

variable {α β δ ω ρ κ ι : Type}

-- Every statement goes on in every store, save for the excuse given: a store
-- in which the environment cannot have answered what the request says.
def Excused (excuse : Store α β δ → Prop) : Code α β δ ω ρ → Prop
  | .ret _ => True
  | .step statement next =>
      (∀ store, statement.allowed store = false → excuse store) ∧ ∀ value, Excused excuse (next value)
  | .lock _ locked interrupted => Excused excuse locked ∧ Excused excuse interrupted
  | .unlock next => Excused excuse next

-- The next statement needs an answer that cannot have been given in this store.
inductive Stuck (store : Store α β δ) : Code α β δ ω ρ → Prop where
  | refused {τ : Type} (statement : Statement α β δ ω τ) (next : τ → Code α β δ ω ρ)
      (never : statement.allowed store = false) : Stuck store (.step statement next)

variable [DecidableEq ι] {body : κ → Code α β δ ω ρ} {inv : Store α β δ → Prop} {claimed : κ → α → Prop}
  {store : Store α β δ} {owns : ι → ω} {excuse : κ → Store α β δ → Prop}

theorem excused_step (system next : System α β δ ω ρ κ ι) (client : ι) (call later : Call α β δ ω ρ κ)
    (action : Action κ) (excused : Excused (excuse call.request) call.code)
    (moved : proceed system client call = some (action, next))
    (running : (next.clients client).running = some later) : Excused (excuse later.request) later.code := by
  obtain ⟨request, code, gotLock, inside⟩ := call
  cases code with
  | ret reply =>
      simp only [proceed, Option.some.injEq, Prod.mk.injEq] at moved
      obtain ⟨rfl, rfl⟩ := moved
      simp [System.put] at running
  | step statement rest =>
      simp only [proceed] at moved
      split at moved
      · split at moved
        · cases moved
        · simp only [Option.some.injEq, Prod.mk.injEq] at moved
          obtain ⟨rfl, rfl⟩ := moved
          simp only [System.put, Function.update_self, Option.some.injEq] at running
          subst running
          exact excused.2 _
      · cases moved
  | lock granted locked interrupted =>
      cases granted with
      | true =>
          simp only [proceed] at moved
          split at moved
          · simp only [Option.some.injEq, Prod.mk.injEq] at moved
            obtain ⟨rfl, rfl⟩ := moved
            simp only [System.put, Function.update_self, Option.some.injEq] at running
            subst running
            exact excused.1
          · cases moved
      | false =>
          simp only [proceed, Option.some.injEq, Prod.mk.injEq] at moved
          obtain ⟨rfl, rfl⟩ := moved
          simp only [System.put, Function.update_self, Option.some.injEq] at running
          subst running
          exact excused.2
  | unlock rest =>
      simp only [proceed, Option.some.injEq, Prod.mk.injEq] at moved
      obtain ⟨rfl, rfl⟩ := moved
      simp only [System.put, Function.update_self, Option.some.injEq] at running
      subst running
      exact excused

theorem proceed_elsewhere (system next : System α β δ ω ρ κ ι) (client other : ι) (call : Call α β δ ω ρ κ)
    (action : Action κ) (moved : proceed system client call = some (action, next)) (different : other ≠ client) :
    next.clients other = system.clients other := by
  obtain ⟨session, _, clients⟩ := proceed_session system next client call action moved
  rw [clients, Function.update_of_ne different]

theorem proceed_starts_nothing (system next : System α β δ ω ρ κ ι) (client : ι) (call : Call α β δ ω ρ κ)
    (action : Action κ) (moved : proceed system client call = some (action, next)) (request : κ) :
    action ≠ .start request := by
  rintro rfl
  obtain ⟨session, stepped, _⟩ := proceed_session system next client call _ moved
  cases stepped

theorem proceed_holder (system next : System α β δ ω ρ κ ι) (client : ι) (call : Call α β δ ω ρ κ) (action : Action κ)
    (moved : proceed system client call = some (action, next)) :
    next.holder = system.holder ∨ next.holder = none ∨ next.holder = some client := by
  obtain ⟨session, stepped, _⟩ := proceed_session system next client call action moved
  generalize next.holder = holder at stepped ⊢
  cases stepped with
  | acquire => exact Or.inr (Or.inr rfl)
  | release => exact Or.inr (Or.inl rfl)
  | _ => exact Or.inl rfl

theorem run_excused (all : ∀ request, Excused (excuse request) (body request)) (trace : List (Label κ ι))
    (system : System α β δ ω ρ κ ι) (run : Run body store owns trace system) (client : ι) (call : Call α β δ ω ρ κ)
    (running : (system.clients client).running = some call) : Excused (excuse call.request) call.code := by
  induction run generalizing client call with
  | idle => simp [idleSystem] at running
  | start trace system starter request _ _ ih =>
      by_cases mine : client = starter
      · subst mine
        simp only [System.put, Function.update_self, Option.some.injEq] at running
        subst running
        exact all request
      · simp only [System.put, Function.update_of_ne mine] at running
        exact ih client call running
  | proceed trace system next mover moving action _ runs moved ih =>
      by_cases mine : client = mover
      · subst mine
        exact excused_step system next client moving call action (ih client moving runs) moved running
      · rw [proceed_elsewhere system next mover client moving action moved mine] at running
        exact ih client call running

-- Where a client that is let run alone comes to a stop.
inductive Stops (excuse : κ → Store α β δ → Prop) (system : System α β δ ω ρ κ ι) (client : ι) : Prop where
  | returned (idle : (system.clients client).running = none)
  | waits (other : ι) (held : system.holder = some other) (different : other ≠ client)
  | excused (call : Call α β δ ω ρ κ) (running : (system.clients client).running = some call)
      (stuck : Stuck system.store call.code) (why : excuse call.request system.store)

-- A part of a run in which only the given client moves.
structure Alone (body : κ → Code α β δ ω ρ) (store : Store α β δ) (owns : ι → ω) (trace : List (Label κ ι))
    (system : System α β δ ω ρ κ ι) (client : ι) (more : List (Label κ ι)) (final : System α β δ ω ρ κ ι) : Prop where
  run : Run body store owns (trace ++ more) final
  mine : ∀ step ∈ more, step.client = client
  old : ∀ step ∈ more, ∀ request, step.action ≠ .start request
  others : ∀ other, other ≠ client → final.clients other = system.clients other
  holder : final.holder = system.holder ∨ final.holder = none ∨ final.holder = some client

theorem alone_here (trace : List (Label κ ι)) (system : System α β δ ω ρ κ ι) (client : ι)
    (run : Run body store owns trace system) : Alone body store owns trace system client [] system :=
  ⟨by rwa [List.append_nil], by simp, by simp, fun _ _ => rfl, Or.inl rfl⟩

theorem alone_step (trace more : List (Label κ ι)) (system next final : System α β δ ω ρ κ ι) (client : ι)
    (call : Call α β δ ω ρ κ) (action : Action κ) (moved : proceed system client call = some (action, next))
    (later : Alone body store owns (trace ++ [label system client action]) next client more final) :
    Alone body store owns trace system client (label system client action :: more) final := by
  refine ⟨by simpa using later.run, ?_, ?_, ?_, ?_⟩
  · intro step member
    rcases List.mem_cons.mp member with rfl | rest
    · rfl
    · exact later.mine step rest
  · intro step member
    rcases List.mem_cons.mp member with rfl | rest
    · exact proceed_starts_nothing system next client call action moved
    · exact later.old step rest
  · intro other different
    rw [later.others other different, proceed_elsewhere system next client other call action moved different]
  · have first := proceed_holder system next client call action moved
    rcases later.holder with same | free | own
    · rw [same]
      exact first
    · exact Or.inr (Or.inl free)
    · exact Or.inr (Or.inr own)

-- How far a client comes when it is let run alone.
def Reaches (body : κ → Code α β δ ω ρ) (store : Store α β δ) (owns : ι → ω) (excuse : κ → Store α β δ → Prop)
    (trace : List (Label κ ι)) (system : System α β δ ω ρ κ ι) (client : ι) : Prop :=
  ∃ more final, Alone body store owns trace system client more final ∧ Stops excuse final client

theorem reaches_here (trace : List (Label κ ι)) (system : System α β δ ω ρ κ ι) (client : ι)
    (run : Run body store owns trace system) (stops : Stops excuse system client) :
    Reaches body store owns excuse trace system client :=
  ⟨[], system, alone_here trace system client run, stops⟩

theorem reaches_step (trace : List (Label κ ι)) (system next : System α β δ ω ρ κ ι) (client : ι)
    (call : Call α β δ ω ρ κ) (action : Action κ) (run : Run body store owns trace system)
    (running : (system.clients client).running = some call) (moved : proceed system client call = some (action, next))
    (continues : ∀ trace, Run body store owns trace next → Reaches body store owns excuse trace next client) :
    Reaches body store owns excuse trace system client := by
  obtain ⟨more, final, alone, stops⟩ := continues _ (.proceed trace system next client call action run running moved)
  exact ⟨_, final, alone_step trace more system next final client call action moved alone, stops⟩

-- By induction on the code that is left: every step but a wait and an
-- impossible answer leads to a part of it.
theorem call_stops (disciplined : Disciplined body inv claimed) (valid : inv store)
    (all : ∀ request, Excused (excuse request) (body request)) (request : κ) (code : Code α β δ ω ρ)
    (gotLock inside : Bool) (trace : List (Label κ ι)) (system : System α β δ ω ρ κ ι) (client : ι)
    (run : Run body store owns trace system)
    (running : (system.clients client).running = some ⟨request, code, gotLock, inside⟩) :
    Reaches body store owns excuse trace system client := by
  induction code generalizing gotLock inside trace system with
  | ret reply =>
      refine reaches_step trace system _ client _ .finish run running rfl fun trace later => ?_
      exact reaches_here trace _ client later (.returned (by simp [System.put]))
  | step statement rest ih =>
      cases answers : statement.allowed system.store with
      | false =>
          have why := (run_excused all trace system run client _ running).1 system.store answers
          exact reaches_here trace system client run (.excused _ running (.refused statement rest answers) why)
      | true =>
          obtain ⟨order, serial, files, parts, coupled⟩ := run_coupled disciplined valid run
          obtain ⟨⟨after, own, value⟩, ran⟩ := coupled_safe coupled client _ running _ statement rest rfl answers
          refine reaches_step trace system _ client _ (.statement inside) run running
            (by simp only [proceed, answers, if_true, ran]; rfl) fun trace later => ?_
          exact ih value gotLock inside trace _ later (by simp [System.put])
  | lock granted locked interrupted ihLocked ihInterrupted =>
      cases granted with
      | true =>
          cases holder : system.holder with
          | none =>
              refine reaches_step trace system _ client _ (.acquire request) run running
                (by simp only [proceed, holder, Option.isNone_none, if_true]; rfl) fun trace later => ?_
              exact ihLocked true true trace _ later (by simp [System.put])
          | some other =>
              refine reaches_here trace system client run (.waits other holder ?_)
              rintro rfl
              obtain ⟨order, serial, files, parts, coupled⟩ := run_coupled disciplined valid run
              have standing := call_standing coupled other _ running
              have got := standing.got (standing.inside.mpr holder)
              exact Bool.false_ne_true ((standing.locking _ _ _ rfl).symm.trans got)
      | false =>
          refine reaches_step trace system _ client _ .interrupt run running rfl fun trace later => ?_
          exact ihInterrupted gotLock inside trace _ later (by simp [System.put])
  | unlock rest ih =>
      refine reaches_step trace system _ client _ .release run running rfl fun trace later => ?_
      exact ih gotLock false trace _ later (by simp [System.put])

-- Where a part of a run leads that lets some of the clients return.
inductive Drains (excuse : κ → Store α β δ → Prop) (system : System α β δ ω ρ κ ι) (clients : ι → Prop) : Prop where
  | idle (returned : ∀ client, clients client → (system.clients client).running = none)
  | excused (client : ι) (call : Call α β δ ω ρ κ) (running : (system.clients client).running = some call)
      (stuck : Stuck system.store call.code) (why : excuse call.request system.store)

structure Continues (body : κ → Code α β δ ω ρ) (store : Store α β δ) (owns : ι → ω) (trace : List (Label κ ι))
    (system : System α β δ ω ρ κ ι) (more : List (Label κ ι)) (final : System α β δ ω ρ κ ι) : Prop where
  run : Run body store owns (trace ++ more) final
  old : ∀ step ∈ more, ∀ request, step.action ≠ .start request
  idle : ∀ client, (system.clients client).running = none → (final.clients client).running = none

theorem alone_continues (trace more : List (Label κ ι)) (system final : System α β δ ω ρ κ ι) (client : ι)
    (running : (system.clients client).running ≠ none) (alone : Alone body store owns trace system client more final) :
    Continues body store owns trace system more final := by
  refine ⟨alone.run, alone.old, fun other idle => ?_⟩
  have different : other ≠ client := fun same => running (same ▸ idle)
  rw [alone.others other different]
  exact idle

theorem continues_trans (trace more further : List (Label κ ι)) (system middle final : System α β δ ω ρ κ ι)
    (first : Continues body store owns trace system more middle)
    (second : Continues body store owns (trace ++ more) middle further final) :
    Continues body store owns trace system (more ++ further) final :=
  ⟨by simpa using second.run, fun step member => (List.mem_append.mp member).elim (first.old step) (second.old step),
    fun client idle => second.idle client (first.idle client idle)⟩

theorem continues_here (trace : List (Label κ ι)) (system : System α β δ ω ρ κ ι)
    (run : Run body store owns trace system) :
    Continues body store owns trace system [] system :=
  ⟨by rwa [List.append_nil], by simp, fun _ idle => idle⟩

theorem idle_not_holder (disciplined : Disciplined body inv claimed) (valid : inv store) (trace : List (Label κ ι))
    (system : System α β δ ω ρ κ ι) (client : ι) (run : Run body store owns trace system)
    (idle : (system.clients client).running = none) : system.holder ≠ some client := by
  intro holds
  obtain ⟨order, serial, files, parts, coupled⟩ := run_coupled disciplined valid run
  obtain ⟨call, running, _⟩ := holder_running coupled client holds
  rw [idle] at running
  cases running

-- A client that nobody keeps from the lock returns.
theorem unblocked_returns (disciplined : Disciplined body inv claimed) (valid : inv store)
    (all : ∀ request, Excused (excuse request) (body request)) (trace : List (Label κ ι))
    (system : System α β δ ω ρ κ ι) (client : ι) (run : Run body store owns trace system)
    (free : system.holder = none ∨ system.holder = some client) :
    ∃ more final, Continues body store owns trace system more final ∧ Drains excuse final (· = client) ∧
      (final.holder = none ∨ final.holder = some client) := by
  cases busy : (system.clients client).running with
  | none => exact ⟨[], system, continues_here trace system run, .idle fun _ same => same ▸ busy, free⟩
  | some call =>
      obtain ⟨request, code, gotLock, inside⟩ := call
      obtain ⟨more, final, alone, stops⟩ :=
        call_stops disciplined valid all request code gotLock inside trace system client run busy
      have continued := alone_continues trace more system final client (by simp [busy]) alone
      have stillFree : final.holder = none ∨ final.holder = some client := by
        rcases alone.holder with same | released | own
        · rw [same]
          exact free
        · exact Or.inl released
        · exact Or.inr own
      refine ⟨more, final, continued, ?_, stillFree⟩
      cases stops with
      | returned idle => exact .idle fun _ same => same ▸ idle
      | excused call running stuck why => exact .excused client call running stuck why
      | waits other held different =>
          rw [held] at stillFree
          rcases stillFree with nobody | mine
          · cases nobody
          · exact absurd (Option.some.inj mine) different

-- A client kept from the lock returns after the holder has.
theorem call_returns (disciplined : Disciplined body inv claimed) (valid : inv store)
    (all : ∀ request, Excused (excuse request) (body request)) (trace : List (Label κ ι))
    (system : System α β δ ω ρ κ ι) (client : ι) (run : Run body store owns trace system) :
    ∃ more final, Continues body store owns trace system more final ∧ Drains excuse final (· = client) := by
  cases holder : system.holder with
  | none =>
      obtain ⟨more, final, continued, drains, _⟩ :=
        unblocked_returns disciplined valid all trace system client run (Or.inl holder)
      exact ⟨more, final, continued, drains⟩
  | some other =>
      obtain ⟨more, middle, first, drains, left⟩ :=
        unblocked_returns disciplined valid all trace system other run (Or.inr holder)
      cases drains with
      | excused halted call running stuck why => exact ⟨more, middle, first, .excused halted call running stuck why⟩
      | idle returned =>
          have gone := idle_not_holder disciplined valid _ middle other first.run (returned other rfl)
          obtain ⟨further, final, second, drains, _⟩ :=
            unblocked_returns disciplined valid all _ middle client first.run (Or.inl (left.resolve_right gone))
          exact ⟨more ++ further, final, continues_trans trace more further system middle final first second, drains⟩

-- No interleaving is a dead end: the calls under way can all be brought to
-- their returns.
theorem calls_drain (disciplined : Disciplined body inv claimed) (valid : inv store)
    (all : ∀ request, Excused (excuse request) (body request)) (busy : List ι) (trace : List (Label κ ι))
    (system : System α β δ ω ρ κ ι) (run : Run body store owns trace system) :
    ∃ more final, Continues body store owns trace system more final ∧ Drains excuse final (· ∈ busy) := by
  induction busy generalizing trace system with
  | nil => exact ⟨[], system, continues_here trace system run, .idle fun _ member => absurd member (by simp)⟩
  | cons client rest ih =>
      obtain ⟨more, middle, first, drains⟩ := call_returns disciplined valid all trace system client run
      cases drains with
      | excused halted call running stuck why => exact ⟨more, middle, first, .excused halted call running stuck why⟩
      | idle returned =>
          obtain ⟨further, final, second, drains⟩ := ih _ middle first.run
          refine ⟨more ++ further, final, continues_trans trace more further system middle final first second, ?_⟩
          cases drains with
          | excused halted call running stuck why => exact .excused halted call running stuck why
          | idle others =>
              refine .idle fun other member => ?_
              rcases List.mem_cons.mp member with rfl | later
              · exact second.idle other (returned other rfl)
              · exact others other later

end

end LockProgram

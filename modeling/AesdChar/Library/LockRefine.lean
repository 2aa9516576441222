import AesdChar.Library.Interleaving

set_option autoImplicit false

namespace LockProgram

open HeapStore

section

variable {α β δ σ ω ρ κ ι : Type} [DecidableEq ι]

-- Calls one after another by a specification of their own, on a state that
-- knows nothing of the store. A call that never took the lock leaves the state
-- alone.
inductive Explained (spec : κ → σ → ω → σ → ω → ρ → Prop) (start : σ) (owns : ι → ω) :
    List (ι × Turn κ ρ) → σ → (ι → ω) → Prop where
  | none : Explained spec start owns [] start owns
  | turn (order : List (ι × Turn κ ρ)) (before after : σ) (files : ι → ω) (client : ι) (request : κ) (gotLock : Bool)
      (own : ω) (reply : ρ) (earlier : Explained spec start owns order before files)
      (meets : spec request before (files client) after own reply) (outside : gotLock = false → after = before) :
      Explained spec start owns (order ++ [(client, ⟨request, gotLock, reply⟩)]) after
        (Function.update files client own)

-- elsewhere: the same state can be had in a store that leaves the addresses a
-- call is given free.
structure Meets (eval : κ → Store α β δ → ω → Option (Store α β δ × ω × ρ)) (claimed : κ → α → Prop)
    (spec : κ → σ → ω → σ → ω → ρ → Prop) (rel : Store α β δ → σ → Prop) : Prop where
  step : ∀ store state request own after moved reply, rel store state →
    eval request store own = some (after, moved, reply) →
    ∃ next, spec request state own next moved reply ∧ rel after next ∧ (after = store → next = state)
  elsewhere : ∀ store state request, rel store state → ∃ other, rel other state ∧ ∀ a, claimed request a →
    other.heap a = none

theorem serial_explained (eval : κ → Store α β δ → ω → Option (Store α β δ × ω × ρ)) (claimed : κ → α → Prop)
    (spec : κ → σ → ω → σ → ω → ρ → Prop) (rel : Store α β δ → σ → Prop) (meets : Meets eval claimed spec rel)
    (store after : Store α β δ) (state : σ) (owns files : ι → ω) (order : List (ι × Turn κ ρ)) (start : rel store state)
    (serial : Serial eval claimed store owns order after files) :
    ∃ next, Explained spec state owns order next files ∧ rel after next := by
  induction serial with
  | none => exact ⟨state, .none, start⟩
  | locked order before after files client request own reply _ ran ih =>
      obtain ⟨middle, explained, related⟩ := ih
      obtain ⟨next, done, kept, _⟩ := meets.step before middle request _ after own reply related ran
      exact ⟨next, .turn order middle next files client request true own reply explained done nofun, kept⟩
  | unlocked order before files client request own reply _ ran ih =>
      obtain ⟨middle, explained, related⟩ := ih
      obtain ⟨other, same, spare⟩ := meets.elsewhere before middle request related
      obtain ⟨next, done, _, silent⟩ := meets.step other middle request _ other own reply same (ran other spare)
      have unchanged := silent rfl
      subst unchanged
      exact ⟨next, .turn order next next files client request false own reply explained done (fun _ => rfl), related⟩

variable {body : κ → Code α β δ ω ρ} {inv : Store α β δ → Prop} {claimed : κ → α → Prop}
    {store : Store α β δ} {owns : ι → ω}
  {trace : List (Label κ ι)} {system : System α β δ ω ρ κ ι} {order : List (ι × Turn κ ρ)} {serial : Store α β δ}
  {files : ι → ω} {parts : Option ι → Blocks α β}

-- A call under way is in the order at most once, as its client's last.
def TurnsMatch (session : Session α β δ ω ρ κ) (turns : List (Turn κ ρ)) : Prop :=
  turns = session.returned ∨
    ∃ call turn, session.running = some call ∧ turn.request = call.request ∧ turns = session.returned ++ [turn]

theorem coupled_turns (coupled : Coupled body inv claimed store owns trace system order serial files parts)
    (client : ι) :
    TurnsMatch (system.clients client) (turnsOf client order) := by
  have tracked := coupled.tracked client
  generalize decide (system.holder = some client) = held at tracked
  generalize parts (some client) = blocks at tracked
  generalize system.clients client = session at tracked ⊢
  generalize turnsOf client order = settled at tracked ⊢
  cases tracked with
  | idle => exact Or.inl rfl
  | before => exact Or.inl rfl
  | locked request code own _ reply returned turn => exact Or.inr ⟨_, ⟨request, true, reply⟩, rfl, rfl, turn⟩
  | after request code own _ gotLock reply returned turn => exact Or.inr ⟨_, ⟨request, gotLock, reply⟩, rfl, rfl, turn⟩

-- Every interleaving, whoever is in the middle of a call, is explained by the
-- specification in the order of the lock acquisitions.
theorem run_explained (disciplined : Disciplined body inv claimed) (valid : inv store)
    (spec : κ → σ → ω → σ → ω → ρ → Prop) (rel : Store α β δ → σ → Prop)
    (meets : Meets (fun request => exec (body request)) claimed spec rel) (state : σ) (start : rel store state)
    (run : Run body store owns trace system) :
    ∃ (order : List (ι × Turn κ ρ)) (next : σ) (files : ι → ω), Explained spec state owns order next files ∧
      lockers order = acquisitions trace ∧ (∀ client, TurnsMatch (system.clients client) (turnsOf client order)) ∧
      ((∀ client, (system.clients client).running = none) →
        rel system.store next ∧ files = fun client => (system.clients client).own) := by
  obtain ⟨order, serial, files, parts, coupled⟩ := run_coupled disciplined valid run
  by_cases idle : ∀ client, (system.clients client).running = none
  · obtain ⟨replayed, _, acquired⟩ := coupled_serial coupled idle
    obtain ⟨next, explained, related⟩ :=
      serial_explained _ claimed spec rel meets store _ state owns _ order start replayed
    exact ⟨order, next, _, explained, acquired, coupled_turns coupled, fun _ => ⟨related, rfl⟩⟩
  · obtain ⟨next, explained, _⟩ :=
      serial_explained _ claimed spec rel meets store serial state owns files order start coupled.replayed
    exact ⟨order, next, files, explained, coupled.acquired, coupled_turns coupled, fun stopped => absurd stopped idle⟩

end

end LockProgram

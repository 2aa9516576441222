import AesdChar.Library.LockProgram

set_option autoImplicit false

namespace LockProgram

open HeapStore

section

variable {α β δ ω ρ τ : Type}

def Quiet (statement : Statement α β δ ω τ) (blocks : Blocks α β) (own : ω) (left : Blocks α β) (moved : ω)
    (value : τ) : Prop := ∀ dev, statement.run ⟨blocks, dev⟩ own = some (⟨left, dev⟩, moved, value)

-- From here on the call needs no lock. It gives its blocks back and returns.
def Finishes : Code α β δ ω ρ → Blocks α β → ω → ω → ρ → Prop
  | .ret result, blocks, own, final, reply => blocks = noBlocks ∧ own = final ∧ result = reply
  | .step statement next, blocks, own, final, reply =>
      ∃ left moved value, (∀ store, statement.allowed store = true) ∧ Quiet statement blocks own left moved value ∧
        Finishes (next value) left moved final reply
  | .lock _ _ _, _, _, _, _ => False
  | .unlock _, _, _, _, _ => False

-- A locked section run from a store reaches its unlock, where the store is the
-- one it leaves behind and the blocks of its client.
def Locked : Code α β δ ω ρ → Store α β δ → ω → Store α β δ → ω → ρ → Prop
  | .step statement next, store, own, after, final, reply =>
      ∃ middle moved value, statement.run store own = some (middle, moved, value) ∧
        Locked (next value) middle moved after final reply
  | .unlock next, store, own, after, final, reply =>
      ∃ blocks, Apart blocks after.heap ∧ store = (Store.mk blocks after.dev).extend after.heap ∧
        Finishes next blocks own final reply
  | .ret _, _, _, _, _, _ => False
  | .lock _ _ _, _, _, _, _, _ => False

-- Before the lock a call allocates and fills blocks of its own, at the claimed
-- addresses, and frees none until it is clear that it will not take the lock.
def Before (inv : Store α β δ → Prop) (claimed : α → Prop) : Code α β δ ω ρ → Blocks α β → ω → Prop
  | .ret _, blocks, _ => blocks = noBlocks
  | .step statement next, blocks, own =>
      (∃ final reply, Finishes (.step statement next) blocks own final reply) ∨
      ∃ grown moved value, (∀ a, grown a = none ∨ claimed a) ∧
        (∀ rest, Apart grown rest → Apart blocks rest ∧ ∀ dev, statement.allowed ⟨union blocks rest, dev⟩ = true) ∧
        Quiet statement blocks own grown moved value ∧ Before inv claimed (next value) grown moved
  | .lock true locked _, blocks, own =>
      ∀ store, inv store → Apart blocks store.heap →
        ∃ after final reply, inv after ∧
          Locked locked ((Store.mk blocks store.dev).extend store.heap) own after final reply
  | .lock false _ interrupted, blocks, own => ∃ final reply, Finishes interrupted blocks own final reply
  | .unlock _, _, _ => False

-- Running the rest of a call is running the call: origin is the call, first
-- what its client owned when it began.
def Replays (origin : Code α β δ ω ρ) (first : ω) (code : Code α β δ ω ρ) (blocks : Blocks α β) (own : ω) : Prop :=
  ∀ dev rest, Apart blocks rest → exec origin ⟨rest, dev⟩ first = exec code ⟨union blocks rest, dev⟩ own

theorem quiet_framed (statement : Statement α β δ ω τ) (blocks left rest : Blocks α β) (own moved : ω) (value : τ)
    (dev : δ) (quiet : Quiet statement blocks own left moved value) (apart : Apart blocks rest)
    (allowed : statement.allowed ⟨union blocks rest, dev⟩ = true) :
    Apart left rest ∧ statement.run ⟨union blocks rest, dev⟩ own = some (⟨union left rest, dev⟩, moved, value) :=
  statement.framed ⟨blocks, dev⟩ rest own ⟨left, dev⟩ moved value apart allowed (quiet dev)

theorem exec_finishes (code : Code α β δ ω ρ) (blocks rest : Blocks α β) (own final : ω) (reply : ρ) (dev : δ)
    (apart : Apart blocks rest) (finishes : Finishes code blocks own final reply) :
    exec code ⟨union blocks rest, dev⟩ own = some (⟨rest, dev⟩, final, reply) := by
  induction code generalizing blocks own with
  | ret result =>
      obtain ⟨rfl, rfl, rfl⟩ := finishes
      rfl
  | step statement next ih =>
      obtain ⟨left, moved, value, allowed, quiet, later⟩ := finishes
      obtain ⟨leftApart, ran⟩ := quiet_framed statement blocks left rest own moved value dev quiet apart (allowed _)
      simp only [exec, ran]
      exact ih value left moved leftApart later
  | lock => exact finishes.elim
  | unlock => exact finishes.elim

theorem exec_locked (code : Code α β δ ω ρ) (store after : Store α β δ) (own final : ω) (reply : ρ)
    (locked : Locked code store own after final reply) : exec code store own = some (after, final, reply) := by
  induction code generalizing store own with
  | ret => exact locked.elim
  | step statement next ih =>
      obtain ⟨middle, moved, value, ran, later⟩ := locked
      simp only [exec, ran]
      exact ih value middle moved later
  | lock => exact locked.elim
  | unlock next _ =>
      obtain ⟨blocks, apart, rfl, finishes⟩ := locked
      exact exec_finishes next blocks after.heap own final reply after.dev apart finishes

-- A section each of whose ways ends in an unlock is a locked section as soon as
-- it runs to its end at all.
def Unlocks : Code α β δ ω ρ → Prop
  | .step _ next => ∀ value, Unlocks (next value)
  | .unlock next => ∀ store own after final reply, exec next store own = some (after, final, reply) →
      ∃ blocks, Apart blocks after.heap ∧ store = (Store.mk blocks after.dev).extend after.heap ∧
        Finishes next blocks own final reply
  | .ret _ => False
  | .lock _ _ _ => False

theorem unlocks_locked (code : Code α β δ ω ρ) (store after : Store α β δ) (own final : ω) (reply : ρ)
    (unlocks : Unlocks code) (ran : exec code store own = some (after, final, reply)) :
    Locked code store own after final reply := by
  induction code generalizing store own with
  | ret => exact unlocks.elim
  | step statement next ih =>
      simp only [exec] at ran
      cases result : statement.run store own with
      | none => simp [result] at ran
      | some outcome =>
          obtain ⟨middle, moved, value⟩ := outcome
          simp only [result] at ran
          exact ⟨middle, moved, value, result, ih value middle moved (unlocks value) ran⟩
  | lock => exact unlocks.elim
  | unlock next _ => exact unlocks store own after final reply ran

theorem replays_start (origin : Code α β δ ω ρ) (first : ω) : Replays origin first origin noBlocks first :=
  fun _ _ _ => rfl

theorem replays_step (origin : Code α β δ ω ρ) (first own moved : ω) (statement : Statement α β δ ω τ)
    (next : τ → Code α β δ ω ρ) (blocks grown : Blocks α β) (value : τ)
    (replays : Replays origin first (.step statement next) blocks own)
    (quiet : Quiet statement blocks own grown moved value)
    (allowed : ∀ rest, Apart grown rest → Apart blocks rest ∧
      ∀ dev, statement.allowed ⟨union blocks rest, dev⟩ = true) :
    Replays origin first (next value) grown moved := by
  intro dev rest apart
  obtain ⟨blocksApart, answers⟩ := allowed rest apart
  obtain ⟨_, ran⟩ := quiet_framed statement blocks grown rest own moved value dev quiet blocksApart (answers dev)
  rw [replays dev rest blocksApart]
  simp only [exec, ran]

theorem replays_finishes (origin code : Code α β δ ω ρ) (first own final : ω) (blocks : Blocks α β) (reply : ρ)
    (claimed : α → Prop) (within : ∀ a, blocks a = none ∨ claimed a) (replays : Replays origin first code blocks own)
    (finishes : Finishes code blocks own final reply) (anywhere : Store α β δ)
    (spare : ∀ a, claimed a → anywhere.heap a = none) : exec origin anywhere first = some (anywhere, final, reply) := by
  have apart : Apart blocks anywhere.heap := fun a => (within a).imp_right (spare a)
  rw [show anywhere = ⟨anywhere.heap, anywhere.dev⟩ from rfl, replays anywhere.dev anywhere.heap apart]
  exact exec_finishes code blocks anywhere.heap own final reply anywhere.dev apart finishes

theorem before_quiet (inv : Store α β δ → Prop) (claimed : α → Prop) (origin : Code α β δ ω ρ) (first own moved : ω)
    (statement : Statement α β δ ω τ) (next : τ → Code α β δ ω ρ) (blocks grown : Blocks α β) (value : τ)
    (replays : Replays origin first (.step statement next) blocks own) (claims : ∀ a, grown a = none ∨ claimed a)
    (allowed : ∀ rest, Apart grown rest → Apart blocks rest ∧ ∀ dev, statement.allowed ⟨union blocks rest, dev⟩ = true)
    (quiet : Quiet statement blocks own grown moved value)
    (later : Replays origin first (next value) grown moved → Before inv claimed (next value) grown moved) :
    Before inv claimed (.step statement next) blocks own :=
  Or.inr ⟨grown, moved, value, claims, allowed, quiet,
    later (replays_step origin first own moved statement next blocks grown value replays quiet allowed)⟩

theorem before_lock (inv : Store α β δ → Prop) (claimed : α → Prop) (origin locked interrupted : Code α β δ ω ρ)
    (first own : ω) (blocks : Blocks α β) (granted : Bool)
    (replays : Replays origin first (.lock granted locked interrupted) blocks own)
    (total : ∀ store, inv store → ∃ after final reply, inv after ∧ exec origin store first = some (after, final, reply))
    (unlocks : Unlocks locked) (gives : ∃ final reply, Finishes interrupted blocks own final reply) :
    Before inv claimed (.lock granted locked interrupted) blocks own := by
  cases granted with
  | false => exact gives
  | true =>
      intro store valid apart
      obtain ⟨after, final, reply, kept, ran⟩ := total store valid
      refine ⟨after, final, reply, kept, unlocks_locked locked _ after own final reply unlocks ?_⟩
      rw [← ran]
      exact (replays store.dev store.heap apart).symm

theorem unlocks_plain (next : Code α β δ ω ρ)
    (finishes : ∀ own, ∃ final reply, Finishes next noBlocks own final reply) :
    Unlocks (.unlock next) := by
  intro store own after final reply ran
  obtain ⟨last, answer, plain⟩ := finishes own
  have ended := exec_finishes next noBlocks store.heap own last answer store.dev (no_blocks_apart _) plain
  cases Option.some.inj (ran.symm.trans ended)
  exact ⟨noBlocks, no_blocks_apart _, rfl, plain⟩

end

end LockProgram

import AesdChar.Library.HeapStore
import Mathlib.Data.List.Basic

set_option autoImplicit false

namespace LockProgram

open HeapStore

-- A statement works on the shared store and on what its client owns alone.
-- allowed: the answers the environment may give in this store. framed: blocks
-- it does not know of stay as they are and make no difference to it.
structure Statement (α β δ ω τ : Type) where
  allowed : Store α β δ → Bool
  run : Store α β δ → ω → Option (Store α β δ × ω × τ)
  framed : ∀ store extra own next moved value, Apart store.heap extra → allowed (store.extend extra) = true →
    run store own = some (next, moved, value) →
    Apart next.heap extra ∧ run (store.extend extra) own = some (next.extend extra, moved, value)

def Statement.record {α β δ ω τ : Type} (f : δ → ω → Option (δ × ω × τ)) : Statement α β δ ω τ where
  allowed := fun _ => true
  run := fun store own => (f store.dev own).map fun result => (⟨store.heap, result.1⟩, result.2)
  framed := by
    intro store extra own next moved value apart _ ran
    obtain ⟨result, found, same⟩ := Option.map_eq_some_iff.mp ran
    simp only [Prod.mk.injEq] at same
    obtain ⟨rfl, given⟩ := same
    refine ⟨apart, ?_⟩
    simp only [Store.extend, found, Option.map_some, given]

-- granted: whether the lock is taken or the wait for it is interrupted.
inductive Code (α β δ ω ρ : Type) : Type 1 where
  | ret (reply : ρ)
  | step {τ : Type} (statement : Statement α β δ ω τ) (next : τ → Code α β δ ω ρ)
  | lock (granted : Bool) (locked interrupted : Code α β δ ω ρ)
  | unlock (next : Code α β δ ω ρ)

-- A call under way. gotLock: it has taken the lock. inside: and not yet
-- released it.
structure Call (α β δ ω ρ κ : Type) where
  request : κ
  code : Code α β δ ω ρ
  gotLock : Bool
  inside : Bool

structure Turn (κ ρ : Type) where
  request : κ
  gotLock : Bool
  reply : ρ
deriving DecidableEq

structure Session (α β δ ω ρ κ : Type) where
  own : ω
  running : Option (Call α β δ ω ρ κ)
  returned : List (Turn κ ρ)

structure System (α β δ ω ρ κ ι : Type) where
  store : Store α β δ
  holder : Option ι
  clients : ι → Session α β δ ω ρ κ

inductive Action (κ : Type) where
  | start (request : κ)
  | statement (inside : Bool)
  | acquire (request : κ)
  | interrupt
  | release
  | finish

structure Label (κ ι : Type) where
  client : ι
  number : Nat
  action : Action κ

section

variable {α β δ ω ρ κ ι : Type}

-- The program alone, from its first statement to its return.
def exec : Code α β δ ω ρ → Store α β δ → ω → Option (Store α β δ × ω × ρ)
  | .ret reply, store, own => some (store, own, reply)
  | .step statement next, store, own =>
      match statement.run store own with
      | none => none
      | some (after, moved, value) => exec (next value) after moved
  | .lock granted locked interrupted, store, own =>
      if granted then exec locked store own else exec interrupted store own
  | .unlock next, store, own => exec next store own

theorem exec_step {τ : Type} (statement : Statement α β δ ω τ) (next : τ → Code α β δ ω ρ)
    (store : Store α β δ) (own : ω) :
    exec (.step statement next) store own =
      (statement.run store own).bind fun result => exec (next result.2.2) result.1 result.2.1 := by
  simp only [exec]
  cases statement.run store own <;> rfl

theorem exec_record {τ : Type} (f : δ → ω → Option (δ × ω × τ)) (next : τ → Code α β δ ω ρ)
    (store : Store α β δ) (own : ω) :
    exec (.step (.record f) next) store own =
      (f store.dev own).bind fun result => exec (next result.2.2) ⟨store.heap, result.1⟩ result.2.1 := by
  rw [exec_step]
  exact Option.bind_map

def idleSystem (store : Store α β δ) (owns : ι → ω) : System α β δ ω ρ κ ι :=
    ⟨store, none, fun client => ⟨owns client, none, []⟩⟩

variable [DecidableEq ι]

def System.put (system : System α β δ ω ρ κ ι) (client : ι) (session : Session α β δ ω ρ κ) : System α β δ ω ρ κ ι :=
  { system with clients := Function.update system.clients client session }

-- The next step of a running call. none: it waits for the lock, the
-- environment's answer is not allowed here, or the statement is faulty.
def proceed (system : System α β δ ω ρ κ ι) (client : ι) (call : Call α β δ ω ρ κ) :
    Option (Action κ × System α β δ ω ρ κ ι) :=
  let session := system.clients client
  match call.code with
  | .ret reply =>
      some (.finish,
        system.put client ⟨session.own, none, session.returned ++ [⟨call.request, call.gotLock, reply⟩]⟩)
  | .step statement next =>
      if statement.allowed system.store then
        match statement.run system.store session.own with
        | none => none
        | some (store, own, value) =>
            some (.statement call.inside,
              { system with store }.put client ⟨own, some { call with code := next value }, session.returned⟩)
      else none
  | .lock true locked _ =>
      if system.holder.isNone then
        some (.acquire call.request,
          { system with holder := some client }.put client
            { session with running := some ⟨call.request, locked, true, true⟩ })
      else none
  | .lock false _ interrupted =>
      some (.interrupt, system.put client { session with running := some { call with code := interrupted } })
  | .unlock next =>
      some (.release,
        { system with holder := none }.put client
          { session with running := some { call with code := next, inside := false } })

def label (system : System α β δ ω ρ κ ι) (client : ι) (action : Action κ) : Label κ ι :=
  ⟨client, (system.clients client).returned.length, action⟩

-- Any interleaving of the calls of any number of clients.
inductive Run (body : κ → Code α β δ ω ρ) (store : Store α β δ) (owns : ι → ω) :
    List (Label κ ι) → System α β δ ω ρ κ ι → Prop where
  | idle : Run body store owns [] (idleSystem store owns)
  | start (trace : List (Label κ ι)) (system : System α β δ ω ρ κ ι) (client : ι) (request : κ)
      (earlier : Run body store owns trace system) (free : (system.clients client).running = none) :
      Run body store owns (trace ++ [label system client (.start request)])
        (system.put client { system.clients client with running := some ⟨request, body request, false, false⟩ })
  | proceed (trace : List (Label κ ι)) (system next : System α β δ ω ρ κ ι) (client : ι) (call : Call α β δ ω ρ κ)
      (action : Action κ) (earlier : Run body store owns trace system)
      (running : (system.clients client).running = some call)
      (moved : proceed system client call = some (action, next)) :
      Run body store owns (trace ++ [label system client action]) next

def acquisitions (trace : List (Label κ ι)) : List (ι × κ) :=
  trace.filterMap fun step => match step.action with
    | .acquire request => some (step.client, request)
    | _ => none

def lockedStatements (trace : List (Label κ ι)) : List (ι × Nat) :=
  trace.filterMap fun step => match step.action with
    | .statement true => some (step.client, step.number)
    | _ => none

def turnsOf (client : ι) (order : List (ι × Turn κ ρ)) : List (Turn κ ρ) :=
  order.filterMap fun turn => if turn.1 = client then some turn.2 else none

def lockers (order : List (ι × Turn κ ρ)) : List (ι × κ) :=
  order.filterMap fun turn => if turn.2.gotLock then some (turn.1, turn.2.request) else none

-- Calls one after another. A call that never takes the lock does the same in
-- every store that leaves the addresses it is given (claimed) free, and changes
-- nothing there.
inductive Serial (eval : κ → Store α β δ → ω → Option (Store α β δ × ω × ρ)) (claimed : κ → α → Prop)
    (store : Store α β δ) (owns : ι → ω) : List (ι × Turn κ ρ) → Store α β δ → (ι → ω) → Prop where
  | none : Serial eval claimed store owns [] store owns
  | locked (order : List (ι × Turn κ ρ)) (before after : Store α β δ) (files : ι → ω) (client : ι)
      (request : κ) (own : ω)
      (reply : ρ) (earlier : Serial eval claimed store owns order before files)
      (ran : eval request before (files client) = some (after, own, reply)) :
      Serial eval claimed store owns (order ++ [(client, ⟨request, true, reply⟩)]) after
        (Function.update files client own)
  | unlocked (order : List (ι × Turn κ ρ)) (before : Store α β δ) (files : ι → ω) (client : ι) (request : κ) (own : ω)
      (reply : ρ) (earlier : Serial eval claimed store owns order before files)
      (ran : ∀ anywhere, (∀ a, claimed request a → anywhere.heap a = none) →
        eval request anywhere (files client) = some (anywhere, own, reply)) :
      Serial eval claimed store owns (order ++ [(client, ⟨request, false, reply⟩)]) before
        (Function.update files client own)

-- A schedule: which client starts which call, and whose turn it is.
inductive Move (κ ι : Type) where
  | start (client : ι) (request : κ)
  | go (client : ι)

def play (body : κ → Code α β δ ω ρ) (system : System α β δ ω ρ κ ι) :
    List (Move κ ι) → Option (List (Label κ ι) × System α β δ ω ρ κ ι)
  | [] => some ([], system)
  | .start client request :: rest =>
      match (system.clients client).running with
      | some _ => none
      | none =>
          let next :=
            system.put client { system.clients client with running := some ⟨request, body request, false, false⟩ }
          (play body next rest).map fun later => (label system client (.start request) :: later.1, later.2)
  | .go client :: rest =>
      match (system.clients client).running with
      | none => none
      | some call =>
          match proceed system client call with
          | none => none
          | some (action, next) => (play body next rest).map fun later =>
              (label system client action :: later.1, later.2)

theorem play_run (body : κ → Code α β δ ω ρ) (store : Store α β δ) (owns : ι → ω) (moves : List (Move κ ι))
    (trace more : List (Label κ ι)) (system final : System α β δ ω ρ κ ι) (run : Run body store owns trace system)
    (played : play body system moves = some (more, final)) : Run body store owns (trace ++ more) final := by
  induction moves generalizing trace more system with
  | nil =>
      cases Option.some.inj played
      simpa using run
  | cons move rest ih =>
      cases move with
      | start client request =>
          cases free : (system.clients client).running with
          | some call => simp [play, free] at played
          | none =>
              simp only [play, free] at played
              obtain ⟨later, continued, same⟩ := Option.map_eq_some_iff.mp played
              cases same
              simpa using ih _ later.1 _ (.start trace system client request run free) continued
      | go client =>
          cases running : (system.clients client).running with
          | none => simp [play, running] at played
          | some call =>
              cases moved : proceed system client call with
              | none => simp [play, running, moved] at played
              | some step =>
                  obtain ⟨action, next⟩ := step
                  simp only [play, running, moved] at played
                  obtain ⟨later, continued, same⟩ := Option.map_eq_some_iff.mp played
                  cases same
                  simpa using ih _ later.1 _ (.proceed trace system next client call action run running moved) continued

end

end LockProgram

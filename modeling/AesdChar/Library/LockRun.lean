import AesdChar.Library.LockSerial

set_option autoImplicit false

namespace LockProgram

open HeapStore

section

variable {α β δ ω ρ κ ι : Type} [DecidableEq ι]

-- Where a client is, against the serial run of the calls settled so far: those
-- that have taken the lock and those that no longer can. blocks: what it owns.
-- held: whether it holds the lock, and with it the blocks of the device.
inductive Tracks (body : κ → Code α β δ ω ρ) (inv : Store α β δ → Prop) (claimed : κ → α → Prop) (serial : Store α β δ)
    (file : ω) (settled : List (Turn κ ρ)) (dev : δ) : Blocks α β → Bool → Session α β δ ω ρ κ → Prop where
  | idle : Tracks body inv claimed serial file settled dev noBlocks false ⟨file, none, settled⟩
  | before (request : κ) (code : Code α β δ ω ρ) (own : ω) (blocks : Blocks α β)
      (within : ∀ a, blocks a = none ∨ claimed request a) (ready : Before inv (claimed request) code blocks own)
      (replays : Replays (body request) file code blocks own) :
      Tracks body inv claimed serial file settled dev blocks false ⟨own, some ⟨request, code, false, false⟩, settled⟩
  | locked (request : κ) (code : Code α β δ ω ρ) (own : ω) (blocks : Blocks α β) (reply : ρ)
      (returned : List (Turn κ ρ))
      (turn : settled = returned ++ [⟨request, true, reply⟩]) (runs : Locked code ⟨blocks, dev⟩ own serial file reply) :
      Tracks body inv claimed serial file settled dev blocks true ⟨own, some ⟨request, code, true, true⟩, returned⟩
  | after (request : κ) (code : Code α β δ ω ρ) (own : ω) (blocks : Blocks α β) (gotLock : Bool) (reply : ρ)
      (returned : List (Turn κ ρ)) (turn : settled = returned ++ [⟨request, gotLock, reply⟩])
      (finishes : Finishes code blocks own file reply) :
      Tracks body inv claimed serial file settled dev blocks false ⟨own, some ⟨request, code, gotLock, false⟩, returned⟩

-- The invariant of every interleaving. The heap is split among the clients and
-- the lock, which holds the blocks of the device while nobody else does.
structure Coupled (body : κ → Code α β δ ω ρ) (inv : Store α β δ → Prop) (claimed : κ → α → Prop) (store : Store α β δ)
    (owns : ι → ω) (trace : List (Label κ ι)) (system : System α β δ ω ρ κ ι) (order : List (ι × Turn κ ρ))
    (serial : Store α β δ) (files : ι → ω) (parts : Option ι → Blocks α β) : Prop where
  replayed : Serial (fun request => exec (body request)) claimed store owns order serial files
  valid : inv serial
  split : Split system.store.heap parts
  free : system.holder = none → parts none = serial.heap ∧ system.store.dev = serial.dev
  held : system.holder ≠ none → parts none = noBlocks
  tracked : ∀ client, Tracks body inv claimed serial (files client) (turnsOf client order) system.store.dev
    (parts (some client)) (decide (system.holder = some client)) (system.clients client)
  acquired : lockers order = acquisitions trace

-- Only the client inside its locked section looks at the device.
theorem tracks_outside (body : κ → Code α β δ ω ρ) (inv : Store α β δ → Prop) (claimed : κ → α → Prop)
    (serial later : Store α β δ) (file : ω) (settled : List (Turn κ ρ)) (dev moved : δ) (blocks : Blocks α β)
    (session : Session α β δ ω ρ κ) (tracks : Tracks body inv claimed serial file settled dev blocks false session) :
    Tracks body inv claimed later file settled moved blocks false session := by
  cases tracks with
  | idle => exact .idle
  | before request code own _ within ready replays => exact .before request code own blocks within ready replays
  | after request code own _ gotLock reply returned turn finishes =>
      exact .after request code own blocks gotLock reply returned turn finishes

theorem turns_of_append (client : ι) (order more : List (ι × Turn κ ρ)) :
    turnsOf client (order ++ more) = turnsOf client order ++ turnsOf client more := List.filterMap_append

theorem turns_of_own (client : ι) (order : List (ι × Turn κ ρ)) (turn : Turn κ ρ) :
    turnsOf client (order ++ [(client, turn)]) = turnsOf client order ++ [turn] := by
  rw [turns_of_append]
  simp [turnsOf]

theorem turns_of_other (client other : ι) (order : List (ι × Turn κ ρ)) (turn : Turn κ ρ) (different : other ≠ client) :
    turnsOf other (order ++ [(client, turn)]) = turnsOf other order := by
  rw [turns_of_append]
  simp [turnsOf, Ne.symm different]

omit [DecidableEq ι] in
theorem lockers_append (order : List (ι × Turn κ ρ)) (client : ι) (turn : Turn κ ρ) :
    lockers (order ++ [(client, turn)]) = lockers order ++ if turn.gotLock then [(client, turn.request)] else [] := by
  rw [lockers, List.filterMap_append]
  cases got : turn.gotLock <;> simp [lockers, got]

end

section

variable {α β δ ω ρ κ ι : Type} [DecidableEq ι] {body : κ → Code α β δ ω ρ} {inv : Store α β δ → Prop}
  {claimed : κ → α → Prop} {store : Store α β δ} {owns : ι → ω} {trace : List (Label κ ι)}
  {system : System α β δ ω ρ κ ι} {order : List (ι × Turn κ ρ)} {serial : Store α β δ} {files : ι → ω}
  {parts : Option ι → Blocks α β}

-- A call that can no longer take the lock is settled: it comes next in the
-- serial order, where it changes nothing.
theorem settle (coupled : Coupled body inv claimed store owns trace system order serial files parts) (client : ι)
    (request : κ) (code : Code α β δ ω ρ) (own final : ω) (blocks : Blocks α β) (reply : ρ)
    (within : ∀ a, blocks a = none ∨ claimed request a)
    (replays : Replays (body request) (files client) code blocks own)
    (finishes : Finishes code blocks own final reply) :
    Serial (fun request => exec (body request)) claimed store owns (order ++ [(client, ⟨request, false, reply⟩)]) serial
      (Function.update files client final) :=
  .unlocked order serial files client request final reply coupled.replayed
    (replays_finishes (body request) code (files client) own final blocks reply (claimed request)
      within replays finishes)

theorem outside_step (coupled : Coupled body inv claimed store owns trace system order serial files parts) (client : ι)
    (outside : system.holder ≠ some client) (heap left : Blocks α β)
    (split : Split heap (Function.update parts (some client) left)) (session : Session α β δ ω ρ κ)
    (later : List (Label κ ι)) (orderAfter : List (ι × Turn κ ρ)) (filesAfter : ι → ω)
    (replayed : Serial (fun request => exec (body request)) claimed store owns orderAfter serial filesAfter)
    (others : ∀ other, other ≠ client → turnsOf other orderAfter = turnsOf other order ∧ filesAfter other = files other)
    (acquired : lockers orderAfter = acquisitions later)
    (tracks : Tracks body inv claimed serial (filesAfter client) (turnsOf client orderAfter) system.store.dev left false
      session) :
    Coupled body inv claimed store owns later
      ⟨⟨heap, system.store.dev⟩, system.holder, Function.update system.clients client session⟩
        orderAfter serial filesAfter
      (Function.update parts (some client) left) := by
  refine ⟨replayed, coupled.valid, split, ?_, ?_, ?_, acquired⟩
  · intro free
    rw [Function.update_of_ne (by simp)]
    exact coupled.free free
  · intro held
    rw [Function.update_of_ne (by simp)]
    exact coupled.held held
  · intro other
    by_cases same : other = client
    · subst same
      simp only [Function.update_self, outside, decide_false]
      exact tracks
    · have different : some other ≠ some client := fun equal => same (Option.some.inj equal)
      obtain ⟨turns, kept⟩ := others other same
      simp only [turns, kept, Function.update_of_ne different, Function.update_of_ne same]
      exact coupled.tracked other

theorem plain_step (coupled : Coupled body inv claimed store owns trace system order serial files parts) (client : ι)
    (outside : system.holder ≠ some client) (heap left : Blocks α β)
    (split : Split heap (Function.update parts (some client) left)) (session : Session α β δ ω ρ κ)
    (later : List (Label κ ι)) (same : acquisitions later = acquisitions trace)
    (tracks : Tracks body inv claimed serial (files client) (turnsOf client order) system.store.dev
      left false session) :
    Coupled body inv claimed store owns later
      ⟨⟨heap, system.store.dev⟩, system.holder, Function.update system.clients client session⟩ order serial files
      (Function.update parts (some client) left) :=
  outside_step coupled client outside heap left split session later order files coupled.replayed (fun _ _ => ⟨rfl, rfl⟩)
    (coupled.acquired.trans same.symm) tracks

theorem settling_step (coupled : Coupled body inv claimed store owns trace system order serial files parts) (client : ι)
    (outside : system.holder ≠ some client) (heap left : Blocks α β)
    (split : Split heap (Function.update parts (some client) left)) (session : Session α β δ ω ρ κ)
    (later : List (Label κ ι)) (same : acquisitions later = acquisitions trace) (turn : Turn κ ρ) (final : ω)
    (unlocked : turn.gotLock = false)
    (replayed : Serial (fun request => exec (body request)) claimed store owns (order ++ [(client, turn)]) serial
      (Function.update files client final))
    (tracks : Tracks body inv claimed serial final (turnsOf client order ++ [turn]) system.store.dev
      left false session) :
    Coupled body inv claimed store owns later
      ⟨⟨heap, system.store.dev⟩, system.holder, Function.update system.clients client session⟩
      (order ++ [(client, turn)]) serial (Function.update files client final)
      (Function.update parts (some client) left) := by
  refine outside_step coupled client outside heap left split session later _ _ replayed ?_ ?_ ?_
  · intro other different
    exact ⟨turns_of_other client other order turn different, Function.update_of_ne different _ _⟩
  · rw [lockers_append, unlocked, same, ← coupled.acquired]
    exact List.append_nil _
  · rw [turns_of_own, Function.update_self]
    exact tracks

theorem inside_step (coupled : Coupled body inv claimed store owns trace system order serial files parts) (client : ι)
    (inside : system.holder = some client) (heap left : Blocks α β) (dev : δ)
    (split : Split heap (Function.update parts (some client) left)) (session : Session α β δ ω ρ κ)
    (later : List (Label κ ι)) (same : acquisitions later = acquisitions trace)
    (tracks : Tracks body inv claimed serial (files client) (turnsOf client order) dev left true session) :
    Coupled body inv claimed store owns later
      ⟨⟨heap, dev⟩, system.holder, Function.update system.clients client session⟩ order serial files
      (Function.update parts (some client) left) := by
  refine ⟨coupled.replayed, coupled.valid, split, ?_, ?_, ?_, coupled.acquired.trans same.symm⟩
  · intro free
    rw [inside] at free
    cases free
  · intro held
    rw [Function.update_of_ne (by simp)]
    exact coupled.held held
  · intro other
    by_cases mine : other = client
    · subst mine
      simp only [Function.update_self, inside, decide_true]
      exact tracks
    · have different : some other ≠ some client := fun equal => mine (Option.some.inj equal)
      have notHolder : ¬ system.holder = some other := by
        rw [inside]
        exact fun held => mine (Option.some.inj held).symm
      have tracked := coupled.tracked other
      simp only [notHolder, decide_false] at tracked
      simp only [Function.update_of_ne different, Function.update_of_ne mine, notHolder,
        decide_false]
      exact tracks_outside body inv claimed serial serial _ _ _ _ _ _ tracked

theorem acquire_step (coupled : Coupled body inv claimed store owns trace system order serial files parts) (client : ι)
    (free : system.holder = none) (request : κ) (locked : Code α β δ ω ρ) (own final : ω) (after : Store α β δ)
    (reply : ρ) (returned : List (Turn κ ρ)) (later : List (Label κ ι))
    (acquired : acquisitions later = acquisitions trace ++ [(client, request)])
    (settled : turnsOf client order = returned) (valid : inv after)
    (ran : exec (body request) serial (files client) = some (after, final, reply))
    (runs : Locked locked ((Store.mk (parts (some client)) serial.dev).extend serial.heap) own after final reply) :
    Coupled body inv claimed store owns later
      ⟨system.store, some client,
        Function.update system.clients client ⟨own, some ⟨request, locked, true, true⟩, returned⟩⟩
      (order ++ [(client, ⟨request, true, reply⟩)]) after (Function.update files client final)
      (Function.update (Function.update parts (some client) (union (parts (some client)) (parts none)))
        none noBlocks) := by
  obtain ⟨device, dev⟩ := coupled.free free
  have split := split_transfer coupled.split (some client) none (by simp)
    (union (parts (some client)) (parts none)) noBlocks (apart_no_blocks _) (union_no_blocks _)
  refine ⟨.locked order serial after files client request final reply coupled.replayed ran, valid,
    split, by simp, ?_, ?_, ?_⟩
  · intro _
    rw [Function.update_self]
  · intro other
    by_cases mine : other = client
    · subst mine
      simp only [Function.update_self, decide_true, turns_of_own, Function.update_of_ne (Option.some_ne_none other)]
      refine .locked request locked own _ reply returned (by rw [settled]) ?_
      rw [device, dev]
      exact runs
    · have different : some other ≠ some client := fun equal => mine (Option.some.inj equal)
      have tracked := coupled.tracked other
      simp only [free, reduceCtorEq, decide_false] at tracked
      have notHolder : ¬ some client = some other := fun same => mine (Option.some.inj same).symm
      simp only [Function.update_of_ne (Option.some_ne_none other), Function.update_of_ne mine,
        Function.update_of_ne different, notHolder, decide_false,
        turns_of_other client other order _ mine]
      exact tracks_outside body inv claimed serial after _ _ _ _ _ _ tracked
  · rw [lockers_append, coupled.acquired, acquired]
    rfl

theorem release_step (coupled : Coupled body inv claimed store owns trace system order serial files parts) (client : ι)
    (inside : system.holder = some client) (blocks : Blocks α β) (apart : Apart blocks serial.heap)
    (whole : (Store.mk (parts (some client)) system.store.dev) = (Store.mk blocks serial.dev).extend serial.heap)
    (session : Session α β δ ω ρ κ) (later : List (Label κ ι)) (same : acquisitions later = acquisitions trace)
    (tracks : Tracks body inv claimed serial (files client) (turnsOf client order) system.store.dev
      blocks false session) :
    Coupled body inv claimed store owns later
      ⟨system.store, none, Function.update system.clients client session⟩ order serial files
      (Function.update (Function.update parts (some client) blocks) none serial.heap) := by
  have empty : parts none = noBlocks := coupled.held (by simp [inside])
  obtain ⟨part, dev⟩ : parts (some client) = union blocks serial.heap ∧ system.store.dev = serial.dev :=
    Store.mk.inj whole
  have split := split_transfer coupled.split (some client) none (by simp) blocks serial.heap apart
    (by rw [empty, part, union_no_blocks])
  refine ⟨coupled.replayed, coupled.valid, split, ?_, by simp, ?_, coupled.acquired.trans same.symm⟩
  · intro _
    rw [Function.update_self]
    exact ⟨rfl, dev⟩
  · intro other
    by_cases mine : other = client
    · subst mine
      simp only [Function.update_self, Function.update_of_ne (Option.some_ne_none other), reduceCtorEq, decide_false]
      exact tracks
    · have different : some other ≠ some client := fun equal => mine (Option.some.inj equal)
      have tracked := coupled.tracked other
      have notHolder : ¬ system.holder = some other := by
        rw [inside]
        exact fun held => mine (Option.some.inj held).symm
      simp only [notHolder, decide_false] at tracked
      simp only [Function.update_of_ne (Option.some_ne_none other), Function.update_of_ne mine,
        Function.update_of_ne different, reduceCtorEq, decide_false]
      exact tracks_outside body inv claimed serial serial _ _ _ _ _ _ tracked

omit [DecidableEq ι] in
theorem acquisitions_append (trace : List (Label κ ι)) (step : Label κ ι) :
    acquisitions (trace ++ [step]) = acquisitions trace ++ acquisitions [step] := List.filterMap_append

theorem own_part (coupled : Coupled body inv claimed store owns trace system order serial files parts) (client : ι) :
    ∃ rest, Apart (parts (some client)) rest ∧ system.store = ⟨union (parts (some client)) rest, system.store.dev⟩ ∧
      ∀ next, Apart next rest → Split (union next rest) (Function.update parts (some client) next) := by
  obtain ⟨rest, apart, whole, change⟩ := split_change coupled.split (some client)
  exact ⟨rest, apart, by rw [← whole], change⟩

-- A statement of a client that is not inside its locked section, whose blocks
-- are all it needs.
theorem quiet_step {τ : Type} (coupled : Coupled body inv claimed store owns trace system order serial files parts)
    (client : ι) (outside : system.holder ≠ some client) (request : κ) (statement : Statement α β δ ω τ)
    (later : τ → Code α β δ ω ρ) (own own' : ω) (value : τ) (left : Blocks α β) (gotLock : Bool)
    (returned : List (Turn κ ρ))
    (session : system.clients client = ⟨own, some ⟨request, .step statement later, gotLock, false⟩, returned⟩)
    (answers : statement.allowed system.store = true)
    (quiet : Quiet statement (parts (some client)) own left own' value)
    (tracks : Tracks body inv claimed serial (files client) (turnsOf client order) system.store.dev left false
      ⟨own', some ⟨request, later value, gotLock, false⟩, returned⟩) (action : Action κ) (next : System α β δ ω ρ κ ι)
    (moved : proceed system client ⟨request, .step statement later, gotLock, false⟩ = some (action, next)) :
    ∃ parts, Coupled body inv claimed store owns (trace ++ [label system client action]) next order
      serial files parts := by
  obtain ⟨others, apart, whole, change⟩ := own_part coupled client
  obtain ⟨leftApart, ran⟩ :=
    quiet_framed statement _ left others own own' value system.store.dev quiet apart (whole ▸ answers)
  rw [← whole] at ran
  simp only [proceed, session, answers, if_true, ran, Option.some.injEq, Prod.mk.injEq] at moved
  obtain ⟨rfl, rfl⟩ := moved
  refine ⟨_, plain_step coupled client outside _ left (change left leftApart) _ _ ?_ tracks⟩
  rw [acquisitions_append]
  exact List.append_nil _

theorem after_step (coupled : Coupled body inv claimed store owns trace system order serial files parts) (client : ι)
    (outside : system.holder ≠ some client) (request : κ) (code : Code α β δ ω ρ) (own : ω) (gotLock : Bool) (reply : ρ)
    (returned : List (Turn κ ρ))
    (session : system.clients client = ⟨own, some ⟨request, code, gotLock, false⟩, returned⟩)
    (turn : turnsOf client order = returned ++ [⟨request, gotLock, reply⟩])
    (finishes : Finishes code (parts (some client)) own (files client) reply) (action : Action κ)
    (next : System α β δ ω ρ κ ι)
    (moved : proceed system client ⟨request, code, gotLock, false⟩ = some (action, next)) :
    ∃ parts, Coupled body inv claimed store owns (trace ++ [label system client action]) next order
      serial files parts := by
  cases code with
  | ret result =>
      obtain ⟨empty, rfl, rfl⟩ := finishes
      simp only [proceed, session, Option.some.injEq, Prod.mk.injEq] at moved
      obtain ⟨rfl, rfl⟩ := moved
      refine ⟨_, plain_step coupled client outside system.store.heap noBlocks ?_ _ _ ?_ ?_⟩
      · rw [← empty, Function.update_eq_self]
        exact coupled.split
      · rw [acquisitions_append]
        exact List.append_nil _
      · rw [turn]
        exact .idle
  | step statement later =>
      obtain ⟨left, own', value, allowed, quiet, rest⟩ := finishes
      exact quiet_step coupled client outside request statement later own own' value left gotLock returned session
        (allowed system.store) quiet (.after request (later value) own' left gotLock reply returned turn rest) action
        next moved
  | lock => exact finishes.elim
  | unlock => exact finishes.elim

-- A call that will not take the lock any more is settled when that is known.
theorem settled_step (coupled : Coupled body inv claimed store owns trace system order serial files parts) (client : ι)
    (outside : system.holder ≠ some client) (request : κ) (code : Code α β δ ω ρ) (own final : ω) (reply : ρ)
    (session : system.clients client = ⟨own, some ⟨request, code, false, false⟩, turnsOf client order⟩)
    (within : ∀ a, parts (some client) a = none ∨ claimed request a)
    (replays : Replays (body request) (files client) code (parts (some client)) own)
    (finishes : Finishes code (parts (some client)) own final reply) (action : Action κ)
    (next : System α β δ ω ρ κ ι) (moved : proceed system client ⟨request, code, false, false⟩ = some (action, next)) :
    ∃ order serial files parts,
      Coupled body inv claimed store owns (trace ++ [label system client action]) next order serial files parts := by
  have turn := settle coupled client request code own final _ reply within replays finishes
  have here := settling_step coupled client outside system.store.heap (parts (some client))
    (by rw [Function.update_eq_self]; exact coupled.split) (system.clients client) trace rfl ⟨request, false, reply⟩
    final rfl turn (by rw [session]; exact .after request code own _ false reply _ rfl finishes)
  rw [Function.update_eq_self, Function.update_eq_self] at here
  obtain ⟨parts, done⟩ := after_step here client outside request code own false reply _ session
    (turns_of_own client order _) (by rw [Function.update_self]; exact finishes) action next moved
  exact ⟨_, _, _, parts, done⟩

theorem granted_step (coupled : Coupled body inv claimed store owns trace system order serial files parts) (client : ι)
    (request : κ) (locked interrupted : Code α β δ ω ρ) (own : ω)
    (session :
      system.clients client = ⟨own, some ⟨request, .lock true locked interrupted, false, false⟩, turnsOf client order⟩)
    (ready : Before inv (claimed request) (.lock true locked interrupted) (parts (some client)) own)
    (replays : Replays (body request) (files client) (.lock true locked interrupted) (parts (some client)) own)
    (action : Action κ) (next : System α β δ ω ρ κ ι)
    (moved : proceed system client ⟨request, .lock true locked interrupted, false, false⟩ = some (action, next)) :
    ∃ order serial files parts,
      Coupled body inv claimed store owns (trace ++ [label system client action]) next order serial files parts := by
  cases holder : system.holder with
  | some other => simp [proceed, holder] at moved
  | none =>
      obtain ⟨device, dev⟩ := coupled.free holder
      have apart : Apart (parts (some client)) serial.heap := device ▸ split_apart coupled.split _ _ (by simp)
      obtain ⟨after, final, reply, valid, runs⟩ := ready serial coupled.valid apart
      simp only [proceed, session, holder, Option.isNone_none, if_true, Option.some.injEq, Prod.mk.injEq] at moved
      obtain ⟨rfl, rfl⟩ := moved
      have ran := replays serial.dev serial.heap apart
      simp only [exec, if_true] at ran
      have ended := exec_locked locked _ after own final reply runs
      refine ⟨_, _, _, _, acquire_step coupled client holder request locked own final after reply _ _ ?_ rfl valid
        (ran.trans ended) runs⟩
      rw [acquisitions_append]
      rfl

theorem interrupted_step (coupled : Coupled body inv claimed store owns trace system order serial files parts)
    (client : ι) (outside : system.holder ≠ some client) (request : κ) (locked interrupted : Code α β δ ω ρ) (own : ω)
    (session :
      system.clients client = ⟨own, some ⟨request, .lock false locked interrupted, false, false⟩, turnsOf client order⟩)
    (within : ∀ a, parts (some client) a = none ∨ claimed request a)
    (ready : Before inv (claimed request) (.lock false locked interrupted) (parts (some client)) own)
    (replays : Replays (body request) (files client) (.lock false locked interrupted) (parts (some client)) own)
    (action : Action κ) (next : System α β δ ω ρ κ ι)
    (moved : proceed system client ⟨request, .lock false locked interrupted, false, false⟩ = some (action, next)) :
    ∃ order serial files parts,
      Coupled body inv claimed store owns (trace ++ [label system client action]) next order serial files parts := by
  obtain ⟨final, reply, finishes⟩ := ready
  simp only [proceed, session, Option.some.injEq, Prod.mk.injEq] at moved
  obtain ⟨rfl, rfl⟩ := moved
  have skipped : Replays (body request) (files client) interrupted (parts (some client)) own := by
    intro dev rest apart
    rw [replays dev rest apart]
    rfl
  have turn := settle coupled client request interrupted own final _ reply within skipped finishes
  refine ⟨_, _, _, _, settling_step coupled client outside system.store.heap (parts (some client))
    (by rw [Function.update_eq_self]; exact coupled.split) _ _ ?_ ⟨request, false, reply⟩ final rfl turn
    (.after request interrupted own _ false reply _ rfl finishes)⟩
  rw [acquisitions_append]
  exact List.append_nil _

theorem before_step (coupled : Coupled body inv claimed store owns trace system order serial files parts) (client : ι)
    (outside : system.holder ≠ some client) (request : κ) (code : Code α β δ ω ρ) (own : ω)
    (session : system.clients client = ⟨own, some ⟨request, code, false, false⟩, turnsOf client order⟩)
    (within : ∀ a, parts (some client) a = none ∨ claimed request a)
    (ready : Before inv (claimed request) code (parts (some client)) own)
    (replays : Replays (body request) (files client) code (parts (some client)) own) (action : Action κ)
    (next : System α β δ ω ρ κ ι) (moved : proceed system client ⟨request, code, false, false⟩ = some (action, next)) :
    ∃ order serial files parts,
      Coupled body inv claimed store owns (trace ++ [label system client action]) next order serial files parts := by
  cases code with
  | ret reply =>
      exact settled_step coupled client outside request (.ret reply) own own reply session within replays
        ⟨ready, rfl, rfl⟩ action next moved
  | step statement later =>
      rcases ready with ⟨final, reply, finishes⟩ | ⟨grown, own', value, claims, allowed, quiet, rest⟩
      · exact settled_step coupled client outside request _ own final reply session within replays
          finishes action next moved
      · cases answers : statement.allowed system.store with
        | false => simp [proceed, answers] at moved
        | true =>
            have stays := replays_step (body request) (files client) own own' statement later _ grown value
              replays quiet allowed
            obtain ⟨after, done⟩ :=
              quiet_step coupled client outside request statement later own own' value grown false _
              session answers quiet (.before request (later value) own' grown claims rest stays) action next moved
            exact ⟨order, serial, files, after, done⟩
  | lock granted locked interrupted =>
      cases granted with
      | true => exact granted_step coupled client request locked interrupted own session ready replays action next moved
      | false =>
          exact interrupted_step coupled client outside request locked interrupted own session within
            ready replays action next moved
  | unlock => exact ready.elim

theorem locked_step (coupled : Coupled body inv claimed store owns trace system order serial files parts) (client : ι)
    (inside : system.holder = some client) (request : κ) (code : Code α β δ ω ρ) (own : ω) (reply : ρ)
    (returned : List (Turn κ ρ)) (session : system.clients client = ⟨own, some ⟨request, code, true, true⟩, returned⟩)
    (turn : turnsOf client order = returned ++ [⟨request, true, reply⟩])
    (runs : Locked code ⟨parts (some client), system.store.dev⟩ own serial (files client) reply) (action : Action κ)
    (next : System α β δ ω ρ κ ι) (moved : proceed system client ⟨request, code, true, true⟩ = some (action, next)) :
    ∃ parts, Coupled body inv claimed store owns (trace ++ [label system client action]) next
      order serial files parts := by
  cases code with
  | ret => exact runs.elim
  | step statement later =>
      obtain ⟨middle, own', value, ran, rest⟩ := runs
      obtain ⟨others, apart, whole, change⟩ := own_part coupled client
      cases answers : statement.allowed system.store with
      | false => simp [proceed, answers] at moved
      | true =>
          obtain ⟨leftApart, framed⟩ := statement.framed _ others own middle own' value apart (whole ▸ answers) ran
          rw [show (Store.mk (parts (some client)) system.store.dev).extend others =
            system.store from whole.symm] at framed
          simp only [proceed, session, answers, if_true, framed, Option.some.injEq, Prod.mk.injEq] at moved
          obtain ⟨rfl, rfl⟩ := moved
          refine ⟨_, inside_step coupled client inside _ middle.heap middle.dev (change _ leftApart) _ _ ?_ ?_⟩
          · rw [acquisitions_append]
            exact List.append_nil _
          · exact .locked request (later value) own' _ reply returned turn rest
  | lock => exact runs.elim
  | unlock rest =>
      obtain ⟨blocks, apart, whole, finishes⟩ := runs
      simp only [proceed, session, Option.some.injEq, Prod.mk.injEq] at moved
      obtain ⟨rfl, rfl⟩ := moved
      refine ⟨_, release_step coupled client inside blocks apart whole _ _ ?_ ?_⟩
      · rw [acquisitions_append]
        exact List.append_nil _
      · exact .after request rest own blocks true reply returned turn finishes

end

end LockProgram

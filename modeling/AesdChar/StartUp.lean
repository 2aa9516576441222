import AesdChar.Library.Descriptors
import AesdChar.ServerSetup
import AesdChar.SystemCalls

set_option autoImplicit false

namespace AesdChar

open Descriptors

inductive StartFile where
  | inherited
  | socket
  | devNull
deriving DecidableEq, Repr

-- The answers that main gets up to its accept loop. addresses is none when
-- getaddrinfo fails, openDevNull, dup and dupAgain are false for -1.
structure StartAnswer where
  sigterm : Bool
  sigint : Bool
  mutexInit : Bool
  addresses : Option (List AddrInfo)
  runDaemon : Bool
  fork : ForkReturn
  setsid : Bool
  chdir : Bool
  openDevNull : Bool
  dup : Bool
  dupAgain : Bool
  listen : Bool

-- undefined: main follows serv_info, which getaddrinfo has not set.
inductive StartEnd where
  | exits (success : Bool)
  | undefined
  | loops (fds : Fds StartFile) (sockFd : Option Nat) (failed : Bool)

def withSockets (fds : Fds StartFile) (opened : List Nat) : Fds StartFile :=
  opened.foldl (fun fds n => fds.put .socket n) fds

theorem sockets_file (fds : Fds StartFile) (opened : List Nat) (n : Nat) :
    (withSockets fds opened).file n = if n ∈ opened then some .socket else fds.file n := by
  induction opened generalizing fds with
  | nil => rfl
  | cons first rest ih =>
      rw [withSockets, List.foldl_cons, ← withSockets, ih]
      by_cases later : n ∈ rest
      · rw [if_pos later, if_pos (List.mem_cons_of_mem _ later)]
      · rw [if_neg later]
        by_cases here : n = first
        · rw [here, put_same, if_pos List.mem_cons_self]
        · rw [put_other _ _ _ _ here, if_neg]
          simp [here, later]

-- socket takes the lowest free descriptor.
def socketTable (fds : Fds StartFile) : FdTable where
  unused used := (withSockets fds used).lowest
  fresh used member := by
    have free := lowest_free (withSockets fds used)
    rw [sockets_file, if_pos member] at free
    cases free

-- dup of a closed descriptor fails.
def dupZero (fds : Fds StartFile) (ok : Bool) : Option (Fds StartFile) := if ok then fds.dup 0 else none

-- The child's way to the background. none: it closes its socket and exits.
def daemonise (fds : Fds StartFile) (answer : StartAnswer) : Option (Fds StartFile) :=
  if !answer.setsid then none
  else if !answer.chdir then none
  else
    let fds := ((fds.close 0).close 1).close 2
    let fds := if answer.openDevNull then fds.take .devNull else fds
    match dupZero fds answer.dup with
    | none => none
    | some fds => dupZero fds answer.dupAgain

def listening (fds : Fds StartFile) (sockFd : Option Nat) (failed listen : Bool) : StartEnd :=
  .loops fds sockFd (failed || !(listen && sockFd.any fun fd => fds.file fd == some .socket))

def startUp (fds : Fds StartFile) (answer : StartAnswer) : StartEnd :=
  if !answer.sigterm || !answer.sigint then .exits false
  else
    match answer.addresses with
    | none => .undefined
    | some addresses =>
        let state := setupLoop (socketTable fds) setupStart addresses
        let failed := !answer.mutexInit || state.failed
        let fds := withSockets fds state.opened
        if answer.runDaemon then
          match answer.fork with
          | .error => .exits false
          | .parent _ => .exits true
          | .child =>
              match daemonise fds answer with
              | none => .exits false
              | some fds => listening fds state.sockFd failed answer.listen
        else listening fds state.sockFd failed answer.listen

section

variable (fds : Fds StartFile)

def nullStreams : Fds StartFile :=
  ((((((fds.close 0).close 1).close 2).put .devNull 0).put .devNull 1).put .devNull 2)

theorem null_streams_file (n : Nat) : (nullStreams fds).file n = if n < 3 then some .devNull else fds.file n := by
  by_cases low : n < 3
  · rw [if_pos low]
    have cases3 : n = 0 ∨ n = 1 ∨ n = 2 := by omega
    rcases cases3 with rfl | rfl | rfl <;> rfl
  · rw [if_neg low, nullStreams, put_other _ _ _ _ (by omega), put_other _ _ _ _ (by omega),
      put_other _ _ _ _ (by omega),
      close_other _ _ _ (by omega), close_other _ _ _ (by omega), close_other _ _ _ (by omega)]

theorem streams_closed (n : Nat) (low : n < 3) : (((fds.close 0).close 1).close 2).file n = none := by
  have cases3 : n = 0 ∨ n = 1 ∨ n = 2 := by omega
  rcases cases3 with rfl | rfl | rfl
  · rw [close_other _ _ _ (by decide), close_other _ _ _ (by decide), close_same]
  · rw [close_other _ _ _ (by decide), close_same]
  · exact close_same _ _

theorem dup_zero (zero : fds.file 0 = some .devNull) : dupZero fds true = some (fds.take .devNull) := by
  rw [dupZero, if_pos rfl, Fds.dup, zero, Option.map_some]

theorem open_takes_zero :
    (((fds.close 0).close 1).close 2).take .devNull = (((fds.close 0).close 1).close 2).put .devNull 0 :=
  take_lowest (((fds.close 0).close 1).close 2) .devNull 0 (streams_closed fds 0 (by decide))
    fun m low => absurd low (Nat.not_lt_zero m)

theorem daemonise_background (answer : StartAnswer) (setsid : answer.setsid = true) (chdir : answer.chdir = true)
    (opens : answer.openDevNull = true) (dup : answer.dup = true) (dupAgain : answer.dupAgain = true) :
    daemonise fds answer = some (nullStreams fds) := by
  have second := take_lowest ((((fds.close 0).close 1).close 2).put .devNull 0) .devNull 1
    (by rw [put_other _ _ _ _ (by decide)]; exact streams_closed fds 1 (by decide))
    (fun m low => by rw [Nat.lt_one_iff.mp low, put_same]; simp)
  have third := take_lowest (((((fds.close 0).close 1).close 2).put .devNull 0).put .devNull 1) .devNull 2
    (by rw [put_other _ _ _ _ (by decide), put_other _ _ _ _ (by decide)]; exact streams_closed fds 2 (by decide))
    (fun m low => by
      rcases Nat.le_one_iff_eq_zero_or_eq_one.mp (Nat.le_of_lt_succ low) with rfl | rfl
      · rw [put_other _ _ _ _ (by decide), put_same]
        simp
      · rw [put_same]
        simp)
  have zero : (((((fds.close 0).close 1).close 2).put .devNull 0).put .devNull 1).file 0 = some .devNull := by
    rw [put_other _ _ _ _ (by decide), put_same]
  simp only [daemonise, setsid, chdir, opens, dup, dupAgain, Bool.not_true, Bool.false_eq_true, if_false, if_true]
  rw [open_takes_zero, dup_zero _ (put_same _ _ _)]
  dsimp only
  rw [second, dup_zero _ zero, third, nullStreams]

theorem daemonise_streams (answer : StartAnswer) (after : Fds StartFile) :
    daemonise fds answer = some after ↔
      (answer.setsid ∧ answer.chdir ∧ answer.openDevNull ∧ answer.dup ∧ answer.dupAgain) ∧ after = nullStreams fds := by
  cases setsid : answer.setsid with
  | false => simp [daemonise, setsid]
  | true =>
      cases chdir : answer.chdir with
      | false => simp [daemonise, chdir]
      | true =>
          cases opens : answer.openDevNull with
          | false => simp [daemonise, opens, dupZero, Fds.dup, streams_closed fds 0]
          | true =>
              cases dup : answer.dup with
              | false => simp [daemonise, dup, dupZero]
              | true =>
                  cases dupAgain : answer.dupAgain with
                  | false => simp [daemonise, opens, dup, dupAgain, dupZero, Fds.dup, open_takes_zero]
                  | true =>
                      rw [daemonise_background fds answer setsid chdir opens dup dupAgain, Option.some.injEq]
                      simp only [true_and]
                      exact eq_comm

-- What the loop over serv_info has done to the table: it has used up the free
-- descriptors below 3 first, so the last socket is above them or one of them.
structure SocketsTaken (opened : List Nat) (sockFd : Option Nat) : Prop where
  free : (withSockets fds opened).freeBelow 3 = fds.freeBelow 3 - opened.length
  last : sockFd = opened.getLast?
  fresh : ∀ fd ∈ opened, fds.file fd = none
  high : ∀ fd, sockFd = some fd → (3 ≤ fd ↔ fds.freeBelow 3 < opened.length)

theorem sockets_taken_none : SocketsTaken fds [] none :=
  ⟨rfl, rfl, fun _ member => absurd member List.not_mem_nil, fun _ impossible => by cases impossible⟩

theorem sockets_take (opened : List Nat) :
    withSockets fds (opened ++ [(socketTable fds).unused opened]) = (withSockets fds opened).take .socket := by
  rw [withSockets, List.foldl_append]
  rfl

theorem sockets_taken_more (opened : List Nat) (sockFd : Option Nat) (taken : SocketsTaken fds opened sockFd) :
    SocketsTaken fds (opened ++ [(socketTable fds).unused opened]) (some ((socketTable fds).unused opened)) := by
  refine ⟨?_, List.getLast?_concat.symm, fun fd member => ?_, fun fd same => ?_⟩
  · rw [sockets_take, take_free_below, taken.free, List.length_append, List.length_singleton, Nat.sub_sub]
  · rcases List.mem_append.mp member with earlier | now
    · exact taken.fresh fd earlier
    · have isLowest : fd = (withSockets fds opened).lowest := List.mem_singleton.mp now
      have absent : (withSockets fds opened).lowest ∉ opened := (socketTable fds).fresh opened
      have free := lowest_free (withSockets fds opened)
      rw [sockets_file, if_neg absent] at free
      rw [isLowest]
      exact free
  · have low := lowest_below (withSockets fds opened) 3
    rw [taken.free] at low
    have isLowest : fd = (withSockets fds opened).lowest := (Option.some.inj same).symm
    rw [isLowest, List.length_append, List.length_singleton]
    omega

theorem setup_loop_takes (state : SetupState) (addresses : List AddrInfo) (usable : ∀ p ∈ addresses, p.usable = true)
    (taken : SocketsTaken fds state.opened state.sockFd) :
    SocketsTaken fds (setupLoop (socketTable fds) state addresses).opened
      (setupLoop (socketTable fds) state addresses).sockFd := by
  induction addresses generalizing state with
  | nil => exact taken
  | cons p rest ih =>
      rw [setup_loop_usable (socketTable fds) state p rest (usable p List.mem_cons_self)]
      apply ih
      · exact fun q member => usable q (List.mem_cons_of_mem _ member)
      · exact sockets_taken_more fds state.opened state.sockFd taken

theorem listening_fine (after : Fds StartFile) (sockFd found : Option Nat) (failed listen : Bool) :
    listening fds sockFd failed listen = .loops after found false ↔
      failed = false ∧ listen = true ∧ (∃ fd, sockFd = some fd ∧ fds.file fd = some .socket) ∧ after = fds ∧
        found = sockFd := by
  cases sockFd with
  | none => simp [listening]
  | some fd =>
      simp only [listening, StartEnd.loops.injEq, Option.any_some, Bool.or_eq_false_iff, Bool.not_eq_false',
        Bool.and_eq_true, beq_iff_eq, Option.some.injEq, exists_eq_left']
      constructor
      · rintro ⟨rfl, rfl, fine, listens, here⟩
        exact ⟨fine, listens, here, rfl, rfl⟩
      · rintro ⟨fine, listens, here, rfl, rfl⟩
        exact ⟨rfl, rfl, fine, listens, here⟩

end

-- A socket below 3 would be closed on the way to the background.
structure StartsWell (fds : Fds StartFile) (answer : StartAnswer) (addresses : List AddrInfo) : Prop where
  signals : answer.sigterm = true ∧ answer.sigint = true
  mutex : answer.mutexInit = true
  found : answer.addresses = some addresses
  any : addresses ≠ []
  usable : ∀ p ∈ addresses, p.usable = true
  listens : answer.listen = true
  background : answer.runDaemon = true → answer.fork = .child ∧ answer.setsid = true ∧ answer.chdir = true ∧
    answer.openDevNull = true ∧ answer.dup = true ∧ answer.dupAgain = true
  above : answer.runDaemon = true → fds.freeBelow 3 < addresses.length

structure StartedUp (fds : Fds StartFile) (answer : StartAnswer) (addresses : List AddrInfo) (after : Fds StartFile)
    (sockFd : Option Nat) (sockets : List Nat) : Prop where
  each : sockets.length = addresses.length
  distinct : sockets.Nodup
  fresh : ∀ fd ∈ sockets, fds.file fd = none
  last : sockFd = sockets.getLast?
  isSocket : ∃ fd, sockFd = some fd ∧ after.file fd = some .socket
  file : ∀ n, after.file n =
    if answer.runDaemon = true ∧ n < 3 then some .devNull else if n ∈ sockets then some .socket else fds.file n

section

variable (fds : Fds StartFile) (answer : StartAnswer)

theorem start_up_loops (after : Fds StartFile) (sockFd : Option Nat) (failed : Bool) :
    startUp fds answer = .loops after sockFd failed ↔
      answer.sigterm = true ∧ answer.sigint = true ∧ ∃ addresses, answer.addresses = some addresses ∧
        ∃ table,
          (if answer.runDaemon then
            answer.fork = .child ∧
              daemonise (withSockets fds (setupLoop (socketTable fds) setupStart addresses).opened) answer = some table
          else table = withSockets fds (setupLoop (socketTable fds) setupStart addresses).opened) ∧
            listening table (setupLoop (socketTable fds) setupStart addresses).sockFd
              (!answer.mutexInit || (setupLoop (socketTable fds) setupStart addresses).failed) answer.listen =
                .loops after sockFd failed := by
  cases sigterm : answer.sigterm with
  | false => simp [startUp, sigterm]
  | true =>
      cases sigint : answer.sigint with
      | false => simp [startUp, sigint]
      | true =>
          cases found : answer.addresses with
          | none => simp [startUp, sigterm, sigint, found]
          | some addresses =>
              cases daemon : answer.runDaemon with
              | false => simp [startUp, sigterm, sigint, found, daemon]
              | true =>
                  cases fork : answer.fork with
                  | error => simp [startUp, sigterm, sigint, found, daemon, fork]
                  | parent pid => simp [startUp, sigterm, sigint, found, daemon, fork]
                  | child =>
                      cases background : daemonise
                          (withSockets fds (setupLoop (socketTable fds) setupStart addresses).opened) answer with
                      | none => simp [startUp, sigterm, sigint, found, daemon, fork, background]
                      | some table => simp [startUp, sigterm, sigint, found, daemon, fork, background]

def startTable (opened : List Nat) : Fds StartFile :=
  if answer.runDaemon then nullStreams (withSockets fds opened) else withSockets fds opened

theorem start_table_file (opened : List Nat) (n : Nat) :
    (startTable fds answer opened).file n =
      if answer.runDaemon = true ∧ n < 3 then some .devNull else if n ∈ opened then some .socket else fds.file n := by
  cases daemon : answer.runDaemon with
  | false =>
      rw [startTable, daemon, if_neg Bool.false_ne_true, sockets_file]
      simp only [Bool.false_eq_true, false_and, if_false]
  | true =>
      rw [startTable, daemon, if_pos rfl, null_streams_file, sockets_file]
      simp only [true_and]

theorem start_up_needs (after : Fds StartFile) (sockFd : Option Nat)
    (loops : startUp fds answer = .loops after sockFd false) :
    ∃ addresses, StartsWell fds answer addresses := by
  obtain ⟨sigterm, sigint, addresses, found, table, way, listens⟩ :=
    (start_up_loops fds answer after sockFd false).mp loops
  obtain ⟨fine, listen, ⟨fd, atFd, isSocket⟩, rfl, -⟩ := (listening_fine _ _ _ _ _ _).mp listens
  obtain ⟨mutex, fineLoop⟩ := Bool.or_eq_false_iff.mp fine
  rw [setup_loop_failed] at fineLoop
  have usable : ∀ p ∈ addresses, p.usable = true := by simpa [setupStart] using fineLoop
  have taken := setup_loop_takes fds setupStart addresses usable (sockets_taken_none fds)
  have each := setup_start_opened_all (socketTable fds) addresses usable
  refine ⟨addresses, ⟨sigterm, sigint⟩, by simpa using mutex, found, ?_, usable, listen,
    fun daemon => ?_, fun daemon => ?_⟩
  · rintro rfl
    cases atFd
  · rw [if_pos daemon] at way
    exact ⟨way.1, ((daemonise_streams _ answer _).mp way.2).1⟩
  · rw [if_pos daemon] at way
    rw [((daemonise_streams _ answer _).mp way.2).2, null_streams_file] at isSocket
    by_cases low : fd < 3
    · rw [if_pos low] at isSocket
      cases isSocket
    · rw [← each]
      exact (taken.high fd atFd).mp (Nat.le_of_not_lt low)

theorem start_up_gives (addresses : List AddrInfo) (well : StartsWell fds answer addresses) :
    ∃ after sockFd sockets, startUp fds answer = .loops after sockFd false ∧
      StartedUp fds answer addresses after sockFd sockets := by
  have taken := setup_loop_takes fds setupStart addresses well.usable (sockets_taken_none fds)
  have each := setup_start_opened_all (socketTable fds) addresses well.usable
  have fine : (setupLoop (socketTable fds) setupStart addresses).failed = false := by
    rw [setup_loop_failed]
    simpa [setupStart] using well.usable
  have distinct := (setupLoop (socketTable fds) setupStart addresses).distinct
  set loop := setupLoop (socketTable fds) setupStart addresses
  have filled : loop.opened ≠ [] := by
    intro none
    rw [none] at each
    exact well.any (List.length_eq_zero_iff.mp each.symm)
  obtain ⟨fd, isLast⟩ : ∃ fd, loop.opened.getLast? = some fd := ⟨_, List.getLast?_eq_some_getLast filled⟩
  have isFd : loop.sockFd = some fd := taken.last.trans isLast
  have isSocket : (startTable fds answer loop.opened).file fd = some .socket := by
    rw [start_table_file, if_neg, if_pos (List.mem_of_getLast? isLast)]
    rintro ⟨daemon, low⟩
    have high := (taken.high fd isFd).mpr (each ▸ well.above daemon)
    omega
  refine ⟨startTable fds answer loop.opened, loop.sockFd, loop.opened, ?_,
    ⟨each, distinct, taken.fresh, taken.last, ⟨fd, isFd, isSocket⟩, start_table_file fds answer loop.opened⟩⟩
  refine (start_up_loops fds answer _ _ false).mpr
    ⟨well.signals.1, well.signals.2, addresses, well.found, startTable fds answer loop.opened, ?_, ?_⟩
  · cases daemon : answer.runDaemon with
    | false =>
        rw [startTable, daemon]
        rfl
    | true =>
        obtain ⟨fork, rest⟩ := well.background daemon
        rw [if_pos rfl, startTable, daemon]
        exact ⟨fork, (daemonise_streams _ answer _).mpr ⟨rest, rfl⟩⟩
  · refine (listening_fine _ _ _ _ _ _).mpr ⟨?_, well.listens, ⟨fd, isFd, isSocket⟩, rfl, rfl⟩
    rw [well.mutex, fine]
    rfl

/-- The accept loop is reached with retval 0 in these cases and no others. -/
theorem start_up_exactly :
    (∃ addresses after sockFd sockets, StartsWell fds answer addresses ∧
        startUp fds answer = .loops after sockFd false ∧
        StartedUp fds answer addresses after sockFd sockets) ∨
      (∀ addresses, ¬ StartsWell fds answer addresses) ∧
        ∀ after sockFd, startUp fds answer ≠ .loops after sockFd false := by
  by_cases ready : ∃ addresses, StartsWell fds answer addresses
  · obtain ⟨addresses, well⟩ := ready
    obtain ⟨after, sockFd, sockets, loops, started⟩ := start_up_gives fds answer addresses well
    exact Or.inl ⟨addresses, after, sockFd, sockets, well, loops, started⟩
  · refine Or.inr ⟨fun addresses well => ready ⟨addresses, well⟩, fun after sockFd loops => ready ?_⟩
    exact start_up_needs fds answer after sockFd loops

end

end AesdChar

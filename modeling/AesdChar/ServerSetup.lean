import Mathlib.Data.List.Nodup
import Mathlib.Data.List.TakeWhile

set_option autoImplicit false

namespace AesdChar

-- The kernel's choice of a descriptor that is not in use.
structure FdTable where
  unused : List Nat → Nat
  fresh : ∀ used, unused used ∉ used

structure AddrInfo where
  socket : Bool
  setsockopt : Bool
  bind : Bool
deriving DecidableEq, Repr

-- sockFd is none for -1. bound are those of the open sockets that have an address.
structure SetupState where
  sockFd : Option Nat
  failed : Bool
  opened : List Nat
  bound : List Nat
  distinct : opened.Nodup

def setupStart : SetupState := ⟨none, false, [], [], List.nodup_nil⟩

theorem opened_distinct (table : FdTable) (opened : List Nat) (distinct : opened.Nodup) :
    (opened ++ [table.unused opened]).Nodup :=
  List.nodup_append_comm.mp (List.nodup_cons.mpr ⟨table.fresh opened, distinct⟩)

def openSocket (table : FdTable) (state : SetupState) : SetupState :=
  ⟨some (table.unused state.opened), state.failed, state.opened ++ [table.unused state.opened], state.bound,
    opened_distinct table state.opened state.distinct⟩

-- Each failure breaks out of the loop, a success goes on with the next address.
def setupLoop (table : FdTable) : SetupState → List AddrInfo → SetupState
  | state, [] => state
  | state, p :: rest =>
      if !p.socket then { state with sockFd := none, failed := true }
      else
        let opened := openSocket table state
        if !p.setsockopt then { opened with failed := true }
        else if !p.bind then { opened with failed := true }
        else setupLoop table { opened with bound := opened.bound ++ opened.sockFd.toList } rest

def AddrInfo.usable (p : AddrInfo) : Bool := p.socket && p.setsockopt && p.bind

def ComesUp (state : SetupState) : Prop :=
  state.failed = false ∧ ∃ fd, state.sockFd = some fd ∧ state.opened = [fd] ∧ fd ∈ state.bound

def StaysDown (state : SetupState) : Prop := state.failed = true ∧ state.opened = []

def SetUpRight (addresses : List AddrInfo) (state : SetupState) : Prop :=
  ((∃ p ∈ addresses, p.usable = true) → ComesUp state) ∧ ((∀ p ∈ addresses, p.usable = false) → StaysDown state)

section

variable (table : FdTable)

theorem setup_loop_usable (state : SetupState) (p : AddrInfo) (rest : List AddrInfo) (usable : p.usable = true) :
    setupLoop table state (p :: rest) =
      setupLoop table { openSocket table state with bound := state.bound ++ [table.unused state.opened] } rest := by
  simp only [AddrInfo.usable, Bool.and_eq_true] at usable
  simp [setupLoop, usable.1.1, usable.1.2, usable.2, openSocket]

theorem setup_loop_unusable (state : SetupState) (p : AddrInfo) (rest : List AddrInfo) (unusable : p.usable = false) :
    (setupLoop table state (p :: rest)).failed = true ∧
      (setupLoop table state (p :: rest)).opened =
        if p.socket then state.opened ++ [table.unused state.opened] else state.opened := by
  cases socket : p.socket with
  | false => simp [setupLoop, socket]
  | true =>
      cases option : p.setsockopt with
      | false => simp [setupLoop, socket, option, openSocket]
      | true =>
          have unbound : p.bind = false := by simpa [AddrInfo.usable, socket, option] using unusable
          simp [setupLoop, socket, option, unbound, openSocket]

theorem setup_loop_failed (state : SetupState) (addresses : List AddrInfo) :
    (setupLoop table state addresses).failed = (state.failed || !addresses.all AddrInfo.usable) := by
  induction addresses generalizing state with
  | nil => simp [setupLoop]
  | cons p rest ih =>
      cases usable : p.usable with
      | true =>
          rw [setup_loop_usable table state p rest usable, ih]
          simp [usable, openSocket]
      | false =>
          rw [(setup_loop_unusable table state p rest usable).1]
          simp [usable]

theorem setup_loop_opened (state : SetupState) (addresses : List AddrInfo) :
    (setupLoop table state addresses).opened.length =
      state.opened.length + (addresses.takeWhile AddrInfo.usable).length +
        ((addresses.dropWhile AddrInfo.usable).head?.toList.filter AddrInfo.socket).length := by
  induction addresses generalizing state with
  | nil => simp [setupLoop]
  | cons p rest ih =>
      cases usable : p.usable with
      | true =>
          rw [setup_loop_usable table state p rest usable, ih]
          simp [usable, openSocket]
          omega
      | false =>
          rw [(setup_loop_unusable table state p rest usable).2]
          cases socket : p.socket <;> simp [usable, socket]

theorem setup_start_opened_all (addresses : List AddrInfo) (usable : ∀ p ∈ addresses, p.usable = true) :
    (setupLoop table setupStart addresses).opened.length = addresses.length := by
  have whole : addresses.takeWhile AddrInfo.usable = addresses := List.takeWhile_eq_self_iff.mpr usable
  have nothing : addresses.dropWhile AddrInfo.usable = [] := List.dropWhile_eq_nil_iff.mpr usable
  rw [setup_loop_opened, whole, nothing]
  simp [setupStart]

theorem setup_loop_single (p : AddrInfo) (usable : p.usable = true) : ComesUp (setupLoop table setupStart [p]) := by
  rw [setup_loop_usable table setupStart p [] usable]
  refine ⟨rfl, table.unused [], rfl, rfl, ?_⟩
  simp [setupLoop, setupStart]

theorem comes_up_single (addresses : List AddrInfo) (up : ComesUp (setupLoop table setupStart addresses)) :
    ∃ p, addresses = [p] ∧ p.usable = true := by
  obtain ⟨succeeded, fd, _, single, _⟩ := up
  have usable : ∀ p ∈ addresses, p.usable = true := by
    rw [setup_loop_failed] at succeeded
    simpa [setupStart] using succeeded
  have one := setup_start_opened_all table addresses usable
  rw [single] at one
  obtain ⟨p, is_p⟩ := List.length_eq_one_iff.mp one.symm
  exact ⟨p, is_p, usable p (by simp [is_p])⟩

theorem stays_down_first (addresses : List AddrInfo) (unusable : ∀ p ∈ addresses, p.usable = false) :
    StaysDown (setupLoop table setupStart addresses) ↔ ∃ p rest, addresses = p :: rest ∧ p.socket = false := by
  cases addresses with
  | nil => simp [StaysDown, setupLoop, setupStart]
  | cons p rest =>
      obtain ⟨failed, opened⟩ := setup_loop_unusable table setupStart p rest (unusable p (by simp))
      rw [StaysDown, failed, opened]
      cases socket : p.socket <;> simp [socket, setupStart]

theorem server_comes_up_exactly (addresses : List AddrInfo) :
    SetUpRight addresses (setupLoop table setupStart addresses) ↔
      (∃ p, addresses = [p] ∧ p.usable = true) ∨
        (∃ p rest, addresses = p :: rest ∧ p.socket = false ∧ ∀ q ∈ addresses, q.usable = false) := by
  by_cases some_usable : ∃ p ∈ addresses, p.usable = true
  · constructor
    · intro right
      exact Or.inl (comes_up_single table addresses (right.1 some_usable))
    · intro condition
      rcases condition with ⟨p, is_p, usable⟩ | ⟨p, rest, _, _, unusable⟩
      · subst is_p
        refine ⟨fun _ => setup_loop_single table p usable, fun unusable => ?_⟩
        simp [usable] at unusable
      · obtain ⟨q, member, usable⟩ := some_usable
        simp [unusable q member] at usable
  · have unusable : ∀ p ∈ addresses, p.usable = false := by simpa using some_usable
    have down := stays_down_first table addresses unusable
    constructor
    · intro right
      obtain ⟨p, rest, is_cons, socket⟩ := down.mp (right.2 unusable)
      exact Or.inr ⟨p, rest, is_cons, socket, unusable⟩
    · intro condition
      rcases condition with ⟨p, is_p, usable⟩ | ⟨p, rest, is_cons, socket, _⟩
      · simp [unusable p (by simp [is_p])] at usable
      · exact ⟨fun usable => absurd usable some_usable, fun _ => down.mpr ⟨p, rest, is_cons, socket⟩⟩

end

theorem le_foldr_max (least : Nat) (fds : List Nat) : ∀ fd ∈ fds, fd ≤ fds.foldr max least := by
  induction fds with
  | nil => simp
  | cons first rest ih =>
      intro fd member
      rcases List.mem_cons.mp member with rfl | later
      · exact Nat.le_max_left _ _
      · exact Nat.le_trans (ih fd later) (Nat.le_max_right _ _)

def upwardFds : FdTable where
  unused used := used.foldr max 2 + 1
  fresh used member := Nat.not_succ_le_self _ (le_foldr_max 2 used _ member)

theorem server_two_addresses :
    ¬ SetUpRight [⟨true, true, true⟩, ⟨true, true, true⟩]
        (setupLoop upwardFds setupStart [⟨true, true, true⟩, ⟨true, true, true⟩]) ∧
      ¬ SetUpRight [⟨true, true, true⟩, ⟨true, true, false⟩]
        (setupLoop upwardFds setupStart [⟨true, true, true⟩, ⟨true, true, false⟩]) ∧
      ¬ SetUpRight [⟨true, true, false⟩] (setupLoop upwardFds setupStart [⟨true, true, false⟩]) := by
  refine ⟨fun right => ?_, fun right => ?_, fun right => ?_⟩
  · obtain ⟨_, _, _, single, _⟩ := right.1 ⟨⟨true, true, true⟩, by decide⟩
    have both : (setupLoop upwardFds setupStart [⟨true, true, true⟩, ⟨true, true, true⟩]).opened = [3, 4] := rfl
    rw [both] at single
    cases single
  · exact absurd (right.1 ⟨⟨true, true, true⟩, by decide⟩).1 (by decide)
  · exact absurd (right.2 (by decide)).2 (by decide)

end AesdChar

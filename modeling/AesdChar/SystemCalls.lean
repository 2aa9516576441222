import AesdChar.Memory

set_option autoImplicit false

namespace AesdChar

-- none and false stand for -1. execv is true when it does not come back.
structure ExecAnswer where
  openFile : Bytes → Option Nat
  fork : Option Nat
  dup2 : Bool
  execv : Bool
  waitpid : Nat → Option UInt32

def wifexited (status : UInt32) : Bool := status &&& 0x7f == 0

def wexitstatus (status : UInt32) : UInt32 := (status &&& 0xff00) >>> 8

inductive ForkReturn where
  | error
  | child
  | parent (pid : Nat)
deriving DecidableEq, Repr

structure Process where
  fd : Option Nat
  stdout : Option Nat
  execv : Option (Option Bytes × List (Option Bytes))
  replaced : Bool
  returned : Option Bool
deriving DecidableEq, Repr

def Process.started (fd : Option Nat) : Process := ⟨fd, none, none, false, none⟩

def Process.dup2 (process : Process) : Process := { process with stdout := process.fd }

def Process.runExecv (process : Process) (answer : ExecAnswer) (command : List (Option Bytes)) : Process :=
  { process with execv := some (command.headD none, command), replaced := answer.execv }

def Process.close (process : Process) : Process := { process with fd := none }

def Process.returns (process : Process) (value : Bool) : Process := { process with returned := some value }

structure Called where
  caller : Process
  child : Option Process
deriving DecidableEq, Repr

def Called.processes (called : Called) : List Process := called.caller :: called.child.toList

def forkCall (answer : ExecAnswer) (after : ForkReturn → Process) : Called :=
  match answer.fork with
  | none => ⟨after .error, none⟩
  | some pid => ⟨after (.parent pid), some (after .child)⟩

-- An argument that was not passed is none.
def argLoop : Nat → Nat → List Bytes → List (Option Bytes) → List (Option Bytes)
  | 0, _, _, command => command
  | left + 1, i, args, command => argLoop left (i + 1) args.tail (command.set i args.head?)

def commandArray (stale : Nat → Option Bytes) (count : Nat) (args : List Bytes) : List (Option Bytes) :=
  (argLoop count 0 args ((List.range (count + 1)).map stale)).set count none

-- The terminator stands for the first byte of an empty path; 47 is '/'.
def absolutePath (path : Bytes) : Bool := path.headD 0 == 47

def waitReturn (answer : ExecAnswer) (pid : Nat) : Bool :=
  match answer.waitpid pid with
  | none => false
  | some status => if wifexited status && wexitstatus status != 0 then false else true

def doExecForked (answer : ExecAnswer) (command : List (Option Bytes)) : ForkReturn → Process
  | .error => (Process.started none).returns false
  | .child =>
      let process := (Process.started none).runExecv answer command
      if answer.execv then process else process.returns false
  | .parent pid => (Process.started none).returns (waitReturn answer pid)

-- none: command[0] is NULL, and the test of its first byte reads through it.
def doExec (answer : ExecAnswer) (stale : Nat → Option Bytes) (count : Nat) (args : List Bytes) : Option Called :=
  let command := commandArray stale count args
  match command.headD none with
  | none => none
  | some path =>
      if !absolutePath path then some ⟨(Process.started none).returns false, none⟩
      else some (forkCall answer (doExecForked answer command))

def doExecRedirectForked (answer : ExecAnswer) (fd : Nat) (command : List (Option Bytes)) : ForkReturn → Process
  | .error => (Process.started (some fd)).close.returns false
  | .child =>
      if !answer.dup2 then (Process.started (some fd)).close.returns false
      else
        let process := (Process.started (some fd)).dup2.runExecv answer command
        if answer.execv then process else process.close.returns false
  | .parent pid => (Process.started (some fd)).close.returns (waitReturn answer pid)

def doExecRedirect (answer : ExecAnswer) (outputfile : Bytes) (stale : Nat → Option Bytes) (count : Nat)
    (args : List Bytes) : Option Called :=
  let command := commandArray stale count args
  match command.headD none with
  | none => none
  | some path =>
      if !absolutePath path then some ⟨(Process.started none).returns false, none⟩
      else
        match answer.openFile outputfile with
        | none => some ⟨(Process.started none).returns false, none⟩
        | some fd => some (forkCall answer (doExecRedirectForked answer fd command))

def CommandSucceeded (answer : ExecAnswer) (called : Called) : Prop :=
  ∃ child pid status, called.child = some child ∧ child.replaced = true ∧ answer.fork = some pid ∧
    answer.waitpid pid = some status ∧ wifexited status = true ∧ wexitstatus status = 0

-- The header comments, output being where a command that runs has to write.
structure KeepsContract (answer : ExecAnswer) (args : List Bytes) (output : Option Nat) (called : Called) : Prop where
  arguments : ∀ process ∈ called.processes, ∀ call, process.execv = some call →
    call = (args.head?, args.map some ++ [none])
  onlyCaller : called.caller.returned.isSome = true ∧ ∀ child, called.child = some child → child.returned = none
  succeeded : called.caller.returned = some true ↔ CommandSucceeded answer called
  closed : ∀ process ∈ called.processes, process.returned.isSome = true → process.fd = none
  redirected : ∀ process ∈ called.processes, process.replaced = true → process.stdout = output

theorem arg_loop_filled (left i : Nat) (args : List Bytes) (command : List (Option Bytes)) (passed : left ≤ args.length)
    (room : i + left ≤ command.length) :
    argLoop left i args command = command.take i ++ (args.take left).map some ++ command.drop (i + left) := by
  induction left generalizing i args command with
  | zero => simp [argLoop]
  | succ left ih =>
      cases args with
      | nil => simp at passed
      | cons arg rest =>
          have inside : i < command.length := by omega
          have front : (command.set i (some arg)).take (i + 1) = command.take i ++ [some arg] := by
            have kept : (command.take i).length = i := by rw [List.length_take]; omega
            rw [List.set_eq_take_append_cons_drop, if_pos inside, List.take_append, kept,
              List.take_of_length_le (by omega)]
            simp
          have back : (command.set i (some arg)).drop (i + 1 + left) = command.drop (i + 1 + left) :=
            List.drop_set_of_lt (by omega)
          have later :=
            ih (i + 1) rest (command.set i (some arg)) (by simpa using passed) (by rw [List.length_set]; omega)
          simp only [argLoop, List.tail_cons, List.head?_cons]
          rw [later, front, back, show i + 1 + left = i + (left + 1) by omega]
          simp

theorem command_array_passed (stale : Nat → Option Bytes) (args : List Bytes) :
    commandArray stale args.length args = args.map some ++ [none] := by
  rw [commandArray, arg_loop_filled args.length 0 args _ (Nat.le_refl _) (by simp)]
  have last : (((List.range (args.length + 1)).map stale).drop (0 + args.length)).length = 1 := by simp
  obtain ⟨x, single⟩ := List.length_eq_one_iff.mp last
  rw [single]
  simp

def ForkedWell (answer : ExecAnswer) (ran : Bool) : Prop :=
  ∀ pid, answer.fork = some pid → ran = true ∧ ∀ status, answer.waitpid pid = some status → wifexited status = true

structure ChildBranch (args : List Bytes) (output : Option Nat) (ran : Bool) (child : Process) : Prop where
  replaced : child.replaced = ran
  returned : child.returned.isSome = !ran
  execv : ran = true → child.execv = some (args.head?, args.map some ++ [none])
  stdout : ran = true → child.stdout = output

section

variable (answer : ExecAnswer) (args : List Bytes) (output : Option Nat)

theorem wait_return_true (pid : Nat) :
    waitReturn answer pid = true ↔
      ∃ status, answer.waitpid pid = some status ∧ (wifexited status = true → wexitstatus status = 0) := by
  cases waited : answer.waitpid pid with
  | none => simp [waitReturn, waited]
  | some status => cases exited : wifexited status <;> simp [waitReturn, waited, exited]

theorem alone_keeps : KeepsContract answer args output ⟨(Process.started none).returns false, none⟩ where
  arguments := by simp [Called.processes, Process.started, Process.returns]
  onlyCaller := by simp [Process.started, Process.returns]
  succeeded := by simp [CommandSucceeded, Process.started, Process.returns]
  closed := by simp [Called.processes, Process.started, Process.returns]
  redirected := by simp [Called.processes, Process.started, Process.returns]

theorem replaced_succeeded (pid : Nat) (child : Process) (forked : answer.fork = some pid)
    (branch : ChildBranch args output true child) (caller : Process) :
    CommandSucceeded answer ⟨caller, some child⟩ ↔
      ∃ status, answer.waitpid pid = some status ∧ wifexited status = true ∧ wexitstatus status = 0 := by
  simp [CommandSucceeded, forked, branch.replaced]

theorem replaced_keeps (pid : Nat) (child : Process) (forked : answer.fork = some pid)
    (branch : ChildBranch args output true child) :
    KeepsContract answer args output ⟨(Process.started none).returns (waitReturn answer pid), some child⟩ ↔
      ∀ status, answer.waitpid pid = some status → wifexited status = true := by
  have gone : child.returned = none := by simpa using branch.returned
  have success := replaced_succeeded answer args output pid child forked branch
  constructor
  · intro contract status waited
    -- A command that has not exited has not succeeded, and the caller returns true.
    by_contra killed
    have returned : waitReturn answer pid = true :=
      (wait_return_true answer pid).mpr ⟨status, waited, fun exited => absurd exited killed⟩
    obtain ⟨other, waited', exited, _⟩ := (success _).mp (contract.succeeded.mp (congrArg some returned))
    rw [waited, Option.some.injEq] at waited'
    subst waited'
    exact killed exited
  · intro exits
    refine ⟨?_, ⟨rfl, ?_⟩, ?_, ?_, ?_⟩
    · simp [Called.processes, Process.started, Process.returns, branch.execv rfl]
    · simp [gone]
    · rw [success]
      simp only [Process.returns, Option.some.injEq, wait_return_true]
      constructor
      · intro ⟨status, waited, exited⟩
        exact ⟨status, waited, exits status waited, exited (exits status waited)⟩
      · intro ⟨status, waited, _, zero⟩
        exact ⟨status, waited, fun _ => zero⟩
    · simp [Called.processes, Process.started, Process.returns, gone]
    · simp [Called.processes, Process.started, Process.returns, branch.stdout rfl]

theorem fork_call_keeps (ran : Bool) (after : ForkReturn → Process)
    (error : after .error = (Process.started none).returns false)
    (parent : ∀ pid, after (.parent pid) = (Process.started none).returns (waitReturn answer pid))
    (branch : ChildBranch args output ran (after .child)) :
    KeepsContract answer args output (forkCall answer after) ↔ ForkedWell answer ran := by
  cases forked : answer.fork with
  | none =>
      have alone : forkCall answer after = ⟨(Process.started none).returns false, none⟩ := by
        simp [forkCall, forked, error]
      rw [alone]
      simp [ForkedWell, forked, alone_keeps answer args output]
  | some pid =>
      have both : forkCall answer after =
          ⟨(Process.started none).returns (waitReturn answer pid), some (after .child)⟩ := by
        simp [forkCall, forked, parent]
      rw [both]
      cases ran with
      | true =>
          rw [replaced_keeps answer args output pid _ forked branch]
          simp [ForkedWell, forked]
      | false =>
          have twice : (after .child).returned ≠ none := by
            intro gone
            have returned := branch.returned
            simp [gone] at returned
          simp only [ForkedWell, forked]
          constructor
          · intro contract
            exact absurd (contract.onlyCaller.2 _ rfl) twice
          · intro well
            cases (well pid rfl).1

theorem first_or_null (first : Option Bytes) : (first.map some).getD none = first := by
  cases first <;> rfl

theorem do_exec_child : ChildBranch args none answer.execv (doExecForked answer (args.map some ++ [none]) .child) := by
  cases execv : answer.execv with
  | true => constructor <;> simp [doExecForked, execv, Process.started, Process.runExecv, first_or_null]
  | false => constructor <;> simp [doExecForked, execv, Process.started, Process.runExecv, Process.returns]

theorem do_exec_redirect_child (fd : Nat) :
    ChildBranch args (some fd) (answer.dup2 && answer.execv)
      (doExecRedirectForked answer fd (args.map some ++ [none]) .child) := by
  cases dup2 : answer.dup2 with
  | false => constructor <;> simp [doExecRedirectForked, dup2, Process.started, Process.close, Process.returns]
  | true =>
      cases execv : answer.execv with
      | true =>
          constructor <;>
            simp [doExecRedirectForked, dup2, execv, Process.started, Process.dup2, Process.runExecv, first_or_null]
      | false =>
          constructor <;>
            simp [doExecRedirectForked, dup2, execv, Process.started, Process.dup2, Process.runExecv, Process.close,
              Process.returns]

end

section

variable (answer : ExecAnswer) (stale : Nat → Option Bytes) (path : Bytes) (rest : List Bytes)

theorem do_exec_absolute (absolute : absolutePath path = true) :
    doExec answer stale (path :: rest).length (path :: rest) =
      some (forkCall answer (doExecForked answer ((path :: rest).map some ++ [none]))) := by
  simp only [doExec, command_array_passed]
  simp [absolute]

theorem do_exec_redirect_absolute (outputfile : Bytes) (absolute : absolutePath path = true) :
    doExecRedirect answer outputfile stale (path :: rest).length (path :: rest) =
      match answer.openFile outputfile with
      | none => some ⟨(Process.started none).returns false, none⟩
      | some fd => some (forkCall answer (doExecRedirectForked answer fd ((path :: rest).map some ++ [none]))) := by
  simp only [doExecRedirect, command_array_passed]
  simp [absolute]

theorem do_exec_keeps (absolute : absolutePath path = true) :
    (∃ called, doExec answer stale (path :: rest).length (path :: rest) = some called ∧
        KeepsContract answer (path :: rest) none called) ↔ ForkedWell answer answer.execv := by
  simp only [do_exec_absolute answer stale path rest absolute, Option.some.injEq, exists_eq_left']
  exact fork_call_keeps answer (path :: rest) none answer.execv _ rfl (fun _ => rfl) (do_exec_child answer _)

theorem do_exec_redirect_keeps (outputfile : Bytes) (absolute : absolutePath path = true) :
    (∃ called, doExecRedirect answer outputfile stale (path :: rest).length (path :: rest) = some called ∧
        KeepsContract answer (path :: rest) (answer.openFile outputfile) called) ↔
      answer.openFile outputfile = none ∨ ForkedWell answer (answer.dup2 && answer.execv) := by
  rw [do_exec_redirect_absolute answer stale path rest outputfile absolute]
  cases opened : answer.openFile outputfile with
  | none => simp [alone_keeps answer (path :: rest) none]
  | some fd =>
      simp only [Option.some.injEq, exists_eq_left', reduceCtorEq, false_or]
      exact fork_call_keeps answer (path :: rest) (some fd) _ _ rfl (fun _ => rfl) (do_exec_redirect_child answer _ fd)

theorem exec_calls_keep_contract (outputfile : Bytes) (absolute : absolutePath path = true) :
    ((∃ called, doExec answer stale (path :: rest).length (path :: rest) = some called ∧
          KeepsContract answer (path :: rest) none called) ↔ ForkedWell answer answer.execv) ∧
      ((∃ called, doExecRedirect answer outputfile stale (path :: rest).length (path :: rest) = some called ∧
          KeepsContract answer (path :: rest) (answer.openFile outputfile) called) ↔
        answer.openFile outputfile = none ∨ ForkedWell answer (answer.dup2 && answer.execv)) :=
  ⟨do_exec_keeps answer stale path rest absolute, do_exec_redirect_keeps answer stale path rest outputfile absolute⟩

end

def exitedAnswer : ExecAnswer := ⟨fun _ => some 3, some 100, true, true, fun _ => some 0⟩

theorem exec_calls_exited :
    (∃ called, doExec exitedAnswer (fun _ => none) 2 [[47, 116], [97]] = some called ∧
        KeepsContract exitedAnswer [[47, 116], [97]] none called) ∧
      (∃ called, doExecRedirect exitedAnswer [47, 111] (fun _ => none) 2 [[47, 116], [97]] = some called ∧
        KeepsContract exitedAnswer [[47, 116], [97]] (some 3) called) := by
  have well : ForkedWell exitedAnswer true := by
    intro pid _
    refine ⟨rfl, ?_⟩
    intro status waited
    cases waited
    decide
  have exact_when := exec_calls_keep_contract exitedAnswer (fun _ => none) [47, 116] [[97]] [47, 111] (by decide)
  exact ⟨exact_when.1.mpr well, exact_when.2.mpr (Or.inr well)⟩

-- The status word of a command that SIGKILL has ended.
def killedAnswer : ExecAnswer := ⟨fun _ => some 3, some 100, true, true, fun _ => some 9⟩

def missingAnswer : ExecAnswer := ⟨fun _ => some 3, some 100, true, false, fun _ => some 0⟩

theorem exec_calls_break_contract :
    (¬ ∃ called, doExec killedAnswer (fun _ => none) 1 [[47, 116]] = some called ∧
        KeepsContract killedAnswer [[47, 116]] none called) ∧
      (¬ ∃ called, doExecRedirect killedAnswer [47, 111] (fun _ => none) 1 [[47, 116]] = some called ∧
        KeepsContract killedAnswer [[47, 116]] (some 3) called) ∧
      (¬ ∃ called, doExec missingAnswer (fun _ => none) 1 [[47, 116]] = some called ∧
        KeepsContract missingAnswer [[47, 116]] none called) ∧
      (¬ ∃ called, doExecRedirect missingAnswer [47, 111] (fun _ => none) 1 [[47, 116]] = some called ∧
        KeepsContract missingAnswer [[47, 116]] (some 3) called) := by
  have absolute : absolutePath [47, 116] = true := by decide
  have killed : ¬ ForkedWell killedAnswer true := fun well => absurd ((well 100 rfl).2 9 rfl) (by decide)
  have missing : ¬ ForkedWell missingAnswer false := fun well => absurd (well 100 rfl).1 (by decide)
  refine ⟨?_, ?_, ?_, ?_⟩
  · intro kept
    exact killed ((do_exec_keeps killedAnswer _ [47, 116] [] absolute).mp kept)
  · intro kept
    have kept := (do_exec_redirect_keeps killedAnswer _ [47, 116] [] [47, 111] absolute).mp kept
    exact killed (kept.resolve_left (by simp [killedAnswer]))
  · intro kept
    exact missing ((do_exec_keeps missingAnswer _ [47, 116] [] absolute).mp kept)
  · intro kept
    have kept := (do_exec_redirect_keeps missingAnswer _ [47, 116] [] [47, 111] absolute).mp kept
    exact missing (kept.resolve_left (by simp [missingAnswer]))

end AesdChar

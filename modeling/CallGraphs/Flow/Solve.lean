import CallGraphs.Analysis.Failure
import CallGraphs.Data.Counting
import CallGraphs.Flow.Program

/-!
# Solving flow programs

The alias sets grow in rounds until nothing changes.  A round looks at the
slots that grew in the round before: it passes the arguments of calls through
them to the targets found there, and copies what they hold along the copy
constraints.  All changes of a round are read off the sets as they were at its
beginning and made together at its end.

A run ends after finitely many rounds, because every round but the last adds a
function to a slot or blocks one.  `Program.roundBound` is a number of rounds
that no run exceeds; a caller may set a lower cap.
-/

namespace CallGraphs

namespace Flow

/-- What a run did. -/
structure FixpointStats where
  /-- The rounds after the first changes were made. -/
  rounds : Nat := 0
  slots : Nat := 0
  functions : Nat := 0
  /-- The sum of the sizes of all alias sets, at first and after each round. -/
  totals : List Nat := []
  /-- The number of rounds that the run might have taken. -/
  cap : Nat := 0
deriving DecidableEq, Inhabited, Repr

namespace FixpointStats

/-- The totals never go down. -/
def isMonotone (s : FixpointStats) : Bool :=
  (s.totals.zip s.totals.tail).all fun (a, b) => a ≤ b

/-- The last total. -/
def memberships (s : FixpointStats) : Nat := s.totals.getLastD 0

/-- The run in words. -/
def text (s : FixpointStats) : String :=
  s!"fixpoint after {s.rounds} rounds ({s.slots} slots, {s.functions} functions, " ++
    s!"{s.memberships} memberships)"

end FixpointStats

/-! ## Passing arguments -/

/-- A program in which arguments are being passed, and the changes that this asks for. -/
structure Binding where
  program : Program
  updates : List Update := []
  /-- A node number that no function has. -/
  missing : Option NodeId := none
deriving Inhabited

namespace Binding

/-- Passes a value to a slot.  A copy that is new has to carry what its source holds by now. -/
def bindValue (b : Binding) (value : Value) (target : SlotId) : Binding :=
  match value with
  | .slot source =>
    match b.program.addCopy source target with
    | (program, true) => { b with program, updates := b.updates ++ [.copy source target] }
    | (_, false) => b
  | .function id => { b with updates := b.updates ++ [.add target id] }
  | .blocked => { b with updates := b.updates ++ [.block target] }

/-- Passes a value to a parameter of a function. -/
def bindParam (callee : FunctionKey) (b : Binding) (arg : Nat × Value) : Binding :=
  let (program, target) := b.program.intern (.param callee arg.1)
  { b with program }.bindValue arg.2 target

/-- The arguments that are given, each with its position. -/
def given (args : List (Option Value)) : List (Nat × Value) :=
  args.zipIdx.filterMap fun (arg, index) => arg.map (index, ·)

/-- Passes arguments to a function, and defaults to the parameters after the explicit ones. -/
def bindCall (names : List FunctionKey) (args : List (Option Value)) (explicit : Nat)
    (b : Binding) (callee : NodeId) : Binding :=
  match b.missing, names[callee]? with
  | some _, _ => b
  | none, none => { b with missing := some callee }
  | none, some key =>
    (given args ++ b.program.defaultsFrom callee explicit).foldl (bindParam key) b

/-- Passes the arguments of an indirect call to a target, unless that was done before. -/
def bindTarget (names : List FunctionKey) (place : Nat) (call : IndirectCall) (b : Binding)
    (target : NodeId) : Binding :=
  if b.missing.isSome ∨ (place, target) ∈ b.program.bound then b
  else
    { b with program := { b.program with bound := b.program.bound ++ [(place, target)] } }.bindCall
      names call.args call.explicit target

/-- The functions that a call through a slot reaches now. -/
def targetsOf (p : Program) (call : IndirectCall) : List NodeId :=
  let held := (p.heldBy call.through).toList
  if call.expand then held ++ held.flatMap p.expansionOf else held

/-- Passes the arguments of all indirect calls through a slot to their targets. -/
def discover (names : List FunctionKey) (b : Binding) (slot : SlotId) : Binding :=
  (b.program.calls.zipIdx.filter (·.1.through = slot)).foldl
    (fun b (call, place) => (targetsOf b.program call).foldl (bindTarget names place call) b) b

end Binding

namespace Program

/-! ## Rounds -/

/-- The functions that updates bring to a slot, as the program stands. -/
def incoming (p : Program) (updates : List Update) (slot : SlotId) : List NodeId :=
  updates.flatMap fun
    | .add target function => if target = slot then [function] else []
    | .copy source target => if target = slot then (p.heldBy source).toList else []
    | .block _ => []

/-- Whether updates block a slot, as the program stands. -/
def blocks (p : Program) (updates : List Update) (slot : SlotId) : Bool :=
  updates.any fun
    | .add .. => false
    | .copy source target => target = slot && p.isBlocked source
    | .block target => target = slot

/-- A slot after updates. -/
def updateSlot (p : Program) (updates : List Update) (slot : SlotId) (s : SlotState) :
    SlotState :=
  { s with
    held := s.held.insertAll (p.incoming updates slot)
    blocked := s.blocked || p.blocks updates slot }

/-- Makes all updates together. -/
def apply (p : Program) (updates : List Update) : Program :=
  { p with slots := p.slots.mapIdx (p.updateSlot updates) }

/-- The slots that differ between two stages of a program. -/
def changed (before after : Program) : List SlotId :=
  (List.range after.slots.length).filter fun slot => before.slots[slot]? ≠ after.slots[slot]?

/-- The sum of the sizes of all alias sets. -/
def total (p : Program) : Nat := sumOf (·.held.size) p.slots

/-- The copies that carry on what slots hold. -/
def copiesFrom (p : Program) (slots : List SlotId) : List Update :=
  slots.flatMap fun slot =>
    (p.copies.filter (·.1 = slot)).map fun (source, target) => .copy source target

/-- The number of rounds that a run over so many functions may take, unless a limit is set. -/
def capFor (p : Program) (functions : Nat) (limit : Option Nat) : Nat :=
  limit.getD (p.slots.length * (functions + 1) + 1)

/-- The most parameter slots that passing arguments can add. -/
def paramBound (p : Program) (functions : Nat) : Nat :=
  functions * (sumOf (·.args.length) p.staticCalls + sumOf (·.args.length) p.calls +
    p.defaults.length)

/-- A number of rounds that is never exceeded. -/
def roundBound (p : Program) (functions : Nat) (limit : Option Nat) : Nat :=
  limit.getD ((p.slots.length + p.paramBound functions) * (functions + 1) + 1)

/--
Runs rounds until no slot changes.  `changes` are the slots that changed last,
and `bound` is the number of rounds still to go at most.
-/
def rounds (names : List FunctionKey) (limit : Option Nat) (cancelled : Bool) :
    (bound : Nat) → Program → (changes : List SlotId) → FixpointStats →
      Program × Except Failure FixpointStats
  | _, p, [], stats =>
    (p, .ok { stats with slots := p.slots.length, cap := p.capFor names.length limit })
  | bound, p, changes, stats =>
    let cap := p.capFor names.length limit
    if cancelled then (p, .error .cancelled)
    else if cap < stats.rounds + 1 then
      (p, .error (.diverged cap p.slots.length names.length))
    else
      match bound with
      | 0 => (p, .error (.diverged cap p.slots.length names.length))
      | bound + 1 =>
        let b := changes.foldl (Binding.discover names) { program := p }
        match b.missing with
        | some id => (b.program, .error (.unknownFunction id))
        | none =>
          let next := b.program.apply (b.updates ++ b.program.copiesFrom changes)
          rounds names limit cancelled bound next (changed b.program next)
            { stats with rounds := stats.rounds + 1, totals := stats.totals ++ [next.total] }

/--
Solves a program over the functions of a graph, given by their keys.  The
assignments and the calls of known functions are used up, whatever the
outcome; all else stays for a later run.
-/
def solve (p : Program) (names : List FunctionKey) (limit : Option Nat) (cancelled : Bool) :
    Program × Except Failure FixpointStats :=
  let bound := p.roundBound names.length limit
  let start : Binding :=
    { program := { p with seeds := [], staticCalls := [] }, updates := p.seeds }
  let b := p.staticCalls.foldl (fun b call => b.bindCall names call.args call.explicit call.callee)
    start
  match b.missing with
  | some id => (b.program, .error (.unknownFunction id))
  | none =>
    let all := b.program.copies.map fun (source, target) => Update.copy source target
    let next := b.program.apply (b.updates ++ all)
    rounds names limit cancelled bound next (changed b.program next)
      { functions := names.length, totals := [next.total] }

end Program

end Flow

end CallGraphs

import CallGraphs.Facts.Slot
import CallGraphs.Graph.Edge

/-!
# Flow programs

The constraints on what slots may hold.  Every slot has an alias set, of the
functions whose addresses it may hold, and is blocked when it may hold the
result of a call that is not followed.  Functions are given by node number and
slots by their place in the program.
-/

namespace CallGraphs

namespace Flow

/-- The place of a slot in a program. -/
abbrev SlotId := Nat

/-- What may flow into a slot. -/
inductive Value where
  /-- Whatever another slot holds. -/
  | slot (id : SlotId)
  /-- The address of a function. -/
  | function (id : NodeId)
  /-- The result of a call that is not followed. -/
  | blocked
deriving DecidableEq, Inhabited, Repr

/-- A call of a function that is known. -/
structure StaticCall where
  callee : NodeId
  args : List (Option Value)
  /-- The number of arguments; later parameters take their defaults. -/
  explicit : Nat
deriving DecidableEq, Inhabited, Repr

/-- A call of whatever a slot holds. -/
structure IndirectCall where
  through : SlotId
  args : List (Option Value)
  explicit : Nat
  /-- The overriders of a function that is held are called as well. -/
  expand : Bool
deriving DecidableEq, Inhabited, Repr

/-- The default value of a parameter. -/
structure Default where
  function : NodeId
  index : Nat
  value : Value
deriving DecidableEq, Inhabited, Repr

/-- A change to one slot, made at the end of a round. -/
inductive Update where
  /-- The slot may hold a function. -/
  | add (slot : SlotId) (function : NodeId)
  /-- The target may hold what the source holds. -/
  | copy (source target : SlotId)
  /-- The slot is blocked. -/
  | block (slot : SlotId)
deriving DecidableEq, Inhabited, Repr

/-- A slot and what is known of it. -/
structure SlotState where
  key : Slot
  held : SortedSet NodeId := ∅
  blocked : Bool := false
deriving DecidableEq, Inhabited

/-- The slots of a program and the constraints between them. -/
structure Program where
  slots : List SlotState := []
  /-- Pairs of slots of which the second may hold what the first holds. -/
  copies : List (SlotId × SlotId) := []
  /-- Assignments that no run has taken up yet. -/
  seeds : List Update := []
  /-- Calls of known functions that no run has taken up yet. -/
  staticCalls : List StaticCall := []
  calls : List IndirectCall := []
  defaults : List Default := []
  /-- Functions, each with some of its overriders. -/
  expansions : List (NodeId × List NodeId) := []
  /-- The indirect calls, by place, and the targets their arguments have been passed to. -/
  bound : List (Nat × NodeId) := []
deriving DecidableEq, Inhabited

namespace Program

/-- The program without slots. -/
def empty : Program := {}

/-- The place of a slot. -/
def slotId? (p : Program) (key : Slot) : Option SlotId := p.slots.findIdx? (·.key = key)

/-- The place of a slot, which is added if it is new. -/
def intern (p : Program) (key : Slot) : Program × SlotId :=
  match p.slotId? key with
  | some id => (p, id)
  | none => ({ p with slots := p.slots ++ [{ key }] }, p.slots.length)

/-- The functions that a slot may hold. -/
def heldBy (p : Program) (id : SlotId) : SortedSet NodeId :=
  ((p.slots[id]?).map (·.held)).getD ∅

/-- Whether a slot is blocked. -/
def isBlocked (p : Program) (id : SlotId) : Bool := (p.slots[id]?).any (·.blocked)

/-- The functions that a slot may hold, by its name. -/
def aliasSet (p : Program) (key : Slot) : SortedSet NodeId :=
  match p.slotId? key with
  | some id => p.heldBy id
  | none => ∅

/-- Lets one slot hold what another holds; tells whether that is new. -/
def addCopy (p : Program) (source target : SlotId) : Program × Bool :=
  if source = target ∨ (source, target) ∈ p.copies then (p, false)
  else ({ p with copies := p.copies ++ [(source, target)] }, true)

/-- Lets a value flow into a slot. -/
def assign (p : Program) (value : Value) (target : SlotId) : Program :=
  match value with
  | .slot source => (p.addCopy source target).1
  | .function id => { p with seeds := p.seeds ++ [.add target id] }
  | .blocked => { p with seeds := p.seeds ++ [.block target] }

/-- Adds a call of a known function. -/
def addStaticCall (p : Program) (call : StaticCall) : Program :=
  { p with staticCalls := p.staticCalls ++ [call] }

/-- Adds a call through a slot. -/
def addIndirectCall (p : Program) (call : IndirectCall) : Program :=
  { p with calls := p.calls ++ [call] }

/-- Adds a default value of a parameter. -/
def addDefault (p : Program) (function : NodeId) (index : Nat) (value : Value) : Program :=
  { p with defaults := p.defaults ++ [⟨function, index, value⟩] }

/-- Adds overriders of a function. -/
def addExpansion (p : Program) (function : NodeId) (overriders : List NodeId) : Program :=
  if overriders.isEmpty then p
  else { p with expansions := p.expansions ++ [(function, overriders)] }

/-- The overriders of a function. -/
def expansionOf (p : Program) (function : NodeId) : List NodeId :=
  (p.expansions.filter (·.1 = function)).flatMap (·.2)

/-- The defaults of the parameters of a function from some position on, by position. -/
def defaultsFrom (p : Program) (function : NodeId) (explicit : Nat) : List (Nat × Value) :=
  ((p.defaults.filter fun d => d.function = function && explicit ≤ d.index).map
    fun d => (d.index, d.value)).mergeSort fun a b => a.1 ≤ b.1

end Program

end Flow

end CallGraphs

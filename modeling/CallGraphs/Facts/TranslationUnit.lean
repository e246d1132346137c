import CallGraphs.Facts.Class
import CallGraphs.Facts.Slot

/-!
# Translation units

Everything a front end says of one translation unit: its functions and
classes, the call sites in them, the assignments of function addresses, and
the objects that are constructed and destroyed.
-/

namespace CallGraphs

/-- Where the address of a function comes from. -/
inductive PointerSource where
  /-- A function itself. -/
  | function (function : FunctionKey)
  /-- A lambda expression that decays to a function pointer. -/
  | lambda (function : FunctionKey)
  /-- What another slot holds. -/
  | slot (slot : Slot)
  /-- What a call of a function returns. -/
  | callResult (callee : FunctionKey)
  /-- No function. -/
  | null
deriving DecidableEq, Inhabited, Repr

/-- The default value of a parameter that holds a function address. -/
structure DefaultArg where
  index : Nat
  value : PointerSource
deriving DecidableEq, Inhabited, Repr

/-- A function that a unit declares or defines. -/
structure FunctionRecord where
  key : FunctionKey
  /-- The readable name. -/
  name : Option String := none
  /-- The unit has its body. -/
  defined : Bool := false
  isVirtual : Bool := false
  isLambda : Bool := false
  signature : Signature := {}
  /-- The functions it is declared to override. -/
  overrides : List FunctionKey := []
  defaultArgs : List DefaultArg := []
  /-- A digest of the body, by which definitions are compared. -/
  bodyHash : Option String := none
deriving DecidableEq, Inhabited, Repr

/-- On what occasion an object begins or ends its life. -/
inductive LifetimeKind where
  | localVar
  | temporary
  | heap
  | explicit
  | member
  | base
deriving DecidableEq, Inhabited, Repr

namespace LifetimeKind

/-- Destruction goes through a pointer, whose static class may not be that of the object. -/
def dispatches : LifetimeKind → Bool
  | heap | explicit => true
  | _ => false

/-- The object is a part of the one whose constructor or destructor is running. -/
def isSubobject : LifetimeKind → Bool
  | member | base => true
  | _ => false

end LifetimeKind

/-- The beginning or the end of a life. -/
inductive Phase where
  | construct
  | destroy
deriving DecidableEq, Inhabited, Repr

namespace Phase

/-- The phase as a noun. -/
def noun : Phase → String
  | construct => "construction"
  | destroy => "destruction"

end Phase

/-- What a call site calls. -/
inductive CallTarget where
  /-- A function that is known. -/
  | direct (callee : FunctionKey)
  /-- A method, through an object of a static class. -/
  | virtual (receiver : String) (method : String)
  /-- The function that a slot holds. -/
  | pointer (slot : Slot)
  /-- The member function that a slot holds, on an object of a class if that is known. -/
  | memberPointer (slot : Slot) (receiver : Option String)
  /-- A constructor or destructor. -/
  | implicit (lifetime : LifetimeKind) (phase : Phase) (className : String)
      (constructor : Option FunctionKey)
deriving DecidableEq, Inhabited, Repr

/-- A call site. -/
structure CallSite where
  caller : FunctionKey
  target : CallTarget
  /-- The arguments by position; only those that are function addresses are given. -/
  args : List (Option PointerSource) := []
  /-- The number of arguments, if it is known; later parameters take their defaults. -/
  argCount : Option Nat := none
  /-- Where the site is, for diagnostics. -/
  label : Option String := none
deriving DecidableEq, Inhabited, Repr

namespace CallSite

/-- The number of arguments that the site passes. -/
def explicitArgs (s : CallSite) : Nat := max (s.argCount.getD s.args.length) s.args.length

end CallSite

/-- The assignment of a function address to a slot. -/
structure Assignment where
  source : PointerSource
  destination : Slot
  /-- The function whose body has the assignment. -/
  context : Option FunctionKey := none
deriving DecidableEq, Inhabited, Repr

namespace Assignment

/-- An assignment in the body that its destination belongs to. -/
def ofSlots (source : PointerSource) (destination : Slot) : Assignment :=
  { source, destination, context := destination.owner? }

end Assignment

/--
An object of a class that is constructed or destroyed in a function.  Where
destruction goes through a pointer, the class is the static one.
-/
structure LifetimeEvent where
  caller : FunctionKey
  kind : LifetimeKind
  phase : Phase
  className : String
  /-- The constructor that was chosen, if it is known. -/
  constructor : Option FunctionKey := none
deriving DecidableEq, Inhabited, Repr

/-- All that is known of one translation unit. -/
structure TranslationUnit where
  /-- The name of the unit, by which whatever comes from it is marked. -/
  name : String := ""
  functions : List FunctionRecord := []
  classes : List ClassRecord := []
  callSites : List CallSite := []
  assignments : List Assignment := []
  lifetimeEvents : List LifetimeEvent := []
deriving DecidableEq, Inhabited, Repr

namespace CallSite

/-- The lifetime event that a site stands for, if it is of that kind. -/
def lifetimeEvent? (s : CallSite) : Option LifetimeEvent :=
  match s.target with
  | .implicit kind phase className constructor =>
    some { caller := s.caller, kind, phase, className, constructor }
  | _ => none

end CallSite

namespace TranslationUnit

/-- The lifetime events, then those that are given as call sites. -/
def allLifetimeEvents (u : TranslationUnit) : List LifetimeEvent :=
  u.lifetimeEvents ++ u.callSites.filterMap (·.lifetimeEvent?)

end TranslationUnit

end CallGraphs

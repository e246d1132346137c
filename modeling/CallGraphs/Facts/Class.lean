import CallGraphs.Graph.Function

/-!
# Class records

What a front end says of a class: its direct bases in order, its methods,
constructors and destructor, and its fields.
-/

namespace CallGraphs

/-- How a class derives from a base. -/
inductive Access where
  | publicly
  | protectedly
  | privately
deriving DecidableEq, Inhabited, Repr

/-- A direct base of a class. -/
structure BaseSpec where
  className : String
  isVirtual : Bool := false
  access : Access := .publicly
deriving DecidableEq, Inhabited, Repr

/-- A method: its unqualified name, by which it overrides, and its function. -/
structure MethodDecl where
  name : String
  function : FunctionKey
deriving DecidableEq, Inhabited, Repr

/-- A constructor. -/
structure ConstructorDecl where
  function : FunctionKey
  /-- It can be called without arguments. -/
  isDefault : Bool := false
deriving DecidableEq, Inhabited, Repr

/-- A destructor that the class declares; without one it has an implicit destructor. -/
structure DestructorDecl where
  function : FunctionKey
  isVirtual : Bool := false
deriving DecidableEq, Inhabited, Repr

/-- A data member. -/
structure FieldDecl where
  name : String
  /-- The class of the member, if it is of class type. -/
  className : Option String := none
  /-- It holds a pointer to a function or to a member function. -/
  isPointer : Bool := false
deriving DecidableEq, Inhabited, Repr

/-- A class, struct or union. -/
structure ClassRecord where
  key : String
  /-- The direct bases, in the order of their construction. -/
  bases : List BaseSpec := []
  methods : List MethodDecl := []
  constructors : List ConstructorDecl := []
  destructor : Option DestructorDecl := none
  /-- The data members, in the order of their declaration. -/
  fields : List FieldDecl := []
  isUnion : Bool := false
deriving DecidableEq, Inhabited, Repr

namespace ClassRecord

/-- The first constructor that needs no arguments. -/
def defaultConstructor? (c : ClassRecord) : Option FunctionKey :=
  (c.constructors.find? (·.isDefault)).map (·.function)

/-- The first method of a name. -/
def method? (c : ClassRecord) (name : String) : Option FunctionKey :=
  (c.methods.find? (·.name = name)).map (·.function)

/-- The first field of a name. -/
def field? (c : ClassRecord) (name : String) : Option FieldDecl :=
  c.fields.find? (·.name = name)

/-- Every function that the class lists as a member. -/
def members (c : ClassRecord) : List FunctionKey :=
  c.methods.map (·.function) ++ c.constructors.map (·.function) ++
    (c.destructor.map (·.function)).toList

/-- The names of the direct bases. -/
def baseNames (c : ClassRecord) : List String := c.bases.map (·.className)

/-- The classes of the data members that are of class type. -/
def memberClasses (c : ClassRecord) : List String := c.fields.filterMap (·.className)

end ClassRecord

end CallGraphs

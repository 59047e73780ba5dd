import ScriptCheck.Name

/-!
# Identities of declarations

A declaration is named by its module and by the path that leads to it from the module's root: one segment per enclosing
declaration, each with the number of type parameters that declaration introduces. So `X<T>.Y` and `X.Y` are different
things, and the path alone says how many type arguments each level takes (`ItemId.arities`).
-/

namespace ScriptCheck

/-- One step of a path: a declaration's name and the number of type parameters it introduces. -/
structure Segment where
  name : Name
  arity : Nat
  deriving DecidableEq, Repr

/-- The identity of a type, function or variable: its module and its path from the module's root. -/
structure ItemId where
  moduleName : String
  path : List Segment
  deriving DecidableEq, Repr

namespace ItemId

/-- The root of a module; top-level declarations are its children. -/
def root (moduleName : String) : ItemId := ⟨moduleName, []⟩

/-- The declaration of this name and arity directly under `id`. -/
def child (id : ItemId) (name : Name) (arity : Nat) : ItemId := { id with path := id.path ++ [⟨name, arity⟩] }

/-- The enclosing declaration, or the module's root; a root has none. -/
def outer? (id : ItemId) : Option ItemId :=
  if id.path.isEmpty then none else some { id with path := id.path.dropLast }

/-- The last segment of the path; a root has none. -/
def last? (id : ItemId) : Option Segment := id.path.getLast?

/-- The number of segments. -/
def depth (id : ItemId) : Nat := id.path.length

/-- Whether this is the root of a module. -/
def isRoot (id : ItemId) : Bool := id.path.isEmpty

/-- The number of type parameters the declaration itself introduces. -/
def arity (id : ItemId) : Nat := (id.last?.map (·.arity)).getD 0

/-- The number of type arguments each level takes, outermost first. -/
def arities (id : ItemId) : List Nat := id.path.map (·.arity)

/-- The declarations on the way to `id`, outermost first and `id` last; the module's root is not one. -/
def enclosing (id : ItemId) : List ItemId :=
  (List.range id.path.length).map fun n => { id with path := id.path.take (n + 1) }

/-- How a path is shown: each name after a dot, then a backquote and the arity where there is one. -/
def displayPath : List Segment → String
  | [] => ""
  | s :: rest =>
    "." ++ s.name.display ++ (if s.arity = 0 then "" else "`" ++ toString s.arity) ++ displayPath rest

/-- How an id is shown: the module, then the path. -/
def display (id : ItemId) : String := id.moduleName ++ displayPath id.path

/-- Which segments have reserved names; it tells apart ids that are shown alike. -/
def reservedFlags (id : ItemId) : List Bool := id.path.map (·.name.reserved)

@[simp] theorem child_moduleName (id : ItemId) (n : Name) (k : Nat) : (id.child n k).moduleName = id.moduleName := rfl

@[simp] theorem child_path (id : ItemId) (n : Name) (k : Nat) : (id.child n k).path = id.path ++ [⟨n, k⟩] := rfl

/-- The declaration around a child is the one it was made under. -/
@[simp] theorem outer?_child (id : ItemId) (n : Name) (k : Nat) : (id.child n k).outer? = some id := by
  simp [outer?, child]

/-- A child ends in the segment it was made with. -/
@[simp] theorem last?_child (id : ItemId) (n : Name) (k : Nat) : (id.child n k).last? = some ⟨n, k⟩ := by
  simp [last?, child]

/-- A child has one more level than the declaration around it. -/
@[simp] theorem arities_child (id : ItemId) (n : Name) (k : Nat) : (id.child n k).arities = id.arities ++ [k] := by
  simp [arities, child]

end ItemId

end ScriptCheck

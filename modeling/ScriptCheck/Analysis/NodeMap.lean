import ScriptCheck.Analysis.Storage

/-!
# What is known about each node

The result of an analysis, node by node: the type of an expression, and what its form calls for beyond that, such as the
function a call goes to or the slot a declaration was given. The two are set apart from each other, and a later entry
replaces an earlier one. Of the notes besides the type the replaced ones are kept behind the one that stands, so that a map
tells whether it was written over.
-/

namespace ScriptCheck

/-- What a lambda or a task carries in, and the position of its body among the templates. -/
structure ClosureInfo where
  captures : List CaptureInfo
  template : Nat
  deriving DecidableEq, Repr

/-- What is known about a node besides its type. -/
inductive NodeInfo where
  /-- An identifier or member that names a place. -/
  | storage (storage : Storage)
  /-- An identifier or member that names a function. -/
  | func (func : FuncRef)
  /-- A type expression, or an identifier that names a type. -/
  | type (ty : Ty)
  /-- A call of a named function; `object` is what it is called on. -/
  | call (func : FuncRef) (object : Option Nat)
  /-- A call of a value of function type. -/
  | callValue
  /-- An element that is read. -/
  | indexer (getter : FuncRef)
  | assign (target : Target)
  /-- `++` or `--`, with the function that says how the target's type steps. -/
  | step (target : Target) (operator : FuncRef) (before : Bool)
  | lambda (info : ClosureInfo)
  | task (info : ClosureInfo)
  /-- A declaration, and the place of what it declares. -/
  | varDecl (storage : Storage)
  /-- A test for a type. -/
  | isTest (ty : Ty)
  deriving DecidableEq, Repr

/-- What is known about one node. -/
structure NodeData where
  ty : Option Ty
  /-- What was noted besides the type, the latest first. -/
  notes : List NodeInfo
  deriving DecidableEq, Repr

/-- The note that stands. -/
def NodeData.info (d : NodeData) : Option NodeInfo := d.notes.head?

@[simp] theorem NodeData.info_nil (ty : Option Ty) : NodeData.info ⟨ty, []⟩ = none := rfl

@[simp] theorem NodeData.info_cons (ty : Option Ty) (info : NodeInfo) (notes : List NodeInfo) :
    NodeData.info ⟨ty, info :: notes⟩ = some info := rfl

@[simp] theorem NodeData.info_notes (ty : Option Ty) (d : NodeData) : NodeData.info ⟨ty, d.notes⟩ = d.info := rfl

/-- What is known about each node, by its number. -/
abbrev NodeMap := Table Nat NodeData

namespace NodeMap

/-- What is known about a node; nothing where it was never met. -/
def dataOf (m : NodeMap) (node : Nat) : NodeData := (m.find? node).getD ⟨none, []⟩

/-- The type noted for a node. -/
def ty? (m : NodeMap) (node : Nat) : Option Ty := (m.dataOf node).ty

/-- What is noted for a node besides its type. -/
def info? (m : NodeMap) (node : Nat) : Option NodeInfo := (m.dataOf node).info

/-- All that was ever noted for a node besides its type, the latest first. -/
def history (m : NodeMap) (node : Nat) : List NodeInfo := (m.dataOf node).notes

/-- Notes the type of a node. -/
def setType (m : NodeMap) (node : Nat) (ty : Ty) : NodeMap := m.insert node { m.dataOf node with ty := some ty }

/-- Notes what is known about a node besides its type; what was noted so far is replaced. -/
def setInfo (m : NodeMap) (node : Nat) (info : NodeInfo) : NodeMap :=
  let known := m.dataOf node
  m.insert node { known with notes := info :: known.notes }

/-- The last type is read back. -/
@[simp] theorem ty?_setType (m : NodeMap) (n k : Nat) (ty : Ty) :
    (m.setType n ty).ty? k = if n = k then some ty else m.ty? k := by
  by_cases h : n = k <;> simp [setType, ty?, dataOf, h]

/-- A type leaves the notes alone. -/
@[simp] theorem info?_setType (m : NodeMap) (n k : Nat) (ty : Ty) : (m.setType n ty).info? k = m.info? k := by
  by_cases h : n = k <;> simp [setType, info?, dataOf, h]

/-- The last note is read back. -/
@[simp] theorem info?_setInfo (m : NodeMap) (n k : Nat) (info : NodeInfo) :
    (m.setInfo n info).info? k = if n = k then some info else m.info? k := by
  by_cases h : n = k <;> simp [setInfo, info?, dataOf, h]

/-- A type is not part of the history. -/
@[simp] theorem history_setType (m : NodeMap) (n k : Nat) (ty : Ty) : (m.setType n ty).history k = m.history k := by
  by_cases h : n = k <;> simp [setType, history, dataOf, h]

/-- A note is added to the history. -/
@[simp] theorem history_setInfo (m : NodeMap) (n k : Nat) (info : NodeInfo) :
    (m.setInfo n info).history k = if n = k then info :: m.history k else m.history k := by
  by_cases h : n = k <;> simp [setInfo, history, dataOf, h]

@[simp] theorem ty?_setInfo (m : NodeMap) (n k : Nat) (info : NodeInfo) : (m.setInfo n info).ty? k = m.ty? k := by
  by_cases h : n = k <;> simp [setInfo, ty?, dataOf, h]

end NodeMap

end ScriptCheck

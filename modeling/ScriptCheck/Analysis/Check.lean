import ScriptCheck.Analysis.Frame
import ScriptCheck.Diagnostic
import ScriptCheck.Analysis.NodeMap
import ScriptCheck.Typing.Members

/-!
# The state of an analysis

What does not change while a body is analysed is a `Context`: the modules, the declarations of the script and those around
the body. What does change is a `State`. A step of the analysis reads and changes the state, reports problems as it goes
and ends early only on a fault.
-/

namespace ScriptCheck

/-- A type of the script as it is known before its record is made. -/
structure DeclaredType where
  kind : TypeKind
  typeParams : List Name
  node : Node
  deriving DecidableEq, Repr

/-- The ids of all declarations of the script. -/
structure Skeleton where
  types : Table ItemId DeclaredType
  funcs : List ItemId
  vars : List ItemId

namespace Skeleton

/-- No declarations yet. -/
def empty : Skeleton := ⟨.empty, [], []⟩

/-- Whether some declaration has this id. -/
def contains (s : Skeleton) (id : ItemId) : Bool := s.types.contains id || s.funcs.contains id || s.vars.contains id

end Skeleton

/-- A declaration around the place that is analysed. -/
structure DeclScope where
  id : ItemId
  typeParams : List Name
  isType : Bool
  deriving DecidableEq, Repr

/-- What stays the same while a body or a declaration is analysed. -/
structure Context where
  /-- The name of the script's own module. -/
  moduleName : String
  capturer : Capturer
  /-- The modules that names are looked up in, the script's own first once it is made. -/
  registry : Registry
  skeleton : Skeleton
  /-- The declarations around this place, innermost first. -/
  enclosing : List DeclScope
  /-- How long bases are followed that may never end. -/
  [patience : Patience]

namespace Context

/-- The id that the script's top-level declarations are children of. -/
def root (ctx : Context) : ItemId := .root ctx.moduleName

/-- The same context one declaration further in. -/
def within (ctx : Context) (scope : DeclScope) : Context := { ctx with enclosing := scope :: ctx.enclosing }

/-- Whether a value of type `source` may stand where `target` is expected, as far as bases are followed here. -/
def assignable (ctx : Context) (target source : Ty) : Bool :=
  letI := ctx.patience
  ctx.registry.assignable target source

end Context

/-- What a template is the body of. -/
inductive TemplateKind where
  | script
  | func (id : ItemId)
  | lambda (node : Nat)
  | task (node : Nat)
  deriving DecidableEq, Repr

/-- What is needed to run one body. -/
structure Template where
  kind : TemplateKind
  /-- The number of slots: parameters, captures and every variable declared. -/
  locals : Nat
  /-- What a sequence function yields. -/
  seqElem : Option Ty
  isThisCall : Bool
  /-- The node of the body; the script's own statements have none. -/
  body : Option Nat
  deriving DecidableEq, Repr

/-- What an analysis keeps and changes. -/
structure State where
  /-- The frame of the body that is being analysed. -/
  frame : Frame
  /-- Whether the statements stand directly in the script's body. -/
  globalScope : Bool
  globals : PrivateGlobals
  nodes : NodeMap
  templates : List Template
  diagnostics : List Diagnostic

/-- The state before anything is analysed. -/
def State.initial : State := ⟨.script, true, .empty, .empty, [], []⟩

/-- A step of the analysis. -/
abbrev Check := StateT State (Except Fault)

namespace Check

/-- Reports a problem at a node. -/
def report (problem : Problem) (node : Node) : Check Unit :=
  modify fun s => { s with diagnostics := s.diagnostics ++ [⟨problem, node⟩] }

/-- Reports a problem and goes on without a type. -/
def reject (problem : Problem) (node : Node) : Check Ty := do
  report problem node
  return .unresolved

/-- Notes the type of a node. -/
def noteType (node : Node) (ty : Ty) : Check Unit := modify fun s => { s with nodes := s.nodes.setType node.id ty }

/-- Notes what is known about a node besides its type. -/
def noteInfo (node : Node) (info : NodeInfo) : Check Unit :=
  modify fun s => { s with nodes := s.nodes.setInfo node.id info }

/-- Changes the active frame. -/
def modifyFrame (f : Frame → Frame) : Check Unit := modify fun s => { s with frame := f s.frame }

/-- Makes a slot in the active frame for a name, and says which. -/
def declareLocal (name : String) (ty : Ty) : Check Nat := do
  let slot := (← get).frame.size
  modifyFrame (·.declare name ty)
  return slot

/-- Notes a finished body, and says at which position. -/
def pushTemplate (kind : TemplateKind) (frame : Frame) (body : Option Nat) : Check Nat := do
  let position := (← get).templates.length
  modify fun s =>
    { s with templates := s.templates ++ [⟨kind, frame.size, frame.seqElem, frame.isThisCall, body⟩] }
  return position

/-- Runs a step in a scope of its own: the names and narrowings it leaves behind are put back. -/
def inScope {α : Type} (step : Check α) : Check α := do
  let before ← get
  let a ← step
  modify fun s => { s with frame := s.frame.leaveBlock before.frame, globalScope := before.globalScope }
  return a

/-- Runs a step in a block: a scope whose declarations are not the script's own. -/
def inBlock {α : Type} (step : Check α) : Check α :=
  inScope do
    modify fun s => { s with globalScope := false }
    step

/-- Runs a step in a frame of its own and gives that frame back along with the answer. -/
def inFrame {α : Type} (frame : Frame) (step : Check α) : Check (α × Frame) := do
  let before ← get
  set { before with frame := frame, globalScope := false }
  let a ← step
  let after ← get
  set { after with frame := before.frame, globalScope := before.globalScope }
  return (a, after.frame)

/-- Notes the type that a step finds for a node. -/
def typed (node : Node) (step : Check Ty) : Check Ty := do
  let ty ← step
  noteType node ty
  return ty

/-- The type of an expression that has to give a value. -/
def valued (node : Node) (step : Check Ty) : Check Ty := do
  let ty ← step
  if ty.isVoid then reject .voidValueUsed node else return ty

/-- Reports a value that may not stand where `expected` is expected, and says whether it may. A type that is not known on
either side is let through, for its cause has been reported. -/
def checkAssignable (ctx : Context) (expected found : Ty) (node : Node) : Check Bool := do
  if expected.isUnresolved || found.isUnresolved then
    return true
  else if found.isVoid && !expected.isVoid then
    report .voidValueUsed node
    return false
  else if ctx.assignable expected found then
    return true
  else
    report (.typeMismatch expected found) node
    return false

/-! ### What a run does -/

/-- Two steps in a row succeed exactly when the first does and the second does from where the first ended. -/
theorem bind_eq_ok {α β : Type} {x : Check α} {f : α → Check β} {s : State} {r : β × State} :
    (x >>= f) s = .ok r ↔ ∃ a s', x s = .ok (a, s') ∧ f a s' = .ok r := by
  change StateT.bind x f s = .ok r ↔ _
  unfold StateT.bind
  cases h : x s with
  | error e => simp [bind, Except.bind]
  | ok p =>
    obtain ⟨a, s'⟩ := p
    constructor
    · intro hf
      exact ⟨a, s', rfl, hf⟩
    · rintro ⟨b, t, hp, hf⟩
      cases hp
      exact hf

/-- A result leaves the state alone. -/
@[simp] theorem pure_apply {α : Type} (a : α) (s : State) : (pure a : Check α) s = .ok (a, s) := rfl

/-- A report is added at the end. -/
@[simp] theorem report_apply (problem : Problem) (node : Node) (s : State) :
    report problem node s = .ok ((), { s with diagnostics := s.diagnostics ++ [⟨problem, node⟩] }) := rfl

/-- A type is noted at the node. -/
@[simp] theorem noteType_apply (node : Node) (ty : Ty) (s : State) :
    noteType node ty s = .ok ((), { s with nodes := s.nodes.setType node.id ty }) := rfl

/-- So is what the node means. -/
@[simp] theorem noteInfo_apply (node : Node) (info : NodeInfo) (s : State) :
    noteInfo node info s = .ok ((), { s with nodes := s.nodes.setInfo node.id info }) := rfl

/-- Only the frame changes. -/
@[simp] theorem modifyFrame_apply (f : Frame → Frame) (s : State) :
    modifyFrame f s = .ok ((), { s with frame := f s.frame }) := rfl

/-- A local variable gets the next slot. -/
@[simp] theorem declareLocal_apply (name : String) (ty : Ty) (s : State) :
    declareLocal name ty s = .ok (s.frame.size, { s with frame := s.frame.declare name ty }) := rfl

end Check

end ScriptCheck

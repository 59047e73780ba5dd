import ScriptCheck.Analysis.Statement

/-!
# Outlines

The outline of a part of a body lists what its analysis has to do with the body's frame, in the order in which it is done: the
declarations it makes slots for, the variables it reads, the places it assigns to, and the bodies of lambdas and tasks that
stand in it. What stands inside such a body belongs to that body's own outline. An assignment comes after everything in it,
since the place is written last. All of this is said by the shape of the tree alone; the nodes that are listed are those
under which the analysis makes its notes.
-/

namespace ScriptCheck

/-- A use of a name in a part of a body. -/
structure Read where
  node : Nat
  /-- The conditions of the `if`s of the part in whose branches the name stands. -/
  guards : List Expr
  /-- The assignments and steps of the part that are analysed before it. -/
  before : List Nat

/-- The same use in a part that begins with these assignments. -/
def Read.after (writes : List Nat) (r : Read) : Read := { r with before := writes ++ r.before }

/-- After nothing, a read stays as it is. -/
@[simp] theorem Read.after_nil (r : Read) : r.after [] = r := rfl

/-- The same use in a branch of an `if`. -/
def Read.under (cond : Expr) (r : Read) : Read := { r with guards := cond :: r.guards }

/-- A body: what has a slot in its frame besides captures, and the nodes of the expressions, declarations, lambdas and tasks
that stand directly in it. -/
structure BodyOutline where
  kind : TemplateKind
  params : List Nat
  locals : List Nat
  own : List Nat

/-- What the analysis of a part of a body has to do with the body. -/
structure Outline where
  /-- The nodes that stand directly in the body. -/
  own : List Nat
  /-- The declarations that are given slots of the frame. -/
  locals : List Nat
  /-- The declarations that are given slots of the script. -/
  globals : List Nat
  /-- The assignments, `++` and `--`. -/
  writes : List Nat
  reads : List Read
  /-- The bodies inside, each after those inside of it. -/
  bodies : List BodyOutline

namespace Outline

/-- Nothing that has to do with the body. -/
def empty : Outline := ⟨[], [], [], [], [], []⟩

/-- Two parts one after the other. -/
def seq (a b : Outline) : Outline :=
  ⟨a.own ++ b.own, a.locals ++ b.locals, a.globals ++ b.globals, a.writes ++ b.writes,
    a.reads ++ b.reads.map (·.after a.writes), a.bodies ++ b.bodies⟩

/-- A node of the body. -/
def node (n : Nat) : Outline := { empty with own := [n] }

/-- A use of a name. -/
def read (n : Nat) : Outline := { node n with reads := [⟨n, [], []⟩] }

/-- An assignment or a step. -/
def write (n : Nat) : Outline := { node n with writes := [n] }

/-- A declaration, of the script's own variable or of a variable of the frame. -/
def declare (isGlobal : Bool) (n : Nat) : Outline :=
  if isGlobal then { node n with globals := [n] } else { node n with locals := [n] }

/-- The branches of an `if`. -/
def under (cond : Expr) (o : Outline) : Outline := { o with reads := o.reads.map (·.under cond) }

/-- The body of a lambda or a task at a node, with the outline of what stands in it. -/
def closure (kind : TemplateKind) (n : Nat) (params : List Nat) (inner : Outline) : Outline :=
  { node n with bodies := inner.bodies ++ [⟨kind, params, inner.locals, inner.own⟩] }

/-- Nothing follows. -/
@[simp] theorem seq_empty (a : Outline) : a.seq empty = a := by simp [seq, empty]

/-- Nothing comes before. -/
@[simp] theorem empty_seq (a : Outline) : empty.seq a = a := by
  simp [seq, empty]

/-- It does not matter how outlines in a row are put together. -/
theorem seq_assoc (a b c : Outline) : (a.seq b).seq c = a.seq (b.seq c) := by
  simp [seq, Read.after, List.append_assoc, Function.comp_def]

end Outline

mutual

/-- The outline of an expression. -/
def Expr.outline : Expr → Outline
  | .identifier node _ _ => .read node.id
  | .intLit node _ => .node node.id
  | .boolLit node _ => .node node.id
  | .strLit node _ => .node node.id
  | .binary node _ left right => left.outline.seq (right.outline.seq (.node node.id))
  | .unary node op operand => operand.outline.seq (if op.step?.isSome then .write node.id else .node node.id)
  | .assign node target value => target.outline.seq (value.outline.seq (.write node.id))
  | .call node callee args => callee.outline.seq ((Expr.outlineOfList args).seq (.node node.id))
  | .lambda node params _ body => .closure (.lambda node.id) node.id (params.map (·.node.id)) body.outline
  | .member node object _ _ => object.outline.seq (.node node.id)
  | .index node object index => object.outline.seq (index.outline.seq (.node node.id))
  | .isTest node value _ => value.outline.seq (.node node.id)

/-- The outline of several expressions. -/
def Expr.outlineOfList : List Expr → Outline
  | [] => .empty
  | e :: es => e.outline.seq (Expr.outlineOfList es)

/-- The outline of what stands in a lambda's body. -/
def Body.outline : Body → Outline
  | .expr e => e.outline
  | .block b => b.outline

/-- The outline of a block. -/
def Block.outline : Block → Outline
  | .mk _ ss => Stmt.outlineOfList ss

/-- The outline of several statements of a block. -/
def Stmt.outlineOfList : List Stmt → Outline
  | [] => .empty
  | s :: ss => (s.outline false).seq (Stmt.outlineOfList ss)

/-- The outline of a statement, which stands directly in the script's body if `isGlobal` holds. -/
def Stmt.outline (s : Stmt) (isGlobal : Bool) : Outline :=
  match s with
  | .varDecl node _ _ init => (Expr.outlineOfOption init).seq (.declare isGlobal node.id)
  | .ifThen _ cond thenBody elseBody =>
    cond.outline.seq (((thenBody.outline false).seq (Stmt.outlineOfOption elseBody)).under cond)
  | .whileDo _ cond body => cond.outline.seq (body.outline false)
  | .block _ b => b.outline
  | .expr _ e => e.outline
  | .ret _ value => Expr.outlineOfOption value
  | .yields _ e => e.outline
  | .breaks _ => .empty
  | .continues _ => .empty
  | .task node b => .closure (.task node.id) node.id [] b.outline
  | .awaits _ b => b.outline

/-- The outline of an expression that may be missing. -/
def Expr.outlineOfOption : Option Expr → Outline
  | none => .empty
  | some e => e.outline

/-- The outline of the branch after `else`, if there is one. -/
def Stmt.outlineOfOption : Option Stmt → Outline
  | none => .empty
  | some s => s.outline false

end

/-! ### The bodies of a script -/

/-- The body of a function that is declared under `outer`, after the bodies inside. -/
def FuncDecl.bodies (outer : ItemId) (decl : FuncDecl) : List BodyOutline :=
  decl.body.outline.bodies ++
    [⟨.func (decl.idUnder outer), decl.params.map (·.node.id), decl.body.outline.locals, decl.body.outline.own⟩]

mutual

/-- The bodies of the functions of a type that is declared under `outer`. -/
def TypeDecl.bodies (outer : ItemId) : TypeDecl → List BodyOutline
  | .mk _ _ name typeParams _ members => Member.bodiesOfList (outer.child (.text name) typeParams.length) members

/-- The bodies of the functions among several members. -/
def Member.bodiesOfList (id : ItemId) : List Member → List BodyOutline
  | [] => []
  | m :: ms => m.bodies id ++ Member.bodiesOfList id ms

/-- The bodies of the functions of a member. -/
def Member.bodies (id : ItemId) : Member → List BodyOutline
  | .type decl => decl.bodies id
  | .func decl => decl.bodies id
  | .field _ => []
  | .case _ => []

end

namespace Script

/-- The outline of the statements at the top level. -/
def outline : Script → Outline
  | [] => .empty
  | .stmt s :: rest => (s.outline true).seq (outline rest)
  | .type _ :: rest => outline rest
  | .func _ :: rest => outline rest

/-- The bodies of the functions that a script declares. -/
def declBodies (root : ItemId) : Script → List BodyOutline
  | [] => []
  | .stmt _ :: rest => declBodies root rest
  | .type decl :: rest => decl.bodies root ++ declBodies root rest
  | .func decl :: rest => decl.bodies root ++ declBodies root rest

/-- The bodies of a script: those in its own statements, that of the script itself, and those of its functions. -/
def bodies (root : ItemId) (script : Script) : List BodyOutline :=
  script.outline.bodies ++ ⟨.script, [], script.outline.locals, script.outline.own⟩ :: script.declBodies root

end Script

end ScriptCheck

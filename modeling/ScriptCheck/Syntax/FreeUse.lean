import ScriptCheck.Syntax.Tree
import ScriptCheck.Table

/-!
# Which outer names a body uses

A lambda or a task runs apart from the frame it is written in, so each outer variable it uses has to be carried over. The
free uses of a body are its plain identifiers that neither a parameter nor an earlier declaration in the body accounts for;
each is a read or a write. `captures` lists each name once, by its first free use, and asks for a reference as soon as one
of the uses writes.
-/

namespace ScriptCheck

/-- How a variable is carried into a body: its value, or the variable itself. -/
inductive CaptureKind where
  | copy
  | ref
  deriving DecidableEq, Repr

/-- A name that a body needs from outside, or one use of it. -/
structure CaptureNeed where
  name : String
  kind : CaptureKind
  deriving DecidableEq, Repr

/-- A use of a name, unless the name is bound. -/
def freeUse (bound : List String) (name : String) (kind : CaptureKind) : List CaptureNeed :=
  if name ∈ bound then [] else [⟨name, kind⟩]

/-- The uses in the place of something assigned or stepped: a plain identifier is written, and anything else is used as it
is when read. -/
def writeUses (bound : List String) (target : Expr) (reads : List CaptureNeed) : List CaptureNeed :=
  match target.plainName? with
  | some name => freeUse bound name .ref
  | none => reads

/-- The uses of an operand: `++` and `--` write it. -/
def operandUses (bound : List String) (op : UnaryOp) (operand : Expr) (reads : List CaptureNeed) : List CaptureNeed :=
  match op with
  | .step _ _ => writeUses bound operand reads
  | _ => reads

mutual

/-- The free uses of an expression, left to right, a target before what is assigned to it. -/
def Expr.freeUses (bound : List String) : Expr → List CaptureNeed
  | .identifier _ name typeArgs => if typeArgs.isEmpty then freeUse bound name .copy else []
  | .intLit _ _ => []
  | .boolLit _ _ => []
  | .strLit _ _ => []
  | .binary _ _ left right => left.freeUses bound ++ right.freeUses bound
  | .unary _ op operand => operandUses bound op operand (operand.freeUses bound)
  | .assign _ target value => writeUses bound target (target.freeUses bound) ++ value.freeUses bound
  | .call _ callee args => callee.freeUses bound ++ Expr.freeUsesOfList bound args
  | .lambda _ params _ body => body.freeUses (params.map (·.name) ++ bound)
  | .member _ object _ _ => object.freeUses bound
  | .index _ object index => object.freeUses bound ++ index.freeUses bound
  | .isTest _ value _ => value.freeUses bound

/-- The free uses of several expressions, one after the other. -/
def Expr.freeUsesOfList (bound : List String) : List Expr → List CaptureNeed
  | [] => []
  | e :: es => e.freeUses bound ++ Expr.freeUsesOfList bound es

/-- The free uses of a body. -/
def Body.freeUses (bound : List String) : Body → List CaptureNeed
  | .expr e => e.freeUses bound
  | .block b => b.freeUses bound

/-- The free uses of a block; what it declares is bound up to its end. -/
def Block.freeUses (bound : List String) : Block → List CaptureNeed
  | .mk _ stmts => Stmt.freeUsesOfList bound stmts

/-- The free uses of statements in one scope: what one of them declares is bound in those after it. -/
def Stmt.freeUsesOfList (bound : List String) : List Stmt → List CaptureNeed
  | [] => []
  | s :: ss => s.freeUses bound ++ Stmt.freeUsesOfList (s.declared?.toList ++ bound) ss

/-- The free uses of a statement. -/
def Stmt.freeUses (bound : List String) : Stmt → List CaptureNeed
  | .varDecl _ _ _ init => Expr.freeUsesOfOption bound init
  | .ifThen _ cond thenBody elseBody =>
    cond.freeUses bound ++ thenBody.freeUses bound ++ Stmt.freeUsesOfOption bound elseBody
  | .whileDo _ cond body => cond.freeUses bound ++ body.freeUses bound
  | .block _ b => b.freeUses bound
  | .expr _ e => e.freeUses bound
  | .ret _ value => Expr.freeUsesOfOption bound value
  | .yields _ e => e.freeUses bound
  | .breaks _ => []
  | .continues _ => []
  | .task _ b => b.freeUses bound
  | .awaits _ b => b.freeUses bound

/-- The free uses of an expression that may be missing. -/
def Expr.freeUsesOfOption (bound : List String) : Option Expr → List CaptureNeed
  | none => []
  | some e => e.freeUses bound

/-- The free uses of a statement that may be missing. -/
def Stmt.freeUsesOfOption (bound : List String) : Option Stmt → List CaptureNeed
  | none => []
  | some s => s.freeUses bound

end

/-- Adds a use to the needs so far: a new name goes to the end, and a write makes the need one of a reference. -/
def addUse (needs : Table String CaptureKind) (use : CaptureNeed) : Table String CaptureKind :=
  match use.kind with
  | .copy => needs.insertNew use.name .copy
  | .ref => needs.insert use.name .ref

/-- Something that says which outer names a body with these parameters needs. -/
abbrev Capturer := List String → Body → List CaptureNeed

/-- Each outer name that the body uses, in the order of first use. -/
def captures : Capturer := fun params body =>
  ((body.freeUses params).foldl addUse .empty).entries.map fun e => ⟨e.1, e.2⟩

end ScriptCheck

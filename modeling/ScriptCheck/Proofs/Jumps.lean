import ScriptCheck.Proofs.FuncRecords

/-!
# Where control flow may jump

`break`, `continue`, `yield` and a `return` with a value are allowed in some places only. Which places these are is said by the
bodies and loops around a statement alone, innermost first (`Enclosure`): what counts for a loop is whether there is one before
the first body, and what counts for a sequence is which body comes first. `Script.jumps` lists all these statements, each with
what stands around it, and `Jump.misplaced` says what is wrong with those that are not allowed.
-/

namespace ScriptCheck

/-! ### Places -/

/-- A body or a loop around a statement. -/
inductive Enclosure where
  | script
  | func (isSequence : Bool)
  | lambda
  | task
  | loop
  deriving DecidableEq, Repr

/-- Whether this is a body: everything but a loop. -/
def Enclosure.isBody : Enclosure → Bool
  | loop => false
  | _ => true

/-- There is a loop around the place within the same body. -/
def InLoop (around : List Enclosure) : Prop := .loop ∈ around.takeWhile (!·.isBody)

/-- The body in which the place stands directly is that of a sequence function. -/
def InSequence (around : List Enclosure) : Prop := around.find? (·.isBody) = some (.func true)

instance (around : List Enclosure) : Decidable (InLoop around) := inferInstanceAs (Decidable (_ ∈ _))

instance (around : List Enclosure) : Decidable (InSequence around) := inferInstanceAs (Decidable (_ = _))

section Places

variable {around : List Enclosure} {e : Enclosure}

/-- In a loop there is a loop around. -/
theorem inLoop_loop (around : List Enclosure) : InLoop (.loop :: around) := by
  simp [InLoop, Enclosure.isBody]

/-- A loop is no sequence. -/
theorem inSequence_loop : InSequence (.loop :: around) ↔ InSequence around := by
  simp [InSequence, Enclosure.isBody]

/-- The loops around a body do not count in it. -/
theorem not_inLoop_body (he : e.isBody = true) : ¬InLoop (e :: around) := by
  simp [InLoop, he]

/-- In a body only the body itself counts. -/
theorem inSequence_body (he : e.isBody = true) : InSequence (e :: around) ↔ e = .func true := by
  simp [InSequence, he]

end Places

/-! ### Statements that jump -/

/-- The statements that are not allowed everywhere. -/
inductive JumpKind where
  | breaks
  | continues
  | yields
  /-- A `return` with a value. -/
  | returnsValue
  deriving DecidableEq, Repr

/-- What is reported where such a statement is not allowed. -/
def JumpKind.problem : JumpKind → Problem
  | breaks => .invalidBreak
  | continues => .invalidContinue
  | yields => .yieldOutsideSequence
  | returnsValue => .returnValueInSequence

theorem JumpKind.isJump_problem (kind : JumpKind) : kind.problem.isJump = true := by
  cases kind <;> rfl

/-- A statement that is not allowed everywhere, with its node, for a `return` that of the value, and with what stands around
it, innermost first. -/
structure Jump where
  kind : JumpKind
  node : Node
  around : List Enclosure

namespace Jump

/-- A `break` or `continue` has to stand in a loop of its body, a `yield` directly in the body of a sequence function, and a
`return` with a value must not stand there. -/
def Allowed (j : Jump) : Prop :=
  match j.kind with
  | .breaks | .continues => InLoop j.around
  | .yields => InSequence j.around
  | .returnsValue => ¬InSequence j.around

instance : DecidablePred Allowed
  | ⟨.breaks, _, around⟩ => inferInstanceAs (Decidable (InLoop around))
  | ⟨.continues, _, around⟩ => inferInstanceAs (Decidable (InLoop around))
  | ⟨.yields, _, around⟩ => inferInstanceAs (Decidable (InSequence around))
  | ⟨.returnsValue, _, around⟩ => inferInstanceAs (Decidable ¬InSequence around)

/-- What is reported if the statement is not allowed. -/
def diagnostic (j : Jump) : Diagnostic := ⟨j.kind.problem, j.node⟩

/-- What there is to report about some of these statements. -/
def misplaced (js : List Jump) : List Diagnostic := (js.filter fun j => ¬j.Allowed).map diagnostic

@[simp] theorem misplaced_nil : misplaced [] = [] := rfl

@[simp] theorem misplaced_append (js ks : List Jump) : misplaced (js ++ ks) = misplaced js ++ misplaced ks := by
  simp [misplaced]

/-- A jump is misplaced or allowed. -/
theorem misplaced_singleton (j : Jump) : misplaced [j] = if j.Allowed then [] else [j.diagnostic] := by
  by_cases h : j.Allowed <;> simp [misplaced, h]

/-- None is misplaced if all are allowed. -/
theorem misplaced_eq_nil {js : List Jump} : misplaced js = [] ↔ ∀ j ∈ js, j.Allowed := by
  simp [misplaced]

/-- A report is that of a misplaced jump. -/
theorem mem_misplaced {js : List Jump} {d : Diagnostic} : d ∈ misplaced js ↔ ∃ j ∈ js, ¬j.Allowed ∧ j.diagnostic = d := by
  simp [misplaced, and_assoc]

end Jump

/-! ### In a script -/

mutual

/-- The jumps in an expression, all of them in the bodies of lambdas. -/
def Expr.jumps (around : List Enclosure) : Expr → List Jump
  | .identifier _ _ _ => []
  | .intLit _ _ => []
  | .boolLit _ _ => []
  | .strLit _ _ => []
  | .binary _ _ left right => left.jumps around ++ right.jumps around
  | .unary _ _ operand => operand.jumps around
  | .assign _ target value => target.jumps around ++ value.jumps around
  | .call _ callee args => callee.jumps around ++ Expr.jumpsOfList around args
  | .lambda _ _ _ body => body.jumps (.lambda :: around)
  | .member _ object _ _ => object.jumps around
  | .index _ object index => object.jumps around ++ index.jumps around
  | .isTest _ value _ => value.jumps around

/-- The jumps in several expressions. -/
def Expr.jumpsOfList (around : List Enclosure) : List Expr → List Jump
  | [] => []
  | e :: es => e.jumps around ++ Expr.jumpsOfList around es

/-- The jumps in the body of a lambda. -/
def Body.jumps (around : List Enclosure) : Body → List Jump
  | .expr e => e.jumps around
  | .block b => b.jumps around

/-- The jumps in a block. -/
def Block.jumps (around : List Enclosure) : Block → List Jump
  | .mk _ ss => Stmt.jumpsOfList around ss

/-- The jumps in several statements. -/
def Stmt.jumpsOfList (around : List Enclosure) : List Stmt → List Jump
  | [] => []
  | s :: ss => s.jumps around ++ Stmt.jumpsOfList around ss

/-- The jumps in a statement, the statement itself after those in its value. -/
def Stmt.jumps (around : List Enclosure) : Stmt → List Jump
  | .varDecl _ _ _ init => Expr.jumpsOfOption around init
  | .ifThen _ cond thenBody elseBody =>
    cond.jumps around ++ (thenBody.jumps around ++ Stmt.jumpsOfOption around elseBody)
  | .whileDo _ cond body => cond.jumps around ++ body.jumps (.loop :: around)
  | .block _ b => b.jumps around
  | .expr _ e => e.jumps around
  | .ret _ value => Expr.jumpsOfReturn around value
  | .yields node e => e.jumps around ++ [⟨.yields, node, around⟩]
  | .breaks node => [⟨.breaks, node, around⟩]
  | .continues node => [⟨.continues, node, around⟩]
  | .task _ b => b.jumps (.task :: around)
  | .awaits _ b => b.jumps around

/-- The jumps in an expression that may be missing. -/
def Expr.jumpsOfOption (around : List Enclosure) : Option Expr → List Jump
  | none => []
  | some e => e.jumps around

/-- The jumps in a statement that may be missing. -/
def Stmt.jumpsOfOption (around : List Enclosure) : Option Stmt → List Jump
  | none => []
  | some s => s.jumps around

/-- The jumps of a `return`, which is one itself if it has a value. -/
def Expr.jumpsOfReturn (around : List Enclosure) : Option Expr → List Jump
  | none => []
  | some e => e.jumps around ++ [⟨.returnsValue, e.node, around⟩]

end

/-- The jumps in the body of a function. -/
def FuncDecl.jumps (decl : FuncDecl) : List Jump := decl.body.jumps [.func decl.isSequence]

/-- The jumps in the statements at the top level. -/
def Script.stmtJumps : Script → List Jump
  | [] => []
  | .stmt s :: rest => s.jumps [.script] ++ Script.stmtJumps rest
  | .type _ :: rest => Script.stmtJumps rest
  | .func _ :: rest => Script.stmtJumps rest

theorem Script.stmtJumps_eq : ∀ script : Script, script.stmtJumps = Stmt.jumpsOfList [.script] script.stmts
  | [] => rfl
  | .stmt s :: rest => congrArg (s.jumps [.script] ++ ·) (stmtJumps_eq rest)
  | .type _ :: rest => stmtJumps_eq rest
  | .func _ :: rest => stmtJumps_eq rest

/-- The jumps in a script: those in its own statements, and then those in its functions, wherever these are declared. -/
def Script.jumps (root : ItemId) (script : Script) : List Jump :=
  script.stmtJumps ++ (script.funcs root).flatMap fun d => d.2.jumps

end ScriptCheck

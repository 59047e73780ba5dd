import ScriptCheck.Syntax.FreeUse

/-!
# Where the parts of a script stand

A site is an expression or a statement of a body together with its place: the body it stands in, the bodies around that one,
and the variables that are declared in each of them and visible there. A declaration is visible from just after its statement
to the end of the block, or of the branch or loop body, that it stands in; parameters are visible in their body. What is
declared directly in the script's body is a variable of the script and not of a body. All of this is said by the shape of the
tree alone; `Script.sites` lists the sites of a script.
-/

namespace ScriptCheck

/-- What a body is the body of. -/
inductive Owner where
  | script
  | func (id : ItemId)
  | lambda (node : Node) (params : List LambdaParam) (ret : Option TypeExpr) (body : Body)
  | task (node : Node) (block : Block)

/-- A body around a place, and the variables of it that are visible there: their names and the nodes of their declarations,
the latest first. -/
structure Level where
  owner : Owner
  visible : List (String × Nat)

/-- The declaration that a name refers to in a body. -/
def Level.find? (l : Level) (name : String) : Option Nat := (l.visible.find? (·.1 = name)).map (·.2)

/-- A place in a script: the body at hand and the bodies around it, innermost first. -/
structure Place where
  here : Level
  outer : List Level
  /-- Whether what is declared here is a variable of the script. -/
  global : Bool

namespace Place

/-- All bodies around a place, innermost first. -/
def levels (p : Place) : List Level := p.here :: p.outer

/-- The place in a block at this place. -/
def inner (p : Place) : Place := { p with global := false }

/-- The place after a declaration. -/
def declare (p : Place) (name : String) (node : Nat) : Place :=
  if p.global then p else { p with here := { p.here with visible := (name, node) :: p.here.visible } }

/-- The place after a statement. -/
def after (p : Place) : Stmt → Place
  | .varDecl node _ name _ => p.declare name node.id
  | _ => p

/-- The place at the start of a body with these parameters. -/
def enter (p : Place) (owner : Owner) (params : List (String × Nat)) : Place :=
  ⟨⟨owner, params.reverse⟩, p.levels, false⟩

end Place

/-- The declaration that a name refers to, and the bodies around that declaration: the innermost body that declares the name
decides. -/
def resolve (name : String) : List Level → Option (List Level × Nat)
  | [] => none
  | l :: ls =>
    match l.find? name with
    | some node => some (l :: ls, node)
    | none => resolve name ls

/-- What stands at a site. -/
inductive Part where
  | expr (e : Expr)
  | stmt (s : Stmt)
  /-- The expression that is the body of a lambda. -/
  | result (e : Expr)

/-- A part of a script and its place. -/
structure Site where
  place : Place
  part : Part

/-- The parameters of a lambda as a place has them. -/
def LambdaParam.visible (params : List LambdaParam) : List (String × Nat) := params.map fun p => (p.name, p.node.id)

/-- The parameters of a function as a place has them. -/
def FuncParam.visible (params : List FuncParam) : List (String × Nat) := params.map fun p => (p.name, p.node.id)

section Visible

variable (ps : List LambdaParam) (qs : List FuncParam)

/-- The names that a lambda's parameters make visible. -/
@[simp] theorem LambdaParam.map_name_visible : (visible ps).map (·.1) = ps.map (·.name) := by simp [visible]

/-- The nodes they are declared at. -/
@[simp] theorem LambdaParam.map_node_visible : (visible ps).map (·.2) = ps.map (·.node.id) := by simp [visible]

/-- Every parameter of a lambda is visible. -/
@[simp] theorem LambdaParam.length_visible : (visible ps).length = ps.length := List.length_map _

/-- The names that a function's parameters make visible. -/
@[simp] theorem FuncParam.map_name_visible : (visible qs).map (·.1) = qs.map (·.name) := by simp [visible]

/-- The nodes they are declared at. -/
@[simp] theorem FuncParam.map_node_visible : (visible qs).map (·.2) = qs.map (·.node.id) := by simp [visible]

/-- Every parameter of a function is visible. -/
@[simp] theorem FuncParam.length_visible : (visible qs).length = qs.length := List.length_map _

end Visible

mutual

/-- The sites in an expression, itself first. -/
def Expr.sites (p : Place) (e : Expr) : List Site :=
  ⟨p, .expr e⟩ ::
    match e with
    | .identifier _ _ _ => []
    | .intLit _ _ => []
    | .boolLit _ _ => []
    | .strLit _ _ => []
    | .binary _ _ left right => left.sites p ++ right.sites p
    | .unary _ _ operand => operand.sites p
    | .assign _ target value => target.sites p ++ value.sites p
    | .call _ callee args => callee.sites p ++ Expr.sitesOfList p args
    | .lambda node params ret body =>
      body.sites (p.enter (.lambda node params ret body) (LambdaParam.visible params))
    | .member _ object _ _ => object.sites p
    | .index _ object index => object.sites p ++ index.sites p
    | .isTest _ value _ => value.sites p

/-- The sites in several expressions. -/
def Expr.sitesOfList (p : Place) : List Expr → List Site
  | [] => []
  | e :: es => e.sites p ++ Expr.sitesOfList p es

/-- The sites in the body of a lambda. -/
def Body.sites (p : Place) : Body → List Site
  | .expr e => ⟨p, .result e⟩ :: e.sites p
  | .block b => b.sites p

/-- The sites in a block. -/
def Block.sites (p : Place) : Block → List Site
  | .mk _ ss => Stmt.sitesOfList p.inner ss

/-- The sites in statements of one scope. -/
def Stmt.sitesOfList (p : Place) : List Stmt → List Site
  | [] => []
  | s :: ss => s.sites p ++ Stmt.sitesOfList (p.after s) ss

/-- The sites in a statement, itself first. -/
def Stmt.sites (p : Place) (s : Stmt) : List Site :=
  ⟨p, .stmt s⟩ ::
    match s with
    | .varDecl _ _ _ init => Expr.sitesOfOption p init
    | .ifThen _ cond thenBody elseBody =>
      cond.sites p ++ (thenBody.sites p.inner ++ Stmt.sitesOfOption p.inner elseBody)
    | .whileDo _ cond body => cond.sites p ++ body.sites p.inner
    | .block _ b => b.sites p
    | .expr _ e => e.sites p
    | .ret _ value => Expr.sitesOfOption p value
    | .yields _ e => e.sites p
    | .breaks _ => []
    | .continues _ => []
    | .task node b => b.sites (p.enter (.task node b) [])
    | .awaits _ b => b.sites p

/-- The sites in an expression that may be missing. -/
def Expr.sitesOfOption (p : Place) : Option Expr → List Site
  | none => []
  | some e => e.sites p

/-- The sites in a statement that may be missing. -/
def Stmt.sitesOfOption (p : Place) : Option Stmt → List Site
  | none => []
  | some s => s.sites p

end

/-- The place at the start of a function's body. -/
def FuncDecl.place (outer : ItemId) (decl : FuncDecl) : Place :=
  ⟨⟨.func (decl.idUnder outer), (FuncParam.visible decl.params).reverse⟩, [], false⟩

/-- The sites in the body of a function that is declared under `outer`. -/
def FuncDecl.sites (outer : ItemId) (decl : FuncDecl) : List Site := decl.body.sites (decl.place outer)

mutual

/-- The sites in the functions of a type that is declared under `outer`. -/
def TypeDecl.sites (outer : ItemId) : TypeDecl → List Site
  | .mk _ _ name typeParams _ members => Member.sitesOfList (outer.child (.text name) typeParams.length) members

/-- The sites in the functions among several members. -/
def Member.sitesOfList (id : ItemId) : List Member → List Site
  | [] => []
  | m :: ms => m.sites id ++ Member.sitesOfList id ms

/-- The sites in the functions of a member. -/
def Member.sites (id : ItemId) : Member → List Site
  | .type decl => decl.sites id
  | .func decl => decl.sites id
  | .field _ => []
  | .case _ => []

end

/-- The place of the script's own statements. -/
def Place.script : Place := ⟨⟨.script, []⟩, [], true⟩

/-- The sites in a declaration or statement at the top level. -/
def Element.sites (root : ItemId) : Element → List Site
  | .type decl => decl.sites root
  | .func decl => decl.sites root
  | .stmt s => s.sites .script

/-- The sites of a script whose module has this root. -/
def Script.sites (root : ItemId) (script : Script) : List Site := script.flatMap (Element.sites root)

end ScriptCheck

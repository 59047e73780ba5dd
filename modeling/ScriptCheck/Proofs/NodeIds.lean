import ScriptCheck.Syntax.Tree

/-!
# The node numbers of a tree

Every node of a tree carries a number, and what an analysis finds out about a node is noted under it. The numbers of a tree
are listed here part by part, in the order in which the parts are written, the node of a part before the nodes inside it. A
script whose list has no repetition is one in which no note can take the place of another.
-/

namespace ScriptCheck

mutual

/-- The node numbers of a written type. -/
def TypeExpr.ids : TypeExpr → List Nat
  | .named node _ args => node.id :: TypeExpr.idsOfList args
  | .member node parent _ args => node.id :: (parent.ids ++ TypeExpr.idsOfList args)
  | .func node ret params => node.id :: (ret.ids ++ TypeExpr.idsOfList params)
  | .void node => [node.id]
  | .var node => [node.id]

/-- The node numbers of several written types. -/
def TypeExpr.idsOfList : List TypeExpr → List Nat
  | [] => []
  | t :: ts => t.ids ++ TypeExpr.idsOfList ts

end

/-- The node numbers of a written type that may be missing. -/
def TypeExpr.idsOfOption : Option TypeExpr → List Nat
  | none => []
  | some t => t.ids

/-- The node numbers of a lambda's parameter. -/
def LambdaParam.ids (p : LambdaParam) : List Nat := p.node.id :: TypeExpr.idsOfOption p.ty

/-- The node numbers of a lambda's parameters. -/
def LambdaParam.idsOfList : List LambdaParam → List Nat
  | [] => []
  | p :: ps => p.ids ++ LambdaParam.idsOfList ps

mutual

/-- The node numbers of an expression. -/
def Expr.ids : Expr → List Nat
  | .identifier node _ typeArgs => node.id :: TypeExpr.idsOfList typeArgs
  | .intLit node _ => [node.id]
  | .boolLit node _ => [node.id]
  | .strLit node _ => [node.id]
  | .binary node _ left right => node.id :: (left.ids ++ right.ids)
  | .unary node _ operand => node.id :: operand.ids
  | .assign node target value => node.id :: (target.ids ++ value.ids)
  | .call node callee args => node.id :: (callee.ids ++ Expr.idsOfList args)
  | .lambda node params ret body =>
    node.id :: (LambdaParam.idsOfList params ++ (TypeExpr.idsOfOption ret ++ body.ids))
  | .member node object _ typeArgs => node.id :: (object.ids ++ TypeExpr.idsOfList typeArgs)
  | .index node object index => node.id :: (object.ids ++ index.ids)
  | .isTest node value ty => node.id :: (value.ids ++ ty.ids)

/-- The node numbers of several expressions. -/
def Expr.idsOfList : List Expr → List Nat
  | [] => []
  | e :: es => e.ids ++ Expr.idsOfList es

/-- The node numbers of a lambda's body. -/
def Body.ids : Body → List Nat
  | .expr e => e.ids
  | .block b => b.ids

/-- The node numbers of a block. -/
def Block.ids : Block → List Nat
  | .mk node stmts => node.id :: Stmt.idsOfList stmts

/-- The node numbers of several statements. -/
def Stmt.idsOfList : List Stmt → List Nat
  | [] => []
  | s :: ss => s.ids ++ Stmt.idsOfList ss

/-- The node numbers of a statement. -/
def Stmt.ids : Stmt → List Nat
  | .varDecl node ty _ init => node.id :: (ty.ids ++ Expr.idsOfOption init)
  | .ifThen node cond thenBody elseBody => node.id :: (cond.ids ++ (thenBody.ids ++ Stmt.idsOfOption elseBody))
  | .whileDo node cond body => node.id :: (cond.ids ++ body.ids)
  | .block node b => node.id :: b.ids
  | .expr node e => node.id :: e.ids
  | .ret node value => node.id :: Expr.idsOfOption value
  | .yields node e => node.id :: e.ids
  | .breaks node => [node.id]
  | .continues node => [node.id]
  | .task node b => node.id :: b.ids
  | .awaits node b => node.id :: b.ids

/-- The node numbers of an expression that may be missing. -/
def Expr.idsOfOption : Option Expr → List Nat
  | none => []
  | some e => e.ids

/-- The node numbers of a statement that may be missing. -/
def Stmt.idsOfOption : Option Stmt → List Nat
  | none => []
  | some s => s.ids

end

/-- The node numbers of a function's parameters. -/
def FuncParam.idsOfList : List FuncParam → List Nat
  | [] => []
  | p :: ps => p.node.id :: (p.ty.ids ++ FuncParam.idsOfList ps)

/-- The node numbers of a function. -/
def FuncDecl.ids (decl : FuncDecl) : List Nat :=
  decl.node.id :: (FuncParam.idsOfList decl.params ++ (decl.ret.ids ++ decl.body.ids))

mutual

/-- The node numbers of a declared type. -/
def TypeDecl.ids : TypeDecl → List Nat
  | .mk node _ _ _ base members => node.id :: (TypeExpr.idsOfOption base ++ Member.idsOfList members)

/-- The node numbers of several members. -/
def Member.idsOfList : List Member → List Nat
  | [] => []
  | m :: ms => m.ids ++ Member.idsOfList ms

/-- The node numbers of a member. -/
def Member.ids : Member → List Nat
  | .type decl => decl.ids
  | .func decl => decl.ids
  | .field decl => decl.node.id :: decl.ty.ids
  | .case decl => [decl.node.id]

end

/-- The node numbers of a declaration or statement at the top level. -/
def Element.ids : Element → List Nat
  | .type decl => decl.ids
  | .func decl => decl.ids
  | .stmt s => s.ids

/-- The node numbers of a script. -/
def Script.ids : Script → List Nat
  | [] => []
  | e :: rest => e.ids ++ Script.ids rest

/-- The node numbers of the statements at the top level. -/
def Script.stmtIds : Script → List Nat
  | [] => []
  | .stmt s :: rest => s.ids ++ Script.stmtIds rest
  | .type _ :: rest => Script.stmtIds rest
  | .func _ :: rest => Script.stmtIds rest

/-- The node numbers of the declarations at the top level. -/
def Script.declIds : Script → List Nat
  | [] => []
  | .stmt _ :: rest => Script.declIds rest
  | .type decl :: rest => decl.ids ++ Script.declIds rest
  | .func decl :: rest => decl.ids ++ Script.declIds rest

theorem TypeExpr.node_mem_ids (t : TypeExpr) : t.node.id ∈ t.ids := by
  cases t <;> simp [TypeExpr.ids, TypeExpr.node]

/-- An expression is one of its nodes. -/
theorem Expr.node_mem_ids (e : Expr) : e.node.id ∈ e.ids := by
  cases e <;> simp [Expr.ids, Expr.node]

/-- It is the first of them. -/
theorem Expr.ids_eq_cons (e : Expr) : e.ids = e.node.id :: e.ids.tail := by
  cases e <;> rfl

/-- Parameters stand in order. -/
theorem LambdaParam.nodes_sublist : ∀ params : List LambdaParam,
    (params.map (·.node.id)).Sublist (LambdaParam.idsOfList params)
  | [] => .slnil
  | p :: ps => by
    rw [LambdaParam.idsOfList, LambdaParam.ids, List.map_cons, List.cons_append]
    exact ((LambdaParam.nodes_sublist ps).trans (List.sublist_append_right _ _)).cons_cons _

theorem FuncParam.nodes_sublist : ∀ params : List FuncParam, (params.map (·.node.id)).Sublist (FuncParam.idsOfList params)
  | [] => .slnil
  | p :: ps => by
    rw [FuncParam.idsOfList, List.map_cons]
    exact ((FuncParam.nodes_sublist ps).trans (List.sublist_append_right _ _)).cons_cons _

/-- Statements are parts of the script. -/
theorem Script.stmtIds_sublist : ∀ script : Script, (Script.stmtIds script).Sublist script.ids
  | [] => .slnil
  | .stmt _ :: rest => (List.Sublist.refl _).append (Script.stmtIds_sublist rest)
  | .type _ :: rest => (Script.stmtIds_sublist rest).trans (List.sublist_append_right _ _)
  | .func _ :: rest => (Script.stmtIds_sublist rest).trans (List.sublist_append_right _ _)

/-- So are declarations. -/
theorem Script.declIds_sublist : ∀ script : Script, (Script.declIds script).Sublist script.ids
  | [] => .slnil
  | .stmt _ :: rest => (Script.declIds_sublist rest).trans (List.sublist_append_right _ _)
  | .type _ :: rest => (List.Sublist.refl _).append (Script.declIds_sublist rest)
  | .func _ :: rest => (List.Sublist.refl _).append (Script.declIds_sublist rest)

/-- No node belongs to a statement at the top level and to a declaration. -/
theorem Script.stmtIds_disjoint : ∀ {script : Script}, script.ids.Nodup → ∀ n ∈ script.stmtIds, n ∉ script.declIds
  | [], _ => by simp [Script.stmtIds]
  | e :: rest, h => by
    rw [Script.ids] at h
    have hs := (Script.stmtIds_sublist rest).subset
    have hd := (Script.declIds_sublist rest).subset
    have ih := Script.stmtIds_disjoint (h.sublist (List.sublist_append_right _ _))
    cases e <;> grind [Script.stmtIds, Script.declIds, Element.ids]

end ScriptCheck

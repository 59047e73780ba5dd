import ScriptCheck.Proofs.FuncBodies
import ScriptCheck.Proofs.NoUnresolved
import ScriptCheck.Proofs.SettledBodies

/-!
# Every site is visited

The walk through a script comes to each of its sites, and when it does the frame is one that belongs to the site's place.
`Reached` says which frames these are, by the steps that lead from the start of a body to a place in it, each with what the
finished notes have about it. `Visited` says how the part at a site was analysed: by a settled run from a frame of its place.
That all sites are visited (`analyze_visited`) is shown once, along the tree; what the notes say about scopes, captures and
types follows from the two relations without another look at the walk.
-/

namespace ScriptCheck

/-- A finished analysis: what it was made against, its notes, and the sites it has come to. -/
structure Finished where
  registry : Registry
  capturer : Capturer
  patience : Patience
  notes : NodeMap
  sites : List Site

/-- Whether a context is one of this analysis. -/
structure Finished.Covers (A : Finished) (ctx : Context) : Prop where
  registry : ctx.registry = A.registry
  capturer : ctx.capturer = A.capturer
  patience : ctx.patience = A.patience

/-- The record that is found for a function has as many parameters as the function. -/
def Finished.Declares (A : Finished) (d : ItemId × FuncDecl) : Prop :=
  ∀ record, A.registry.func? (d.2.idUnder d.1) = some record → record.params.length = d.2.params.length

/-- The frames that belong to a place, together with what the `return`s of the body were checked against in the end. -/
inductive Reached (A : Finished) : Place → ReturnMode → Frame → Prop where
  | script : Reached A .script (.fixed .void) .script
  | func {outer : ItemId} {decl : FuncDecl} {record : FuncRecord}
      (hrecord : A.registry.func? (decl.idUnder outer) = some record)
      (hlength : record.params.length = decl.params.length)
      (hslots : NotedSlots A.notes (decl.params.map (·.node.id)) record.params.length) :
      Reached A (decl.place outer) record.frame.ret
        (record.frame.declareAll ((decl.params.map (·.name)).zip (record.params.map (·.ty))))
  | lambda {p : Place} {outer mode final : ReturnMode} {f : Frame} {node : Node} {params : List LambdaParam}
      {ret : Option TypeExpr} {body : Body} {types : List Ty} {k : Nat} (houter : Reached A p outer f)
      (hsites : (Expr.lambda node params ret body).sites p ⊆ A.sites) (htypes : types.length = params.length)
      (hslots : NotedSlots A.notes (params.map (·.node.id)) params.length)
      (hcaptures : A.notes.info? node.id = some (.lambda ⟨PendingCapture.numbered params.length
        (f.carried (A.capturer (params.map (·.name)) body)), k⟩))
      (hret : (ret = none ∧ ∃ found, final = .inferred found) ∨
        ∃ written ty, ret = some written ∧ final = .fixed ty ∧ A.notes.info? written.node.id = some (.type ty))
      (htype : A.notes.ty? node.id = some (.func final.result types)) :
      Reached A (p.enter (.lambda node params ret body) (LambdaParam.visible params)) final
        (.closure mode ((params.map (·.name)).zip types) (f.carried (A.capturer (params.map (·.name)) body)))
  | task {p : Place} {outer : ReturnMode} {f : Frame} {node : Node} {block : Block} {k : Nat} (houter : Reached A p outer f)
      (hsites : (Stmt.task node block).sites p ⊆ A.sites)
      (hcaptures : A.notes.info? node.id = some (.task ⟨PendingCapture.numbered 0
        (f.carried (A.capturer [] (.block block))), k⟩)) :
      Reached A (p.enter (.task node block) []) (.fixed .void)
        (.closure (.fixed .void) [] (f.carried (A.capturer [] (.block block))))
  | inner {p : Place} {mode : ReturnMode} {f : Frame} (h : Reached A p mode f) : Reached A p.inner mode f
  | grow {p : Place} {mode : ReturnMode} {f g : Frame} (h : Reached A p mode f) (hg : f.Grows g) : Reached A p mode g
  | declare {p : Place} {mode : ReturnMode} {f : Frame} {name : String} {node : Nat} {ty : Ty} (h : Reached A p mode f)
      (hlocal : p.global = false) (hslot : A.notes.info? node = some (.varDecl (.localSlot f.size))) :
      Reached A (p.declare name node) mode (f.declare name ty)

/-- The walk is at a place. -/
structure At (A : Finished) (p : Place) (mode : ReturnMode) (s : State) : Prop where
  reached : Reached A p mode s.frame
  scope : s.globalScope = p.global

namespace At

variable {A : Finished} {p : Place} {mode : ReturnMode} {ids : List Nat} {s s' : State}

theorem grow (h : At A p mode s) (hg : s.frame.Grows s'.frame) (hs : s'.globalScope = s.globalScope) : At A p mode s' :=
  ⟨h.reached.grow hg, hs.trans h.scope⟩

theorem expr (h : At A p mode s) (he : ExprEffect ids s s') : At A p mode s' := h.grow he.frame.grows he.globalScope

theorem inside (h : At A p mode s) (hg : s.frame.Grows s'.frame) (hs : s'.globalScope = false) : At A p.inner mode s' :=
  ⟨(h.reached.grow hg).inner, hs⟩

end At

theorem Expr.isPlace_of_isNamed {e : Expr} (h : e.isNamed = true) : e.isPlace = true := by
  cases e <;> first | rfl | cases h

namespace Check

variable {fin : NodeMap} {ctx : Context} {e : Expr} {s s' : State}

/-- What is called and has no form that can name a function is analysed as a value. -/
theorem SettledCallee.value {c : Callable} (h : SettledCallee fin ctx e s c s') (he : e.isNamed = false) :
    ∃ t, Settled fin e.ids (expr ctx e none) s t s' := by
  obtain ⟨hr, hs⟩ := h.toQuiet
  rw [callable_of_not_named he] at hr
  simp only [bind_eq_ok, pure_eq_ok] at hr
  obtain ⟨t, u, h₁, rfl, rfl⟩ := hr
  refine ⟨t, (quiet_valued.1 ⟨h₁, hs⟩).1, h.nodup, h.blank, ?_⟩
  rw [e.ids_eq_cons]
  intro n hn
  rcases List.mem_cons.1 hn with rfl | hn
  · exact h.own _ (List.mem_singleton_self _)
  · exact h.inside n hn

/-- What stands before a dot and is no identifier is analysed as a value. -/
theorem Settled.receiver_value {r : Receiver} (h : Settled fin e.ids (receiver ctx e (expr ctx e none)) s r s')
    (he : ∀ node name typeArgs, e ≠ .identifier node name typeArgs) : ∃ t, Settled fin e.ids (expr ctx e none) s t s' := by
  obtain ⟨ty, -, hq⟩ := h.toQuiet.receiver_other he
  exact ⟨ty, (quiet_valued.1 hq).1, h.nodup, h.blank, h.agrees⟩

/-- One of the ways in which an expression is analysed. -/
inductive Handled (fin : NodeMap) (ctx : Context) (e : Expr) (s s' : State) : Prop where
  | value {hint : Option Ty} {t : Ty} (h : Settled fin e.ids (expr ctx e hint) s t s')
  | target {r : Option Target} (h : Settled fin e.ids (target ctx e (expr ctx e none)) s r s')
  | receiver {r : Receiver} (h : Settled fin e.ids (receiver ctx e (expr ctx e none)) s r s')
  | callee {c : Callable} (h : SettledCallee fin ctx e s c s')

namespace Handled

variable {node : Node}

theorem effect (h : Handled fin ctx e s s') : ExprEffect e.ids s s' := by
  cases h with
  | value h => exact expr_effect ctx e _ h.run
  | target h => exact target_effect ctx e _ (expr_effect ctx e none) h.run
  | receiver h => exact receiver_effect ctx (expr_effect ctx e none) h.run
  | callee h => exact callable_effect ctx e _ (expr_effect ctx e none) h.run

/-- An expression is analysed as a value, unless it has a form that is also used in another way. -/
theorem forms (h : Handled fin ctx e s s') :
    (∃ hint t, Settled fin e.ids (Check.expr ctx e hint) s t s') ∨
      (e.isPlace = true ∧ ∃ r, Settled fin e.ids (Check.target ctx e (Check.expr ctx e none)) s r s') ∨
      (e.isNamed = true ∧ ∃ c, SettledCallee fin ctx e s c s') ∨
      ∃ node name typeArgs r, e = .identifier node name typeArgs ∧
        Settled fin e.ids (Check.receiver ctx e (Check.expr ctx e none)) s r s' := by
  cases h with
  | value h => exact .inl ⟨_, _, h⟩
  | target h => exact .inr (.inl ⟨h.toQuiet.target_isPlace, _, h⟩)
  | receiver h =>
    by_cases he : ∃ node name typeArgs, e = .identifier node name typeArgs
    · obtain ⟨node, name, typeArgs, rfl⟩ := he
      exact .inr (.inr (.inr ⟨node, name, typeArgs, _, rfl, h⟩))
    · exact .inl ⟨none, h.receiver_value fun node name typeArgs heq => he ⟨node, name, typeArgs, heq⟩⟩
  | callee h =>
    cases hp : e.isNamed with
    | true => exact .inr (.inr (.inl ⟨rfl, _, h⟩))
    | false => exact .inl ⟨none, h.value hp⟩

/-- Most expressions are only ever analysed as values. -/
theorem as_value (h : Handled fin ctx e s s') (he : e.isPlace = false) :
    ∃ hint t, Settled fin e.ids (Check.expr ctx e hint) s t s' := by
  rcases h.forms with hv | ⟨hp, -⟩ | ⟨hn, -⟩ | ⟨node, name, typeArgs, -, rfl, -⟩
  · exact hv
  · rw [he] at hp
    cases hp
  · rw [Expr.isPlace_of_isNamed hn] at he
    cases he
  · cases he

theorem nodup (h : Handled fin ctx e s s') : e.ids.Nodup := by
  cases h with
  | value h => exact h.nodup
  | target h => exact h.nodup
  | receiver h => exact h.nodup
  | callee h => exact h.nodup

theorem blank (h : Handled fin ctx e s s') : Blank e.ids s := by
  cases h with
  | value h => exact h.blank
  | target h => exact h.blank
  | receiver h => exact h.blank
  | callee h => exact h.blank

/-- What is noted for the nodes inside an expression is final; its own node may be noted by a call. -/
theorem inside (h : Handled fin ctx e s s') : Agrees fin e.ids.tail s' := by
  cases h with
  | value h => exact h.agrees.subset (List.tail_sublist _).subset
  | target h => exact h.agrees.subset (List.tail_sublist _).subset
  | receiver h => exact h.agrees.subset (List.tail_sublist _).subset
  | callee h => exact h.inside

/-- A member is looked up first, however it is used. -/
theorem memberUse {object : Expr} {name : String} {typeArgs : List TypeExpr}
    (h : Handled fin ctx (.member node object name typeArgs) s s') :
    ∃ use u, Quiet (Check.memberUse ctx node object.node (Check.receiver ctx object (Check.expr ctx object none)) name typeArgs)
      s use u ∧ Touches [node.id] u s' := by
  rcases h.forms with ⟨hint, t, hv⟩ | ⟨-, r, ht⟩ | ⟨-, c, hc⟩ | ⟨_, _, _, _, he, -⟩
  · exact hv.member
  · exact ht.member_target
  · exact hc.member
  · cases he

/-- What stands before a dot is handled, however the member is used. -/
theorem member {object : Expr} {name : String} {typeArgs : List TypeExpr}
    (h : Handled fin ctx (.member node object name typeArgs) s s') :
    ∃ r u, Settled fin object.ids (Check.receiver ctx object (Check.expr ctx object none)) s r u := by
  obtain ⟨use, w, hq, hlast⟩ := h.memberUse
  exact Settled.receiver_of_memberUse h.nodup h.blank (h.inside.subset (by grind [Expr.ids])) hq hlast

/-- What an element is taken from and where are handled, however the element is used. -/
theorem index {object index : Expr} (h : Handled fin ctx (.index node object index) s s') :
    ∃ u v, Handled fin ctx object s u ∧ Handled fin ctx index u v := by
  rcases h.forms with ⟨hint, t, hv⟩ | ⟨-, r, ht⟩ | ⟨hn, -⟩ | ⟨_, _, _, _, he, -⟩
  · obtain ⟨o, u, i, v, ho, hi, -⟩ := hv.index
    exact ⟨u, v, .value ho, .value hi⟩
  · obtain ⟨o, u, i, v, ho, hi⟩ := ht.index_target
    exact ⟨u, v, .value ho, .value hi⟩
  · cases hn
  · cases he

end Handled

end Check

/-- The part at a site was analysed by a settled run from a frame of its place. -/
def Visited (A : Finished) : Site → Prop
  | ⟨p, .expr e⟩ => ∃ ctx mode s s', A.Covers ctx ∧ At A p mode s ∧ Check.Handled A.notes ctx e s s'
  | ⟨p, .stmt st⟩ => ∃ ctx mode s s', A.Covers ctx ∧ At A p mode s ∧
      Check.Settled A.notes st.ids (Check.stmt ctx st) s () s' ∧ s'.frame.ret.Leads mode
  | ⟨p, .result e⟩ => ∃ ctx declared s s', A.Covers ctx ∧ At A p s'.frame.ret s ∧ s.frame.ret = .ofDeclared declared ∧
      Check.Settled A.notes e.ids (Check.exprBody ctx declared e.node (fun hint => Check.expr ctx e hint)) s () s'

namespace Check

variable {A : Finished} {ctx : Context}

/-- After a declaration the walk is at the place after it. -/
theorem Settled.after_varDecl {node : Node} {ty : TypeExpr} {name : String} {init : Option Expr} {p : Place}
    {mode : ReturnMode} {s s' : State} (hat : At A p mode s)
    (h : Settled A.notes (Stmt.varDecl node ty name init).ids (stmt ctx (.varDecl node ty name init)) s () s') :
    At A (p.declare name node.id) mode s' := by
  have hscope := (stmt_effect ctx _ h.run).globalScope.trans hat.scope
  obtain ⟨t, u, heff, rfl, hinfo, -⟩ := h.varDecl
  have hu := hat.expr heff
  cases hg : p.global with
  | true =>
    have hg' := hu.scope.trans hg
    have hplace : p.declare name node.id = p := if_pos hg
    have hframe : (u.declareVar name t).frame = u.frame := by rw [State.declareVar, if_pos hg']
    rw [hplace]
    refine ⟨?_, hscope⟩
    rw [State.setInfo, hframe]
    exact hu.reached
  | false =>
    have hg' : ¬u.globalScope = true := by simp [hu.scope, hg]
    have hplace : (p.declare name node.id).global = p.global := by simp [Place.declare, hg]
    have hframe : (u.declareVar name t).frame = u.frame.declare name t := by rw [State.declareVar, if_neg hg']
    rw [State.nextPlace, if_neg hg'] at hinfo
    refine ⟨?_, hscope.trans hplace.symm⟩
    rw [State.setInfo, hframe]
    exact hu.reached.declare hg hinfo

/-- After a block the walk is where it was before. -/
theorem Settled.after_block {b : Block} {p : Place} {mode : ReturnMode} {s s' : State} (hat : At A p mode s)
    (h : Settled A.notes b.ids (Check.block ctx b) s () s') : At A p mode s' := by
  obtain ⟨n, ss⟩ := b
  have hscope := (block_effect ctx _ h.run).globalScope
  obtain ⟨u, hu, rfl⟩ := h.block
  have heff := stmts_effect ctx ss hu.run
  exact hat.grow ⟨heff.locals, rfl, heff.seqElem⟩ hscope

/-- After a statement the walk is at the place after it. -/
theorem Settled.after (hk : Known A.notes) {st : Stmt} {p : Place} {mode : ReturnMode} {s s' : State} (hat : At A p mode s)
    (h : Settled A.notes st.ids (stmt ctx st) s () s') : At A (p.after st) mode s' := by
  have hscope := (stmt_effect ctx st h.run).globalScope
  cases st with
  | varDecl node ty name init => exact h.after_varDecl hat
  | ifThen node cond thenBody elseBody =>
    obtain ⟨_, -, -, -, hgrows⟩ := h.ifThen hk
    exact hat.grow hgrows hscope
  | whileDo node cond body =>
    obtain ⟨_, -, -, hgrows⟩ := h.whileDo hk
    exact hat.grow hgrows hscope
  | block node b => exact Settled.after_block hat h.block_stmt
  | expr node e =>
    obtain ⟨t, ht⟩ := h.expr_stmt
    exact hat.expr (expr_effect ctx e none ht.run)
  | ret node value =>
    cases value with
    | none => exact hat.grow h.ret_nothing.1 hscope
    | some e =>
      obtain ⟨_, _, _, -, hgrows, -⟩ := h.ret_value hk
      exact hat.grow hgrows hscope
  | yields node e =>
    obtain ⟨elem, found, -, hq, -⟩ := h.yields
    exact hat.expr (expr_effect ctx e _ hq.run)
  | breaks node =>
    have hrun := h.toQuiet
    rw [stmt] at hrun
    rw [hrun.inLoop]
    exact hat
  | continues node =>
    have hrun := h.toQuiet
    rw [stmt] at hrun
    rw [hrun.inLoop]
    exact hat
  | task node b =>
    have hrun := h.run
    rw [stmt] at hrun
    have heff : Keeps (ExprEffect (node.id :: b.ids)) (Check.task ctx node b (Check.block ctx b)) :=
      task_effect (by simp) ((block_effect ctx b).weaken fun _ _ h => h.toBodyEffect.mono (by simp))
    exact hat.expr (heff hrun)
  | awaits node b => exact Settled.after_block hat h.awaits

/-- The mode in which a lambda's body starts leads to the one it ends in. -/
theorem lambdaBody_leads {body : Body} {declared : Option Ty} {s s' : State} (hret : s.frame.ret = .ofDeclared declared)
    (h : Quiet (lambdaBody ctx body declared) s () s') : s.frame.ret.Leads s'.frame.ret := by
  cases body with
  | expr e =>
    rw [lambdaBody] at h
    have hmode : ∀ {hint found u}, Quiet (expr ctx e hint) s found u → s.frame.ret.Leads u.frame.ret := fun hq =>
      (expr_effect ctx e _ hq.run).toStmt.ret
    rcases h.exprBody with ⟨-, found, hq⟩ | ⟨ret, found, -, -, hq, -⟩ | ⟨rfl, found, u, hq, rfl⟩
    · exact hmode hq
    · exact hmode hq
    · rw [hret]
      exact .settle found
  | block b =>
    rw [lambdaBody] at h
    exact (block_effect ctx b h.run).ret

end Check

theorem lambdaResult_of_leads {declared : Option Ty} {mode : ReturnMode} (h : (ReturnMode.ofDeclared declared).Leads mode) :
    lambdaResult declared mode = mode.result := by
  cases declared with
  | some ty =>
    cases h
    rfl
  | none => cases h <;> rfl

@[simp] theorem Frame.ret_declareAll : ∀ (f : Frame) (vs : List (String × Ty)), (f.declareAll vs).ret = f.ret
  | _, [] => rfl
  | f, v :: vs => by
    rw [declareAll, ret_declareAll]
    rfl

@[simp] theorem Frame.ret_closure (mode : ReturnMode) (params : List (String × Ty)) (pending : List PendingCapture) :
    (Frame.closure mode params pending).ret = mode := by
  simp [Frame.closure, Frame.enter]

/-- The walk enters the body of a lambda. -/
theorem At.enter_lambda {A : Finished} {ctx : Context} {p : Place} {mode : ReturnMode} {s s' : State} {node : Node}
    {params : List LambdaParam} {ret : Option TypeExpr} {body : Body} {hint : Option Ty} {t : Ty} (hc : A.Covers ctx)
    (hat : At A p mode s) (hsites : (Expr.lambda node params ret body).sites p ⊆ A.sites)
    (h : Check.Settled A.notes (Expr.lambda node params ret body).ids
      (Check.expr ctx (.lambda node params ret body) hint) s t s') :
    ∃ declared entry last,
      At A (p.enter (.lambda node params ret body) (LambdaParam.visible params)) last.frame.ret entry ∧
      entry.frame.ret = .ofDeclared declared ∧
      Check.Settled A.notes body.ids (Check.lambdaBody ctx body declared) entry () last := by
  obtain ⟨types, declared, v, entry, last, k, heff, hlen, hdecl, hslots, hinfo, hty, hframe, hglobal, hbody⟩ := h.lambda
  have hmode : entry.frame.ret = .ofDeclared declared := by rw [hframe, Frame.ret_closure]
  have hlead : (ReturnMode.ofDeclared declared).Leads last.frame.ret := hmode ▸ Check.lambdaBody_leads hmode hbody.toQuiet
  rw [lambdaResult_of_leads hlead] at hty
  rw [hc.capturer] at hinfo hframe
  have hret : (ret = none ∧ ∃ found, last.frame.ret = .inferred found) ∨
      ∃ written ty, ret = some written ∧ last.frame.ret = .fixed ty ∧ A.notes.info? written.node.id = some (.type ty) := by
    rcases hdecl with ⟨hnone, rfl⟩ | ⟨written, ty, hsome, rfl, hnote⟩
    · exact .inl ⟨hnone, hlead.eq_inferred⟩
    · exact .inr ⟨written, ty, hsome, hlead.eq_fixed, hnote⟩
  refine ⟨declared, entry, last, ⟨?_, hglobal⟩, hmode, hbody⟩
  rw [hframe]
  exact .lambda (hat.expr heff).reached hsites hlen hslots hinfo hret hty

/-- The walk enters the block of a task. -/
theorem At.enter_task {A : Finished} {ctx : Context} {p : Place} {mode : ReturnMode} {s s' : State} {node : Node}
    {block : Block} (hc : A.Covers ctx) (hat : At A p mode s) (hsites : (Stmt.task node block).sites p ⊆ A.sites)
    (h : Check.Settled A.notes (Stmt.task node block).ids (Check.stmt ctx (.task node block)) s () s') :
    ∃ entry last, At A (p.enter (.task node block) []) (.fixed .void) entry ∧
      Check.Settled A.notes block.ids (Check.block ctx block) entry () last ∧ last.frame.ret.Leads (.fixed .void) := by
  obtain ⟨entry, last, k, hinfo, hframe, hglobal, hbody⟩ := h.task
  have hlead := (Check.block_effect ctx block hbody.run).ret
  rw [hframe, Frame.ret_closure] at hlead
  rw [hc.capturer] at hinfo hframe
  refine ⟨entry, last, ⟨?_, hglobal⟩, hbody, ?_⟩
  · rw [hframe]
    exact .task hat.reached hsites hinfo
  · rw [hlead.eq_fixed]
    exact .refl _

variable {A : Finished} {ctx : Context} {p : Place} {mode : ReturnMode} {s s' : State}

namespace Check.Settled

/-- Expressions that are analysed one after the other are visited. -/
theorem exprs_visited (hc : A.Covers ctx) {es : List Expr} {hints : List (Option Ty)} {ts : List Ty} (hat : At A p mode s)
    (h : Settled A.notes (Expr.idsOfList es) (exprs ctx es hints) s ts s') : ∀ e ∈ es, Visited A ⟨p, .expr e⟩ := by
  induction es generalizing s hints ts with
  | nil => simp
  | cons e es ih =>
    obtain ⟨t, us, u, ht, -, hes, -⟩ := h.exprs_cons
    rw [List.forall_mem_cons]
    exact ⟨⟨ctx, mode, s, u, hc, hat, .value ht⟩, ih (hat.expr (expr_effect ctx e _ ht.run)) hes⟩

/-- Statements that are analysed one after the other are visited, each at its place. -/
theorem row_visited (hk : Known A.notes) (hc : A.Covers ctx) {ss : List Stmt} (hat : At A p mode s)
    (h : Settled A.notes (Stmt.idsOfList ss) (stmts ctx ss) s () s') (hret : s'.frame.ret.Leads mode) :
    ∀ c ∈ Stmt.row p ss, Visited A c := by
  induction ss generalizing p s with
  | nil => simp [Stmt.row]
  | cons st ss ih =>
    obtain ⟨u, hst, hss⟩ := h.stmts_cons
    have hlead := (stmts_effect ctx ss hss.run).ret.trans hret
    rw [Stmt.row, List.forall_mem_cons]
    exact ⟨⟨ctx, mode, s, u, hc, hat, hst, hlead⟩, ih (hst.after hk hat) hss⟩

/-- The statements of a block that is analysed are visited. -/
theorem block_visited (hk : Known A.notes) (hc : A.Covers ctx) {b : Block} (hat : At A p mode s)
    (h : Settled A.notes b.ids (Check.block ctx b) s () s') (hret : s'.frame.ret.Leads mode) : ∀ c ∈ b.row p, Visited A c := by
  obtain ⟨node, ss⟩ := b
  obtain ⟨u, hu, rfl⟩ := h.block
  have hin : At A p.inner mode { s with globalScope := false } := hat.inside (.refl _) rfl
  exact hu.row_visited hk hc hin hret

/-- The result or the statements of a lambda's body that is analysed are visited. -/
theorem body_visited (hk : Known A.notes) (hc : A.Covers ctx) {body : Body} {declared : Option Ty}
    (hat : At A p s'.frame.ret s) (hmode : s.frame.ret = .ofDeclared declared)
    (h : Settled A.notes body.ids (lambdaBody ctx body declared) s () s') : ∀ c ∈ body.row p, Visited A c := by
  cases body with
  | expr e =>
    rw [lambdaBody, Body.ids] at h
    rw [Body.row, List.forall_mem_singleton]
    exact ⟨ctx, declared, s, s', hc, hat, hmode, h⟩
  | block b =>
    rw [lambdaBody, Body.ids] at h
    exact h.block_visited hk hc hat (.refl _)

end Check.Settled

/-- A branch of a statement is visited. -/
theorem At.branch_visited (hc : A.Covers ctx) {st : Stmt} (hat : At A p mode s) (h : Check.Branch A.notes ctx st s s')
    (hret : s'.frame.ret.Leads mode) : Visited A ⟨p.inner, .stmt st⟩ := by
  obtain ⟨b, v, hgrows, hscope, hst, hlead⟩ := h
  exact ⟨ctx, mode, b, v, hc, hat.inside hgrows hscope, hst, hlead.trans hret⟩

namespace Visited

/-- With an expression, those directly in it are visited: one case for each form. -/
theorem expr_children (hk : Known A.notes) {e : Expr} (hw : Visited A ⟨p, .expr e⟩) :
    ∀ x ∈ (Part.expr e).children, Visited A ⟨p, .expr x⟩ := by
  obtain ⟨ctx, mode, s, s', hc, hat, h⟩ := hw
  have hvisit : ∀ {x : Expr} {u v : State}, At A p mode u → Check.Handled A.notes ctx x u v → Visited A ⟨p, .expr x⟩ :=
    fun hat h => ⟨ctx, mode, _, _, hc, hat, h⟩
  cases e with
  | binary node op left right =>
    obtain ⟨hint, t, hv⟩ := h.as_value rfl
    obtain ⟨l, u, r, v, hl, hr⟩ := hv.binary
    rw [Part.children, List.forall_mem_cons, List.forall_mem_singleton]
    exact ⟨hvisit hat (.value hl), hvisit (hat.expr (Check.expr_effect ctx left none hl.run)) (.value hr)⟩
  | unary node op operand =>
    obtain ⟨hint, t, hv⟩ := h.as_value rfl
    rw [Part.children, List.forall_mem_singleton]
    cases hop : op.step? with
    | none =>
      obtain ⟨ty, u, ho⟩ := hv.plainUnary hop
      exact hvisit hat (.value ho)
    | some step =>
      obtain ⟨op, before, rfl⟩ : ∃ o b, op = .step o b := by cases op <;> first | exact ⟨_, _, rfl⟩ | cases hop
      obtain ⟨target, operator, u, ho, -⟩ := hv.step hk
      exact hvisit hat (.target ho)
  | assign node left value =>
    obtain ⟨hint, t, hv⟩ := h.as_value rfl
    obtain ⟨target, expected, found, u, v, hl, hr, -⟩ := hv.assign hk
    have hleft : Check.Handled A.notes ctx left s u := .target hl
    rw [Part.children, List.forall_mem_cons, List.forall_mem_singleton]
    exact ⟨hvisit hat hleft, hvisit (hat.expr hleft.effect) (.value hr)⟩
  | call node callee args =>
    obtain ⟨hint, t, hv⟩ := h.as_value rfl
    obtain ⟨c, u, hints, types, v, hcallee, hargs, -⟩ := hv.call hk
    have hcallee : Check.Handled A.notes ctx callee s u := .callee hcallee
    rw [Part.children, List.forall_mem_cons]
    exact ⟨hvisit hat hcallee, hargs.exprs_visited hc (hat.expr hcallee.effect)⟩
  | member node object name typeArgs =>
    obtain ⟨r, u, ho⟩ := h.member
    exact List.forall_mem_singleton.2 (hvisit hat (.receiver ho))
  | index node object index =>
    obtain ⟨u, v, ho, hi⟩ := h.index
    rw [Part.children, List.forall_mem_cons, List.forall_mem_singleton]
    exact ⟨hvisit hat ho, hvisit (hat.expr ho.effect) hi⟩
  | isTest node value ty =>
    obtain ⟨hint, t, hv⟩ := h.as_value rfl
    obtain ⟨v, u, hvalue⟩ := hv.isTest
    exact List.forall_mem_singleton.2 (hvisit hat (.value hvalue))
  | _ => simp [Part.children]

/-- With a statement, the expressions directly in it are visited. -/
theorem stmt_children (hk : Known A.notes) {st : Stmt} (hw : Visited A ⟨p, .stmt st⟩) :
    ∀ x ∈ (Part.stmt st).children, Visited A ⟨p, .expr x⟩ := by
  obtain ⟨ctx, mode, s, s', hc, hat, h, -⟩ := hw
  have hvisit : ∀ {x : Expr} {hint : Option Ty} {t : Ty} {u v : State}, At A p mode u →
      Check.Settled A.notes x.ids (Check.expr ctx x hint) u t v → Visited A ⟨p, .expr x⟩ :=
    fun hat h => ⟨ctx, mode, _, _, hc, hat, .value h⟩
  cases st with
  | varDecl node ty name init =>
    obtain ⟨t, u, -, -, -, hinit⟩ := h.varDecl
    intro e he
    obtain ⟨hint, found, v, w, heff, hv, -⟩ := hinit e (Option.mem_toList.1 he)
    exact hvisit (hat.expr heff) hv
  | ifThen node cond thenBody elseBody =>
    obtain ⟨u, hcond, -⟩ := h.ifThen hk
    exact List.forall_mem_singleton.2 (hvisit hat hcond)
  | whileDo node cond body =>
    obtain ⟨u, hcond, -⟩ := h.whileDo hk
    exact List.forall_mem_singleton.2 (hvisit hat hcond)
  | expr node e =>
    obtain ⟨t, he⟩ := h.expr_stmt
    exact List.forall_mem_singleton.2 (hvisit hat he)
  | ret node value =>
    intro e he
    obtain rfl : value = some e := Option.mem_toList.1 he
    obtain ⟨hint, found, u, hv, -⟩ := h.ret_value hk
    exact hvisit hat hv
  | yields node e =>
    obtain ⟨elem, found, -, he, -⟩ := h.yields
    exact List.forall_mem_singleton.2 (hvisit hat he)
  | _ => simp [Part.children]

/-- With a statement, those directly in it are visited. -/
theorem stmt_inner (hk : Known A.notes) {st : Stmt} (hw : Visited A ⟨p, .stmt st⟩) (hsub : st.sites p ⊆ A.sites) :
    ∀ c ∈ (Part.stmt st).inner p, Visited A c := by
  obtain ⟨ctx, mode, s, s', hc, hat, h, hret⟩ := hw
  cases st with
  | ifThen node cond thenBody elseBody =>
    obtain ⟨u, -, hthen, helse, -⟩ := h.ifThen hk
    rw [Part.inner, List.forall_mem_cons, List.forall_mem_map]
    exact ⟨hat.branch_visited hc hthen hret, fun st hst => hat.branch_visited hc (helse st (Option.mem_toList.1 hst)) hret⟩
  | whileDo node cond body =>
    obtain ⟨u, -, hbody, -⟩ := h.whileDo hk
    exact List.forall_mem_singleton.2 (hat.branch_visited hc hbody hret)
  | block node b => exact h.block_stmt.block_visited hk hc hat hret
  | task node b =>
    obtain ⟨entry, last, hentry, hb, hmode⟩ := hat.enter_task hc hsub h
    exact hb.block_visited hk hc hentry hmode
  | awaits node b => exact h.awaits.block_visited hk hc hat hret
  | _ => simp [Part.inner]

/-- With a site, the sites directly below it are visited. -/
theorem below (hk : Known A.notes) {w : Site} (hw : Visited A w) (hsub : w.tree ⊆ A.sites) : ∀ c ∈ w.below, Visited A c := by
  obtain ⟨p, part⟩ := w
  rw [Site.below, List.forall_mem_append, List.forall_mem_map]
  cases part with
  | expr e =>
    refine ⟨hw.expr_children hk, ?_⟩
    cases e with
    | lambda node params ret body =>
      obtain ⟨ctx, mode, s, s', hc, hat, h⟩ := hw
      obtain ⟨hint, t, hv⟩ := h.as_value rfl
      obtain ⟨declared, entry, last, hentry, hmode, hbody⟩ := hat.enter_lambda hc hsub hv
      exact hbody.body_visited hk hc hentry hmode
    | _ => simp [Part.inner]
  | stmt st => exact ⟨hw.stmt_children hk, hw.stmt_inner hk hsub⟩
  | result e =>
    obtain ⟨ctx, declared, s, s', hc, hat, hmode, h⟩ := hw
    obtain ⟨hint, found, u, he, -⟩ := h.exprBody hmode
    exact ⟨List.forall_mem_singleton.2 ⟨ctx, _, s, u, hc, hat, .value he⟩, by simp [Part.inner]⟩

/-- With a site, all sites in its part are visited. -/
theorem tree (hk : Known A.notes) {w : Site} (hw : Visited A w) (hsub : w.tree ⊆ A.sites) : ∀ v ∈ w.tree, Visited A v := by
  induction w using Site.induct with
  | h w ih =>
    intro v hv
    rcases Site.mem_tree.1 hv with rfl | ⟨c, hc, hv⟩
    · exact hw
    · exact ih c hc (hw.below hk hsub c hc) (fun u hu => hsub (Site.mem_tree.2 (.inr ⟨c, hc, hu⟩))) v hv

end Visited

/-! ### Functions and scripts -/

@[simp] theorem FuncRecord.size_frame (r : FuncRecord) : r.frame.size = 0 := by
  unfold frame
  split <;> rfl

theorem FuncRecord.frame_ret_fixed (r : FuncRecord) : ∃ ty, r.frame.ret = .fixed ty := by
  unfold frame
  split <;> exact ⟨_, rfl⟩

/-- The slots of a function's parameters are among the finished notes. -/
theorem Check.funcBody_slots {fin : NodeMap} {decl : FuncDecl} {record : FuncRecord} {s u w : State}
    (hn : decl.bodyIds.Nodup) (ha : Agrees fin decl.bodyIds w)
    (hparams : declareParams (decl.params.map fun p => (p.node, p.name)) (record.params.map (·.ty)) (s.enter record.frame) =
      .ok ((), u)) (hbody : block ctx decl.body u = .ok ((), w)) :
    NotedSlots fin (decl.params.map (·.node.id)) record.params.length := by
  obtain ⟨hfirst, -, hdisjoint⟩ := List.nodup_append.1 hn
  have hslots : Agrees fin (decl.params.map (·.node.id)) u :=
    ha.back (block_effect ctx decl.body hbody).toTouches (List.subset_append_left _ _) fun n hp hb => hdisjoint n hp n hb rfl
  have hmaps : (decl.params.map fun p => (p.node, p.name)).map (·.1.id) = decl.params.map (·.node.id) := by simp
  intro i n hi hp
  rw [← hmaps] at hp
  have hnotes := declareParams_notes hparams (hmaps ▸ hfirst) i n (by simpa using hi) hp
  rw [hslots.info? (hmaps ▸ List.mem_of_getElem? hp), hnotes]
  simp [State.enter]

/-- The body of a function starts in a frame of the function's place. -/
theorem funcBody_visited (hk : Known A.notes) (hc : A.Covers ctx) {outer : ItemId} {decl : FuncDecl} {s s' : State}
    (h : Check.Settled A.notes decl.bodyIds (Check.funcBody ctx outer decl) s () s') (hd : A.Declares (outer, decl))
    (hsub : decl.sites outer ⊆ A.sites) : ∀ site ∈ decl.sites outer, Visited A site := by
  obtain ⟨record, u, w, hrecord, hparams, hbody, rfl⟩ := h.toQuiet.funcBody
  have hn := List.nodup_append.1 h.nodup
  have hnames : (decl.params.map fun p => (p.node, p.name)).map (·.2) = decl.params.map (·.name) := by simp
  have hinside : Agrees A.notes decl.bodyIds w := h.agrees
  have heff := Check.declareParams_effect _ _ (fun p hp => List.mem_map.2 ⟨p, hp, rfl⟩) hparams
  have hentry : At A (decl.place outer) record.frame.ret u := by
    refine ⟨?_, heff.globalScope⟩
    rw [Check.declareParams_frame hparams, hnames]
    rw [hc.registry] at hrecord
    exact .func hrecord (hd record hrecord) (Check.funcBody_slots h.nodup hinside hparams hbody.run)
  have hlead := (Check.block_effect _ decl.body hbody.run).ret
  rw [Check.declareParams_frame hparams, Frame.ret_declareAll] at hlead
  have hmode : w.frame.ret = record.frame.ret := by
    obtain ⟨ty, hty⟩ := record.frame_ret_fixed
    have hlead : (ReturnMode.fixed ty).Leads w.frame.ret := hty ▸ hlead
    rw [hty, hlead.eq_fixed]
  have hc' : A.Covers (ctx.within ⟨decl.idUnder outer, record.typeParams, false⟩) := ⟨hc.registry, hc.capturer, hc.patience⟩
  have hblank : Blank decl.body.ids u := by
    have hmaps : (decl.params.map fun p => (p.node, p.name)).map (·.1.id) = decl.params.map (·.node.id) := by simp
    rw [hmaps] at heff
    exact h.blank.later heff.nodes (List.subset_append_right _ _) fun n hb hp => hn.2.2 n hp n hb rfl
  have hblock : Check.Settled A.notes decl.body.ids (Check.block _ decl.body) u () w :=
    ⟨hbody, hn.2.1, hblank, hinside.subset (List.subset_append_right _ _)⟩
  have hrow := hblock.block_visited hk hc' hentry (by rw [hmode]; exact .refl _)
  rw [FuncDecl.sites, Block.sites_eq] at hsub ⊢
  intro site hsite
  obtain ⟨c, hmem, hsite⟩ := List.mem_flatMap.1 hsite
  exact (hrow c hmem).tree hk (fun v hv => hsub (List.mem_flatMap.2 ⟨c, hmem, hv⟩)) site hsite

/-- A script's own statements all stand at one place. -/
theorem Stmt.row_script (ss : List Stmt) : Stmt.row .script ss = ss.map (⟨.script, .stmt ·⟩) := by
  induction ss with
  | nil => rfl
  | cons st ss ih =>
    have hplace : Place.script.after st = .script := by cases st <;> rfl
    rw [Stmt.row, hplace, ih, List.map_cons]

/-- Where the bodies of functions are analysed one after the other without a problem, each of these runs is settled. -/
theorem FuncsRun.settled {fin : NodeMap} {ctx : Context} {ds : List (ItemId × FuncDecl)} {s s' : State}
    (h : FuncsRun ctx ds s s') (hs : s'.diagnostics = []) (hn : (funcBodyIds ds).Nodup)
    (hb : Blank (funcBodyIds ds) s) (ha : Agrees fin (funcBodyIds ds) s') :
    ∀ d ∈ ds, ∃ around t u,
      Check.Settled fin d.2.bodyIds (Check.funcBody { ctx with enclosing := around } d.1 d.2) t () u := by
  induction h with
  | nil s => simp
  | cons around hd hrest ih =>
    rw [funcBodyIds_cons] at hn hb ha
    obtain ⟨hfirst, hlater, hdisjoint⟩ := List.nodup_append.1 hn
    rw [List.forall_mem_cons]
    refine ⟨⟨around, _, _, ⟨hd, hrest.touches.silent hs⟩, hfirst, hb.subset (List.subset_append_left _ _),
      ha.back hrest.touches (List.subset_append_left _ _) fun n hx hy => hdisjoint n hx n hy rfl⟩, ih hs hlater ?_ ?_⟩
    · exact hb.later (Check.funcBody_touches hd).nodes (List.subset_append_right _ _) fun n hx hy => hdisjoint n hy n hx rfl
    · exact ha.subset (List.subset_append_right _ _)

/-- The finished analysis of a script whose declarations make the module `m`. -/
def Setup.finished (setup : Setup) (script : Script) (m : Module) (notes : NodeMap) : Finished :=
  ⟨m :: Builtin.declarations :: setup.modules, setup.capturer, setup.patience, notes, script.sites (.root setup.moduleName)⟩

namespace Analysed

variable {setup : Setup} {script : Script} {m : Module} {s : State}

/-- The statements at the top level are analysed by a settled run after the records are made, and after them the bodies of the
functions, each by a settled run of its own. -/
theorem settled (h : Analysed setup script m s) (hs : s.diagnostics = []) (hn : script.ids.Nodup) :
    (∃ u v, At (setup.finished script m s.nodes) .script (.fixed .void) u ∧ v.frame.ret = .fixed .void ∧
      Check.Settled s.nodes script.stmtIds (Check.scriptStmts
        { setup.contextFor script with registry := m :: (setup.contextFor script).registry } script) u () v) ∧
    ∀ d ∈ script.funcs (.root setup.moduleName), ∃ ctx t u, (setup.finished script m s.nodes).Covers ctx ∧
      Check.Settled s.nodes d.2.bodyIds (Check.funcBody ctx d.1 d.2) t () u := by
  obtain ⟨u, hdecl, hbodies⟩ := Check.Quiet.script ⟨h.run, hs⟩
  obtain ⟨v, hstmts, hfuncs⟩ := hbodies.bodies
  have hruns := Check.scriptBodies_runs script hfuncs.run
  have heff := Check.declareElements_effect _ script _ hdecl.run
  have hstmtsEff := Check.scriptStmts_effect _ script hstmts.run
  -- The records only note types that declarations mention; these have none of the nodes of statements and bodies.
  have htypes := (Check.declareElements_typeNodes _ script _ hdecl.run).nodes
  have hsplit := List.nodup_append.1 (Script.split_nodup (.root setup.moduleName) hn)
  have hblank : Blank script.stmtIds u :=
    fun n hmem => htypes n fun ht => Script.stmtIds_disjoint hn n hmem (script.typeIds_subset ht)
  have hblankFuncs : Blank (funcBodyIds (script.funcs (.root setup.moduleName))) v := by
    intro n hmem
    rw [hstmtsEff.nodes n fun hst => Script.stmtIds_disjoint hn n hst (script.funcBodyIds_subset _ hmem)]
    exact htypes n fun ht => hsplit.2.2 n ht n hmem rfl
  have hmode : v.frame.ret = .fixed .void := by
    have hret := hstmtsEff.ret
    rw [heff.frame.ret] at hret
    exact hret.eq_fixed
  refine ⟨⟨u, v, ⟨Reached.script.grow heff.frame.grows, heff.globalScope⟩, hmode, hstmts,
    hn.sublist script.stmtIds_sublist, hblank, fun n hmem => ?_⟩, fun d hd => ?_⟩
  · exact hruns.touches.nodes n fun hf => Script.stmtIds_disjoint hn n hmem (script.funcBodyIds_subset _ hf)
  · obtain ⟨around, t, w, hsettled⟩ := hruns.settled hs hsplit.2.1 hblankFuncs (fun _ _ => rfl) d hd
    exact ⟨_, t, w, ⟨rfl, rfl, rfl⟩, hsettled⟩

/-- In an analysis without problems, every site of the script is visited. -/
theorem visited (h : Analysed setup script m s) (hs : s.diagnostics = []) (hk : Known s.nodes) (hn : script.ids.Nodup) :
    ∀ site ∈ script.sites (.root setup.moduleName), Visited (setup.finished script m s.nodes) site := by
  obtain ⟨⟨u, v, hstart, hmode, hstmts⟩, hfuncs⟩ := h.settled hs hn
  have hc : (setup.finished script m s.nodes).Covers
      { setup.contextFor script with registry := m :: (setup.contextFor script).registry } := ⟨rfl, rfl, rfl⟩
  rw [Script.stmtIds_eq, Check.scriptStmts_eq] at hstmts
  have hrow := hstmts.row_visited hk hc hstart (by rw [hmode]; exact .refl _)
  rw [Stmt.row_script, List.forall_mem_map] at hrow
  intro site hsite
  obtain ⟨element, hmem, hsite⟩ := List.mem_flatMap.1 hsite
  by_cases hst : ∃ st, element = .stmt st
  · obtain ⟨st, rfl⟩ := hst
    exact (hrow st (List.mem_filterMap.2 ⟨_, hmem, rfl⟩)).tree hk (fun v hv => List.mem_flatMap.2 ⟨_, hmem, hv⟩) site hsite
  · rw [Element.sites_eq _ fun st heq => hst ⟨st, heq⟩] at hsite
    obtain ⟨d, hd, hsite⟩ := List.mem_flatMap.1 hsite
    have hd := Script.mem_funcs hd hmem
    obtain ⟨ctx, t, w, hcovers, hsettled⟩ := hfuncs d hd
    refine funcBody_visited hk hcovers hsettled (fun _ hr => h.func_record hs hd hr) ?_ site hsite
    exact Script.func_sites_subset hd

end Analysed

/-- Once the check at the end has passed, no node is noted with an unknown type. -/
theorem State.known_of_checkResolved {s : State} (h : s.checkResolved = .ok ()) : Known s.nodes := by
  intro n t ht
  rw [NodeMap.ty?, NodeMap.dataOf] at ht
  cases hd : s.nodes.find? n with
  | none => simp [hd] at ht
  | some d =>
    rw [hd, Option.getD_some] at ht
    exact ((State.checkResolved_eq_ok.1 h).2 d (Table.mem_values_of_find? hd) t ht).ne

/-- Where there is an output, no node has an unknown type. -/
theorem analyze_known {setup : Setup} {script : Script} {out : Output} (h : analyze setup script = .ok (.ok out)) :
    Known out.nodes := by
  obtain ⟨m, s, -, -, hcheck, rfl⟩ := analyze_eq_ok h
  exact State.known_of_checkResolved hcheck

/-- Where there is an output, every site of the script was visited. -/
theorem analyze_visited {setup : Setup} {script : Script} {out : Output} (hn : script.ids.Nodup)
    (h : analyze setup script = .ok (.ok out)) :
    ∀ site ∈ script.sites (.root setup.moduleName), Visited (setup.finished script out.module out.nodes) site := by
  have hk := analyze_known h
  obtain ⟨m, s, ha, hs, -, rfl⟩ := analyze_eq_ok h
  exact ha.visited hs hk hn

end ScriptCheck

import ScriptCheck.Proofs.FuncRecords
import ScriptCheck.Proofs.Standards

/-!
# Scripts that meet a standard

The rules are tied together along the tree: a quiet analysis of a body keeps to the standard that its region has. A script is
treated in two steps, as it is analysed. The records that are made of its declarations mention only types that may be met in
the regions they come from, and against these records the statements and the bodies of the functions keep to their standards,
each region to its own.
-/

namespace ScriptCheck

/-- What is in scope in a region of the script. -/
def Context.inside (ctx : Context) (p : Region) : Context := { ctx with enclosing := p.around }

namespace Check

variable {L : Ledger} {ctx : Context}

theorem here_node {d : Standard L ctx} {e : Expr} (hn : d.Here e.ids) : d.At e.node.id :=
  hn _ (by rw [e.ids_eq_cons]; exact List.mem_cons_self)

mutual

/-- A quiet analysis of an expression gives a type that meets the standard. -/
theorem expr_sound (d : Standard L ctx) : ∀ (e : Expr) (hint : Option Ty), d.Here e.ids → d.Hint hint →
    d.Sound d.ty (expr ctx e hint)
  | .identifier node name typeArgs, hint, hn, _ => by
    rw [Expr.ids, Naming.here_cons] at hn
    rw [expr]
    exact typed_sound hn.1 (identifier_sound hn.1 hn.2)
  | .intLit node _, hint, hn, _ => by
    rw [expr]
    exact typed_sound (here_node hn) (pure_sound (d.builtin (by simp)))
  | .boolLit node _, hint, hn, _ => by
    rw [expr]
    exact typed_sound (here_node hn) (pure_sound d.bool)
  | .strLit node _, hint, hn, _ => by
    rw [expr]
    exact typed_sound (here_node hn) (pure_sound (d.builtin (by simp)))
  | .binary node op left right, hint, hn, _ => by
    rw [Expr.ids, Naming.here_cons, Naming.here_append] at hn
    rw [expr]
    exact typed_sound hn.1 (binary_sound (valued_gathers (expr_effect ctx right none)).adds
      (valued_sound (expr_sound d left none hn.2.1 Naming.hint_none))
      (valued_sound (expr_sound d right none hn.2.2 Naming.hint_none)))
  | .unary node op operand, hint, hn, _ => by
    rw [Expr.ids, Naming.here_cons] at hn
    have ho := expr_sound d operand none hn.2 Naming.hint_none
    rw [expr]
    exact typed_sound hn.1 (unary_sound hn.1 (target_sound d operand _ hn.2) (valued_sound ho))
  | .assign node left value, hint, hn, _ => by
    rw [Expr.ids, Naming.here_cons, Naming.here_append] at hn
    rw [expr]
    exact typed_sound hn.1 (assign_sound hn.1 (fun hint => (valued_gathers (expr_effect ctx value hint)).adds)
      (target_sound d left _ hn.2.1) fun hint hh => valued_sound (expr_sound d value hint hn.2.2 hh))
  | .call node callee args, hint, hn, _ => by
    rw [Expr.ids, Naming.here_cons, Naming.here_append] at hn
    have hc := expr_sound d callee none hn.2.1 Naming.hint_none
    rw [expr]
    exact typed_sound hn.1 (call_sound hn.1 (here_node hn.2.1) (fun hints => exprs_effect ctx args hints)
      (callable_sound d callee _ hn.2.1 hc) fun hints hh => exprs_sound d args hints hn.2.2 hh)
  | .lambda node params ret body, hint, hn, hh => by
    simp only [Expr.ids, Naming.here_cons, Naming.here_append] at hn
    obtain ⟨hnode, hparams, hret, hbody⟩ := hn
    have htypes : d.Here (LambdaParam.typeIds params) := fun n hm => hparams n (LambdaParam.typeIds_subset params hm)
    rw [expr]
    exact typed_sound hnode (lambda_sound hnode htypes hret (fun declared => lambdaBody_effect ctx body declared) hh
      fun declared hd => lambdaBody_sound d body declared hbody hd)
  | .member node object name typeArgs, hint, hn, _ => by
    rw [Expr.ids, Naming.here_cons, Naming.here_append] at hn
    have ho := expr_sound d object none hn.2.1 Naming.hint_none
    rw [expr]
    exact typed_sound hn.1 (memberValue_sound hn.1 (memberUse_sound hn.2.2 (receiver_sound hn.2.1 ho)))
  | .index node object index, hint, hn, _ => by
    rw [Expr.ids, Naming.here_cons, Naming.here_append] at hn
    have ho := expr_sound d object none hn.2.1 Naming.hint_none
    have hi := expr_sound d index none hn.2.2 Naming.hint_none
    rw [expr]
    exact typed_sound hn.1 (elementValue_sound hn.1 (valued_gathers (expr_effect ctx index none)).adds (valued_sound ho)
      (valued_sound hi))
  | .isTest node value ty, hint, hn, _ => by
    rw [Expr.ids, Naming.here_cons, Naming.here_append] at hn
    rw [expr]
    exact typed_sound hn.1 (isTest_sound hn.1 hn.2.2
      (valued_sound (expr_sound d value none hn.2.1 Naming.hint_none)))

/-- So do several expressions. -/
theorem exprs_sound (d : Standard L ctx) : ∀ (es : List Expr) (hints : List (Option Ty)), d.Here (Expr.idsOfList es) →
    (∀ hint ∈ hints, d.Hint hint) → d.Sound d.All (exprs ctx es hints)
  | [], hints, _, _ => by
    rw [exprs]
    exact pure_sound (by simp [Naming.All])
  | e :: es, hints, hn, hh => by
    rw [Expr.idsOfList, Naming.here_append] at hn
    intro s ts s' h hs
    obtain ⟨t, us, u, he, hes, rfl⟩ := h.exprs_cons
    have hhead : d.Hint (hints.headD none) := by
      cases hints with
      | nil => exact Naming.hint_none
      | cons hint rest => exact hh hint List.mem_cons_self
    have htail : ∀ hint ∈ hints.tail, d.Hint hint := fun hint hm => hh hint (List.mem_of_mem_tail hm)
    obtain ⟨hu, ht⟩ := valued_sound (expr_sound d e _ hn.1 hhead) he hs
    obtain ⟨hs', hus⟩ := exprs_sound d es _ hn.2 htail hes hu
    exact ⟨hs', Naming.all_cons.2 ⟨ht, hus⟩⟩

/-- A target meets the standard. -/
theorem target_sound (d : Standard L ctx) (e : Expr) (asValue : Check Ty) (hn : d.Here e.ids) :
    d.Sound d.Assigned (target ctx e asValue) := by
  cases e with
  | identifier node name typeArgs =>
    rw [Expr.ids, Naming.here_cons] at hn
    rw [target]
    exact identifierTarget_sound hn.1 hn.2
  | member node object name typeArgs =>
    rw [Expr.ids, Naming.here_cons, Naming.here_append] at hn
    have ho := expr_sound d object none hn.2.1 Naming.hint_none
    rw [target]
    exact memberTarget_sound hn.1 (memberUse_sound hn.2.2 (receiver_sound hn.2.1 ho))
  | index node object index =>
    rw [Expr.ids, Naming.here_cons, Naming.here_append] at hn
    have ho := expr_sound d object none hn.2.1 Naming.hint_none
    have hi := expr_sound d index none hn.2.2 Naming.hint_none
    rw [target]
    exact elementTarget_sound hn.1 (valued_gathers (expr_effect ctx index none)).adds (valued_sound ho) (valued_sound hi)
  | _ =>
    rw [target_of_not_place rfl]
    rintro s r s' ⟨hr, hd⟩ hs
    obtain ⟨_, _, -, hr⟩ := bind_eq_ok.1 hr
    exact (not_quiet_reported ⟨hr, hd⟩).elim

/-- So does what is called. -/
theorem callable_sound (d : Standard L ctx) (e : Expr) (asValue : Check Ty) (hn : d.Here e.ids)
    (h : d.Sound d.ty asValue) : d.Sound d.Called (callable ctx e asValue) := by
  cases e with
  | identifier node name typeArgs =>
    rw [Expr.ids, Naming.here_cons] at hn
    rw [callable]
    exact identifierCallable_sound hn.1 hn.2
  | member node object name typeArgs =>
    rw [Expr.ids, Naming.here_cons, Naming.here_append] at hn
    have ho := expr_sound d object none hn.2.1 Naming.hint_none
    rw [callable]
    exact memberCallable_sound hn.1 (memberUse_sound hn.2.2 (receiver_sound hn.2.1 ho))
  | _ =>
    rw [callable_of_not_named rfl]
    rintro s c s' ⟨hr, hd⟩ hs
    obtain ⟨ty, u, h₁, h₂⟩ := bind_eq_ok.1 hr
    obtain ⟨rfl, rfl⟩ := pure_eq_ok.1 h₂
    exact valued_sound h ⟨h₁, hd⟩ hs

/-- The body of a lambda is sound. -/
theorem lambdaBody_sound (d : Standard L ctx) : ∀ (body : Body) (declared : Option Ty), d.Here body.ids →
    d.Hint declared → d.Sound (fun _ => True) (lambdaBody ctx body declared)
  | .expr e, declared, hn, hd => by
    rw [Body.ids] at hn
    rw [lambdaBody]
    exact exprBody_sound hd fun hint hh => expr_sound d e hint hn hh
  | .block b, declared, hn, _ => by
    rw [Body.ids] at hn
    rw [lambdaBody]
    exact block_sound d b hn

/-- So is a block. -/
theorem block_sound (d : Standard L ctx) : ∀ b : Block, d.Here b.ids → d.Sound (fun _ => True) (block ctx b)
  | .mk node ss, hn => by
    rw [Block.ids, Naming.here_cons] at hn
    rw [block]
    exact inBlock_sound (stmts_sound d ss hn.2)

/-- So are several statements. -/
theorem stmts_sound (d : Standard L ctx) : ∀ ss : List Stmt, d.Here (Stmt.idsOfList ss) →
    d.Sound (fun _ => True) (stmts ctx ss)
  | [], _ => by
    rw [stmts]
    exact pure_sound trivial
  | st :: ss, hn => by
    rw [Stmt.idsOfList, Naming.here_append] at hn
    intro s a s' h hs
    obtain ⟨u, h₁, h₂⟩ := h.stmts_cons
    exact stmts_sound d ss hn.2 h₂ (stmt_sound d st hn.1 h₁ hs).1

/-- A quiet analysis of a statement keeps to the standard. -/
theorem stmt_sound (d : Standard L ctx) : ∀ st : Stmt, d.Here st.ids → d.Sound (fun _ => True) (stmt ctx st)
  | .varDecl node ty name init, hn => by
    rw [Stmt.ids, Naming.here_cons, Naming.here_append] at hn
    rw [stmt]
    exact varDecl_sound hn.2.1 (fun i hi hint => (initial_effect ctx init i hi hint).adds)
      fun i hi hint hh => initial_sound d init hn.2.2 i hi hint hh
  | .ifThen node cond thenBody elseBody, hn => by
    simp only [Stmt.ids, Naming.here_cons, Naming.here_append] at hn
    obtain ⟨-, hcond, hthen, helse⟩ := hn
    have heff : Keeps (StmtEffect (thenBody.ids ++ Stmt.idsOfOption elseBody))
        (do inBlock (stmt ctx thenBody); otherwise ctx elseBody) :=
      ((inBlock_effect (stmt_effect ctx thenBody)).weaken fun _ _ h => h.mono (by simp)).bind fun _ =>
        (otherwise_effect ctx elseBody).weaken fun _ _ h => h.mono (by simp)
    rw [stmt]
    refine ifThen_sound (here_node hcond) heff (valued_sound (expr_sound d cond none hcond Naming.hint_none)) ?_
    rintro s a s' ⟨hr, hd⟩ hs
    obtain ⟨_, u, h₁, h₂⟩ := bind_eq_ok.1 hr
    have hu := (otherwise_effect ctx elseBody h₂).silent hd
    exact otherwise_sound d elseBody helse ⟨h₂, hd⟩ (inBlock_sound (stmt_sound d thenBody hthen) ⟨h₁, hu⟩ hs).1
  | .whileDo node cond body, hn => by
    rw [Stmt.ids, Naming.here_cons, Naming.here_append] at hn
    rw [stmt]
    exact whileDo_sound (stmt_effect ctx body) (valued_sound (expr_sound d cond none hn.2.1 Naming.hint_none))
      (stmt_sound d body hn.2.2)
  | .block node b, hn => by
    rw [Stmt.ids, Naming.here_cons] at hn
    rw [stmt]
    exact block_sound d b hn.2
  | .expr node e, hn => by
    rw [Stmt.ids, Naming.here_cons] at hn
    rw [stmt]
    rintro s a s' ⟨hr, hd⟩ hs
    obtain ⟨t, u, h₁, h₂⟩ := bind_eq_ok.1 hr
    obtain ⟨-, rfl⟩ := pure_eq_ok.1 h₂
    exact ⟨(expr_sound d e none hn.2 Naming.hint_none ⟨h₁, hd⟩ hs).1, trivial⟩
  | .ret node value, hn => by
    rw [Stmt.ids, Naming.here_cons] at hn
    rw [stmt]
    exact returns_sound d node value hn.2
  | .yields node e, hn => by
    rw [Stmt.ids, Naming.here_cons] at hn
    rw [stmt]
    exact yields_sound fun hint hh => expr_sound d e hint hn.2 hh
  | .breaks node, _ => by
    rw [stmt]
    exact inLoop_sound
  | .continues node, _ => by
    rw [stmt]
    exact inLoop_sound
  | .task node b, hn => by
    rw [Stmt.ids, Naming.here_cons] at hn
    rw [stmt]
    exact task_sound hn.1 ((block_effect ctx b).weaken fun _ _ h => h.toBodyEffect) (block_sound d b hn.2)
  | .awaits node b, hn => by
    rw [Stmt.ids, Naming.here_cons] at hn
    rw [stmt]
    exact block_sound d b hn.2

theorem initial_sound (d : Standard L ctx) : ∀ init : Option Expr, d.Here (Expr.idsOfOption init) →
    ∀ i ∈ initial ctx init, ∀ hint, d.Hint hint → d.Sound d.ty (i.analyse hint)
  | none, _, i, hi, hint, _ => by
    rw [initial] at hi
    cases hi
  | some e, hn, i, hi, hint, hh => by
    rw [Expr.idsOfOption] at hn
    rw [initial, Option.mem_some_iff] at hi
    subst hi
    exact valued_sound (expr_sound d e hint hn hh)

theorem otherwise_sound (d : Standard L ctx) : ∀ st : Option Stmt, d.Here (Stmt.idsOfOption st) →
    d.Sound (fun _ => True) (otherwise ctx st)
  | none, _ => by
    rw [otherwise]
    exact pure_sound trivial
  | some st, hn => by
    rw [Stmt.idsOfOption] at hn
    rw [otherwise]
    exact inBlock_sound (stmt_sound d st hn)

theorem returns_sound (d : Standard L ctx) (node : Node) : ∀ value : Option Expr, d.Here (Expr.idsOfOption value) →
    d.Sound (fun _ => True) (returns ctx node value)
  | none, _ => by
    rw [returns]
    exact returnNothing_sound
  | some e, hn => by
    rw [Expr.idsOfOption] at hn
    rw [returns]
    exact returnValue_sound fun hint hh => expr_sound d e hint hn hh

end

end Check

/-! ### The records of a script -/

/-- Each record mentions only such types as may be mentioned under its id. -/
structure Module.Meets (P : ItemId → Ty → Prop) (m : Module) : Prop where
  types : ∀ e ∈ m.types.entries, ∀ t ∈ e.2.types, P e.1 t
  funcs : ∀ e ∈ m.funcs.entries, ∀ t ∈ e.2.types, P e.1 t
  vars : ∀ e ∈ m.vars.entries, ∀ t ∈ e.2.types, P e.1 t

namespace Module.Meets

variable {P : ItemId → Ty → Prop} {m : Module}

theorem empty (name : String) : (Module.empty name).Meets P :=
  ⟨by simp [Module.empty, Table.empty], by simp [Module.empty, Table.empty], by simp [Module.empty, Table.empty]⟩

/-- A type that is judged may be put. -/
theorem putType (h : m.Meets P) {r : TypeRecord} (hr : ∀ t ∈ r.types, P r.id t) : (m.putType r).Meets P := by
  refine ⟨fun e he => ?_, h.funcs, h.vars⟩
  rcases Table.mem_insertIn he with rfl | he
  · exact hr
  · exact h.types e he

theorem putFunc (h : m.Meets P) {r : FuncRecord} (hr : ∀ t ∈ r.types, P r.id t) : (m.putFunc r).Meets P := by
  refine ⟨h.types, fun e he => ?_, h.vars⟩
  rcases Table.mem_insertIn he with rfl | he
  · exact hr
  · exact h.funcs e he

theorem putVar (h : m.Meets P) {r : VarRecord} (hr : ∀ t ∈ r.types, P r.id t) : (m.putVar r).Meets P := by
  refine ⟨h.types, h.funcs, fun e he => ?_⟩
  rcases Table.mem_insertIn he with rfl | he
  · exact hr
  · exact h.vars e he

end Module.Meets

/-- What types that are written in the region may mean may be mentioned in the record that is made there. -/
def Region.Judged (L : Ledger) (P : ItemId → Ty → Prop) (ctx : Context) (p : Region) : Prop :=
  ∃ d : Naming L (ctx.inside p), (∀ t, d.ty t → P p.id t) ∧ d.Here p.ids

namespace Check

variable {L : Ledger} {P : ItemId → Ty → Prop} {ctx : Context}

/-- A base meets the standard. -/
theorem declaredBase_writes (d : Naming L ctx) {base : Option TypeExpr} (hn : d.Here (TypeExpr.idsOfOption base)) :
    L.Writes d.Hint (declaredBase ctx base) := by
  cases base with
  | none => exact pure_writes Naming.hint_none
  | some written =>
    rw [TypeExpr.idsOfOption] at hn
    rintro s r s' ⟨hr, hd⟩ hs
    obtain ⟨ty, u, h₁, h₂⟩ := bind_eq_ok.1 hr
    cases ty with
    | unresolved =>
      obtain ⟨rfl, rfl⟩ := pure_eq_ok.1 h₂
      exact ⟨(typeExpr_writes d written hn ⟨h₁, hd⟩ hs).1, Naming.hint_none⟩
    | nominal id levels =>
      simp only at h₂
      split at h₂
      · obtain ⟨rfl, rfl⟩ := pure_eq_ok.1 h₂
        obtain ⟨hu, ht⟩ := typeExpr_writes d written hn ⟨h₁, hd⟩ hs
        exact ⟨hu, Naming.hint_some.2 ht⟩
      · exact (not_quiet_reported ⟨h₂, hd⟩).elim
    | _ => exact (not_quiet_reported ⟨h₂, hd⟩).elim

/-- So do parameters. -/
theorem paramRecords_writes (d : Naming L ctx) : ∀ params : List FuncParam, d.Here (FuncParam.idsOfList params) →
    L.Writes (fun rs : List ParamRecord => d.All (rs.map (·.ty))) (paramRecords ctx params)
  | [], _ => by
    rw [paramRecords]
    exact pure_writes (by simp [Naming.All])
  | p :: ps, hn => by
    simp only [FuncParam.idsOfList, Naming.here_cons, Naming.here_append] at hn
    rintro s rs s' ⟨hr, hd⟩ hs
    simp only [paramRecords, bind_eq_ok, pure_eq_ok] at hr
    obtain ⟨t, u, h₁, rest, v, h₂, rfl, rfl⟩ := hr
    obtain ⟨hu, ht⟩ := typeExpr_writes d p.ty hn.2.1 ⟨h₁, (paramRecords_effect ctx ps h₂).silent hd⟩ hs
    obtain ⟨hv, hrest⟩ := paramRecords_writes d ps hn.2.2 ⟨h₂, hd⟩ hu
    exact ⟨hv, Naming.all_cons.2 ⟨ht, hrest⟩⟩

/-- The records of a function meet the standard. -/
theorem declareFunc_writes {outer : ItemId} {decl : FuncDecl} {isStatic : Bool} {m : Module}
    (h : (decl.region outer ctx.enclosing).Judged L P ctx) (hm : m.Meets P) :
    L.Writes (Module.Meets P) (declareFunc ctx outer decl isStatic m) := by
  obtain ⟨d, hP, hn⟩ := h
  have hparams : d.Here (FuncParam.idsOfList decl.params) := fun n h => hn n (by simp [FuncDecl.region, FuncDecl.ids, h])
  have hret : d.Here decl.ret.ids := fun n h => hn n (by simp [FuncDecl.region, FuncDecl.ids, h])
  rintro s m' s' ⟨hr, hd⟩ hs
  obtain ⟨params, ret, u, h₁, h₂, -, -, rfl⟩ := declareFunc_run hr
  obtain ⟨hu, hp⟩ := paramRecords_writes d _ hparams ⟨h₁, (typeExpr_effect _ _ h₂).silent hd⟩ hs
  obtain ⟨hv, ht⟩ := typeExpr_writes d _ hret ⟨h₂, hd⟩ hu
  exact ⟨hv, hm.putFunc fun t h => hP t (List.forall_mem_cons.2 ⟨ht, hp⟩ t h)⟩

theorem declareField_writes {outer : ItemId} {decl : FieldDecl} {m : Module}
    (h : Region.Judged L P ctx ⟨ctx.enclosing, decl.idUnder outer, decl.node.id :: decl.ty.ids⟩) (hm : m.Meets P) :
    L.Writes (Module.Meets P) (declareField ctx outer decl m) := by
  obtain ⟨d, hP, hn⟩ := h
  rw [Naming.here_cons] at hn
  rintro s m' s' ⟨hr, hd⟩ hs
  obtain ⟨ty, h₁, -, -, rfl⟩ := declareField_run hr
  obtain ⟨hu, ht⟩ := typeExpr_writes d _ hn.2 ⟨h₁, hd⟩ hs
  exact ⟨hu, hm.putVar (List.forall_mem_singleton.2 (hP ty ht))⟩

/-- Where nothing is reported and the regions allow it, the records that are made meet the standard. -/
structure Recorded (L : Ledger) (P : ItemId → Ty → Prop) (ctx : Context) (ps : List Region) (a b : Module × State) : Prop where
  silent : b.2.diagnostics = [] → a.2.diagnostics = []
  meets : b.2.diagnostics = [] → (∀ p ∈ ps, p.Judged L P ctx) → a.1.Meets P → L.Holds a.2.nodes →
    L.Holds b.2.nodes ∧ b.1.Meets P

/-- So do those of a type and its members, and of a script. -/
theorem recordedWalk (L : Ledger) (P : ItemId → Ty → Prop) : DeclWalk regionLists (Recorded L P) where
  refl _ _ := ⟨id, fun _ _ hm hs => ⟨hs, hm⟩⟩
  trans h h' := by
    refine ⟨fun hd => h.silent (h'.silent hd), fun hd hp hm hs => ?_⟩
    rw [List.forall_mem_append] at hp
    obtain ⟨hu, hmid⟩ := h.meets (h'.silent hd) hp.1 hm hs
    exact h'.meets hd hp.2 hmid hu
  func_run h := ⟨Adds.silent (declareFunc_typeNodes _ _ _ _ _ h).diagnostics,
    fun hd hp hm hs => declareFunc_writes (List.forall_mem_singleton.1 hp) hm ⟨h, hd⟩ hs⟩
  field_run h := ⟨Adds.silent (declareField_typeNodes _ _ _ _ h).diagnostics,
    fun hd hp hm hs => declareField_writes (List.forall_mem_singleton.1 hp) hm ⟨h, hd⟩ hs⟩
  case_run _ _ _ _ := ⟨id, fun _ _ hm hs => ⟨hs, hm⟩⟩
  stmt_run _ _ _ := ⟨id, fun _ _ hm hs => ⟨hs, hm⟩⟩
  type_run hbase hmembers _ _ := by
    refine ⟨fun hd => Adds.silent (declaredBase_typeNodes _ _ hbase).diagnostics (hmembers.silent hd), fun hd hp hm hs => ?_⟩
    simp only [regionLists, TypeDecl.regions, List.forall_mem_cons] at hp
    obtain ⟨⟨d, hP, hn⟩, hinside⟩ := hp
    rw [Naming.here_cons] at hn
    obtain ⟨hu, hb⟩ := declaredBase_writes d hn.2 ⟨hbase, hmembers.silent hd⟩ hs
    obtain ⟨hv, hmid⟩ := hmembers.meets hd hinside hm hu
    exact ⟨hv, hmid.putType fun t ht => hP t (hb t (Option.mem_toList.1 ht))⟩

/-- The records of a script mention what may be met in the regions they come from. -/
theorem declareElements_writes (ctx : Context) (hroot : ctx.enclosing = []) (script : Script) {m : Module}
    (h : ∀ p ∈ script.regions ctx.root, p.Judged L P ctx) (hm : m.Meets P) :
    L.Writes (Module.Meets P) (declareElements ctx script m) := by
  rintro s m' s' ⟨hr, hd⟩ hs
  have hregions : regionLists.Script ctx.root ctx.enclosing (Script.regions ctx.root) := hroot ▸ {}
  have hmade := (recordedWalk L P).script_keeps (a := (m, s)) hregions hr
  exact hmade.meets hd h hm hs

/-- After the records are made, no variable has been declared. -/
theorem declareElements_meets {script : Script} {m m' : Module} {s : State} {Q : Ty → Prop} (hvoid : Q .void)
    (h : declareElements ctx script m .initial = .ok (m', s)) (hn : L.Holds s.nodes) : s.Meets Q L := by
  have hnotes := declareElements_notes ctx script m h
  refine ⟨?_, ?_, hn, ?_⟩
  · rw [hnotes.frame]
    exact .enter (by simpa [ReturnMode.types] using hvoid) (by simp)
  · simp [hnotes.globals, State.initial, PrivateGlobals.empty]
  · simp [hnotes.templates, State.initial]

end Check

/-! ### The bodies of a script -/

/-- Between two bodies: the script's variables have the property, and notes and templates mention only what they may. -/
structure State.Rests (Q : Ty → Prop) (L : Ledger) (s : State) : Prop where
  globals : ∀ t ∈ s.globals.slots, Q t
  nodes : L.Holds s.nodes
  templates : ∀ t ∈ s.templates, ∀ ty ∈ t.types, L.kept ty

/-- The region has a standard that the script's variables meet, and so does the record of a function that is declared there. -/
def Region.Ready (L : Ledger) (Q : Ty → Prop) (ctx : Context) (p : Region) : Prop :=
  ∃ d : Standard L (ctx.inside p), (∀ t, Q t → d.ty t) ∧ d.Here p.ids ∧
    ∀ r, ctx.registry.func? p.id = some r → ∀ t ∈ r.types, d.ty t

/-- The record that is found for a function has the function's type parameters. -/
def FuncDecl.Named (reg : Registry) (d : ItemId × FuncDecl) : Prop :=
  ∀ r, reg.func? (d.2.idUnder d.1) = some r → r.typeParams = d.2.typeParams.map .text

namespace Check

variable {L : Ledger} {Q : Ty → Prop} {ctx : Context}
variable {s s' : State}

/-- The body of a function leaves the notes in order. -/
theorem funcBody_rests {outer : ItemId} {decl : FuncDecl} (h : (decl.region outer ctx.enclosing).Ready L Q ctx)
    (hnamed : FuncDecl.Named ctx.registry (outer, decl)) (hq : Quiet (funcBody ctx outer decl) s () s')
    (hs : s.Rests Q L) : s'.Rests Q L := by
  obtain ⟨d, hQ, hn, hrecord⟩ := h
  have hbody : d.Here decl.body.ids := fun n h => hn n (by simp [FuncDecl.region, FuncDecl.ids, h])
  have hglobals := (funcBody_effect ctx outer decl hq.run).globals
  obtain ⟨record, u, w, hf, hp, hqb, rfl⟩ := hq.funcBody
  obtain ⟨hret, hparams⟩ := List.forall_mem_cons.1 (hrecord record hf)
  have hframe : record.frame.AllTypes d.ty := by
    unfold FuncRecord.frame
    split
    · exact .enter (by simpa [ReturnMode.types] using Ty.Composed.void) (by simpa using hret)
    · exact .enter (by simpa [ReturnMode.types] using hret) (by simp)
  have henter : (s.enter record.frame).Meets d.ty L := ⟨hframe, fun t ht => hQ t (hs.globals t ht), hs.nodes, hs.templates⟩
  have hu : u.Meets d.ty L := State.Meets.declareParams hp henter hparams
  rw [hnamed record hf] at hqb
  obtain ⟨hw, -⟩ := block_sound d decl.body hbody hqb hu
  have hpush := hw.push (.func (decl.idUnder outer)) (fun t ht => d.kept (hw.frame.seqElem t ht)) (some decl.body.node.id)
  exact ⟨fun t ht => hs.globals t (hglobals ▸ ht), hw.nodes, hpush.templates⟩

theorem sites_rest : ∀ {fs : List FuncSite} {s s' : State}, (∀ f ∈ fs, f.region.Ready L Q ctx) →
    (∀ f ∈ fs, FuncDecl.Named ctx.registry (f.outer, f.decl)) → Quiet (fs.forM (siteBody ctx)) s () s' → s.Rests Q L →
      s'.Rests Q L
  | [], s, s', _, _, hq, hs => by
    obtain ⟨-, rfl, -⟩ := quiet_pure.1 hq
    exact hs
  | f :: fs, s, s', h, hnamed, ⟨hr, hd⟩, hs => by
    rw [List.forall_mem_cons] at h hnamed
    obtain ⟨_, u, h₁, h₂⟩ := bind_eq_ok.1 hr
    have hfirst : Quiet (siteBody ctx f) s () u := ⟨h₁, (sites_effect ctx (List.Subset.refl _) h₂).silent hd⟩
    refine sites_rest h.2 hnamed.2 ⟨h₂, hd⟩ (funcBody_rests ?_ ?_ hfirst hs)
    · exact h.1
    · exact hnamed.1

/-- So do all bodies of a script. -/
theorem scriptBodies_rests (hroot : ctx.enclosing = []) {script : Script}
    (h : ∀ p ∈ script.regions ctx.root, p.Ready L Q ctx) (hnamed : ∀ f ∈ script.funcs ctx.root, FuncDecl.Named ctx.registry f)
    (hq : Quiet (scriptBodies ctx script) s () s') (hs : s.Rests Q L) : s'.Rests Q L := by
  rw [scriptBodies_sites, hroot] at hq
  rw [script.funcs_eq ctx.root []] at hnamed
  exact sites_rest (fun f hf => h _ (Script.region_of_funcSites hf)) (fun f hf => hnamed _ (List.mem_map_of_mem hf)) hq hs

/-- The statements of a script are sound. -/
theorem scriptStmts_sound (d : Standard L ctx) (script : Script) (hn : d.Here script.stmtIds) :
    d.Sound (fun _ => True) (scriptStmts ctx script) := by
  rw [Script.stmtIds_eq] at hn
  rw [scriptStmts_eq]
  exact stmts_sound d script.stmts hn

/-- All bodies of a script, each in its region: what is noted in the end may be noted, and so for the templates. -/
theorem bodies_rests (d : Standard L ctx) (hroot : ctx.enclosing = []) {script : Script}
    (hn : d.Here (Script.stmtIds script)) (h : ∀ p ∈ script.regions ctx.root, p.Ready L d.ty ctx)
    (hnamed : ∀ f ∈ script.funcs ctx.root, FuncDecl.Named ctx.registry f)
    (hq : Quiet (bodies ctx script) s () s') (hs : s.Meets d.ty L) : s'.Rests d.ty L := by
  obtain ⟨v, hstmts, hfuncs⟩ := hq.bodies
  obtain ⟨hv, -⟩ := scriptStmts_sound d script hn hstmts hs
  have hpush := hv.push .script (fun t ht => d.kept (hv.frame.seqElem t ht)) none
  exact scriptBodies_rests hroot h hnamed hfuncs ⟨hv.globals, hv.nodes, hpush.templates⟩

end Check

end ScriptCheck

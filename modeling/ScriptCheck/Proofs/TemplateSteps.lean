import ScriptCheck.Proofs.Blueprints

/-!
# The templates that a run adds

Every part of a body is analysed exactly once, whatever place it has in an expression: as a value, a receiver, something to
call or something to assign to. So a run of a part that reports nothing adds the templates of the lambdas and tasks in the
part, in order, and no other (`Builds`). Only a lambda or a task whose captures cannot be found has none, and that is reported.
What is noted about a lambda or a task names the position of its own template, and templates stay where they are.
-/

namespace ScriptCheck

/-- The position that is noted for a lambda or a task at node `n` is that of its template. -/
def NodeInfo.Refers (ts : List Template) (n : Nat) : NodeInfo → Prop
  | .lambda c => ∃ t, ts[c.template]? = some t ∧ t.kind = .lambda n
  | .task c => ∃ t, ts[c.template]? = some t ∧ t.kind = .task n
  | _ => True

theorem NodeInfo.refers_of_closure?_eq_none {info : NodeInfo} (h : info.closure? = none) (ts : List Template) (n : Nat) :
    info.Refers ts n := by
  cases info with
  | lambda c => cases h
  | task c => cases h
  | _ => trivial

theorem NodeInfo.Refers.append {info : NodeInfo} {ts : List Template} {n : Nat} (h : info.Refers ts n) (t : Template) :
    info.Refers (ts ++ [t]) n := by
  have hkeep : ∀ {k : Nat} {t' : Template}, ts[k]? = some t' → (ts ++ [t])[k]? = some t' := fun hk => by
    rw [List.getElem?_append_left (List.getElem?_eq_some_iff.1 hk).1, hk]
  cases info with
  | lambda c => exact h.imp fun _ ht => ht.imp_left hkeep
  | task c => exact h.imp fun _ ht => ht.imp_left hkeep
  | _ => trivial

/-- Every note about a lambda or a task names the position of its template. -/
def State.Refers (s : State) : Prop := ∀ n info, s.nodes.info? n = some info → info.Refers s.templates n

/-- If nothing is reported, these templates were added. -/
structure Builds (bs : List Blueprint) (s s' : State) : Prop where
  diagnostics : s.diagnostics <+: s'.diagnostics
  templates : s'.diagnostics = [] → s'.templates.map Template.blueprint = s.templates.map Template.blueprint ++ bs
  refers : s.Refers → s'.Refers

namespace Builds

variable {bs cs : List Blueprint} {s t u : State}

theorem seq (h : Builds bs s t) (h' : Builds cs t u) : Builds (bs ++ cs) s u where
  diagnostics := h.diagnostics.trans h'.diagnostics
  templates := fun hu => by
    rw [h'.templates hu, h.templates (Check.Adds.silent h'.diagnostics hu), List.append_assoc]
  refers := h'.refers ∘ h.refers

/-- Neither notes nor templates nor diagnostics have changed. -/
theorem still (hd : t.diagnostics = s.diagnostics) (ht : t.templates = s.templates) (hn : t.nodes = s.nodes) :
    Builds [] s t where
  diagnostics := hd ▸ List.prefix_refl _
  templates := fun _ => by rw [ht, List.append_nil]
  refers := fun h => by
    unfold State.Refers
    rwa [hn, ht]

/-- What a run builds does not depend on the frame or the script's variables at either end. -/
theorem congr {s' t' : State} (h : Builds bs s t) (hs : s'.diagnostics = s.diagnostics ∧ s'.templates = s.templates ∧
    s'.nodes = s.nodes) (ht : t'.diagnostics = t.diagnostics ∧ t'.templates = t.templates ∧ t'.nodes = t.nodes) :
    Builds bs s' t' := by
  have hstart := still hs.1.symm hs.2.1.symm hs.2.2.symm
  simpa using (hstart.seq h).seq (still ht.1 ht.2.1 ht.2.2)

end Builds

/-- Neither templates nor notes about lambdas and tasks have changed. -/
theorem Notes.builds {P : NodeInfo → Prop} {ids : List Nat} {s t : State} (h : Notes P ids s t)
    (hP : ∀ info, P info → info.closure? = none) : Builds [] s t where
  diagnostics := h.diagnostics
  templates := fun _ => by rw [h.templates, List.append_nil]
  refers := fun hs n info hinfo => by
    rw [h.templates]
    exact (h.infos n info hinfo).elim (hs n info) fun hp => info.refers_of_closure?_eq_none (hP info hp) _ _

instance : GathersBlindly Builds where
  cost _ := []
  cost_append _ _ := rfl
  seq := Builds.seq
  swap h := h
  spare _ _ _ _ h := h
  typedInstead h := h
  looks h := h.builds fun _ => False.elim
  typed _ ty _ := (Check.noteType_notes (P := fun _ => False) (List.mem_singleton_self _) ty rfl).builds fun _ => False.elim
  noted _ _ hinfo _ := (Check.noteInfo_notes (P := (·.closure? = none)) (List.mem_singleton_self _) hinfo rfl).builds fun _ => id
  types h := h.builds fun _ ⟨_, hty⟩ => hty ▸ rfl
  widens _ := .still rfl rfl rfl
  still h _ _ := .still h.diagnostics h.templates h.nodes
  framed h := .still h.diagnostics h.templates h.nodes
  reported _ _ := ⟨List.prefix_append _ _, fun _ => (List.append_nil _).symm, id⟩

namespace Check

variable {α β : Type} {bs cs : List Blueprint} {ctx : Context} {node : Node}
variable {ids : List Nat} {frame : Frame}

/-! ### Lambdas and tasks -/

/-- The frame of a lambda or a task yields nothing and has no `this` of its own, and what stands in the body is built. -/
theorem closure_builds {params : List (Node × String)} {types : List Ty} {pending : List PendingCapture}
    {mode : ReturnMode} {body : Check Unit} (hp : ∀ p ∈ params, p.1.id ∈ ids) (heffect : Keeps (BodyEffect ids) body)
    (hb : Keeps (Builds bs) body) {s s' : State} {captures : List CaptureInfo}
    (h : closure params types pending mode body s = .ok ((captures, frame), s')) :
    Builds bs s s' ∧ frame.seqElem = none ∧ frame.isThisCall = false := by
  constructor
  · exact inFrame_gathers _ ((declareParams_gathers (R := Builds) _ _).last fun _ => (declareCaptures_gathers _).last fun _ =>
      hb.first fun _ => .pure _) h
  · obtain ⟨t, hr, rfl, -⟩ := inFrame_eq_ok.1 h
    have he : BodyEffect ids _ t := Keeps.bind ((declareParams_effect _ _ hp).weaken fun _ _ h => h.toBodyEffect)
      (fun _ => ((declareCaptures_effect _).weaken fun _ _ h => h.toBodyEffect).bind fun _ => heffect.bind fun _ => .pure _) hr
    exact ⟨he.seqElem, he.isThisCall⟩

/-- A finished lambda or task is noted with the position of its template. -/
theorem noted_builds {kind : TemplateKind} {body : Nat} (info : Nat → NodeInfo) (hframe : frame.seqElem = none ∧
    frame.isThisCall = false) (hinfo : ∀ (ts : List Template) (t : Template), t.kind = kind →
      (info ts.length).Refers (ts ++ [t]) node.id) :
    Keeps (Builds [.closure kind body])
      (do let position ← pushTemplate kind frame (some body)
          noteInfo node (info position)) := by
  intro s a s' h
  simp only [bind_eq_ok, pushTemplate_apply, noteInfo_apply, ok_inj] at h
  obtain ⟨_, _, ⟨rfl, rfl⟩, -, rfl⟩ := h
  refine ⟨List.prefix_refl _, fun _ => ?_, fun hs n new hnew => ?_⟩
  · rw [List.map_append]
    simp [Template.blueprint, Blueprint.closure, hframe]
  · rw [NodeMap.info?_setInfo] at hnew
    split at hnew
    · rename_i heq
      cases hnew
      exact heq ▸ hinfo _ _ rfl
    · exact (hs n new hnew).append _

/-- A body is analysed unless captures are missing, and that is reported. -/
theorem wireCaptures_builds {needs : List CaptureNeed} {f : Option (List PendingCapture) → Check α}
    (hnone : Keeps (Builds []) (f none)) (hsome : ∀ pending, Keeps (Builds bs) (f (some pending))) :
    Keeps (Builds bs) (wireCaptures ctx node needs >>= f) := by
  intro s b s' h
  obtain ⟨r, t, hwire, hrest⟩ := bind_eq_ok.1 h
  have hfirst : Builds [] s t := (wireCaptures_notes node needs).looks hwire
  cases r with
  | some pending => exact hfirst.seq (hsome pending hrest)
  | none =>
    have hboth := hfirst.seq (hnone hrest)
    refine ⟨hboth.diagnostics, fun hs => ?_, hboth.refers⟩
    have hquiet : t.diagnostics = [] := Adds.silent (hnone hrest).diagnostics hs
    obtain ⟨-, hr⟩ := Quiet.wireCaptures ⟨hwire, hquiet⟩
    cases hr

theorem lambda_builds {params : List LambdaParam} {ret : Option TypeExpr} {body : Body}
    {analyse : Option Ty → Check Unit} (expected : Option Ty)
    (heffect : ∀ declared, Keeps (BodyEffect ids) (analyse declared)) (ha : ∀ declared, Keeps (Builds bs) (analyse declared)) :
    Keeps (Builds (bs ++ [.closure (.lambda node.id) body.node.id]))
      (lambda ctx node params ret body expected analyse) := by
  refine (lambdaParams_gathers (R := Builds) _ _).last fun types => (declaredResult_gathers (R := Builds) _).last fun declared =>
    wireCaptures_builds (.pure _) fun pending => ?_
  have hparams : ∀ p ∈ params.map (fun p => (p.node, p.name)), p.1.id ∈ LambdaParam.idsOfList params ++ ids := by
    simp only [List.mem_map]
    rintro _ ⟨p, hp, rfl⟩
    exact List.mem_append_left _ (LambdaParam.node_mem_idsOfList hp)
  have hbody : Keeps (BodyEffect (LambdaParam.idsOfList params ++ ids)) (analyse declared) :=
    (heffect declared).weaken fun _ _ he => he.mono (List.subset_append_right _ _)
  intro s a s' h
  obtain ⟨⟨captures, frame⟩, t, hclosure, hrest⟩ := bind_eq_ok.1 h
  obtain ⟨hbuilt, hframe⟩ := closure_builds hparams hbody (ha declared) hclosure
  obtain ⟨position, u, hpush, hrest⟩ := bind_eq_ok.1 hrest
  obtain ⟨_, v, hnote, hdone⟩ := bind_eq_ok.1 hrest
  obtain ⟨-, rfl⟩ := pure_eq_ok.1 hdone
  exact hbuilt.seq (noted_builds (fun k => .lambda ⟨captures, k⟩) hframe (fun ts t ht => ⟨t, by simp, ht⟩)
    (bind_eq_ok.2 ⟨position, u, hpush, hnote⟩))

theorem task_builds {block : Block} {analyse : Check Unit} (heffect : Keeps (BodyEffect ids) analyse)
    (ha : Keeps (Builds bs) analyse) :
    Keeps (Builds (bs ++ [.closure (.task node.id) block.node.id])) (task ctx node block analyse) := by
  refine wireCaptures_builds (.pure _) fun pending => ?_
  intro s a s' h
  obtain ⟨⟨captures, frame⟩, t, hclosure, hrest⟩ := bind_eq_ok.1 h
  obtain ⟨hbuilt, hframe⟩ := closure_builds (by simp) heffect ha hclosure
  exact hbuilt.seq (noted_builds (fun k => .task ⟨captures, k⟩) hframe (fun ts t ht => ⟨t, by simp, ht⟩) hrest)

/-! ### The walk -/

/-- The lambdas and tasks of the parts, as what a walk gathers. -/
def buildsWalk : PartsWalk (fun _ : Unit => Builds) (fun _ => Builds) (fun _ => Builds) where
  expr _ := Expr.closures
  exprs _ := Expr.closuresOfList
  init _ := Expr.closuresOfOption
  body _ := Body.closures
  block _ := Block.closures
  stmt _ := Stmt.closures
  stmts _ := Stmt.closuresOfList
  other _ := Stmt.closuresOfOption
  expr_step _ e := .of_eq (by cases e <;> simp [Parts.exprStep, own, nameCost, Gathers.cost, Expr.closures])
  stmt_step _ s := .of_eq (by cases s <;> simp [Parts.stmtStep, Gathers.cost, Stmt.closures])
  toStmt := id
  toBody := id
  seq := Gathers.seq
  swap := Gathers.swap
  exprBody declared _ ha := exprBody_gathers declared ha
  declareVar _ := declareVar_gathers
  inBlock := inBlock_gathers
  ifThen _ _ _ := ifThen_gathers
  inLambda := id
  inTask := id
  inLoop := id
  lambda ctx node params ret b hint ha := by
    have hlambda : Keeps (Builds ([] ++ (b.closures ++ [.closure (.lambda node.id) b.node.id])))
      (Check.lambda ctx node params ret b hint (lambdaBody ctx b)) := lambda_builds hint (lambdaBody_effect ctx b) ha
    exact typed_gathers (R := Builds) hlambda
  task _ b := task_builds ((block_effect _ b).weaken fun _ _ h => h.toBodyEffect)
  whileDo _ _ _ _ _ := whileDo_gathers
  returns _ value hv := by
    cases value with
    | none => exact returnNothing_gathers _
    | some e => exact returnValue_gathers _ (hv e rfl)
  yields node _ _ := yields_gathers node _
  breaks _ node := inLoop_gathers _ node
  continues _ node := inLoop_gathers _ node

theorem block_builds (ctx : Context) (b : Block) : Keeps (Builds b.closures) (block ctx b) := buildsWalk.block_keeps ctx () b

theorem stmts_builds (ctx : Context) (ss : List Stmt) : Keeps (Builds (Stmt.closuresOfList ss)) (stmts ctx ss) :=
  buildsWalk.stmts_keeps ctx () ss

/-! ### The bodies of a script -/

/-- A finished body that is no lambda's and no task's. -/
theorem pushed_builds {s : State} {kind : TemplateKind} {body : Option Nat} {b : Blueprint}
    (hb : b = ⟨kind, frame.seqElem, frame.isThisCall, body⟩) : Builds [b] s (s.push kind frame body) where
  diagnostics := List.prefix_refl _
  templates := fun _ => by
    subst hb
    exact List.map_append
  refers := fun hs n info hinfo => (hs n info hinfo).append _

theorem funcBody_builds (ctx : Context) (outer : ItemId) (decl : FuncDecl) :
    Keeps (Builds (decl.blueprints ctx.registry outer)) (funcBody ctx outer decl) := by
  intro s a s' h
  obtain ⟨record, u, w, hrecord, hparams, hbody, rfl⟩ := funcBody_run h
  have hinside : Builds decl.body.closures (s.enter record.frame) w :=
    Builds.seq (declareParams_gathers (R := Builds) _ _ hparams) (block_builds _ decl.body hbody)
  have hresumed : Builds decl.body.closures s (s.resume w) := hinside.congr ⟨rfl, rfl, rfl⟩ ⟨rfl, rfl, rfl⟩
  -- The frame at the end yields what the record says, for no statement changes that.
  have hkept : w.frame.seqElem = record.frame.seqElem ∧ w.frame.isThisCall = record.frame.isThisCall := by
    have hstart : StmtEffect ((decl.params.map fun p => (p.node, p.name)).map (·.1.id)) (s.enter record.frame) u :=
      declareParams_effect _ _ (fun p hp => List.mem_map.2 ⟨p, hp, rfl⟩) hparams
    have hblock := block_effect _ decl.body hbody
    exact ⟨hblock.seqElem.trans hstart.seqElem, hblock.isThisCall.trans hstart.isThisCall⟩
  have hframe : record.frame.seqElem = (if record.isSequence then some record.ret else none) ∧
      record.frame.isThisCall = !record.isStatic := by
    unfold FuncRecord.frame
    split <;> exact ⟨rfl, rfl⟩
  rw [FuncDecl.blueprints, FuncDecl.blueprint?, hrecord]
  refine hresumed.seq (pushed_builds ?_)
  simp [Blueprint.func, hkept, hframe]

theorem scriptBodies_builds (ctx : Context) (script : Script) :
    Keeps (Builds (funcBlueprints ctx.registry (script.funcs ctx.root))) (scriptBodies ctx script) := by
  intro s a s' h
  exact (scriptBodies_runs script h).gathers fun d _ _ => funcBody_builds _ d.1 d.2

theorem scriptStmts_builds (ctx : Context) (script : Script) : Keeps (Builds script.closures) (scriptStmts ctx script) := by
  rw [scriptStmts_eq, script.closures_eq]
  exact stmts_builds ctx script.stmts

end Check

end ScriptCheck

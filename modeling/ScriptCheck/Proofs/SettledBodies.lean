import ScriptCheck.Proofs.Settled

/-!
# Bodies and statements whose notes are final

The settled runs of lambdas, tasks and statements. A lambda's or a task's body starts in a frame that has the parameters first
and the captures after them (`Frame.closure`), and the finished notes have the slots of both.
-/

namespace ScriptCheck

namespace Frame

/-- The frame in which the body of a lambda or a task starts. -/
def closure (mode : ReturnMode) (params : List (String × Ty)) (pending : List PendingCapture) : Frame :=
  ((enter mode none false).declareAll params).declareAll (pending.map fun c => (c.name, c.ty))

/-- Slots were made, and what is visible is the same. -/
structure Grows (f g : Frame) : Prop where
  locals : f.locals <+: g.locals
  names : g.names = f.names
  seqElem : g.seqElem = f.seqElem

theorem Grows.refl (f : Frame) : f.Grows f := ⟨List.prefix_refl _, rfl, rfl⟩

theorem Grows.trans {f g h : Frame} (a : f.Grows g) (b : g.Grows h) : f.Grows h :=
  ⟨a.locals.trans b.locals, b.names.trans a.names, b.seqElem.trans a.seqElem⟩

theorem Widens.grows {f g : Frame} (h : f.Widens g) : f.Grows g :=
  ⟨by simp [h.locals], h.names, h.seqElem⟩

end Frame

namespace ReturnMode

variable {ty : Ty} {mode : ReturnMode}

/-- What a body gives, where this is what its `return`s were checked against in the end. -/
def result : ReturnMode → Ty
  | .fixed ty => ty
  | .inferred (some ty) => ty
  | .inferred none => .void

theorem Leads.eq_fixed (h : Leads (.fixed ty) mode) : mode = .fixed ty := by
  cases h
  rfl

theorem Leads.eq_inferred {known : Option Ty} (h : Leads (.inferred known) mode) : ∃ found, mode = .inferred found := by
  cases h with
  | refl => exact ⟨known, rfl⟩
  | settle ty => exact ⟨some ty, rfl⟩

theorem Leads.result_fixed (h : Leads (.fixed ty) mode) : mode.result = ty := by
  rw [h.eq_fixed, result]

theorem Leads.result_settled (h : Leads (.inferred (some ty)) mode) : mode.result = ty := by
  cases h
  rfl

end ReturnMode

/-- The finished notes have the first slots of a frame for these declarations. -/
def NotedSlots (fin : NodeMap) (nodes : List Nat) (count : Nat) : Prop :=
  ∀ i n, i < count → nodes[i]? = some n → fin.info? n = some (.varDecl (.localSlot i))

namespace Check

variable {α β : Type} {fin : NodeMap} {ctx : Context} {ids : List Nat} {s s' : State} {node : Node} {t : Ty}
variable {ret : Option TypeExpr} {cond : Expr}

/-! ### Parameters -/

/-- Parameters get their slots one after the other, as far as there are types for them. -/
theorem declareParams_frame : ∀ {params : List (Node × String)} {types : List Ty} {s u : State} {a : Unit},
    declareParams params types s = .ok (a, u) → u.frame = s.frame.declareAll ((params.map (·.2)).zip types)
  | [], types, s, u, a, h => by
    rw [declareParams.eq_def] at h
    rw [(pure_eq_ok.1 h).2]
    rfl
  | p :: ps, [], s, u, a, h => by
    rw [declareParams.eq_def] at h
    rw [(pure_eq_ok.1 h).2]
    rfl
  | (n, name) :: ps, ty :: tys, s, u, a, h => by
    simp only [declareParams, declareParam, bind_eq_ok, declareLocal_apply, noteInfo_apply, ok_inj] at h
    obtain ⟨_, _, ⟨_, _, ⟨rfl, rfl⟩, -, rfl⟩, h⟩ := h
    have ih := declareParams_frame h
    exact ih

/-- The slots of parameters are noted at their nodes. -/
theorem declareParams_notes : ∀ {params : List (Node × String)} {types : List Ty} {s u : State} {a : Unit},
    declareParams params types s = .ok (a, u) → (params.map (·.1.id)).Nodup → ∀ i n, i < types.length →
      (params.map (·.1.id))[i]? = some n → u.nodes.info? n = some (.varDecl (.localSlot (s.frame.size + i)))
  | [], types, s, u, a, h, hn, i, n, hi, hp => by simp at hp
  | p :: ps, [], s, u, a, h, hn, i, n, hi, hp => by simp at hi
  | (m, name) :: ps, ty :: tys, s, u, a, h, hn, i, n, hi, hp => by
    simp only [declareParams, declareParam, bind_eq_ok, declareLocal_apply, noteInfo_apply, ok_inj] at h
    obtain ⟨_, _, ⟨_, _, ⟨rfl, rfl⟩, -, rfl⟩, h⟩ := h
    rw [List.map_cons, List.nodup_cons] at hn
    cases i with
    | zero =>
      simp only [List.map_cons, List.getElem?_cons_zero, Option.some.injEq] at hp
      subst hp
      have hsub : ∀ p ∈ ps, p.1.id ∈ ps.map (·.1.id) := fun p hp => List.mem_map.2 ⟨p, hp, rfl⟩
      have hkept := (declareParams_effect ps tys hsub h).nodes m.id hn.1
      rw [NodeMap.info?, NodeMap.dataOf, hkept, ← NodeMap.dataOf, ← NodeMap.info?]
      simp
    | succ i =>
      have ih := declareParams_notes h hn.2 i n (by simpa using hi) (by simpa using hp)
      rw [ih]
      simp [Nat.add_assoc, Nat.add_comm]

theorem lambdaParams_length : ∀ {params : List LambdaParam} {hints : Option (List Ty)} {types : List Ty} {s u : State},
    lambdaParams ctx hints params s = .ok (types, u) → types.length = params.length
  | [], hints, types, s, u, h => by
    rw [lambdaParams] at h
    rw [← (pure_eq_ok.1 h).1]
    rfl
  | p :: ps, hints, types, s, u, h => by
    simp only [lambdaParams, bind_eq_ok, pure_eq_ok] at h
    obtain ⟨ty, v, -, tys, w, h₂, rfl, rfl⟩ := h
    simp [lambdaParams_length h₂]

/-- What a written type is found to mean is noted at its node. -/
theorem typeExpr_noted {written : TypeExpr} (h : typeExpr ctx written s = .ok (t, s')) :
    s'.nodes.info? written.node.id = some (.type t) := by
  have hresolved : ∀ {node : Node} {x : Check Ty}, resolved node x s = .ok (t, s') →
      s'.nodes.info? node.id = some (.type t) := by
    intro node x h
    simp only [resolved, bind_eq_ok, noteInfo_apply, pure_eq_ok, ok_inj] at h
    obtain ⟨_, u, -, _, _, ⟨-, rfl⟩, rfl, rfl⟩ := h
    simp
  cases written <;> exact hresolved (by rwa [typeExpr] at h)

/-- What a lambda says it returns is noted where it is written. -/
theorem Quiet.declaredResult {declared : Option Ty}
    (h : Quiet (ret.mapM (typeExpr ctx)) s declared s') :
    (ret = none ∧ declared = none) ∨
      ∃ written ty, ret = some written ∧ declared = some ty ∧ s'.nodes.info? written.node.id = some (.type ty) := by
  cases ret with
  | none => exact .inl ⟨rfl, (quiet_pure.1 h).1.symm⟩
  | some written =>
    rw [Option.mapM_some, map_eq_pure_bind] at h
    obtain ⟨hr, hs⟩ := h
    obtain ⟨ty, u, h₁, h₂⟩ := bind_eq_ok.1 hr
    obtain ⟨rfl, rfl⟩ := pure_eq_ok.1 h₂
    exact .inr ⟨written, ty, rfl, rfl, typeExpr_noted h₁⟩

/-! ### Lambdas and tasks -/

/-- A part of a settled run that is a body with a frame of its own. -/
theorem Settled.closure {x : Check β} {b : β} {params : List (Node × String)} {types : List Ty}
    {pending : List PendingCapture} {mode : ReturnMode} {body : Check Unit} {captures : List CaptureInfo} {frame : Frame}
    {v w : State} {bodyIds earlier other : List Nat} (h : Settled fin ids x s b s') (hb : Keeps (BodyEffect bodyIds) body)
    (hq : Quiet (Check.closure params types pending mode body) v (captures, frame) w) (hl : params.length = types.length)
    (hbefore : Touches earlier s v) (ht : Touches other w s') (hsub : (params.map (·.1.id) ++ bodyIds).Sublist ids)
    (he : ∀ n ∈ bodyIds, n ∉ earlier) (hd : ∀ n ∈ params.map (·.1.id) ++ bodyIds, n ∉ other) :
    ∃ entry last, entry.frame = Frame.closure mode ((params.map (·.2)).zip types) pending ∧ entry.globalScope = false ∧
      Settled fin bodyIds body entry () last ∧ frame = last.frame ∧
      captures = PendingCapture.numbered params.length pending ∧
      NotedSlots fin (params.map (·.1.id)) params.length := by
  obtain ⟨u, last, hu, hbody, hr, rfl⟩ := hq.closure
  obtain ⟨rfl, rfl⟩ := Prod.mk.inj hr
  have hn : (params.map (·.1.id) ++ bodyIds).Nodup := h.nodup.sublist hsub
  have hlast : Agrees fin (params.map (·.1.id) ++ bodyIds) last :=
    h.agrees.back (u := v.resume last) ht hsub.subset hd
  have hslots : Agrees fin (params.map (·.1.id)) u := by
    have hstart := hlast.back (hb hbody.run).toTouches (List.subset_append_left (params.map (·.1.id)) bodyIds) fun n hp hb =>
      (List.nodup_append.1 hn).2.2 n hp n hb rfl
    exact hstart
  have hframe : u.frame = (Frame.enter mode none false).declareAll ((params.map (·.2)).zip types) := declareParams_frame hu
  have hparams := declareParams_effect params types (fun p hp => List.mem_map.2 ⟨p, hp, rfl⟩) hu
  have hblank : Blank bodyIds u := by
    have hstart : Blank bodyIds v :=
      h.blank.later hbefore.nodes (List.Subset.trans (List.subset_append_right _ _) hsub.subset) he
    exact hstart.later hparams.nodes (List.Subset.refl _) fun n hb hp => (List.nodup_append.1 hn).2.2 n hp n hb rfl
  refine ⟨_, last, by rw [hframe]; rfl, ?_,
    ⟨hbody, (List.nodup_append.1 hn).2.1, hblank, hlast.subset (List.subset_append_right _ _)⟩, rfl, ?_, ?_⟩
  · exact hparams.globalScope
  · have hsize : u.frame.size = params.length := by
      rw [hframe, Frame.size_declareAll]
      simp [Frame.enter, Frame.size, hl]
    rw [hsize]
  · intro i n hi hp
    have hnote := declareParams_notes hu (List.nodup_append.1 hn).1 i n (hl ▸ hi) hp
    rw [hslots.info? (List.mem_of_getElem? hp), hnote]
    simp [State.enter, Frame.enter, Frame.size]

/-- A lambda's types come first, then its body; what is noted for its own node is noted last. -/
theorem Settled.lambda_run {params : List LambdaParam} {body : Body} {hint : Option Ty}
    (h : Settled fin (Expr.lambda node params ret body).ids (expr ctx (.lambda node params ret body) hint) s t s') :
    ∃ types u declared v captures frame w,
      Quiet (lambdaParams ctx (paramHints hint params.length) params) s types u ∧
      Quiet (ret.mapM (typeExpr ctx)) u declared v ∧
      Quiet (Check.closure (params.map fun p => (p.node, p.name)) types
        (v.frame.carried (ctx.capturer (params.map (·.name)) body)) (.ofDeclared declared) (lambdaBody ctx body declared))
        v (captures, frame) w ∧
      t = .func (lambdaResult declared frame.ret) types ∧
      s' = ((w.push (.lambda node.id) frame (some body.node.id)).setInfo node
        (.lambda ⟨captures, w.templates.length⟩)).setType node t ∧
      Touches (params.map (·.node.id) ++ body.ids) v w ∧ Touches [node.id] w s' := by
  have hrun := h.toQuiet
  rw [expr] at hrun
  obtain ⟨x, hx, rfl⟩ := quiet_typed.1 hrun
  obtain ⟨types, u, declared, v, captures, frame, w, htypes, hdecl, hbody, rfl, rfl⟩ :=
    hx.lambda (lambdaBody_effect ctx body)
  refine ⟨types, u, declared, v, captures, frame, w, htypes, hdecl, hbody, rfl, rfl, ?_, ?_⟩
  · refine (closure_effect ?_ ((lambdaBody_effect ctx body declared).weaken fun _ _ he =>
      he.mono (List.subset_append_right _ _)) hbody.run).toTouches
    simp only [List.mem_map]
    rintro _ ⟨p, hp, rfl⟩
    exact List.mem_append_left _ (List.mem_map.2 ⟨p, hp, rfl⟩)
  · exact ((pushTemplate_effect _ _ _ (pushTemplate_apply _ _ _ w)).toTouches.trans (Touches.setInfo _ node _)).trans
      (Touches.setType _ node _)

/-- A lambda's body is settled, and the finished notes have the slots of its parameters, its captures and its type. -/
theorem Settled.lambda {params : List LambdaParam} {body : Body} {hint : Option Ty}
    (h : Settled fin (Expr.lambda node params ret body).ids (expr ctx (.lambda node params ret body) hint) s t s') :
    ∃ types declared v entry last k,
      ExprEffect (Expr.lambda node params ret body).ids s v ∧ types.length = params.length ∧
      ((ret = none ∧ declared = none) ∨
        ∃ written ty, ret = some written ∧ declared = some ty ∧ fin.info? written.node.id = some (.type ty)) ∧
      NotedSlots fin (params.map (·.node.id)) params.length ∧
      fin.info? node.id = some (.lambda ⟨PendingCapture.numbered params.length
        (v.frame.carried (ctx.capturer (params.map (·.name)) body)), k⟩) ∧
      fin.ty? node.id = some (.func (lambdaResult declared last.frame.ret) types) ∧
      entry.frame = Frame.closure (.ofDeclared declared) ((params.map (·.name)).zip types)
        (v.frame.carried (ctx.capturer (params.map (·.name)) body)) ∧
      entry.globalScope = false ∧ Settled fin body.ids (lambdaBody ctx body declared) entry () last := by
  have hn := h.nodup
  rw [Expr.ids] at hn
  obtain ⟨types, u, declared, v, captures, frame, w, htypes, hdecl, hbody, rfl, rfl, hclosure, hlast⟩ := h.lambda_run
  have hlen := lambdaParams_length htypes.run
  have hmaps : (params.map fun p => (p.node, p.name)).map (·.1.id) = params.map (·.node.id) := by simp
  have hps := LambdaParam.nodes_sublist params
  have hsub : (params.map (·.node.id) ++ body.ids).Sublist (Expr.lambda node params ret body).ids := by
    rw [Expr.ids]
    exact (hps.append (List.sublist_append_right _ _)).cons _
  have hout : ∀ n ∈ params.map (·.node.id) ++ body.ids, n ∉ [node.id] := by
    have := hps.subset
    grind
  have hbefore : ExprEffect (LambdaParam.idsOfList params ++ TypeExpr.idsOfOption ret) s v :=
    ((lambdaParams_effect _ params htypes.run).mono (List.subset_append_left _ _)).trans
      ((declaredResult_effect ret hdecl.run).mono (List.subset_append_right _ _))
  obtain ⟨entry, last, hentry, hglobal, hsettled, rfl, rfl, hslots⟩ :=
    h.closure (lambdaBody_effect ctx body declared) hbody (by simp [hlen]) hbefore.toTouches hlast (by rwa [hmaps])
      (by grind) (by rwa [hmaps])
  refine ⟨types, declared, v, entry, last, w.templates.length, ?_, hlen, ?_, ?_, ?_, ?_, ?_, hglobal, hsettled⟩
  · rw [Expr.ids]
    exact hbefore.mono (by grind)
  · rcases hdecl.declaredResult with hnone | ⟨written, ty, rfl, hty, hinfo⟩
    · exact .inl hnone
    · have hret : Agrees fin written.ids v := by
        have hps := hps.subset
        refine h.agrees.back (hclosure.append hlast) (by grind [Expr.ids, TypeExpr.idsOfOption]) ?_
        grind [TypeExpr.idsOfOption]
      exact .inr ⟨written, ty, rfl, hty, (hret.info? written.node_mem_ids).trans hinfo⟩
  · rwa [hmaps, List.length_map] at hslots
  · rw [h.agrees.info? (by simp [Expr.ids])]
    simp [State.setType, State.setInfo]
  · exact h.noted
  · rwa [List.map_map] at hentry

/-- A task's block is settled, and the finished notes have its captures. -/
theorem Settled.task {block : Block} {a : Unit}
    (h : Settled fin (Stmt.task node block).ids (stmt ctx (.task node block)) s a s') :
    ∃ entry last k,
      fin.info? node.id = some (.task ⟨PendingCapture.numbered 0
        (s.frame.carried (ctx.capturer [] (.block block))), k⟩) ∧
      entry.frame = Frame.closure (.fixed .void) [] (s.frame.carried (ctx.capturer [] (.block block))) ∧
      entry.globalScope = false ∧ Settled fin block.ids (Check.block ctx block) entry () last := by
  have hrun := h.toQuiet
  have hn := h.nodup
  rw [stmt] at hrun
  rw [Stmt.ids] at hn
  have hb : Keeps (BodyEffect block.ids) (Check.block ctx block) := (block_effect ctx block).weaken fun _ _ he => he.toBodyEffect
  obtain ⟨captures, frame, w, hbody, rfl⟩ := hrun.task hb
  have hlast : Touches [node.id] w ((w.push (.task node.id) frame (some block.node.id)).setInfo node
      (.task ⟨captures, w.templates.length⟩)) :=
    (pushTemplate_effect _ _ _ (pushTemplate_apply _ _ _ w)).toTouches.trans (Touches.setInfo _ node _)
  obtain ⟨entry, last, hentry, hglobal, hsettled, rfl, rfl, -⟩ :=
    h.closure hb hbody rfl (Touches.refl [] s) hlast (by grind [Stmt.ids]) (by grind) (by grind)
  refine ⟨entry, last, w.templates.length, ?_, hentry, hglobal, hsettled⟩
  rw [h.agrees.info? (by simp [Stmt.ids])]
  simp [State.setInfo]

/-! ### Statements -/

namespace Settled

variable {a : Unit}

theorem block {n : Node} {ss : List Stmt} (h : Settled fin (Block.mk n ss).ids (Check.block ctx (.mk n ss)) s a s') :
    ∃ u, Settled fin (Stmt.idsOfList ss) (stmts ctx ss) { s with globalScope := false } () u ∧ s' = s.leave u := by
  have hrun := h.toQuiet
  have hn := h.nodup
  rw [Check.block] at hrun
  rw [Block.ids] at hn
  obtain ⟨u, hu, rfl⟩ := quiet_inBlock.1 hrun
  have hsub : Stmt.idsOfList ss ⊆ (Block.mk n ss).ids := by grind [Block.ids]
  exact ⟨u, ⟨hu, by grind, h.blank.subset hsub, h.agrees.subset hsub⟩, rfl⟩

theorem stmts_cons {st : Stmt} {ss : List Stmt} (h : Settled fin (Stmt.idsOfList (st :: ss)) (stmts ctx (st :: ss)) s a s') :
    ∃ u, Settled fin st.ids (stmt ctx st) s () u ∧ Settled fin (Stmt.idsOfList ss) (stmts ctx ss) u () s' := by
  have hn := h.nodup
  rw [Stmt.idsOfList] at hn
  obtain ⟨u, hu, hss⟩ := h.toQuiet.stmts_cons
  refine ⟨u, h.first hu (stmts_effect ctx ss hss.run).toTouches (by grind [Stmt.idsOfList]) (by grind), ?_⟩
  exact h.part hss (stmt_effect ctx st hu.run).toTouches (Touches.refl [] s') (by grind [Stmt.idsOfList]) (by grind) (by grind)

theorem expr_stmt {e : Expr} (h : Settled fin (Stmt.expr node e).ids (stmt ctx (.expr node e)) s a s') :
    ∃ t, Settled fin e.ids (expr ctx e none) s t s' := by
  obtain ⟨hr, hs⟩ := h.toQuiet
  have hn := h.nodup
  rw [Stmt.ids] at hn
  simp only [stmt, bind_eq_ok, pure_eq_ok] at hr
  obtain ⟨t, u, h₁, -, rfl⟩ := hr
  have hsub : e.ids ⊆ (Stmt.expr node e).ids := by grind [Stmt.ids]
  exact ⟨t, ⟨h₁, hs⟩, by grind, h.blank.subset hsub, h.agrees.subset hsub⟩

theorem block_stmt {b : Block} (h : Settled fin (Stmt.block node b).ids (stmt ctx (.block node b)) s a s') :
    Settled fin b.ids (Check.block ctx b) s a s' := by
  have hrun := h.toQuiet
  have hn := h.nodup
  rw [stmt] at hrun
  rw [Stmt.ids] at hn
  have hsub : b.ids ⊆ (Stmt.block node b).ids := by grind [Stmt.ids]
  exact ⟨hrun, (List.nodup_cons.1 hn).2, h.blank.subset hsub, h.agrees.subset hsub⟩

theorem awaits {b : Block} (h : Settled fin (Stmt.awaits node b).ids (stmt ctx (.awaits node b)) s a s') :
    Settled fin b.ids (Check.block ctx b) s a s' := by
  have hrun := h.toQuiet
  have hn := h.nodup
  rw [stmt] at hrun
  rw [Stmt.ids] at hn
  have hsub : b.ids ⊆ (Stmt.awaits node b).ids := by grind [Stmt.ids]
  exact ⟨hrun, (List.nodup_cons.1 hn).2, h.blank.subset hsub, h.agrees.subset hsub⟩

theorem condition {x : Check α} {b : α} {u : State} {other : List Nat} (hk : Known fin)
    (h : Settled fin ids x s b s') (hq : Quiet (Check.condition cond.node (valued cond.node (expr ctx cond none))) s () u)
    (ht : Touches other u s') (hsub : cond.ids.Sublist ids) (hd : ∀ n ∈ cond.ids, n ∉ other) :
    Settled fin cond.ids (expr ctx cond none) s Builtin.bool u := by
  obtain ⟨ty, hv, hty⟩ := hq.condition
  have hcond := h.first (quiet_valued.1 hv).1 ht hsub hd
  rcases hty with rfl | rfl
  · exact absurd rfl (hcond.known hk)
  · exact hcond

end Settled

/-- A statement is settled in a scope somewhere in a run from `s` to `s'`. -/
def Branch (fin : NodeMap) (ctx : Context) (st : Stmt) (s s' : State) : Prop :=
  ∃ b v, s.frame.Grows b.frame ∧ b.globalScope = false ∧ Settled fin st.ids (stmt ctx st) b () v ∧
    v.frame.ret.Leads s'.frame.ret

namespace Settled

variable {a : Unit} {e : Expr}

theorem whileDo {body : Stmt} (hk : Known fin)
    (h : Settled fin (Stmt.whileDo node cond body).ids (stmt ctx (.whileDo node cond body)) s a s') :
    ∃ u, Settled fin cond.ids (expr ctx cond none) s Builtin.bool u ∧ Branch fin ctx body s s' ∧
      s.frame.Grows s'.frame := by
  have hrun := h.toQuiet
  have hn := h.nodup
  rw [stmt] at hrun
  rw [Stmt.ids] at hn
  have hd : ∀ n ∈ cond.ids, n ∉ body.ids := by grind
  have hsub : cond.ids.Sublist (Stmt.whileDo node cond body).ids ∧ body.ids.Sublist (Stmt.whileDo node cond body).ids := by
    grind [Stmt.ids]
  obtain ⟨u, v, hcond, hbody, rfl⟩ := hrun.whileDo (stmt_effect ctx body)
  have heff := inBlock_effect (stmt_effect ctx body) hbody.run
  have hcond := h.condition hk hcond ⟨heff.diagnostics, heff.templates, heff.nodes, heff.globalScope⟩ hsub.1 hd
  have hgrows := (expr_effect ctx cond none hcond.run).frame.grows
  obtain ⟨w, hw, rfl⟩ := quiet_inBlock.1 hbody
  refine ⟨u, hcond, ⟨{ u with frame := { u.frame with loopDepth := u.frame.loopDepth + 1 }, globalScope := false }, w,
    hgrows.trans ⟨List.prefix_refl _, rfl, rfl⟩, rfl, ?_, .refl _⟩, hgrows.trans ?_⟩
  · have hblank := h.blank.later (expr_effect ctx cond none hcond.run).nodes hsub.2.subset fun n hb hc => hd n hc hb
    exact ⟨hw, h.nodup.sublist hsub.2, hblank, h.agrees.subset hsub.2.subset⟩
  · exact ⟨heff.locals, rfl, heff.seqElem⟩

/-- What comes after `else` is settled in a scope of its own. -/
theorem otherwise {st : Option Stmt} {u : State} (hn : (Stmt.idsOfOption st).Nodup) (hf : Blank (Stmt.idsOfOption st) s)
    (ha : Agrees fin (Stmt.idsOfOption st) u) (hq : Quiet (Check.otherwise ctx st) s () u) :
    (∀ other ∈ st, Branch fin ctx other s u) ∧ s.frame.Grows u.frame := by
  cases st with
  | none =>
    rw [Check.otherwise] at hq
    obtain ⟨-, rfl, -⟩ := quiet_pure.1 hq
    exact ⟨by simp, .refl _⟩
  | some other =>
    rw [Check.otherwise] at hq
    rw [Stmt.idsOfOption] at hn hf ha
    have heff := inBlock_effect (stmt_effect ctx other) hq.run
    obtain ⟨w, hw, rfl⟩ := quiet_inBlock.1 hq
    refine ⟨?_, heff.locals, rfl, heff.seqElem⟩
    rintro _ ⟨⟩
    exact ⟨{ s with globalScope := false }, w, .refl _, rfl, ⟨hw, hn, hf, ha⟩, .refl _⟩

theorem ifThen {thenBody : Stmt} {elseBody : Option Stmt} (hk : Known fin)
    (h : Settled fin (Stmt.ifThen node cond thenBody elseBody).ids (stmt ctx (.ifThen node cond thenBody elseBody)) s a s') :
    ∃ u, Settled fin cond.ids (expr ctx cond none) s Builtin.bool u ∧ Branch fin ctx thenBody s s' ∧
      (∀ other ∈ elseBody, Branch fin ctx other s s') ∧ s.frame.Grows s'.frame := by
  have hrun := h.toQuiet
  have hn := h.nodup
  rw [stmt] at hrun
  rw [Stmt.ids] at hn
  have hd : ∀ n ∈ cond.ids, n ∉ thenBody.ids ++ Stmt.idsOfOption elseBody := by grind
  have hthen : ∀ n ∈ thenBody.ids, n ∉ Stmt.idsOfOption elseBody := by grind
  have hsub : cond.ids.Sublist (Stmt.ifThen node cond thenBody elseBody).ids ∧
      thenBody.ids.Sublist (Stmt.ifThen node cond thenBody elseBody).ids ∧
      (Stmt.idsOfOption elseBody).Sublist (Stmt.ifThen node cond thenBody elseBody).ids := by
    grind [Stmt.ids]
  have hbranches : Keeps (StmtEffect (thenBody.ids ++ Stmt.idsOfOption elseBody))
      (do inBlock (stmt ctx thenBody); Check.otherwise ctx elseBody) :=
    ((inBlock_effect (stmt_effect ctx thenBody)).weaken fun _ _ h => h.mono (List.subset_append_left _ _)).bind fun _ =>
      (otherwise_effect ctx elseBody).weaken fun _ _ h => h.mono (List.subset_append_right _ _)
  obtain ⟨u, v, hcond, hbody, rfl⟩ := hrun.ifThen hbranches
  have heff := hbranches hbody.run
  have hcond := h.condition hk hcond ⟨heff.diagnostics, heff.templates, heff.nodes, rfl⟩ hsub.1 hd
  have hgrows := (expr_effect ctx cond none hcond.run).frame.grows
  have hnarrow : s.frame.Grows (narrowedBy u.nodes cond u.frame) := by
    refine hgrows.trans ?_
    unfold narrowedBy
    split
    · exact ⟨List.prefix_refl _, rfl, rfl⟩
    · exact .refl _
  obtain ⟨_, w, hw, hx⟩ := bind_eq_ok.1 hbody.run
  have hsilent := (otherwise_effect ctx elseBody hx).silent hbody.silent
  have hret := (otherwise_effect ctx elseBody hx).ret
  have hkept := (otherwise_effect ctx elseBody hx).toTouches
  have hblank := h.blank.later (expr_effect ctx cond none hcond.run).nodes
    (List.append_subset.2 ⟨hsub.2.1.subset, hsub.2.2.subset⟩) fun n hb hc => hd n hc hb
  have hblankElse : Blank (Stmt.idsOfOption elseBody) w :=
    hblank.later (inBlock_effect (stmt_effect ctx thenBody) hw).nodes (List.subset_append_right _ _)
      fun n he ht => hthen n ht he
  have hother : (∀ other ∈ elseBody, Branch fin ctx other w v) ∧ w.frame.Grows v.frame :=
    otherwise (h.nodup.sublist hsub.2.2) hblankElse (h.agrees.subset hsub.2.2.subset) ⟨hx, hbody.silent⟩
  have hthenGrows : s.frame.Grows w.frame := by
    have heff := inBlock_effect (stmt_effect ctx thenBody) hw
    obtain ⟨_, -, rfl⟩ := inBlock_eq_ok.1 hw
    exact hnarrow.trans ⟨heff.locals, rfl, heff.seqElem⟩
  refine ⟨u, hcond, ?_, ?_, ?_⟩
  · obtain ⟨y, hy, rfl⟩ := quiet_inBlock.1 ⟨hw, hsilent⟩
    have hagrees : Agrees fin thenBody.ids v := h.agrees.subset hsub.2.1.subset
    have hback : Agrees fin thenBody.ids _ := hagrees.back hkept (List.Subset.refl _) hthen
    exact ⟨{ u with frame := narrowedBy u.nodes cond u.frame, globalScope := false }, y, hnarrow, rfl,
      ⟨hy, h.nodup.sublist hsub.2.1, hblank.subset (List.subset_append_left _ _), hback⟩, hret⟩
  · intro other ho
    obtain ⟨b, y, hb, hglobal, hy, hlead⟩ := hother.1 other ho
    exact ⟨b, y, hthenGrows.trans hb, hglobal, hy, hlead⟩
  · exact ⟨(hthenGrows.trans hother.2).locals, hgrows.names, (hthenGrows.trans hother.2).seqElem⟩

/-- A declaration notes what is found for its type and its initial value before it notes anything for itself. -/
theorem varDecl_run {ty : TypeExpr} {name : String} {init : Option Expr}
    (h : Settled fin (Stmt.varDecl node ty name init).ids (stmt ctx (.varDecl node ty name init)) s a s') :
    ∃ t u, Quiet (declaredType ctx node ty name (initial ctx init)) s t u ∧
      s' = (u.declareVar name t).setInfo node (.varDecl u.nextPlace) ∧ Agrees fin (ty.ids ++ Expr.idsOfOption init) u := by
  have hrun := h.toQuiet
  have hn := h.nodup
  rw [stmt] at hrun
  rw [Stmt.ids] at hn
  obtain ⟨t, u, hu, rfl⟩ := hrun.varDecl
  refine ⟨t, u, hu, rfl, ?_⟩
  have hd : ∀ n ∈ ty.ids ++ Expr.idsOfOption init, n ∉ [node.id] := by grind
  have hdeclare : Touches [node.id] u (u.declareVar name t) :=
    (declareVar_effect name t (declareVar_apply name t u)).toTouches
  exact h.agrees.back (hdeclare.trans (Touches.setInfo _ node _)) (by grind [Stmt.ids]) hd

/-- A variable gets the next place after its initial value was analysed, and that place is noted. Against a written type the
initial value is checked. -/
theorem varDecl {ty : TypeExpr} {name : String} {init : Option Expr}
    (h : Settled fin (Stmt.varDecl node ty name init).ids (stmt ctx (.varDecl node ty name init)) s a s') :
    ∃ t u, ExprEffect (Stmt.varDecl node ty name init).ids s u ∧
      s' = (u.declareVar name t).setInfo node (.varDecl u.nextPlace) ∧
      fin.info? node.id = some (.varDecl u.nextPlace) ∧
      ∀ e ∈ init, ∃ hint found v w, ExprEffect (Stmt.varDecl node ty name init).ids s v ∧
        Settled fin e.ids (expr ctx e hint) v found w ∧
        ((∀ n, ty ≠ .var n) → fin.info? ty.node.id = some (.type t) ∧ found ≠ .void ∧ ctx.Admits t found) := by
  have hn := h.nodup
  rw [Stmt.ids] at hn
  obtain ⟨t, u, hu, rfl, hafter⟩ := h.varDecl_run
  have hinit := initial_effect ctx init
  have hinfo : fin.info? node.id = some (.varDecl u.nextPlace) := by
    rw [h.agrees.info? (by simp [Stmt.ids])]
    simp [State.setInfo]
  have heff : ExprEffect (Stmt.varDecl node ty name init).ids s u :=
    (declaredType_effect ctx node ty name init hu.run).mono (List.subset_cons_self _ _)
  refine ⟨t, u, heff, rfl, hinfo, ?_⟩
  rintro e ⟨⟩
  rw [Expr.idsOfOption] at hafter hn
  rw [initial] at hu
  have hadds : ∀ i ∈ initial ctx (some e), ∀ hint, Keeps Adds (i.analyse hint) := fun i hi hint => (hinit i hi hint).adds
  rw [initial] at hadds
  rcases hu.declaredType hadds with ⟨n, i, v, rfl, hi, hv, rfl⟩ | ⟨hvar, v, hv, found, hfound, hadm⟩
  · cases hi
    have hd : ∀ m ∈ e.ids, m ∉ [n.id] := by grind [TypeExpr.ids]
    refine ⟨none, t, s, v, Std.Refl.refl s,
      ⟨(quiet_valued.1 hv).1, by grind, h.blank.subset (by grind [Stmt.ids, Expr.idsOfOption]), ?_⟩,
      fun hne => absurd rfl (hne n)⟩
    exact hafter.back (Touches.setInfo v n _) (by grind) hd
  · have hvalue := (quiet_valued.1 hfound).1
    have htype : Agrees fin ty.ids v := by
      have hd : ∀ m ∈ ty.ids, m ∉ e.ids := by grind
      exact hafter.back (expr_effect ctx e _ hvalue.run).toTouches (by grind) hd
    refine ⟨some t, found, v, u, (typeExpr_effect ctx ty hv.run).mono (by grind [Stmt.ids]),
      ⟨hvalue, by grind, ?_, hafter.subset (by grind)⟩, fun _ => ⟨?_, (quiet_valued.1 hfound).2, hadm⟩⟩
    · exact h.blank.later (typeExpr_effect ctx ty hv.run).nodes (by grind [Stmt.ids, Expr.idsOfOption]) (by grind)
    · rw [htype.info? ty.node_mem_ids, typeExpr_noted hv.run]

/-- A `return` without a value stands in a sequence function or in a body that gives nothing. -/
theorem ret_nothing (h : Settled fin (Stmt.ret node none).ids (stmt ctx (.ret node none)) s a s') :
    s.frame.Grows s'.frame ∧ ((∃ elem, s.frame.seqElem = some elem) ∨
      ∀ mode, s'.frame.ret.Leads mode → mode.result = .void ∨ ctx.Admits mode.result .void) := by
  have hrun := h.toQuiet
  rw [stmt, returns] at hrun
  rcases hrun.returnNothing with ⟨hseq, rfl⟩ | ⟨-, hret, rfl⟩ | ⟨-, hret, rfl⟩ | ⟨expected, -, hret, hadm, rfl⟩
  · exact ⟨.refl _, .inl hseq⟩
  · refine ⟨.refl _, .inr fun mode hm => .inl ?_⟩
    rw [hret] at hm
    exact hm.result_fixed
  · exact ⟨⟨List.prefix_refl _, rfl, rfl⟩, .inr fun mode hm => .inl hm.result_settled⟩
  · refine ⟨.refl _, .inr fun mode hm => .inr ?_⟩
    rw [hret] at hm
    rwa [hm.result_settled]

/-- The value of a `return` is of the type that the body gives, or may be used as one. -/
theorem ret_value (hk : Known fin)
    (h : Settled fin (Stmt.ret node (some e)).ids (stmt ctx (.ret node (some e))) s a s') :
    ∃ hint found u, Settled fin e.ids (expr ctx e hint) s found u ∧ s.frame.Grows s'.frame ∧ s.frame.seqElem = none ∧
      ∀ mode, s'.frame.ret.Leads mode →
        mode.result = found ∨ (mode ≠ .fixed .void ∧ ctx.Admits mode.result found) := by
  have hrun := h.toQuiet
  have hn := h.nodup
  rw [stmt, returns] at hrun
  rw [Stmt.ids, Expr.idsOfOption] at hn
  obtain ⟨-, hn⟩ := List.nodup_cons.1 hn
  have hsub : e.ids ⊆ (Stmt.ret node (some e)).ids := by grind [Stmt.ids, Expr.idsOfOption]
  have hf : Blank e.ids s := h.blank.subset hsub
  have ha : Agrees fin e.ids s' := h.agrees.subset hsub
  have hgrows : ∀ {hint found u}, Quiet (expr ctx e hint) s found u → s.frame.Grows u.frame := fun hq =>
    (expr_effect ctx e _ hq.run).frame.grows
  have hmode : ∀ {hint found u}, Quiet (expr ctx e hint) s found u → u.frame.ret = s.frame.ret := fun hq =>
    (expr_effect ctx e _ hq.run).frame.ret
  obtain ⟨hseq, ⟨hret, found, hq, hfound⟩ | ⟨expected, found, hret, hvoid, hq, -, hadm⟩ | ⟨hret, found, u, hq, rfl⟩ |
    ⟨expected, found, hret, hq, hadm⟩⟩ := hrun.returnValue
  · have hsettled : Settled fin e.ids (expr ctx e none) s found s' := ⟨hq, hn, hf, ha⟩
    refine ⟨none, found, s', hsettled, hgrows hq, hseq, fun mode hm => .inl ?_⟩
    rw [hmode hq, hret] at hm
    rw [hm.result_fixed]
    exact (hfound.resolve_right (hsettled.known hk)).symm
  · refine ⟨some expected, found, s', ⟨hq, hn, hf, ha⟩, hgrows hq, hseq, fun mode hm => .inr ?_⟩
    rw [hmode hq, hret] at hm
    rw [hm.eq_fixed]
    exact ⟨by simpa using hvoid, hadm⟩
  · exact ⟨none, found, u, ⟨hq, hn, hf, ha⟩, (hgrows hq).trans ⟨List.prefix_refl _, rfl, rfl⟩, hseq,
      fun mode hm => .inl hm.result_settled⟩
  · refine ⟨some expected, found, s', ⟨hq, hn, hf, ha⟩, hgrows hq, hseq, fun mode hm => .inr ?_⟩
    rw [hmode hq, hret] at hm
    obtain ⟨_, rfl⟩ := hm.eq_inferred
    exact ⟨by simp, by rwa [hm.result_settled]⟩

theorem yields (h : Settled fin (Stmt.yields node e).ids (stmt ctx (.yields node e)) s a s') :
    ∃ elem found, s.frame.seqElem = some elem ∧ Settled fin e.ids (expr ctx e (some elem)) s found s' ∧ found ≠ .void ∧
      ctx.Admits elem found := by
  have hrun := h.toQuiet
  have hn := h.nodup
  rw [stmt] at hrun
  rw [Stmt.ids] at hn
  obtain ⟨elem, found, hseq, hq, hvoid, hadm⟩ := hrun.yields
  have hsub : e.ids ⊆ (Stmt.yields node e).ids := by grind [Stmt.ids]
  exact ⟨elem, found, hseq, ⟨hq, (List.nodup_cons.1 hn).2, h.blank.subset hsub, h.agrees.subset hsub⟩, hvoid, hadm⟩

/-- The expression that is a lambda's body has the type that the lambda gives, where the lambda does not say what it gives;
otherwise the lambda says that it gives nothing, or the expression may be used as what it gives. -/
theorem exprBody {declared : Option Ty} (hret : s.frame.ret = .ofDeclared declared)
    (h : Settled fin e.ids (Check.exprBody ctx declared e.node (fun hint => expr ctx e hint)) s a s') :
    ∃ hint found u, Settled fin e.ids (expr ctx e hint) s found u ∧
      (s'.frame.ret = .inferred (some found) ∨
        ∃ ty, s'.frame.ret = .fixed ty ∧ (ty = .void ∨ (found ≠ .void ∧ ctx.Admits ty found))) := by
  have hmode : ∀ {hint found u}, Quiet (expr ctx e hint) s found u → u.frame.ret = s.frame.ret := fun hq =>
    (expr_effect ctx e _ hq.run).frame.ret
  rcases h.toQuiet.exprBody with ⟨rfl, found, hq⟩ | ⟨ret, found, rfl, -, hq, hvoid, hadm⟩ | ⟨-, found, u, hq, rfl⟩
  · exact ⟨none, found, s', ⟨hq, h.nodup, h.blank, h.agrees⟩, .inr ⟨.void, (hmode hq).trans hret, .inl rfl⟩⟩
  · exact ⟨some ret, found, s', ⟨hq, h.nodup, h.blank, h.agrees⟩, .inr ⟨ret, (hmode hq).trans hret, .inr ⟨hvoid, hadm⟩⟩⟩
  · exact ⟨none, found, u, ⟨hq, h.nodup, h.blank, h.agrees⟩, .inl rfl⟩

end Settled

end Check

end ScriptCheck

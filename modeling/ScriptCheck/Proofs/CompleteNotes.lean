import ScriptCheck.Proofs.NoteCounts
import ScriptCheck.Proofs.Roles

/-!
# Every node is noted, and once

The analysis of a part writes notes for the nodes inside that part and for no others, and for each of them at most once
(`PartRun.writesOnce`). In a script whose node numbers differ no note is therefore ever replaced, whether or not the analysis
reports anything (`Script.noted_once`). Where it has an output, nothing is missing from the notes (`NodeMap.Complete`): all
expressions have types, all written types are noted as such, and every form that calls for a note of its own has it.
-/

namespace ScriptCheck

/-- The types that are written directly in a part. -/
def Part.types : Part → List TypeExpr
  | .expr (.identifier _ _ typeArgs) => typeArgs
  | .expr (.member _ _ _ typeArgs) => typeArgs
  | .expr (.lambda _ params ret _) => LambdaParam.types params ++ ret.toList
  | .expr (.isTest _ _ ty) => [ty]
  | .stmt (.varDecl _ ty _ _) => [ty]
  | _ => []

/-- A part of a body is analysed from `s` to `s'`, in one of the ways in which that is done. -/
inductive PartRun (ctx : Context) : Part → State → State → Prop where
  | value {e : Expr} {hint : Option Ty} {t : Ty} {s s' : State} (h : Check.expr ctx e hint s = .ok (t, s')) :
      PartRun ctx (.expr e) s s'
  | target {e : Expr} {r : Option Target} {s s' : State}
      (h : Check.target ctx e (Check.expr ctx e none) s = .ok (r, s')) : PartRun ctx (.expr e) s s'
  | receiver {e : Expr} {r : Receiver} {s s' : State}
      (h : Check.receiver ctx e (Check.expr ctx e none) s = .ok (r, s')) : PartRun ctx (.expr e) s s'
  | callee {e : Expr} {c : Callable} {s s' : State}
      (h : Check.callable ctx e (Check.expr ctx e none) s = .ok (c, s')) : PartRun ctx (.expr e) s s'
  | stmt {st : Stmt} {s s' : State} (h : Check.stmt ctx st s = .ok ((), s')) : PartRun ctx (.stmt st) s s'
  | result {e : Expr} {declared : Option Ty} {s s' : State}
      (h : Check.exprBody ctx declared e.node (fun hint => Check.expr ctx e hint) s = .ok ((), s')) :
      PartRun ctx (.result e) s s'

/-- Notes were written for the nodes `ids` only, and where these differ, at most one note for each: none that was made on the way
was replaced. -/
structure WritesOnce (ids : List Nat) (s s' : State) : Prop where
  nodes : ∀ n, n ∉ ids → s'.nodes.find? n = s.nodes.find? n
  once : ids.Nodup → ∀ n, (s'.nodes.history n).length ≤ (s.nodes.history n).length + 1

theorem Touches.writesOnce {ids : List Nat} {s s' : State} (h : Touches ids s s') (hcounts : Counts ids s s') :
    WritesOnce ids s s' :=
  ⟨h.nodes, fun hids n => hcounts.once hids n⟩

/-- The analysis of a part writes notes for the nodes of the part only, and once. -/
theorem PartRun.writesOnce {ctx : Context} {part : Part} {s s' : State} (h : PartRun ctx part s s') :
    WritesOnce part.ids s s' := by
  cases h with
  | @value e hint t s s' h =>
    exact (Check.expr_effect ctx e hint h).toTouches.writesOnce (Check.countsWalk.expr_keeps ctx () e hint h)
  | @target e r s s' h =>
    exact (Check.target_effect ctx e _ (Check.expr_effect ctx e none) h).toTouches.writesOnce
      (Check.countsWalk.target_keeps ctx () e _ (Check.countsWalk.expr_keeps ctx () e none) h)
  | @receiver e r s s' h =>
    exact (Check.receiver_effect ctx (Check.expr_effect ctx e none) h).toTouches.writesOnce
      (Check.countsWalk.receiver_keeps ctx (v := ()) (Check.countsWalk.expr_keeps ctx () e none) h)
  | @callee e c s s' h =>
    exact (Check.callable_effect ctx e _ (Check.expr_effect ctx e none) h).toTouches.writesOnce
      (Check.countsWalk.callable_keeps ctx () e _ (Check.countsWalk.expr_keeps ctx () e none) h)
  | @stmt st s s' h => exact (Check.stmt_effect ctx st h).toTouches.writesOnce (Check.countsWalk.stmt_keeps ctx () st h)
  | @result e declared s s' h =>
    exact (Check.exprBody_effect _ _ (Check.expr_effect ctx e) h).toTouches.writesOnce
      (Check.exprBody_gathers _ (Check.countsWalk.expr_keeps ctx () e) h)

/-- The finished notes have what the form of a part calls for, other than the note of an element that is read. -/
def Part.Noted (notes : NodeMap) : Part → Prop
  | .expr (.call node _ _) => (∃ f object, notes.info? node.id = some (.call f object)) ∨ notes.info? node.id = some .callValue
  | .expr (.lambda node params _ _) => (∃ closure, notes.info? node.id = some (.lambda closure)) ∧
      ∀ p ∈ params, ∃ storage, notes.info? p.node.id = some (.varDecl storage)
  | .expr (.assign node _ _) => ∃ target, notes.info? node.id = some (.assign target)
  | .expr (.unary node (.step _ before) _) => ∃ target operator, notes.info? node.id = some (.step target operator before)
  | .stmt (.task node _) => ∃ closure, notes.info? node.id = some (.task closure)
  | .stmt (.varDecl node _ _ _) => ∃ storage, notes.info? node.id = some (.varDecl storage)
  | _ => True

/-- The notes have everything that the nodes of a script call for. -/
structure NodeMap.Complete (notes : NodeMap) (root : ItemId) (script : Script) : Prop where
  /-- Every expression has a type, but for an identifier before a dot that names a type. -/
  types : ∀ p e, ⟨p, .expr e⟩ ∈ script.sites root →
    (∃ ty, notes.ty? e.node.id = some ty) ∨
      ∃ node name typeArgs member field fieldArgs, e = .identifier node name typeArgs ∧
        ⟨p, .expr (.member member e field fieldArgs)⟩ ∈ script.sites root ∧
        notes.NamesType node.id ∧ notes.ty? node.id = none
  /-- Every written type, in a declaration or in a body, is noted at each of its nodes. -/
  written : ∀ t, (t ∈ script.types ∨ ∃ site ∈ script.sites root, t ∈ site.part.types) → ∀ n ∈ t.ids, notes.NamesType n
  /-- Every parameter of a function has a slot. -/
  params : ∀ d ∈ script.funcs root, ∀ p ∈ d.2.params, ∃ storage, notes.info? p.node.id = some (.varDecl storage)
  /-- Calls, lambdas with their parameters, assignments, steps, tasks and declarations of variables are noted as such. -/
  parts : ∀ site ∈ script.sites root, site.part.Noted notes
  /-- Every element that is read, and not assigned to or stepped, has the function that reads it. -/
  elements : ∀ p node object index, ⟨p, .expr (.index node object index)⟩ ∈ script.sites root →
    (∃ getter, notes.info? node.id = some (.indexer getter)) ∨
      (∃ assign value, ⟨p, .expr (.assign assign (.index node object index) value)⟩ ∈ script.sites root) ∨
      ∃ step op before, ⟨p, .expr (.unary step (.step op before) (.index node object index))⟩ ∈ script.sites root

/-! ### Written types -/

/-- Types that were noted and not touched any more are among the finished notes. -/
theorem NotesTypes.final {fin : NodeMap} {ids other : List Nat} {s u s' : State} (h : NotesTypes ids s u)
    (ht : Touches other u s') (ha : Agrees fin ids s') (hd : ∀ n ∈ ids, n ∉ other) : ∀ n ∈ ids, fin.NamesType n := by
  intro n hn
  rw [NodeMap.NamesType, (ha.back ht (List.Subset.refl _) hd).info? hn]
  exact h.made n hn

namespace Check

variable {fin : NodeMap} {ctx : Context} {node : Node} {s s' : State}
variable {name : String} {t : Ty} {ty : TypeExpr}

theorem Handled.identifier_types {typeArgs : List TypeExpr}
    (h : Handled fin ctx (.identifier node name typeArgs) s s') : ∀ n ∈ TypeExpr.idsOfList typeArgs, fin.NamesType n := by
  have hvalue : ∀ {t u} meaning, typed node (identifierValue ctx node name meaning) u = .ok (t, s') → Touches [node.id] u s' :=
    fun _ hrun => (typedValue_gathers (R := ExprEffect) _ _ hrun).toTouches.mono (by simp [own, Gathers.cost, NodeWrite.node])
  have hparts : ∃ args u, typeExprs ctx typeArgs s = .ok (args, u) ∧ Touches [node.id] u s' := by
    cases h with
    | value h =>
      have hrun := h.toQuiet
      rw [expr] at hrun
      obtain ⟨x, hx, rfl⟩ := quiet_typed.1 hrun
      obtain ⟨args, u, meaning, ha, -, hv⟩ := hx.identifier
      exact ⟨args, u, ha.run, hvalue _ (quiet_typed.2 ⟨x, hv, rfl⟩).run⟩
    | target h =>
      have hrun := h.toQuiet
      rw [Check.target] at hrun
      obtain ⟨args, u, storage, ty, declared, ha, -, -, rfl⟩ := hrun.identifierTarget
      exact ⟨args, u, ha.run, (Touches.setInfo u node _).trans (Touches.setType _ node _)⟩
    | receiver h =>
      obtain ⟨args, u, meaning, ha, -, ⟨ty, -, -, rfl⟩ | ⟨ty, -, hv⟩⟩ := h.toQuiet.receiver_identifier
      · exact ⟨args, u, ha.run, Touches.setInfo u node _⟩
      · exact ⟨args, u, ha.run, hvalue _ hv.run⟩
    | callee h =>
      have hrun := h.toQuiet
      rw [callable] at hrun
      obtain ⟨args, u, meaning, ha, -, ⟨f, -, -, rfl⟩ | ⟨ty, -, hv⟩⟩ := hrun.identifierCallable
      · exact ⟨args, _, ha.run, Touches.refl _ _⟩
      · exact ⟨args, u, ha.run, hvalue _ hv.run⟩
  obtain ⟨args, u, hargs, hlast⟩ := hparts
  have hn := h.nodup
  rw [Expr.ids] at hn
  exact (typeExprs_typeNodes ctx typeArgs hargs).final hlast h.inside (by grind)

theorem Handled.member_types {object : Expr} {typeArgs : List TypeExpr}
    (h : Handled fin ctx (.member node object name typeArgs) s s') : ∀ n ∈ TypeExpr.idsOfList typeArgs, fin.NamesType n := by
  obtain ⟨use, w, hq, hlast⟩ := h.memberUse
  obtain ⟨r, u, args, v, -, hargs, hfound⟩ := hq.memberUse
  have hmember : Touches [] v w := by
    cases r with
    | type ty => exact Keeps.touches (memberOf_gathers _ _ _ _ _) hfound.run
    | value ty => exact Keeps.touches (memberOf_gathers _ _ _ _ _) hfound.run
  have hn := h.nodup
  rw [Expr.ids] at hn
  exact (typeExprs_typeNodes ctx typeArgs hargs.run).final (hmember.append hlast)
    (h.inside.subset (by grind [Expr.ids])) (by grind)

theorem Settled.lambda_types {params : List LambdaParam} {ret : Option TypeExpr} {body : Body} {hint : Option Ty}
    (h : Settled fin (Expr.lambda node params ret body).ids (expr ctx (.lambda node params ret body) hint) s t s') :
    ∀ n ∈ LambdaParam.typeIds params ++ TypeExpr.idsOfOption ret, fin.NamesType n := by
  obtain ⟨types, u, declared, v, captures, frame, w, htypes, hdecl, -, -, -, hclosure, hlast⟩ := h.lambda_run
  have hnotes := (lambdaParams_typeNodes _ params htypes.run).append (declaredResult_typeNodes ret hdecl.run)
  have hn := h.nodup
  have hperm := LambdaParam.idsOfList_perm params
  rw [Expr.ids, List.nodup_cons, List.nodup_append, hperm.nodup_iff, List.nodup_append] at hn
  have hsub := LambdaParam.typeIds_subset params
  refine hnotes.final (hclosure.append hlast) (h.agrees.subset (by grind [Expr.ids])) fun n hmem hother => ?_
  have hparam : n ∈ LambdaParam.typeIds params → n ∈ LambdaParam.idsOfList params := fun hn => hsub hn
  have hnode : n ∈ params.map (·.node.id) → n ∈ LambdaParam.idsOfList params :=
    fun hn => (LambdaParam.nodes_sublist params).subset hn
  grind

theorem Settled.isTest_types {value : Expr} {hint : Option Ty}
    (h : Settled fin (Expr.isTest node value ty).ids (expr ctx (.isTest node value ty) hint) s t s') :
    ∀ n ∈ ty.ids, fin.NamesType n := by
  have hrun := h.toQuiet
  have hn := h.nodup
  rw [expr] at hrun
  rw [Expr.ids] at hn
  obtain ⟨x, hx, rfl⟩ := quiet_typed.1 hrun
  obtain ⟨v, u, tested, w, -, ht, -, hfound⟩ := hx.isTest
  have hlast : Touches [node.id] w (x.setType node t) := by
    rcases hfound with ⟨-, rfl⟩ | ⟨id, levels, -, rfl⟩
    · exact Touches.setType _ node t
    · exact (Touches.setInfo w node _).trans (Touches.setType _ node t)
  exact (typeExpr_typeNodes ctx ty ht.run).final hlast (h.agrees.subset (by grind [Expr.ids])) (by grind)

/-- The type of a declaration is `var`, and is noted last, or it is found out before anything else is. -/
theorem Quiet.declaredType_types {init : Option Initial} {ids : List Nat}
    {u : State} (hi : ∀ i ∈ init, ∀ hint, Keeps (ExprEffect ids) (i.analyse hint))
    (h : Quiet (Check.declaredType ctx node ty name init) s t u) :
    (∃ m, ty = .var m ∧ u.nodes.NamesType m.id) ∨ ∃ v, Quiet (typeExpr ctx ty) s t v ∧ Touches ids v u := by
  rcases h.declaredType fun i hmem hint => (hi i hmem hint).adds with ⟨m, i, v, rfl, -, -, rfl⟩ | ⟨-, v, hv, hvalue⟩
  · exact .inl ⟨m, rfl, t, by simp [State.setInfo]⟩
  · refine .inr ⟨v, hv, ?_⟩
    cases init with
    | none =>
      obtain rfl : u = v := hvalue
      exact Touches.refl _ _
    | some i =>
      obtain ⟨found, hfound, -⟩ := hvalue
      exact (hi i rfl _ hfound.run).toTouches

theorem Settled.varDecl_types {init : Option Expr}
    (h : Settled fin (Stmt.varDecl node ty name init).ids (stmt ctx (.varDecl node ty name init)) s () s') :
    ∀ n ∈ ty.ids, fin.NamesType n := by
  obtain ⟨t, u, hu, -, hafter⟩ := h.varDecl_run
  have hn := h.nodup
  rw [Stmt.ids] at hn
  rcases hu.declaredType_types (initial_effect ctx init) with ⟨m, rfl, hm⟩ | ⟨v, hv, hrest⟩
  · intro n hmem
    obtain rfl : n = m.id := by simpa [TypeExpr.ids] using hmem
    rwa [NodeMap.NamesType, hafter.info? (List.mem_append_left _ hmem)]
  · exact (typeExpr_typeNodes ctx ty hv.run).final hrest (hafter.subset (List.subset_append_left _ _)) (by grind)

end Check

/-- The types that are written directly in a visited part are noted at each of their nodes. -/
theorem Visited.written {A : Finished} {p : Place} {part : Part} (h : Visited A ⟨p, part⟩) :
    ∀ n ∈ TypeExpr.idsOfList part.types, A.notes.NamesType n := by
  cases part with
  | expr e =>
    obtain ⟨ctx, mode, s, s', -, -, hh⟩ := h
    cases e with
    | identifier node name typeArgs => exact hh.identifier_types
    | member node object name typeArgs => exact hh.member_types
    | lambda node params ret body =>
      obtain ⟨hint, t, hv⟩ := hh.as_value rfl
      rw [Part.types, TypeExpr.idsOfList_append, TypeExpr.idsOfList_toList, LambdaParam.idsOfList_types]
      exact hv.lambda_types
    | isTest node value ty =>
      obtain ⟨hint, t, hv⟩ := hh.as_value rfl
      rw [Part.types, TypeExpr.idsOfList_singleton]
      exact hv.isTest_types
    | _ => simp [Part.types, TypeExpr.idsOfList]
  | stmt st =>
    obtain ⟨ctx, mode, s, s', -, -, hst, -⟩ := h
    cases st with
    | varDecl node ty name init =>
      rw [Part.types, TypeExpr.idsOfList_singleton]
      exact hst.varDecl_types
    | _ => simp [Part.types, TypeExpr.idsOfList]
  | result e => simp [Part.types, TypeExpr.idsOfList]

/-! ### Forms with a note of their own -/

theorem NotedSlots.exists {fin : NodeMap} {nodes : List Nat} {count : Nat} (h : NotedSlots fin nodes count)
    (hcount : count = nodes.length) : ∀ n ∈ nodes, ∃ storage, fin.info? n = some (.varDecl storage) := by
  intro n hn
  obtain ⟨i, hi⟩ := List.mem_iff_getElem?.1 hn
  have hlt : i < count := by
    rw [hcount]
    exact (List.getElem?_eq_some_iff.1 hi).1
  exact ⟨_, h i n hlt hi⟩

theorem Visited.noted {A : Finished} (hk : Known A.notes) {p : Place} {part : Part} (h : Visited A ⟨p, part⟩) :
    part.Noted A.notes := by
  cases part with
  | expr e =>
    obtain ⟨ctx, mode, s, s', -, -, hh⟩ := h
    cases e with
    | call node callee args =>
      obtain ⟨hint, t, hv⟩ := hh.as_value rfl
      obtain ⟨c, u, hints, types, v, -, -, ⟨_, _, _, g, object, _, -, -, hinfo, -⟩ | ⟨_, hinfo, -⟩⟩ := hv.call hk
      · exact .inl ⟨g, object, hinfo⟩
      · exact .inr hinfo
    | lambda node params ret body =>
      obtain ⟨hint, t, hv⟩ := hh.as_value rfl
      obtain ⟨types, declared, v, entry, last, k, -, -, -, hslots, hinfo, -⟩ := hv.lambda
      exact ⟨⟨_, hinfo⟩, fun p hp => hslots.exists (List.length_map _).symm _ (List.mem_map.2 ⟨p, hp, rfl⟩)⟩
    | assign node left value =>
      obtain ⟨hint, t, hv⟩ := hh.as_value rfl
      obtain ⟨target, expected, found, u, v, -, -, -, -, -, hinfo⟩ := hv.assign hk
      exact ⟨target, hinfo⟩
    | unary node op operand =>
      cases op with
      | step op before =>
        obtain ⟨hint, t, hv⟩ := hh.as_value rfl
        obtain ⟨target, operator, u, -, hinfo⟩ := hv.step hk
        exact ⟨target, operator, hinfo⟩
      | _ => trivial
    | _ => trivial
  | stmt st =>
    obtain ⟨ctx, mode, s, s', -, -, hst, -⟩ := h
    cases st with
    | task node block =>
      obtain ⟨entry, last, k, hinfo, -⟩ := hst.task
      exact ⟨_, hinfo⟩
    | varDecl node ty name init =>
      obtain ⟨t, u, -, -, hinfo, -⟩ := hst.varDecl
      exact ⟨_, hinfo⟩
    | _ => trivial
  | result e => trivial

/-- The parameters of a function whose body was analysed have slots. -/
theorem Check.Settled.funcBody_params {fin : NodeMap} {ctx : Context} {outer : ItemId} {decl : FuncDecl} {s s' : State}
    (h : Settled fin decl.bodyIds (funcBody ctx outer decl) s () s')
    (hlength : ∀ record, ctx.registry.func? (decl.idUnder outer) = some record → record.params.length = decl.params.length) :
    ∀ p ∈ decl.params, ∃ storage, fin.info? p.node.id = some (.varDecl storage) := by
  obtain ⟨record, u, w, hrecord, hparams, hbody, rfl⟩ := h.toQuiet.funcBody
  have hinside : Agrees fin decl.bodyIds w := h.agrees
  have hslots := funcBody_slots h.nodup hinside hparams hbody.run
  intro p hp
  exact hslots.exists (by rw [List.length_map, hlength record hrecord]) _ (List.mem_map.2 ⟨p, hp, rfl⟩)

/-! ### The whole script -/

/-- What is noted before the bodies are analysed stays, whether or not there are problems. -/
theorem Check.bodies_keep {ctx : Context} {script : Script} {m m' : Module} {u s : State} {a : Unit} (hn : script.ids.Nodup)
    (hdecl : declareElements ctx script m .initial = .ok (m', u))
    (hbodies : bodies { ctx with registry := m' :: ctx.registry } script u = .ok (a, s)) :
    ∀ n info, u.nodes.info? n = some info → s.nodes.info? n = some info := by
  simp only [bodies, bind_eq_ok, get_apply, pushTemplate_apply, modifyFrame_apply, ok_inj] at hbodies
  obtain ⟨_, v, hstmts, _, _, ⟨rfl, rfl⟩, _, _, ⟨-, rfl⟩, _, _, ⟨-, rfl⟩, hfuncs⟩ := hbodies
  have hsplit := List.nodup_append.1 (Script.split_nodup ctx.root hn)
  intro n info hinfo
  have hmem : n ∈ TypeExpr.idsOfList script.types := by
    by_contra hno
    have hsame := (declareElements_typeNodes ctx script m hdecl).nodes n hno
    rw [NodeMap.info?, NodeMap.dataOf, hsame] at hinfo
    cases hinfo
  have hfirst := (scriptStmts_effect _ script hstmts).nodes n fun hst =>
    Script.stmtIds_disjoint hn n hst (script.typeIds_subset hmem)
  have hsecond := (scriptBodies_runs script hfuncs).touches.nodes n fun hf => hsplit.2.2 n hmem n hf rfl
  rw [NodeMap.info?, NodeMap.dataOf, hsecond, hfirst]
  exact hinfo

namespace Analysed

variable {setup : Setup} {script : Script} {m : Module} {s : State}

/-- The types that the declarations of a script mention are noted at each of their nodes. -/
theorem declared_types (h : Analysed setup script m s) (hs : s.diagnostics = []) (hn : script.ids.Nodup) :
    ∀ n ∈ TypeExpr.idsOfList script.types, s.nodes.NamesType n := by
  obtain ⟨u, hdecl, hbodies⟩ := Check.Quiet.script ⟨h.run, hs⟩
  intro n hmem
  obtain ⟨ty, hty⟩ := (Check.declareElements_typeNodes _ script _ hdecl.run).made n hmem
  exact ⟨ty, Check.bodies_keep hn hdecl.run hbodies.run n _ hty⟩

theorem complete (h : Analysed setup script m s) (hs : s.diagnostics = []) (hk : Known s.nodes) (hn : script.ids.Nodup) :
    s.nodes.Complete (.root setup.moduleName) script := by
  have hvisited := h.visited hs hk hn
  have hrole : ∀ {p e}, ⟨p, .expr e⟩ ∈ script.sites (.root setup.moduleName) →
      ∃ part, ⟨p, part⟩ ∈ script.sites (.root setup.moduleName) ∧ Role s.nodes part e := by
    intro p e hsite
    obtain ⟨part, hpart, he⟩ := Script.exists_parent hsite
    exact ⟨part, hpart, (hvisited _ hpart).role hk he⟩
  refine ⟨fun p e hsite => ?_, fun t ht n hmem => ?_, fun d hd => ?_, fun site hsite => (hvisited site hsite).noted hk,
    fun p node object index hsite => ?_⟩
  · obtain ⟨part, hpart, hr⟩ := hrole hsite
    rcases hr.typed with hty | ⟨node, name, typeArgs, member, field, fieldArgs, heq, rfl, hnames, hnone⟩
    · exact .inl hty
    · exact .inr ⟨node, name, typeArgs, member, field, fieldArgs, heq, hpart, hnames, hnone⟩
  · rcases ht with ht | ⟨site, hsite, ht⟩
    · exact h.declared_types hs hn n (TypeExpr.mem_idsOfList hmem ht)
    · exact (hvisited site hsite).written n (TypeExpr.mem_idsOfList hmem ht)
  · obtain ⟨ctx, t, u, hc, hsettled⟩ := (h.settled hs hn).2 d hd
    refine hsettled.funcBody_params fun record hrecord => ?_
    rw [hc.registry] at hrecord
    exact h.func_record hs hd hrecord
  · obtain ⟨part, hpart, hr⟩ := hrole hsite
    rcases hr.indexer hk with hget | ⟨assign, value, rfl⟩ | ⟨step, op, before, rfl⟩
    · exact .inl hget
    · exact .inr (.inl ⟨assign, value, hpart⟩)
    · exact .inr (.inr ⟨step, op, before, hpart⟩)

end Analysed

/-- In a script whose node numbers differ, the notes are written once and are complete. However a part of a body or a written
type is analysed, notes are written only for the nodes inside it, and for each of them at most once. A run through the script
replaces no note at all, also if it reports something. Where the analysis has an output, no node lacks the note that it calls
for. -/
theorem nodes_are_noted_once_and_completely (setup : Setup) (script : Script) (hids : script.ids.Nodup) :
    (∀ ctx part s s', PartRun ctx part s s' → WritesOnce part.ids s s') ∧
    (∀ ctx t s ty s', Check.typeExpr ctx t s = .ok (ty, s') → WritesOnce t.ids s s') ∧
    (∀ ctx made s, Check.script ctx script .initial = .ok (made, s) → ∀ n, (s.nodes.history n).length ≤ 1) ∧
    ∀ out, analyze setup script = .ok (.ok out) →
      (∀ n, (out.nodes.history n).length ≤ 1) ∧ out.nodes.Complete (.root setup.moduleName) script := by
  refine ⟨fun ctx part s s' h => h.writesOnce, fun ctx t s ty s' h => ?_, fun ctx made s h => Script.noted_once hids h,
    fun out h => ?_⟩
  · have hnotes := Check.typeExpr_typeNodes ctx t h
    exact hnotes.touches.writesOnce hnotes.once
  · have hk := analyze_known h
    obtain ⟨m, s, ha, hs, -, rfl⟩ := analyze_eq_ok h
    exact ⟨Script.noted_once hids ha.run, ha.complete hs hk hids⟩

namespace Sample

/-- The getter and the setter of an indexer over `int`. -/
def accessors : List Member := [
  .func {
    node := nd 1
    name := .indexerGet
    typeParams := []
    params := [⟨nd 2, "i", .named (nd 3) "int" []⟩]
    ret := .named (nd 4) "int" []
    isSequence := false
    isStatic := false
    body := .mk (nd 5) [.ret (nd 6) (some (.identifier (nd 7) "i" []))] },
  .func {
    node := nd 8
    name := .indexerSet
    typeParams := []
    params := [⟨nd 9, "i", .named (nd 10) "int" []⟩, ⟨nd 11, "v", .named (nd 12) "int" []⟩]
    ret := .void (nd 13)
    isSequence := false
    isStatic := false
    body := .mk (nd 14) [] }]

/-- `enum Color { Red } class Row { ... } Row row; row[0] = row[1]; var color = Color.Red;` -/
def rows : Script := [
  .type (.mk (nd 15) .enumDecl "Color" [] none [.case ⟨nd 16, "Red"⟩]),
  .type (.mk (nd 17) .classDecl "Row" [] none accessors),
  .stmt (.varDecl (nd 18) (.named (nd 19) "Row" []) "row" none),
  .stmt (.expr (nd 20) (.assign (nd 21) (.index (nd 22) (.identifier (nd 23) "row" []) (.intLit (nd 24) 0))
    (.index (nd 25) (.identifier (nd 26) "row" []) (.intLit (nd 27) 1)))),
  .stmt (.varDecl (nd 28) (.var (nd 29)) "color" (some (.member (nd 30) (.identifier (nd 31) "Color" []) "Red" [])))]

end Sample

/-- An element that is assigned to has a type and no note, one that is read has both, and the name of the enum before the dot
has a note and no type. -/
theorem sample_nodes_are_noted_once_and_completely : Sample.rows.ids.Nodup ∧
    ∃ out, analyze Sample.setup Sample.rows = .ok (.ok out) ∧
      (∀ n, (out.nodes.history n).length ≤ 1) ∧ out.nodes.Complete (.root "Sample") Sample.rows ∧
      (out.nodes.ty? 22).isSome ∧ out.nodes.info? 22 = none ∧ (out.nodes.ty? 25).isSome ∧ (out.nodes.info? 25).isSome ∧
      out.nodes.ty? 31 = none ∧ (out.nodes.info? 31).isSome := by
  have hids : Sample.rows.ids.Nodup := by decide +kernel
  have hrun : ((analyze Sample.setup Sample.rows).toOption.bind Except.toOption).any (fun out =>
      (out.nodes.ty? 22).isSome ∧ out.nodes.info? 22 = none ∧ (out.nodes.ty? 25).isSome ∧ (out.nodes.info? 25).isSome ∧
      out.nodes.ty? 31 = none ∧ (out.nodes.info? 31).isSome) = true := by
    decide +kernel
  obtain ⟨out, h, hout⟩ := exists_output hrun
  obtain ⟨honce, hcomplete⟩ := (nodes_are_noted_once_and_completely Sample.setup Sample.rows hids).2.2.2 out h
  exact ⟨hids, out, h, honce, hcomplete, of_decide_eq_true hout⟩

end ScriptCheck

import ScriptCheck.Proofs.Walk

/-!
# What an expression is used as

Every expression of a body stands directly in another part of it (`Script.exists_parent`), and that part decides how the
expression is analysed: as a value, as the target of an assignment or a step, as what is called, or as what stands before a
dot. `Role` says this in terms of settled runs, and for each role it is shown here what the finished notes have for the
expression itself.
-/

namespace ScriptCheck

/-- Every expression of a body stands directly in a part of the script, at the same place. -/
theorem Script.exists_parent {root : ItemId} {script : Script} {p : Place} {e : Expr}
    (h : ⟨p, .expr e⟩ ∈ script.sites root) : ∃ part, ⟨p, part⟩ ∈ script.sites root ∧ e ∈ part.children := by
  obtain ⟨r, hr, hsub, hpart, -⟩ := Script.exists_root h
  rcases Site.exists_parent hr with rfl | ⟨part, hmem, he⟩
  · exact absurd rfl (hpart e)
  · exact ⟨part, hsub hmem, he⟩

/-! ### The role of an expression -/

/-- How an expression that stands directly in a part was analysed. -/
inductive Role (fin : NodeMap) : Part → Expr → Prop where
  | value {part : Part} {e : Expr} {ctx : Context} {hint : Option Ty} {t : Ty} {s s' : State}
      (h : Check.Settled fin e.ids (Check.expr ctx e hint) s t s') : Role fin part e
  | assigned {node : Node} {left value : Expr} {ctx : Context} {target : Target} {s s' : State}
      (h : Check.Settled fin left.ids (Check.target ctx left (Check.expr ctx left none)) s (some target) s') :
      Role fin (.expr (.assign node left value)) left
  | stepped {node : Node} {op : StepOp} {before : Bool} {operand : Expr} {ctx : Context} {target : Target} {s s' : State}
      (h : Check.Settled fin operand.ids (Check.target ctx operand (Check.expr ctx operand none)) s (some target) s') :
      Role fin (.expr (.unary node (.step op before) operand)) operand
  | called {node : Node} {callee : Expr} {args : List Expr} {ctx : Context} {c : Callable} {s s' : State}
      (h : Check.SettledCallee fin ctx callee s c s') : Role fin (.expr (.call node callee args)) callee
  | receiver {node : Node} {object : Expr} {name : String} {typeArgs : List TypeExpr} {ctx : Context} {r : Receiver}
      {s s' : State} (h : Check.Settled fin object.ids (Check.receiver ctx object (Check.expr ctx object none)) s r s') :
      Role fin (.expr (.member node object name typeArgs)) object

namespace Check

variable {fin : NodeMap} {ctx : Context} {s s' : State}

/-- Each of several expressions is analysed as a value. -/
theorem Settled.exprs_mem : ∀ {es : List Expr} {hints : List (Option Ty)} {ts : List Ty} {s s' : State},
    Settled fin (Expr.idsOfList es) (exprs ctx es hints) s ts s' → ∀ e ∈ es,
      ∃ hint t u v, Settled fin e.ids (expr ctx e hint) u t v
  | [], hints, ts, s, s', h => by simp
  | e :: es, hints, ts, s, s', h => by
    obtain ⟨t, us, u, ht, -, hes, -⟩ := h.exprs_cons
    rw [List.forall_mem_cons]
    exact ⟨⟨_, t, s, u, ht⟩, hes.exprs_mem⟩

/-- The expressions that stand directly in an expression, one case for each form. -/
theorem Handled.role (hk : Known fin) {x e : Expr} (h : Handled fin ctx x s s') (he : e ∈ (Part.expr x).children) :
    Role fin (.expr x) e := by
  cases x with
  | binary node op left right =>
    obtain ⟨hint, t, hv⟩ := h.as_value rfl
    obtain ⟨l, u, r, v, hl, hr⟩ := hv.binary
    rcases List.mem_pair.1 he with rfl | rfl
    · exact .value hl
    · exact .value hr
  | unary node op operand =>
    obtain rfl := List.mem_singleton.1 he
    obtain ⟨hint, t, hv⟩ := h.as_value rfl
    cases hop : op.step? with
    | none =>
      obtain ⟨ty, u, ho⟩ := hv.plainUnary hop
      exact .value ho
    | some step =>
      obtain ⟨op, before, rfl⟩ : ∃ o b, op = .step o b := by cases op <;> first | exact ⟨_, _, rfl⟩ | cases hop
      obtain ⟨target, operator, u, ho, -⟩ := hv.step hk
      exact .stepped ho
  | assign node left value =>
    obtain ⟨hint, t, hv⟩ := h.as_value rfl
    obtain ⟨target, expected, found, u, v, hl, hr, -⟩ := hv.assign hk
    rcases List.mem_pair.1 he with rfl | rfl
    · exact .assigned hl
    · exact .value hr
  | call node callee args =>
    obtain ⟨hint, t, hv⟩ := h.as_value rfl
    obtain ⟨c, u, hints, types, v, hcallee, hargs, -⟩ := hv.call hk
    rcases List.mem_cons.1 he with rfl | he
    · exact .called hcallee
    · obtain ⟨hint, t, u, v, harg⟩ := hargs.exprs_mem e he
      exact .value harg
  | member node object name typeArgs =>
    obtain rfl := List.mem_singleton.1 he
    obtain ⟨r, u, ho⟩ := h.member
    exact .receiver ho
  | index node object index =>
    have hparts : ∃ o u i v, Settled fin object.ids (Check.expr ctx object none) s o u ∧
        Settled fin index.ids (Check.expr ctx index none) u i v := by
      rcases h.forms with ⟨hint, t, hv⟩ | ⟨-, r, ht⟩ | ⟨hn, -⟩ | ⟨_, _, _, _, heq, -⟩
      · obtain ⟨o, u, i, v, ho, hi, -⟩ := hv.index
        exact ⟨o, u, i, v, ho, hi⟩
      · exact ht.index_target
      · cases hn
      · cases heq
    obtain ⟨o, u, i, v, ho, hi⟩ := hparts
    rcases List.mem_pair.1 he with rfl | rfl
    · exact .value ho
    · exact .value hi
  | isTest node value ty =>
    obtain rfl := List.mem_singleton.1 he
    obtain ⟨hint, t, hv⟩ := h.as_value rfl
    obtain ⟨v, u, hvalue⟩ := hv.isTest
    exact .value hvalue
  | identifier node name typeArgs => cases he
  | intLit node value => cases he
  | boolLit node value => cases he
  | strLit node value => cases he
  | lambda node params ret body => cases he

/-- The expressions that stand directly in a statement. -/
theorem Settled.stmt_role (hk : Known fin) {st : Stmt} {e : Expr} (h : Settled fin st.ids (stmt ctx st) s () s')
    (he : e ∈ (Part.stmt st).children) : Role fin (.stmt st) e := by
  cases st with
  | varDecl node ty name init =>
    obtain ⟨t, u, -, -, -, hinit⟩ := h.varDecl
    obtain ⟨hint, found, v, w, -, hv, -⟩ := hinit e (Option.mem_toList.1 he)
    exact .value hv
  | ifThen node cond thenBody elseBody =>
    obtain rfl := List.mem_singleton.1 he
    obtain ⟨u, hcond, -⟩ := h.ifThen hk
    exact .value hcond
  | whileDo node cond body =>
    obtain rfl := List.mem_singleton.1 he
    obtain ⟨u, hcond, -⟩ := h.whileDo hk
    exact .value hcond
  | expr node value =>
    obtain rfl := List.mem_singleton.1 he
    obtain ⟨t, hv⟩ := h.expr_stmt
    exact .value hv
  | ret node value =>
    obtain rfl := Option.mem_toList.1 he
    obtain ⟨hint, found, u, hv, -⟩ := h.ret_value hk
    exact .value hv
  | yields node value =>
    obtain rfl := List.mem_singleton.1 he
    obtain ⟨elem, found, -, hv, -⟩ := h.yields
    exact .value hv
  | block node b => cases he
  | breaks node => cases he
  | continues node => cases he
  | task node b => cases he
  | awaits node b => cases he

end Check

/-- An expression that stands directly in a visited part was analysed in one of the roles. -/
theorem Visited.role {A : Finished} (hk : Known A.notes) {p : Place} {part : Part} {e : Expr} (h : Visited A ⟨p, part⟩)
    (he : e ∈ part.children) : Role A.notes part e := by
  cases part with
  | expr x =>
    obtain ⟨ctx, mode, s, s', -, -, hh⟩ := h
    exact hh.role hk he
  | stmt st =>
    obtain ⟨ctx, mode, s, s', -, -, hst, -⟩ := h
    exact hst.stmt_role hk he
  | result x =>
    obtain rfl := List.mem_singleton.1 he
    obtain ⟨ctx, declared, s, s', -, -, hmode, hx⟩ := h
    obtain ⟨hint, found, u, hv, -⟩ := hx.exprBody hmode
    exact .value hv

/-! ### What is noted in each role -/

namespace Check

variable {fin : NodeMap} {ctx : Context} {e : Expr} {s s' : State}

/-- What is assigned to is noted with a type. -/
theorem Settled.target_typed {target : Target}
    (h : Settled fin e.ids (Check.target ctx e (expr ctx e none)) s (some target) s') : ∃ ty, fin.ty? e.node.id = some ty := by
  rw [h.agrees.ty? e.node_mem_ids]
  have hrun := h.toQuiet
  have hp := hrun.target_isPlace
  cases e with
  | identifier node name typeArgs =>
    rw [Check.target] at hrun
    obtain ⟨args, u, storage, ty, declared, -, -, -, rfl⟩ := hrun.identifierTarget
    exact ⟨ty, by simp [State.setType, Expr.node]⟩
  | member node object name typeArgs =>
    rw [Check.target] at hrun
    obtain ⟨_, u, -, ⟨storage, ty, -, -, -, rfl⟩ | ⟨-, hr, -⟩⟩ := hrun.memberTarget
    · exact ⟨ty, by simp [State.setType, Expr.node]⟩
    · cases hr
  | index node object index =>
    rw [Check.target] at hrun
    obtain ⟨_, _, _, _, -, -, ⟨-, hr, -⟩ | ⟨getter, setter, -, -, hq⟩⟩ :=
      hrun.elementTarget (valued_gathers (expr_effect ctx index none)).adds
    · cases hr
    · obtain ⟨reads, writes, -, -, -, -, -, rfl⟩ := hq.accessorTarget
      exact ⟨reads.ret, by simp [State.setType, Expr.node]⟩
  | _ => cases hp

/-- What stands before a dot is noted with a type, or it is an identifier that is noted as naming one. -/
theorem Settled.receiver_typed {r : Receiver} (h : Settled fin e.ids (Check.receiver ctx e (expr ctx e none)) s r s') :
    (∃ ty, fin.ty? e.node.id = some ty) ∨
      ∃ node name typeArgs, e = .identifier node name typeArgs ∧ fin.NamesType node.id ∧ fin.ty? node.id = none := by
  by_cases he : ∃ node name typeArgs, e = .identifier node name typeArgs
  · obtain ⟨node, name, typeArgs, rfl⟩ := he
    have hn := h.nodup
    rw [Expr.ids, List.nodup_cons] at hn
    have hself : node.id ∈ (Expr.identifier node name typeArgs).ids := (Expr.identifier node name typeArgs).node_mem_ids
    obtain ⟨args, u, meaning, ha, -, ⟨ty, -, -, rfl⟩ | ⟨ty, -, hv⟩⟩ := h.toQuiet.receiver_identifier
    · refine .inr ⟨node, name, typeArgs, rfl, ⟨ty, ?_⟩, ?_⟩
      · rw [h.agrees.info? hself]
        simp [State.setInfo]
      · have hu : Blank [node.id] u :=
          h.blank.later (typeExprs_effect ctx typeArgs ha.run).nodes (by simp [Expr.ids]) (by simp [hn.1])
        rw [h.agrees.ty? hself, State.setInfo, NodeMap.ty?_setInfo]
        exact hu.ty? (List.mem_singleton_self _)
    · obtain ⟨v, -, rfl⟩ := quiet_typed.1 hv
      refine .inl ⟨ty, ?_⟩
      rw [h.agrees.ty? (Expr.node_mem_ids _)]
      simp [State.setType, Expr.node]
  · obtain ⟨t, ht⟩ := h.receiver_value fun node name typeArgs heq => he ⟨node, name, typeArgs, heq⟩
    exact .inl ⟨t, ht.noted⟩

end Check

namespace Role

variable {fin : NodeMap} {part : Part} {e : Expr}

/-- An expression is noted with a type, unless it is an identifier before a dot that is noted as naming one. -/
theorem typed (h : Role fin part e) :
    (∃ ty, fin.ty? e.node.id = some ty) ∨
      ∃ node name typeArgs member field fieldArgs, e = .identifier node name typeArgs ∧
        part = .expr (.member member e field fieldArgs) ∧ fin.NamesType node.id ∧ fin.ty? node.id = none := by
  cases h with
  | value h => exact .inl ⟨_, h.noted⟩
  | assigned h => exact .inl h.target_typed
  | stepped h => exact .inl h.target_typed
  | called h => exact .inl h.typed
  | receiver h =>
    rcases h.receiver_typed with hty | ⟨node, name, typeArgs, rfl, hinfo, hnone⟩
    · exact .inl hty
    · exact .inr ⟨node, name, typeArgs, _, _, _, rfl, rfl, hinfo, hnone⟩

/-- An element is noted with the function that reads it, unless it is assigned to or stepped. -/
theorem indexer (hk : Known fin) {node : Node} {object index : Expr} (h : Role fin part (.index node object index)) :
    (∃ getter, fin.info? node.id = some (.indexer getter)) ∨
      (∃ assign value, part = .expr (.assign assign (.index node object index) value)) ∨
      ∃ step op before, part = .expr (.unary step (.step op before) (.index node object index)) := by
  have hvalue : ∀ {ctx : Context} {hint : Option Ty} {t : Ty} {s s' : State},
      Check.Settled fin (Expr.index node object index).ids (Check.expr ctx (.index node object index) hint) s t s' →
      ∃ getter, fin.info? node.id = some (.indexer getter) := by
    intro ctx hint t s s' hv
    obtain ⟨o, u, i, v, -, -, ht | hinfo⟩ := hv.index
    · exact absurd ht (hv.known hk)
    · exact hinfo
  cases h with
  | value h => exact .inl (hvalue h)
  | assigned h => exact .inr (.inl ⟨_, _, rfl⟩)
  | stepped h => exact .inr (.inr ⟨_, _, _, rfl⟩)
  | called h =>
    obtain ⟨t, ht⟩ := h.value rfl
    exact .inl (hvalue ht)
  | receiver h =>
    obtain ⟨t, ht⟩ := h.receiver_value (by simp)
    exact .inl (hvalue ht)

end Role

end ScriptCheck

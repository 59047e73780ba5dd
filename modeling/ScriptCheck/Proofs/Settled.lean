import ScriptCheck.Proofs.QuietStmts

/-!
# Runs whose notes are final

In a script whose node numbers differ, what is noted for a part is noted while it is analysed: no step before or after touches
its nodes. A run is settled when it is quiet, starts with nothing noted for its nodes, and leaves noted for them what the
finished notes `fin` have. For each form it is said here into which settled runs a settled run of it falls apart, and what the
finished notes have for its own node. A type that is unknown is never among the finished notes (`Known`), which rules out all
the ways on which a check is passed because of an unknown type.
-/

namespace ScriptCheck

/-- The state has for these nodes what the finished notes have. -/
def Agrees (fin : NodeMap) (ids : List Nat) (s : State) : Prop := ∀ n ∈ ids, fin.find? n = s.nodes.find? n

/-- Nothing is noted for these nodes. -/
def Blank (ids : List Nat) (s : State) : Prop := ∀ n ∈ ids, s.nodes.find? n = none

/-- No type in the finished notes is unknown. -/
def Known (fin : NodeMap) : Prop := ∀ n t, fin.ty? n = some t → t ≠ .unresolved

namespace Agrees

variable {fin : NodeMap} {ids : List Nat} {s u : State}

theorem subset {sub : List Nat} (h : Agrees fin ids s) (hsub : sub ⊆ ids) : Agrees fin sub s :=
  fun n hn => h n (hsub hn)

theorem ty? (h : Agrees fin ids s) {n : Nat} (hn : n ∈ ids) : fin.ty? n = s.nodes.ty? n := by
  rw [NodeMap.ty?, NodeMap.ty?, NodeMap.dataOf, NodeMap.dataOf, h n hn]

theorem info? (h : Agrees fin ids s) {n : Nat} (hn : n ∈ ids) : fin.info? n = s.nodes.info? n := by
  rw [NodeMap.info?, NodeMap.info?, NodeMap.dataOf, NodeMap.dataOf, h n hn]

/-- What is not touched any more is final. -/
theorem back {sub other : List Nat} (h : Agrees fin ids s) (ht : Touches other u s) (hsub : sub ⊆ ids)
    (hd : ∀ n ∈ sub, n ∉ other) : Agrees fin sub u := fun n hn => (h n (hsub hn)).trans (ht.nodes n (hd n hn))

end Agrees

namespace Blank

variable {ids sub : List Nat} {s u : State}

theorem subset (h : Blank ids s) (hsub : sub ⊆ ids) : Blank sub s := fun n hn => h n (hsub hn)

theorem ty? (h : Blank ids s) {n : Nat} (hn : n ∈ ids) : s.nodes.ty? n = none := by
  rw [NodeMap.ty?, NodeMap.dataOf, h n hn, Option.getD_none]

theorem info? (h : Blank ids s) {n : Nat} (hn : n ∈ ids) : s.nodes.info? n = none := by
  rw [NodeMap.info?, NodeMap.dataOf, h n hn, Option.getD_none, NodeData.info_nil]

/-- What was not touched yet is blank. -/
theorem later {other : List Nat} (h : Blank ids s) (ht : ∀ n, n ∉ other → u.nodes.find? n = s.nodes.find? n)
    (hsub : sub ⊆ ids) (hd : ∀ n ∈ sub, n ∉ other) : Blank sub u :=
  fun n hn => (ht n (hd n hn)).trans (h n (hsub hn))

end Blank

namespace Touches

variable {s u : State} {node : Node}

theorem setType (s : State) (node : Node) (t : Ty) : Touches [node.id] s (s.setType node t) :=
  (Check.noteType_gathers (R := ExprEffect) node t (Check.noteType_apply node t s)).toTouches

theorem setInfo (s : State) (node : Node) (info : NodeInfo) : Touches [node.id] s (s.setInfo node info) :=
  (Check.noteInfo_effect (List.mem_singleton_self _) info (Check.noteInfo_apply node info s)).toTouches

theorem written (s : State) (target : Target) : Touches [] s (s.written target) :=
  Check.Keeps.touches (Check.written_gathers target) (Check.written_apply target s)

/-- Two changes after one another touch what either touches. -/
theorem append {ids ids' : List Nat} {t : State} (h : Touches ids s t) (h' : Touches ids' t u) :
    Touches (ids ++ ids') s u := (h.mono (List.subset_append_left _ _)).trans (h'.mono (List.subset_append_right _ _))

end Touches

namespace Check

variable {e : Expr}

/-- A quiet run that makes the finished notes for the nodes `ids`, which are different ones. -/
structure Settled {α : Type} (fin : NodeMap) (ids : List Nat) (x : Check α) (s : State) (a : α) (s' : State) : Prop
    extends Quiet x s a s' where
  nodup : ids.Nodup
  blank : Blank ids s
  agrees : Agrees fin ids s'

variable {α β : Type} {fin : NodeMap} {ctx : Context} {ids : List Nat} {s s' : State} {node : Node} {t : Ty}

namespace Settled

variable {x : Check α} {a : α} {b : β} {y : Check β} {hint : Option Ty} {r : Option Target} {asValue : Check Ty}
  {name : String} {typeArgs : List TypeExpr}

theorem fresh (h : Settled fin ids x s a s') : ∀ n ∈ ids, ∀ info, s.nodes.info? n = some info → info.IsType := by
  intro n hn info hinfo
  rw [h.blank.info? hn] at hinfo
  cases hinfo

/-- A quiet part of a settled run is settled, if nothing before or after it touches its nodes. -/
theorem part {sub earlier other : List Nat} {s₁ u : State}
    (h : Settled fin ids y s b s') (hx : Quiet x s₁ a u) (hb : Touches earlier s s₁) (ht : Touches other u s')
    (hsub : sub.Sublist ids) (he : ∀ n ∈ sub, n ∉ earlier) (hd : ∀ n ∈ sub, n ∉ other) : Settled fin sub x s₁ a u :=
  ⟨hx, h.nodup.sublist hsub, h.blank.later hb.nodes hsub.subset he, h.agrees.back ht hsub.subset hd⟩

/-- The first part of a settled run is settled, if nothing after it touches its nodes. -/
theorem first {sub other : List Nat} {u : State}
    (h : Settled fin ids y s b s') (hx : Quiet x s a u) (ht : Touches other u s') (hsub : sub.Sublist ids)
    (hd : ∀ n ∈ sub, n ∉ other) : Settled fin sub x s a u :=
  h.part hx (Touches.refl [] s) ht hsub (fun _ _ => List.not_mem_nil) hd

/-- The type that is found for an expression is the one that is noted for it. -/
theorem noted (h : Settled fin e.ids (expr ctx e hint) s t s') : fin.ty? e.node.id = some t := by
  have hq : ∃ x u, s' = u.setType e.node t ∧ Quiet x s t u := by
    have hrun := h.toQuiet
    cases e <;> (rw [expr] at hrun; obtain ⟨u, hu, rfl⟩ := quiet_typed.1 hrun; exact ⟨_, u, rfl, hu⟩)
  obtain ⟨x, u, rfl, -⟩ := hq
  rw [h.agrees.ty? e.node_mem_ids]
  simp [State.setType]

theorem known (hk : Known fin) (h : Settled fin e.ids (expr ctx e hint) s t s') :
    t ≠ .unresolved := hk _ _ h.noted

/-! ### Expressions -/

/-- Two values that are analysed one after the other, before anything is noted for the expression itself. -/
theorem operands {left right : Expr} {l r : Ty} {u v : State}
    (h : Settled fin (node.id :: (left.ids ++ right.ids)) y s b s') (hl : Quiet (valued left.node (expr ctx left none)) s l u)
    (hr : Quiet (valued right.node (expr ctx right none)) u r v) (hlast : Touches [node.id] v s') :
    Settled fin left.ids (expr ctx left none) s l u ∧ Settled fin right.ids (expr ctx right none) u r v := by
  have hn := h.nodup
  have hright := (valued_gathers (expr_effect ctx right none) hr.run).toTouches
  have hleft := (valued_gathers (expr_effect ctx left none) hl.run).toTouches
  exact ⟨h.first (quiet_valued.1 hl).1 (hright.append hlast) (by grind) (by grind),
    h.part (quiet_valued.1 hr).1 hleft hlast (by grind) (by grind) (by grind)⟩

theorem binary {op : BinaryOp} {left right : Expr}
    (h : Settled fin (Expr.binary node op left right).ids (expr ctx (.binary node op left right) hint) s t s') :
    ∃ l u r v, Settled fin left.ids (expr ctx left none) s l u ∧ Settled fin right.ids (expr ctx right none) u r v := by
  have hrun := h.toQuiet
  rw [expr] at hrun
  rw [Expr.ids] at h
  obtain ⟨v, hv, rfl⟩ := quiet_typed.1 hrun
  obtain ⟨l, r, u, hl, hr, -⟩ := hv.binary (valued_gathers (expr_effect ctx right none)).adds
  exact ⟨l, u, r, v, h.operands hl hr (Touches.setType v node t)⟩

theorem index {object index : Expr}
    (h : Settled fin (Expr.index node object index).ids (expr ctx (.index node object index) hint) s t s') :
    ∃ o u i v, Settled fin object.ids (expr ctx object none) s o u ∧ Settled fin index.ids (expr ctx index none) u i v ∧
      (t = .unresolved ∨ ∃ getter, fin.info? node.id = some (.indexer getter)) := by
  have hrun := h.toQuiet
  rw [expr] at hrun
  rw [Expr.ids] at h
  obtain ⟨w, hw, rfl⟩ := quiet_typed.1 hrun
  obtain ⟨o, u, i, v, ho, hi, hfound⟩ := hw.elementValue (valued_gathers (expr_effect ctx index none)).adds
  have hlast : Touches [node.id] v (w.setType node t) := by
    rcases hfound with ⟨-, -, rfl⟩ | ⟨getter, -, -, -, -, -, rfl⟩
    · exact Touches.setType _ node t
    · exact (Touches.setInfo v node _).trans (Touches.setType _ node t)
  obtain ⟨hobject, hindex⟩ := h.operands ho hi hlast
  refine ⟨o, u, i, v, hobject, hindex, ?_⟩
  rcases hfound with ⟨-, ht, -⟩ | ⟨getter, -, -, -, -, -, rfl⟩
  · exact .inl ht
  · refine .inr ⟨getter, ?_⟩
    rw [h.agrees.info? List.mem_cons_self]
    simp [State.setType, State.setInfo]

/-- Where an element is assigned to, its object and its index are analysed, and a target that was found has the functions that
the object's type declares for elements. The index is let through by the one that reads; the one that writes takes one parameter
more. -/
theorem element_target {object index : Expr}
    (h : Settled fin (Expr.index node object index).ids (target ctx (.index node object index) asValue) s r s') :
    ∃ o u i v, Settled fin object.ids (expr ctx object none) s o u ∧ Settled fin index.ids (expr ctx index none) u i v ∧
      (r = none ∨ ∃ getter setter reads writes, ctx.method? o .indexerGet = .ok (some getter) ∧
        ctx.method? o .indexerSet = .ok (some setter) ∧ ctx.registry.funcType getter = .ok reads ∧
        ctx.registry.funcType setter = .ok writes ∧ ctx.AdmitsAll reads.params [⟨i, index.node⟩] ∧
        writes.params.length = reads.params.length + 1 ∧
        r = some (.callBased object.node.id o getter setter [index.node.id] reads.ret)) := by
  have hrun := h.toQuiet
  rw [target] at hrun
  rw [Expr.ids] at h
  obtain ⟨o, u, i, v, ho, hi, hfound⟩ := hrun.elementTarget (valued_gathers (expr_effect ctx index none)).adds
  have hlast : Touches [node.id] v s' := by
    rcases hfound with ⟨-, -, rfl⟩ | ⟨getter, setter, -, -, hq⟩
    · exact Touches.setType v node _
    · obtain ⟨reads, writes, -, -, -, -, -, rfl⟩ := hq.accessorTarget
      exact (Touches.setType v node _).trans (Touches.setType _ node _)
  obtain ⟨hobject, hindex⟩ := h.operands ho hi hlast
  refine ⟨o, u, i, v, hobject, hindex, ?_⟩
  rcases hfound with ⟨-, hr, -⟩ | ⟨getter, setter, hget, hset, hq⟩
  · exact .inl hr
  · obtain ⟨reads, writes, hreads, hwrites, hadm, hlen, hr, -⟩ := hq.accessorTarget
    exact .inr ⟨getter, setter, reads, writes, hget, hset, hreads, hwrites, hadm, hlen, hr⟩

theorem index_target {object index : Expr}
    (h : Settled fin (Expr.index node object index).ids (target ctx (.index node object index) asValue) s r s') :
    ∃ o u i v, Settled fin object.ids (expr ctx object none) s o u ∧ Settled fin index.ids (expr ctx index none) u i v := by
  obtain ⟨o, u, i, v, ho, hi, -⟩ := h.element_target
  exact ⟨o, u, i, v, ho, hi⟩

theorem isTest {value : Expr} {ty : TypeExpr}
    (h : Settled fin (Expr.isTest node value ty).ids (expr ctx (.isTest node value ty) hint) s t s') :
    ∃ v u, Settled fin value.ids (expr ctx value none) s v u := by
  have hrun := h.toQuiet
  have hn := h.nodup
  rw [expr] at hrun
  rw [Expr.ids] at hn
  obtain ⟨x, hx, rfl⟩ := quiet_typed.1 hrun
  obtain ⟨v, u, tested, w, hv, ht, -, hfound⟩ := hx.isTest
  have hlast : Touches [node.id] w (x.setType node t) := by
    rcases hfound with ⟨-, rfl⟩ | ⟨id, levels, -, rfl⟩
    · exact Touches.setType _ node t
    · exact (Touches.setInfo w node _).trans (Touches.setType _ node t)
  have htype := (typeExpr_effect ctx ty ht.run).toTouches
  exact ⟨v, u, h.first (quiet_valued.1 hv).1 (htype.append hlast) (by grind [Expr.ids]) (by grind)⟩

/-- What stands before a dot is settled where nothing after the member look-up touches its nodes. -/
theorem receiver_of_memberUse {object : Expr} {use : MemberUse} {w : State}
    (hn : (Expr.member node object name typeArgs).ids.Nodup) (hf : Blank (Expr.member node object name typeArgs).ids s)
    (ha : Agrees fin object.ids s')
    (hq : Quiet (memberUse ctx node object.node (receiver ctx object (expr ctx object none)) name typeArgs) s use w)
    (hlast : Touches [node.id] w s') : ∃ r u, Settled fin object.ids (receiver ctx object (expr ctx object none)) s r u := by
  rw [Expr.ids] at hn
  obtain ⟨r, u, args, v, hr, hargs, hfound⟩ := hq.memberUse
  have hmember : Touches [] v w := by
    cases r with
    | type ty => exact Keeps.touches (memberOf_gathers _ _ _ _ _) hfound.run
    | value ty => exact Keeps.touches (memberOf_gathers _ _ _ _ _) hfound.run
  have htypes := (typeExprs_effect ctx typeArgs hargs.run).toTouches
  exact ⟨r, u, hr, by grind, hf.subset (by grind [Expr.ids]),
    ha.back ((htypes.append hmember).append hlast) (List.Subset.refl _) (by grind)⟩

theorem member {object : Expr}
    (h : Settled fin (Expr.member node object name typeArgs).ids (expr ctx (.member node object name typeArgs) hint)
      s t s') :
    ∃ use u, Quiet (memberUse ctx node object.node (receiver ctx object (expr ctx object none)) name typeArgs) s use u ∧
      Touches [node.id] u s' := by
  have hrun := h.toQuiet
  rw [expr] at hrun
  obtain ⟨w, hw, rfl⟩ := quiet_typed.1 hrun
  obtain ⟨m, u, hm, hfound⟩ := hw.memberValue
  have hinfo : Touches [node.id] u w := by
    cases m with
    | storage storage ty =>
      obtain ⟨-, rfl⟩ := hfound
      exact Touches.setInfo u node _
    | func f object => exact (funcValue_gathers (R := ExprEffect) f hfound.run).toTouches
    | unresolved =>
      obtain ⟨-, rfl⟩ := hfound
      exact Touches.refl _ _
  exact ⟨m, u, hm, hinfo.trans (Touches.setType w node t)⟩

theorem member_target {object : Expr}

    (h : Settled fin (Expr.member node object name typeArgs).ids (target ctx (.member node object name typeArgs) asValue)
      s r s') :
    ∃ use u, Quiet (memberUse ctx node object.node (receiver ctx object (expr ctx object none)) name typeArgs) s use u ∧
      Touches [node.id] u s' := by
  have hrun := h.toQuiet
  rw [target] at hrun
  obtain ⟨m, u, hm, hfound⟩ := hrun.memberTarget
  refine ⟨m, u, hm, ?_⟩
  rcases hfound with ⟨storage, ty, -, -, -, rfl⟩ | ⟨-, -, rfl⟩
  · exact (Touches.setInfo u node _).trans (Touches.setType _ node _)
  · exact Touches.setType u node _

end Settled

/-- What is called, settled up to what the call itself notes for it: a function that is called by its name is noted as that
by the call. -/
structure SettledCallee (fin : NodeMap) (ctx : Context) (e : Expr) (s : State) (c : Callable) (s' : State) : Prop
    extends Quiet (callable ctx e (expr ctx e none)) s c s' where
  nodup : e.ids.Nodup
  blank : Blank e.ids s
  inside : Agrees fin e.ids.tail s'
  own : match c with
    | .func _ _ => ∃ f ty, fin.info? e.node.id = some (.func f) ∧ fin.ty? e.node.id = some ty
    | .value _ => Agrees fin [e.node.id] s'
    | .unresolved => False

theorem SettledCallee.member {object : Expr} {name : String} {typeArgs : List TypeExpr} {c : Callable}
    (h : SettledCallee fin ctx (.member node object name typeArgs) s c s') :
    ∃ use u, Quiet (memberUse ctx node object.node (receiver ctx object (expr ctx object none)) name typeArgs) s use u ∧
      Touches [node.id] u s' := by
  have hrun := h.toQuiet
  rw [callable] at hrun
  obtain ⟨m, u, hm, hfound⟩ := hrun.memberCallable
  refine ⟨m, u, hm, ?_⟩
  cases m with
  | func f object =>
    obtain ⟨-, rfl⟩ := hfound
    exact Touches.refl _ _
  | storage storage ty =>
    obtain ⟨-, rfl⟩ := hfound
    exact (Touches.setInfo u node _).trans (Touches.setType _ node _)
  | unresolved =>
    obtain ⟨-, rfl⟩ := hfound
    exact Touches.setType u node _

namespace Settled

variable {hint : Option Ty} {operand : Expr}

theorem plainUnary {op : UnaryOp} (hop : op.step? = none)
    (h : Settled fin (Expr.unary node op operand).ids (expr ctx (.unary node op operand) hint) s t s') :
    ∃ ty u, Settled fin operand.ids (expr ctx operand none) s ty u := by
  have hrun := h.toQuiet
  have hn := h.nodup
  rw [expr] at hrun
  rw [Expr.ids] at hn
  obtain ⟨w, hw, rfl⟩ := quiet_typed.1 hrun
  have hplain : Quiet (Check.plainUnary node op (valued operand.node (expr ctx operand none))) s t w := by
    cases op <;> first | exact hw | cases hop
  obtain ⟨ty, hty, -, -⟩ := hplain.plainUnary
  exact ⟨ty, w, h.first (quiet_valued.1 hty).1 (Touches.setType w node t) (by grind [Expr.ids]) (by grind)⟩

/-- A target that was found is a variable that is named, a member, or an element whose setter takes something to store. -/
theorem target_found {target : Target}
    (h : Settled fin e.ids (Check.target ctx e (expr ctx e none)) s (some target) s') :
    (∃ node name typeArgs args u storage ty declared, e = .identifier node name typeArgs ∧
        Quiet (typeExprs ctx typeArgs) s args u ∧ ctx.lookup u.frame u.globals name args false = .ok (.var storage ty declared) ∧
        target = .direct storage declared) ∨
      (∃ node object name typeArgs u storage ty, e = .member node object name typeArgs ∧
        Quiet (memberUse ctx node object.node (receiver ctx object (expr ctx object none)) name typeArgs) s
          (.storage storage ty) u ∧ target = .direct storage ty) ∨
      ∃ node object index objectTy getter setter reads writes, e = .index node object index ∧
        target = .callBased object.node.id objectTy getter setter [index.node.id] reads ∧
        ctx.registry.funcType setter = .ok writes ∧ writes.params ≠ [] := by
  have hrun := h.toQuiet
  have hp := hrun.target_isPlace
  cases e with
  | identifier node name typeArgs =>
    rw [Check.target] at hrun
    obtain ⟨args, u, storage, ty, declared, hargs, hm, hr, -⟩ := hrun.identifierTarget
    cases hr
    exact .inl ⟨node, name, typeArgs, args, u, storage, ty, declared, rfl, hargs, hm, rfl⟩
  | member node object name typeArgs =>
    rw [Check.target] at hrun
    obtain ⟨_, u, huse, ⟨storage, ty, rfl, -, hr, -⟩ | ⟨-, hr, -⟩⟩ := hrun.memberTarget
    · cases hr
      exact .inr (.inl ⟨node, object, name, typeArgs, u, storage, ty, rfl, huse, rfl⟩)
    · cases hr
  | index node object index =>
    rw [Check.target] at hrun
    obtain ⟨_, _, _, _, -, -, ⟨-, hr, -⟩ | ⟨getter, setter, -, -, hq⟩⟩ :=
      hrun.elementTarget (valued_gathers (expr_effect ctx index none)).adds
    · cases hr
    · obtain ⟨reads, writes, -, hwrites, -, hlen, hr, -⟩ := hq.accessorTarget
      cases hr
      refine .inr (.inr ⟨node, object, index, _, getter, setter, _, writes, rfl, rfl, hwrites, fun hnil => ?_⟩)
      rw [hnil] at hlen
      cases hlen
  | _ => cases hp

/-- The operator of a step takes nothing and returns what can be stored in the target. -/
theorem step_found {op : StepOp} {before : Bool} (hk : Known fin)
    (h : Settled fin (Expr.unary node (.step op before) operand).ids (expr ctx (.unary node (.step op before) operand) hint)
      s t s') :
    ∃ target operator ret u, Settled fin operand.ids (Check.target ctx operand (expr ctx operand none)) s (some target) u ∧
      fin.info? node.id = some (.step target operator before) ∧ ctx.registry.operatorSignature operator = .ok (0, ret) ∧
      ctx.registry.stepFits target target.ty ret = .ok true := by
  have hknown := h.known hk
  have hrun := h.toQuiet
  have hn := h.nodup
  rw [expr] at hrun
  rw [Expr.ids] at hn
  obtain ⟨w, hw, rfl⟩ := quiet_typed.1 hrun
  obtain ⟨r, u, hr, hfound⟩ := Quiet.step hw
  cases r with
  | none => exact absurd hfound.1 hknown
  | some target =>
    rcases hfound.stepTarget with ⟨-, ht, -⟩ | ⟨operator, ret, -, hsig, hfits, -, rfl⟩
    · exact absurd ht hknown
    · have hlast := ((Touches.written u target).append (Touches.setInfo _ node (.step target operator before))).append
        (Touches.setType _ node t)
      refine ⟨target, operator, ret, u, h.first hr hlast (by grind [Expr.ids]) (by grind), ?_, hsig, hfits⟩
      rw [h.agrees.info? (by simp [Expr.ids])]
      simp [State.setType, State.setInfo]

theorem step {op : StepOp} {before : Bool} (hk : Known fin)
    (h : Settled fin (Expr.unary node (.step op before) operand).ids (expr ctx (.unary node (.step op before) operand) hint)
      s t s') :
    ∃ target operator u, Settled fin operand.ids (Check.target ctx operand (expr ctx operand none)) s (some target) u ∧
      fin.info? node.id = some (.step target operator before) := by
  obtain ⟨target, operator, ret, u, htarget, hinfo, -⟩ := h.step_found hk
  exact ⟨target, operator, u, htarget, hinfo⟩

theorem assign {left value : Expr} (hk : Known fin)
    (h : Settled fin (Expr.assign node left value).ids (expr ctx (.assign node left value) hint) s t s') :
    ∃ target expected found u v, Settled fin left.ids (Check.target ctx left (expr ctx left none)) s (some target) u ∧
      Settled fin value.ids (expr ctx value (some expected)) u found v ∧ found ≠ .void ∧
      ctx.registry.storedType target = .ok expected ∧ ctx.Admits expected found ∧
      fin.info? node.id = some (.assign target) := by
  have hknown := h.known hk
  have hrun := h.toQuiet
  have hn := h.nodup
  rw [expr] at hrun
  rw [Expr.ids] at hn
  obtain ⟨w, hw, rfl⟩ := quiet_typed.1 hrun
  obtain ⟨r, u, hr, hfound⟩ := hw.assign fun hint => (valued_gathers (expr_effect ctx value hint)).adds
  cases r with
  | none => exact absurd hfound.1 hknown
  | some target =>
    obtain ⟨expected, found, v, hstored, hv, hadm, -, rfl⟩ := hfound
    have hlast := ((Touches.written v target).append (Touches.setInfo _ node (.assign target))).append
      (Touches.setType _ node t)
    have hvalue := (valued_gathers (expr_effect ctx value (some expected)) hv.run).toTouches
    obtain ⟨hv, hvoid⟩ := quiet_valued.1 hv
    have hleft := (target_effect ctx left _ (expr_effect ctx left none) hr.run).toTouches
    refine ⟨target, expected, found, u, v, h.first hr (hvalue.append hlast) (by grind [Expr.ids]) (by grind),
      h.part hv hleft hlast (by grind [Expr.ids]) (by grind) (by grind), hvoid, hstored, hadm, ?_⟩
    rw [h.agrees.info? (by simp [Expr.ids])]
    simp [State.setType, State.setInfo]

theorem exprs_cons {es : List Expr} {hints : List (Option Ty)} {ts : List Ty}
    (h : Settled fin (Expr.idsOfList (e :: es)) (exprs ctx (e :: es) hints) s ts s') :
    ∃ t us u, Settled fin e.ids (expr ctx e (hints.headD none)) s t u ∧ t ≠ .void ∧
      Settled fin (Expr.idsOfList es) (exprs ctx es hints.tail) u us s' ∧ ts = t :: us := by
  have hn := h.nodup
  rw [Expr.idsOfList] at hn
  obtain ⟨t, us, u, ht, hus, rfl⟩ := h.toQuiet.exprs_cons
  obtain ⟨ht, hvoid⟩ := quiet_valued.1 ht
  have hrest := (exprs_effect ctx es hints.tail hus.run).toTouches
  have hfirst := (expr_effect ctx e _ ht.run).toTouches
  refine ⟨t, us, u, h.first ht hrest (by grind [Expr.idsOfList]) (by grind), hvoid, ?_, rfl⟩
  exact h.part hus hfirst (Touches.refl [] s') (by grind [Expr.idsOfList]) (by grind) (by grind)

/-- The types that are found for several expressions are those that are noted for them, and none of them is `void`. -/
theorem exprs_noted : ∀ {es : List Expr} {hints : List (Option Ty)} {ts : List Ty} {s s' : State},
    Settled fin (Expr.idsOfList es) (exprs ctx es hints) s ts s' →
      List.Forall₂ (fun e t => fin.ty? e.node.id = some t ∧ t ≠ .void) es ts
  | [], hints, ts, s, s', h => by
    have hrun := h.toQuiet
    rw [exprs] at hrun
    obtain ⟨rfl, -⟩ := quiet_pure.1 hrun
    exact .nil
  | e :: es, hints, ts, s, s', h => by
    obtain ⟨t, us, u, ht, hvoid, hus, rfl⟩ := h.exprs_cons
    exact .cons ⟨ht.noted, hvoid⟩ hus.exprs_noted

end Settled

/-- What is called as a value has been noted with the type it is called with. -/
theorem SettledCallee.noted (h : SettledCallee fin ctx e s (.value t) s') : fin.ty? e.node.id = some t := by
  have hrun := h.toQuiet
  have hq : s'.nodes.ty? e.node.id = some t := by
    cases e with
    | identifier node name typeArgs =>
      rw [callable] at hrun
      obtain ⟨args, u, meaning, -, -, ⟨f, -, hc, -⟩ | ⟨ty, hc, hty⟩⟩ := hrun.identifierCallable
      · cases hc
      · cases hc
        obtain ⟨v, -, rfl⟩ := quiet_typed.1 hty
        simp [State.setType, Expr.node]
    | member node object name typeArgs =>
      rw [callable] at hrun
      obtain ⟨m, u, -, hm⟩ := hrun.memberCallable
      cases m with
      | func f object => cases hm.1
      | storage storage ty =>
        obtain ⟨hc, rfl⟩ := hm
        cases hc
        simp [State.setType, Expr.node]
      | unresolved => cases hm.1
    | _ =>
      rw [callable_of_not_named rfl] at hrun
      obtain ⟨hr, hs⟩ := hrun
      simp only [bind_eq_ok, pure_eq_ok] at hr
      obtain ⟨_, v, h₁, hc, rfl⟩ := hr
      cases hc
      have hty := (quiet_valued.1 ⟨h₁, hs⟩).1
      rw [expr] at hty
      obtain ⟨v, -, rfl⟩ := quiet_typed.1 hty
      simp [State.setType, Expr.node]
  exact (Agrees.ty? h.own (List.mem_singleton_self _)).trans hq

/-- What is called has been noted with a type. -/
theorem SettledCallee.typed {c : Callable} (h : SettledCallee fin ctx e s c s') : ∃ ty, fin.ty? e.node.id = some ty := by
  cases c with
  | func f object =>
    obtain ⟨-, ty, -, hty⟩ := h.own
    exact ⟨ty, hty⟩
  | value ty => exact ⟨ty, h.noted⟩
  | unresolved => exact h.own.elim

/-- A call goes to a function or to a value, and its arguments fit the parameters. -/
theorem Settled.call {callee : Expr} {args : List Expr} {hint : Option Ty} (hk : Known fin)
    (h : Settled fin (Expr.call node callee args).ids (expr ctx (.call node callee args) hint) s t s') :
    ∃ c u hints types v, SettledCallee fin ctx callee s c u ∧
      Settled fin (Expr.idsOfList args) (exprs ctx args hints) u types v ∧
      ((∃ f params found g object sig, c = .func f object ∧ f.Completes params found g ∧
          fin.info? node.id = some (.call g object) ∧ ctx.registry.funcType g = .ok sig ∧
          ctx.AdmitsAll sig.params (Argument.zip (args.map Expr.node) types) ∧ t = sig.ret) ∨
        ∃ params, fin.info? node.id = some .callValue ∧ fin.ty? callee.node.id = some (.func t params) ∧
          ctx.AdmitsAll params (Argument.zip (args.map Expr.node) types)) := by
  have hknown := h.known hk
  have hrun := h.toQuiet
  have hn := h.nodup
  rw [expr] at hrun
  rw [Expr.ids, callee.ids_eq_cons] at hn
  obtain ⟨w, hw, rfl⟩ := quiet_typed.1 hrun
  have hlast := Touches.setType w node t
  have hargs : ∀ {hints types u v}, Quiet (exprs ctx args hints) u types v → Touches (Expr.idsOfList args) u v :=
    fun hq => (exprs_effect ctx args _ hq.run).toTouches
  have htail : callee.ids.tail.Sublist (Expr.call node callee args).ids := by grind [Expr.ids]
  have hlist : (Expr.idsOfList args).Sublist (Expr.call node callee args).ids := by grind [Expr.ids]
  have hcallee : callee.ids.Nodup := by grind [callee.ids_eq_cons]
  have hblank : Blank callee.ids s := h.blank.subset (by grind [Expr.ids])
  obtain ⟨c, u, hc, hfound⟩ := hw.call (exprs_effect ctx args)
  have hfirst := (callable_effect ctx callee _ (expr_effect ctx callee none) hc.run).toTouches
  cases c with
  | func f object =>
    obtain ⟨written, types, v, -, htypes, ⟨-, ht, -⟩ | ⟨g, sig, hg, hsig, hadm, ht, rfl⟩⟩ := hfound.callFunc
    · exact absurd ht hknown
    · have hown := ((Touches.setType v callee.node sig.ty).trans (Touches.setInfo _ callee.node (.func g))).append
        ((Touches.setInfo _ node (.call g object)).trans hlast)
      refine ⟨_, u, _, types, v, ⟨hc, hcallee, hblank,
        h.agrees.back ((hargs htypes).append hown) htail.subset (by grind), g, sig.ty, ?_⟩,
        h.part htypes hfirst hown hlist (by grind [callee.ids_eq_cons]) (by grind),
        .inl ⟨f, _, _, g, object, sig, rfl, hg, ?_, hsig, hadm, ht⟩⟩
      · have hmem : callee.node.id ∈ (Expr.call node callee args).ids := by grind [Expr.ids, callee.ids_eq_cons]
        have hne : node.id ≠ callee.node.id := by grind
        rw [h.agrees.info? hmem, h.agrees.ty? hmem]
        simp [State.setType, State.setInfo, hne]
      · rw [h.agrees.info? (by simp [Expr.ids])]
        simp [State.setType, State.setInfo]
  | value ty =>
    obtain ⟨-, ht, -⟩ | ⟨params, types, v, rfl, htypes, hadm, rfl⟩ :=
      hfound.callValue fun hints => (exprs_effect ctx args hints).adds
    · exact absurd ht hknown
    · have hown := (Touches.setInfo v node .callValue).trans hlast
      have hsettled : SettledCallee fin ctx callee s (.value (.func t params)) u :=
        ⟨hc, hcallee, hblank, h.agrees.back ((hargs htypes).append hown) htail.subset (by grind),
          h.agrees.back ((hargs htypes).append hown) (by grind [Expr.ids, callee.ids_eq_cons]) (by grind)⟩
      refine ⟨_, u, _, types, v, hsettled, h.part htypes hfirst hown hlist (by grind [callee.ids_eq_cons]) (by grind),
        .inr ⟨params, ?_, hsettled.noted, hadm⟩⟩
      rw [h.agrees.info? (by simp [Expr.ids])]
      simp [State.setType, State.setInfo]
  | unresolved => exact absurd hfound.1 hknown

end Check

end ScriptCheck

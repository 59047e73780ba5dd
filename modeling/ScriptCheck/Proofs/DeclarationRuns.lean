import ScriptCheck.Proofs.Arity
import ScriptCheck.Proofs.DeclLists
import ScriptCheck.Proofs.Runs

/-!
# Runs through declarations

The record of a function or a field is made of the types that it mentions, and that of a type is put in after those of its
members. So what is said of a run through the declarations of a script is put together from what is said of these steps. A
`DeclWalk` says it of each step, and there is one walk along the declarations for all of them.
-/

namespace ScriptCheck

namespace Check

variable {ctx : Context} {s s' : State} {m m' : Module} {outer : ItemId}

/-- A run of the declaration of a function. -/
theorem declareFunc_run {decl : FuncDecl} {isStatic : Bool} (h : declareFunc ctx outer decl isStatic m s = .ok (m', s')) :
    ∃ params ret u,
      paramRecords (ctx.within ⟨decl.idUnder outer, decl.typeParams.map .text, false⟩) decl.params s = .ok (params, u) ∧
      typeExpr (ctx.within ⟨decl.idUnder outer, decl.typeParams.map .text, false⟩) decl.ret u = .ok (ret, s') ∧
      (decl.idUnder outer).arity = (decl.typeParams.map Name.text).length ∧ (decl.idUnder outer).moduleName = m.name ∧
      m' = m.putFunc ⟨decl.idUnder outer, decl.typeParams.map .text, params, ret, decl.isSequence, isStatic⟩ := by
  simp only [declareFunc, bind_eq_ok, lift_eq_ok] at h
  obtain ⟨params, u, hparams, ret, v, hret, record, _, ⟨hrecord, rfl⟩, hadd, rfl⟩ := h
  obtain ⟨harity, rfl⟩ := FuncRecord.check_eq_ok.1 hrecord
  obtain ⟨hname, rfl⟩ := Module.addFunc_eq_ok.1 hadd
  exact ⟨params, ret, u, hparams, hret, harity, hname, rfl⟩

/-- A run of the declaration of a field. -/
theorem declareField_run {decl : FieldDecl} (h : declareField ctx outer decl m s = .ok (m', s')) :
    ∃ ty, typeExpr ctx decl.ty s = .ok (ty, s') ∧ (decl.idUnder outer).arity = 0 ∧ (decl.idUnder outer).moduleName = m.name ∧
      m' = m.putVar ⟨decl.idUnder outer, ty, decl.isStatic⟩ := by
  simp only [declareField, bind_eq_ok, lift_eq_ok] at h
  obtain ⟨ty, u, hty, record, _, ⟨hrecord, rfl⟩, hadd, rfl⟩ := h
  obtain ⟨harity, rfl⟩ := VarRecord.check_eq_ok.1 hrecord
  obtain ⟨hname, rfl⟩ := Module.addVar_eq_ok.1 hadd
  exact ⟨ty, hty, harity, hname, rfl⟩

end Check

/-- `R` holds between the module and the state before each step of a run through declarations and after it. -/
structure DeclWalk {δ : Type} (l : DeclLists δ) (R : Context → List δ → Module × State → Module × State → Prop) : Prop where
  refl : ∀ ctx a, R ctx [] a a
  trans {ctx : Context} {ds es : List δ} {a b c : Module × State} : R ctx ds a b → R ctx es b c → R ctx (ds ++ es) a c
  func_run {ctx : Context} {outer : ItemId} {decl : FuncDecl} {isStatic : Bool} {a b : Module × State} :
    Check.declareFunc ctx outer decl isStatic a.1 a.2 = .ok b → R ctx (l.func outer ctx.enclosing decl) a b
  field_run {ctx : Context} {id : ItemId} {decl : FieldDecl} {a b : Module × State} :
    Check.declareField ctx id decl a.1 a.2 = .ok b → R ctx (l.member id ctx.enclosing (.field decl)) a b
  case_run : ∀ ctx id decl a, R ctx (l.member id ctx.enclosing (.case decl)) a a
  stmt_run : ∀ ctx st a, R ctx (l.stmt ctx.root ctx.enclosing st) a a
  type_run {ctx : Context} {outer : ItemId} {node : Node} {kind : DeclKind} {name : String} {typeParams : List String}
    {base : Option TypeExpr} {ms : List Member} {found : Option Ty} {u : State} {a b : Module × State} :
    let inside := outer.typeScope name typeParams
    Check.declaredBase (ctx.within inside) base a.2 = .ok (found, u) →
    R (ctx.within inside) (l.members inside.id (inside :: ctx.enclosing) ms) (a.1, u) b →
    inside.id.arity = inside.typeParams.length → inside.id.moduleName = b.1.name →
    R ctx (l.type outer ctx.enclosing (.mk node kind name typeParams base ms)) a
      (b.1.putType ⟨inside.id, kind.typeKind, inside.typeParams, found, Check.enumCases ms⟩, b.2)

namespace DeclWalk

open Check

variable {δ : Type} {l : DeclLists δ} {R : Context → List δ → Module × State → Module × State → Prop} (w : DeclWalk l R)

include w

mutual

/-- The record of a type is put in after those of its members. -/
theorem type_keeps : ∀ (decl : TypeDecl) {ctx : Context} {outer : ItemId} {a b : Module × State},
    declareType ctx outer decl a.1 a.2 = .ok b → R ctx (l.type outer ctx.enclosing decl) a b
  | .mk node kind name typeParams base members, ctx, outer, a, b, h => by
    obtain ⟨m', t⟩ := b
    simp only [declareType, bind_eq_ok, lift_eq_ok] at h
    obtain ⟨found, u, hbase, mid, v, hmembers, record, _, ⟨hrecord, rfl⟩, hadd, rfl⟩ := h
    obtain ⟨harity, rfl⟩ := TypeRecord.check_eq_ok.1 hrecord
    obtain ⟨hname, rfl⟩ := Module.addType_eq_ok.1 hadd
    exact w.type_run hbase (members_keeps members (a := (a.1, u)) hmembers) harity hname

/-- Members are declared in order. -/
theorem members_keeps : ∀ (members : List Member) {ctx : Context} {id : ItemId} {a b : Module × State},
    declareMembers ctx id members a.1 a.2 = .ok b → R ctx (l.members id ctx.enclosing members) a b
  | [], ctx, id, a, b, h => by
    rw [declareMembers] at h
    cases h
    exact (l.members_nil id _).symm ▸ w.refl ctx a
  | x :: xs, ctx, id, a, b, h => by
    rw [declareMembers] at h
    obtain ⟨mid, u, h₁, h₂⟩ := bind_eq_ok.1 h
    rw [l.members_cons]
    exact w.trans (member_keeps x h₁) (members_keeps xs (a := (mid, u)) h₂)

/-- A member is declared by its own rule. -/
theorem member_keeps : ∀ (x : Member) {ctx : Context} {id : ItemId} {a b : Module × State},
    declareMember ctx id x a.1 a.2 = .ok b → R ctx (l.member id ctx.enclosing x) a b
  | .type decl, ctx, id, a, b, h => by
    rw [declareMember] at h
    exact (l.member_type id _ decl).symm ▸ type_keeps decl h
  | .func decl, ctx, id, a, b, h => by
    rw [declareMember] at h
    exact (l.member_func id _ decl).symm ▸ w.func_run h
  | .field decl, ctx, id, a, b, h => by
    rw [declareMember] at h
    exact w.field_run h
  | .case decl, ctx, id, a, b, h => by
    rw [declareMember] at h
    cases h
    exact w.case_run ctx id decl a

end

/-- A script is declared from its first declaration to its last, and its statements declare nothing yet. -/
theorem script_keeps {ctx : Context} {listed : Script → List δ} (hl : l.Script ctx.root ctx.enclosing listed) :
    ∀ {script : Script} {a b : Module × State}, declareElements ctx script a.1 a.2 = .ok b → R ctx (listed script) a b
  | [], a, b, h => by
    cases h
    exact hl.nil.symm ▸ w.refl ctx a
  | .type decl :: rest, a, b, h => by
    rw [declareElements] at h
    obtain ⟨mid, u, h₁, h₂⟩ := bind_eq_ok.1 h
    rw [hl.type]
    exact w.trans (w.type_keeps decl h₁) (script_keeps hl (a := (mid, u)) h₂)
  | .func decl :: rest, a, b, h => by
    rw [declareElements] at h
    obtain ⟨mid, u, h₁, h₂⟩ := bind_eq_ok.1 h
    rw [hl.func]
    exact w.trans (w.func_run h₁) (script_keeps hl (a := (mid, u)) h₂)
  | .stmt st :: rest, a, b, h => by
    rw [declareElements] at h
    rw [hl.stmt]
    exact w.trans (w.stmt_run ctx st a) (script_keeps hl h)

end DeclWalk

end ScriptCheck

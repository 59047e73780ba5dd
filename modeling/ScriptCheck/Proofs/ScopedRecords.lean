import ScriptCheck.Proofs.ModuleOrder
import ScriptCheck.Proofs.RecordLists

/-!
# The type parameters in a script's records

A type that is written in a declaration means a type parameter only where a declaration around introduces it, or where a type
around is seen from inside. So a record mentions only type parameters of its own declaration and of those on the way to it,
whether or not problems were reported on the way. Fitting arguments replace each of them, provided that look-ups answer for
the script's declarations as the script makes them (`Registry.Shows`). That holds where no other module has the script's name.
A second module of that name can hide what a declaration introduces: a type under the id of a function is asked first.
-/

namespace ScriptCheck

/-- An unknown type mentions no type parameter. -/
theorem Ty.unresolved_allParams (P : ParamRef → Prop) : Ty.unresolved.AllParams P := by simp [Ty.AllParams]

/-! ### Answers -/

namespace Check

variable {α β : Type} {P : α → Prop} {Q : β → Prop}
variable {R : Ty → Prop}

/-- Every run of the step that ends has an answer of which `P` holds, whether or not something is reported. -/
def Answers (P : α → Prop) (x : Check α) : Prop := ∀ ⦃s a s'⦄, x s = .ok (a, s') → P a

namespace Answers

theorem pure {a : α} (h : P a) : Answers P (pure a) := by
  intro s b s' hrun
  obtain ⟨rfl, -⟩ := pure_eq_ok.1 hrun
  exact h

theorem bind {x : Check α} {f : α → Check β} (hx : Answers P x) (hf : ∀ a, P a → Answers Q (f a)) : Answers Q (x >>= f) := by
  intro s b s' hrun
  obtain ⟨a, u, ha, hb⟩ := bind_eq_ok.1 hrun
  exact hf a (hx ha) hb

/-- What the first step answers does not matter. -/
theorem after {x : Check α} {f : α → Check β} (hf : ∀ a, Answers Q (f a)) : Answers Q (x >>= f) :=
  bind (P := fun _ => True) (fun _ _ _ _ => trivial) fun a _ => hf a

theorem lift {x : Except Fault α} (hx : ∀ a, x = .ok a → P a) : Answers P (liftM x : Check α) :=
  fun _ a _ hrun => hx a (lift_eq_ok.1 hrun).1

end Answers

variable {ctx : Context}

theorem reject_answers (hu : R .unresolved) (problem : Problem) (node : Node) :
    Answers R (reject problem node) := .after fun _ => .pure hu

theorem resolved_answers {node : Node} {x : Check Ty} (hx : Answers R x) : Answers R (resolved node x) :=
  hx.bind fun _ ht => .after fun _ => .pure ht

theorem settle_answers (hu : R .unresolved) {node : Node} {found : Except Fault (Except Problem Ty)}
    (hf : ∀ t, found = .ok (.ok t) → R t) : Answers R (settle node found) := by
  refine (Answers.lift fun _ hr => hr).bind fun r hr => ?_
  cases r with
  | ok t => exact .pure (hf t hr)
  | error problem => exact reject_answers hu problem node

mutual

/-- A written type mentions only type parameters that are in scope. -/
theorem typeExpr_scoped (hn : ctx.Nests) : ∀ e : TypeExpr, Answers (Ty.ScopedIn ctx.enclosing) (typeExpr ctx e)
  | .named node name args => by
    rw [typeExpr]
    exact resolved_answers ((typeExprs_scoped hn args).bind fun ts ha =>
      settle_answers (Ty.unresolved_allParams _) fun t => Context.namedType_scoped hn ha)
  | .member node parent name args => by
    rw [typeExpr]
    exact resolved_answers ((typeExpr_scoped hn parent).bind fun p hp => (typeExprs_scoped hn args).bind fun ts ha =>
      settle_answers (Ty.unresolved_allParams _) fun t => Context.memberType_inherits ha hp)
  | .func node ret params => by
    rw [typeExpr]
    exact resolved_answers ((typeExpr_scoped hn ret).bind fun r hr => (typeExprs_scoped hn params).bind fun ps hp =>
      .pure (Ty.Composed.func.2 ⟨hr, hp⟩))
  | .void node => by
    rw [typeExpr]
    exact resolved_answers (.pure Ty.Composed.void)
  | .var node => by
    rw [typeExpr]
    exact resolved_answers (reject_answers (Ty.unresolved_allParams _) _ _)

theorem typeExprs_scoped (hn : ctx.Nests) : ∀ es : List TypeExpr,
    Answers (fun ts => ∀ t ∈ ts, t.ScopedIn ctx.enclosing) (typeExprs ctx es)
  | [] => by
    rw [typeExprs]
    exact .pure (by simp)
  | e :: es => by
    rw [typeExprs]
    exact (typeExpr_scoped hn e).bind fun t ht => (typeExprs_scoped hn es).bind fun ts hts =>
      .pure (List.forall_mem_cons.2 ⟨ht, hts⟩)

end

theorem declaredBase_scoped (hn : ctx.Nests) (base : Option TypeExpr) :
    Answers (fun b => ∀ t ∈ b, t.ScopedIn ctx.enclosing) (declaredBase ctx base) := by
  cases base with
  | none => exact .pure (by simp)
  | some written =>
    refine (typeExpr_scoped hn written).bind fun ty ht => ?_
    split
    · exact .pure (by simp)
    · split
      · exact .pure (by simpa using ht)
      · exact .after fun _ => .pure (by simp)
    · exact .after fun _ => .pure (by simp)

theorem paramRecords_scoped (hn : ctx.Nests) : ∀ params : List FuncParam,
    Answers (fun rs : List ParamRecord => ∀ t ∈ rs.map (·.ty), t.ScopedIn ctx.enclosing) (paramRecords ctx params)
  | [] => by
    rw [paramRecords]
    exact .pure (by simp)
  | p :: ps => by
    rw [paramRecords]
    exact (typeExpr_scoped hn p.ty).bind fun t ht => (paramRecords_scoped hn ps).bind fun rs hrs =>
      .pure (List.forall_mem_cons.2 ⟨ht, hrs⟩)

end Check

/-! ### The place of a declaration -/

/-- A declaration on the way to one that is on the way is on the way itself. -/
theorem ItemId.enclosing_trans {a b c : ItemId} (hab : a ∈ b.enclosing) (hbc : b ∈ c.enclosing) : a ∈ c.enclosing := by
  obtain ⟨j, hj, rfl⟩ := List.mem_map.1 hbc
  obtain ⟨i, hi, rfl⟩ := List.mem_map.1 hab
  rw [List.mem_range] at hi hj
  simp only [List.length_take] at hi
  refine List.mem_map.2 ⟨i, List.mem_range.2 (by omega), ?_⟩
  simp only [List.take_take, ItemId.mk.injEq, true_and]
  congr 1
  omega

/-- Where declarations stand that are made under `outer`: all declarations around are on the way to `outer`, and each on that way
is around with the type parameters that it is known by. -/
structure Context.Under (outer : ItemId) (ctx : Context) : Prop where
  onWay : ∀ scope ∈ ctx.enclosing, scope.id ∈ outer.enclosing
  around : ∀ owner ∈ outer.enclosing, ∃ scope ∈ ctx.enclosing, scope.id = owner ∧ scope.typeParams = ctx.typeParamsOf owner

namespace Context.Under

variable {ctx : Context} {outer : ItemId}

theorem nests (h : ctx.Under outer) : ctx.Nests := by
  intro scope hscope _ owner howner name hname
  obtain ⟨found, hfound, hid, hparams⟩ := h.around owner (ItemId.enclosing_trans howner (h.onWay scope hscope))
  exact ⟨found, hfound, hid, hparams ▸ hname⟩

theorem onWay_child (h : ctx.Under outer) (name : Name) (k : Nat) {scope : DeclScope} (hs : scope ∈ ctx.enclosing) :
    scope.id ∈ (outer.child name k).enclosing := by
  rw [ItemId.enclosing_child]
  exact List.mem_append_left _ (h.onWay scope hs)

theorem onWay_within (h : ctx.Under outer) {name : Name} {k : Nat} {ps : List Name} {isType : Bool} :
    ∀ scope ∈ (ctx.within ⟨outer.child name k, ps, isType⟩).enclosing, scope.id ∈ (outer.child name k).enclosing := by
  refine List.forall_mem_cons.2 ⟨?_, fun scope => h.onWay_child name k⟩
  rw [ItemId.enclosing_child]
  exact List.mem_append_right _ (List.mem_singleton_self _)

/-- In a type that is known by the type parameters that it introduces. -/
theorem child (h : ctx.Under outer) {name : Name} {k : Nat} {ps : List Name} {isType : Bool}
    (hps : ctx.typeParamsOf (outer.child name k) = ps) :
    (ctx.within ⟨outer.child name k, ps, isType⟩).Under (outer.child name k) where
  onWay := h.onWay_within
  around := by
    rw [ItemId.enclosing_child]
    refine List.forall_mem_append.2 ⟨fun owner ho => ?_, List.forall_mem_singleton.2 ⟨_, List.mem_cons_self, rfl, hps.symm⟩⟩
    obtain ⟨scope, hscope, hknown⟩ := h.around owner ho
    exact ⟨scope, List.mem_cons_of_mem _ hscope, hknown⟩

end Context.Under

/-- A function is not seen from inside with its own type parameters. -/
theorem Context.Nests.within_func {ctx : Context} (h : ctx.Nests) (id : ItemId) (ps : List Name) :
    (ctx.within ⟨id, ps, false⟩).Nests := by
  intro scope hscope htype owner howner name hname
  rcases List.mem_cons.1 hscope with rfl | hscope
  · cases htype
  · exact ParamRef.introducedIn_cons.2 (.inr (h scope hscope htype owner howner name hname))

/-- What is in scope among declarations on the way to `id` may be mentioned in its record. -/
theorem Ty.ScopedIn.inScopeOf {around scopes : List DeclScope} {id : ItemId} {t : Ty} (h : t.ScopedIn around)
    (hids : ∀ scope ∈ around, scope.id ∈ id.enclosing) (hs : around ⊆ scopes) :
    t.AllParams (ParamRef.InScopeOf scopes id) := by
  intro ref hr
  obtain ⟨scope, hscope, howner, hname⟩ := h ref hr
  exact ⟨howner ▸ hids scope hscope, scope, hs hscope, howner, hname⟩

/-! ### Lists of records -/

namespace Record

/-- The types that the record mentions. -/
def types : Record → List Ty
  | type r => r.types
  | func r => r.types
  | var r => r.types

/-- The declaration with what it introduces, if the record is one of a type or a function. -/
def scope? : Record → Option DeclScope
  | type r => some ⟨r.id, r.typeParams, true⟩
  | func r => some ⟨r.id, r.typeParams, false⟩
  | var _ => none

/-- The record mentions only type parameters that declarations on the way to it introduce. -/
def Scoped (scopes : List DeclScope) (r : Record) : Prop := ∀ t ∈ r.types, t.AllParams (ParamRef.InScopeOf scopes r.id)

theorem Scoped.mono {scopes scopes' : List DeclScope} {r : Record} (h : r.Scoped scopes) (hs : scopes ⊆ scopes') :
    r.Scoped scopes' := fun t ht => (h t ht).mono fun _ hr => hr.mono hs

/-- Each record is scoped by the declarations around and those that have a record themselves. -/
def AllScoped (around : List DeclScope) (rs : List Record) : Prop := ∀ r ∈ rs, r.Scoped (around ++ rs.filterMap scope?)

namespace AllScoped

variable {around : List DeclScope} {rs rs' : List Record}

theorem nil : AllScoped around [] := fun _ h => nomatch h

theorem append (h : AllScoped around rs) (h' : AllScoped around rs') : AllScoped around (rs ++ rs') := by
  rw [AllScoped, List.filterMap_append]
  refine List.forall_mem_append.2 ⟨fun r hr => (h r hr).mono fun scope hs => ?_, fun r hr => (h' r hr).mono fun scope hs => ?_⟩
  · rw [← List.append_assoc]
    exact List.mem_append_left _ hs
  · simp only [List.mem_append] at hs ⊢
    tauto

/-- The record of a type comes after those of its members. -/
theorem close (record : TypeRecord) (h : AllScoped (⟨record.id, record.typeParams, true⟩ :: around) rs)
    (hr : (type record).Scoped (⟨record.id, record.typeParams, true⟩ :: around)) : AllScoped around (rs ++ [type record]) := by
  rw [AllScoped, List.filterMap_append]
  refine List.forall_mem_append.2 ⟨fun r hr => (h r hr).mono ?_, List.forall_mem_singleton.2 (hr.mono ?_)⟩
  · intro scope hs
    simp only [List.cons_append, List.mem_cons, List.mem_append] at hs
    simp only [scope?, List.filterMap_cons, List.filterMap_nil, List.mem_append, List.mem_singleton]
    tauto
  · intro scope hs
    rw [List.mem_cons] at hs
    simp only [scope?, List.filterMap_cons, List.filterMap_nil, List.mem_append, List.mem_singleton]
    tauto

end AllScoped

end Record

namespace Check

variable {ctx : Context}

theorem funcRecords_scoped {outer : ItemId} (h : ctx.Under outer) (decl : FuncDecl) (isStatic : Bool) :
    Answers (Record.AllScoped ctx.enclosing) (funcRecords ctx outer decl isStatic) := by
  have hinside : (ctx.within ⟨decl.idUnder outer, decl.typeParams.map .text, false⟩).Nests := h.nests.within_func _ _
  refine (paramRecords_scoped hinside decl.params).bind fun params hp => (typeExpr_scoped hinside decl.ret).bind fun ret hr =>
    .pure (List.forall_mem_singleton.2 fun t ht => ?_)
  refine (List.forall_mem_cons.2 ⟨hr, hp⟩ t ht).inScopeOf h.onWay_within ?_
  intro scope hs
  simp only [Record.scope?, List.filterMap_cons, List.filterMap_nil, List.mem_append, List.mem_singleton]
  exact (List.mem_cons.1 hs).symm

theorem fieldRecords_scoped {outer : ItemId} (h : ctx.Under outer) (decl : FieldDecl) :
    Answers (Record.AllScoped ctx.enclosing) (fieldRecords ctx outer decl) :=
  (typeExpr_scoped h.nests decl.ty).bind fun _ ht => .pure (List.forall_mem_singleton.2 (List.forall_mem_singleton.2
    (ht.inScopeOf (fun _ => h.onWay_child _ _) (List.subset_append_left _ _))))

mutual

theorem typeRecords_scoped (outer : ItemId) : ∀ (decl : TypeDecl) {ctx : Context}, ctx.Under outer →
    ctx.skeleton.Knows (decl.declared outer) → Answers (Record.AllScoped ctx.enclosing) (typeRecords ctx outer decl)
  | .mk node kind name typeParams base members, ctx, h, hk => by
    rw [TypeDecl.declared] at hk
    obtain ⟨hhead, hmembers⟩ := List.forall_mem_cons.1 hk
    have hknown : ctx.typeParamsOf (outer.child (.text name) typeParams.length) = typeParams.map .text := by
      rw [Context.typeParamsOf, hhead _ rfl]
    have hinside : (ctx.within ⟨outer.child (.text name) typeParams.length, typeParams.map .text, true⟩).Under _ :=
      h.child hknown
    rw [typeRecords]
    refine (declaredBase_scoped hinside.nests base).bind fun b hb =>
      (membersRecords_scoped _ members hinside hmembers).bind fun rs hrs => .pure (hrs.close ⟨_, _, _, _, _⟩ fun t ht => ?_)
    exact (hb t (Option.mem_toList.1 ht)).inScopeOf hinside.onWay (List.Subset.refl _)

theorem membersRecords_scoped (id : ItemId) : ∀ (members : List Member) {ctx : Context}, ctx.Under id →
    ctx.skeleton.Knows (Member.declaredOfList id members) →
    Answers (Record.AllScoped ctx.enclosing) (membersRecords ctx id members)
  | [], ctx, _, _ => by
    rw [membersRecords]
    exact .pure .nil
  | m :: ms, ctx, h, hk => by
    rw [Member.declaredOfList] at hk
    obtain ⟨hm, hms⟩ := List.forall_mem_append.1 hk
    rw [membersRecords]
    exact (memberRecords_scoped id m h hm).bind fun rs hrs => (membersRecords_scoped id ms h hms).bind fun rest hrest =>
      .pure (hrs.append hrest)

theorem memberRecords_scoped (id : ItemId) : ∀ (member : Member) {ctx : Context}, ctx.Under id →
    ctx.skeleton.Knows (member.declared id) → Answers (Record.AllScoped ctx.enclosing) (memberRecords ctx id member)
  | .type decl, ctx, h, hk => by
    rw [Member.declared] at hk
    rw [memberRecords]
    exact typeRecords_scoped id decl h hk
  | .func decl, ctx, h, _ => by
    rw [memberRecords]
    exact funcRecords_scoped h decl _
  | .field decl, ctx, h, _ => by
    rw [memberRecords]
    exact fieldRecords_scoped h decl
  | .case decl, ctx, _, _ => by
    rw [memberRecords]
    exact .pure .nil

end

theorem elementRecords_scoped (hroot : ctx.enclosing = []) : ∀ e : Element,
    ctx.skeleton.Knows (e.declared ctx.root) → Answers (Record.AllScoped []) (elementRecords ctx e) := by
  have htop : ctx.Under ctx.root :=
    ⟨by simp [hroot], by simp [ItemId.enclosing, Context.root, ItemId.root]⟩
  intro e hk
  cases e with
  | type decl => exact hroot ▸ typeRecords_scoped ctx.root decl htop hk
  | func decl => exact hroot ▸ funcRecords_scoped htop decl true
  | stmt st => exact .pure .nil

/-- The records of a script whose types are known as they are declared. -/
theorem records_scoped {ctx : Context} (hroot : ctx.enclosing = []) : ∀ script : Script,
    ctx.skeleton.Knows (script.declared ctx.root) →
    Answers (fun rss => Record.AllScoped [] rss.flatten) (script.mapM (elementRecords ctx))
  | [], _ => by
    rw [List.mapM_nil]
    exact .pure .nil
  | e :: rest, hk => by
    rw [Script.declared, List.flatMap_cons] at hk
    obtain ⟨he, hrest⟩ := List.forall_mem_append.1 hk
    rw [List.mapM_cons]
    exact (elementRecords_scoped hroot e he).bind fun rs hrs => (records_scoped hroot rest hrest).bind fun rss hrss =>
      .pure (hrs.append hrss)

end Check

/-! ### The module of a script -/

namespace Module

variable {m : Module} {rs : List Record}

/-- No id has two records. -/
structure OneEach (m : Module) : Prop where
  types : m.types.keys.Nodup
  funcs : m.funcs.keys.Nodup
  apart : ∀ {id r}, m.funcs.find? id = some r → m.types.find? id = none

/-- What a declaration introduces, as its record has it. -/
theorem OneEach.mem_scopes (h : m.OneEach) {scope : DeclScope} (hs : scope ∈ m.scopes) :
    (∃ r, m.types.find? scope.id = some r ∧ r.typeParams = scope.typeParams) ∨
      ∃ r, m.funcs.find? scope.id = some r ∧ r.typeParams = scope.typeParams := by
  rcases List.mem_append.1 hs with hs | hs
  · obtain ⟨e, he, rfl⟩ := List.mem_map.1 hs
    exact .inl ⟨e.2, (Table.mem_entries_iff h.types).1 he, rfl⟩
  · obtain ⟨e, he, rfl⟩ := List.mem_map.1 hs
    exact .inr ⟨e.2, (Table.mem_entries_iff h.funcs).1 he, rfl⟩

theorem oneEach_putAll (hids : (rs.map Record.id).Nodup) (name : String) : ((empty name).putAll rs).OneEach where
  types := holds_types.keys hids name
  funcs := holds_funcs.keys hids name
  apart {id r} hf := by
    by_contra ht
    obtain ⟨r', hr'⟩ := Option.ne_none_iff_exists'.1 ht
    have htype := (Table.mem_entries_iff (holds_types.keys hids name)).2 hr'
    have hfunc := (Table.mem_entries_iff (holds_funcs.keys hids name)).2 hf
    rw [holds_types.entries hids, List.mem_filterMap] at htype
    rw [holds_funcs.entries hids, List.mem_filterMap] at hfunc
    obtain ⟨a, ha, hpick⟩ := htype
    obtain ⟨b, hb, hpick'⟩ := hfunc
    have hsame : a = b :=
      List.inj_on_of_nodup_map hids ha hb ((holds_types.id a _ hpick).symm.trans (holds_funcs.id b _ hpick'))
    subst hsame
    cases a <;> cases hpick
    cases hpick'

theorem scopes_putAll (hids : (rs.map Record.id).Nodup) (name : String) :
    rs.filterMap Record.scope? ⊆ ((empty name).putAll rs).scopes := by
  intro scope hs
  obtain ⟨r, hr, hscope⟩ := List.mem_filterMap.1 hs
  rw [scopes, holds_types.entries hids, holds_funcs.entries hids, List.mem_append, List.mem_map, List.mem_map]
  cases r with
  | type r =>
    cases hscope
    exact .inl ⟨_, List.mem_filterMap.2 ⟨_, hr, rfl⟩, rfl⟩
  | func r =>
    cases hscope
    exact .inr ⟨_, List.mem_filterMap.2 ⟨_, hr, rfl⟩, rfl⟩
  | var r => cases hscope

theorem scoped_putAll (hids : (rs.map Record.id).Nodup) (h : Record.AllScoped [] rs) (name : String) :
    ((empty name).putAll rs).Scoped ((empty name).putAll rs).scopes := by
  have hall : ∀ r ∈ rs, r.Scoped ((empty name).putAll rs).scopes := fun r hr => (h r hr).mono (scopes_putAll hids name)
  refine ⟨fun e he => ?_, fun e he => ?_, fun e he => ?_⟩
  · rw [holds_types.entries hids] at he
    obtain ⟨r, hr, hpick⟩ := List.mem_filterMap.1 he
    cases r <;> cases hpick
    exact hall _ hr
  · rw [holds_funcs.entries hids] at he
    obtain ⟨r, hr, hpick⟩ := List.mem_filterMap.1 he
    cases r <;> cases hpick
    exact hall _ hr
  · rw [holds_vars.entries hids] at he
    obtain ⟨r, hr, hpick⟩ := List.mem_filterMap.1 he
    cases r <;> cases hpick
    exact hall _ hr

end Module

/-- The module of a script in which no declaration is reported twice has one record for each id, and these mention only type
parameters of their own declaration and of those around it. -/
theorem Check.declareElements_scoped {setup : Setup} {script : Script} {m : Module} {s s' : State}
    (hcollected : (script.collect (.root setup.moduleName)).diagnostics = [])
    (hrun : declareElements (setup.contextFor script) script (.empty setup.moduleName) s = .ok (m, s')) :
    m.OneEach ∧ m.Scoped m.scopes := by
  obtain ⟨rss, hrss, rfl, hids⟩ := exists_records hrun ((collect_silent_iff _ script).1 hcollected).2
  have hscoped : Record.AllScoped [] rss.flatten := records_scoped rfl script (Script.collect_knows hcollected) hrss
  exact ⟨Module.oneEach_putAll hids _, Module.scoped_putAll hids hscoped _⟩

/-! ### Look-ups that answer for a module -/

/-- Look-ups over these modules answer for the declarations of `m` as `m` has them, and so do those that ask what a type or
function introduces. -/
structure Registry.Shows (reg : Registry) (m : Module) : Prop where
  types : ∀ {id r}, m.types.find? id = some r → reg.type? id = some r
  funcs : ∀ {id r}, m.funcs.find? id = some r → reg.func? id = some r
  vars : ∀ {id r}, m.vars.find? id = some r → reg.var? id = some r
  params : ∀ scope ∈ m.scopes, reg.typeParams? scope.id = some scope.typeParams

namespace Registry

variable {reg : Registry} {m : Module}

/-- Fitting arguments replace every type parameter that a record of the module may mention. -/
theorem Shows.binds (h : reg.Shows m) (hc : m.Consistent) (hone : m.OneEach) {id : ItemId} {levels : Levels}
    (hf : levels.fits id = true) : reg.Binds id levels (ParamRef.InScopeOf m.scopes id) := by
  rintro ref ⟨howner, scope, hs, hid, hname⟩
  have harity : scope.typeParams.length = scope.id.arity := by
    rcases hone.mem_scopes hs with ⟨r, hr, hps⟩ | ⟨r, hr, hps⟩
    · exact hps ▸ (hc.types hr).2
    · exact hps ▸ (hc.funcs hr).2
  exact bindings_isSome_of_length hf howner (hid ▸ h.params scope hs) (hid ▸ harity) hname

namespace Distinct

/-- What one module finds under an id of its own is found among all of them. -/
theorem findSome?_of_mem (h : Distinct reg) (hm : m ∈ reg) {α : Type} {find : Module → Option α} {a : α}
    (ha : find m = some a) (hhome : ∀ m' ∈ reg, ∀ b, find m' = some b → m'.name = m.name) : reg.findSome? find = some a := by
  cases hfound : reg.findSome? find with
  | none => rw [List.findSome?_eq_none_iff.1 hfound m hm] at ha; cases ha
  | some b =>
    obtain ⟨m', hm', hb⟩ := List.exists_of_findSome?_eq_some hfound
    have hsame : m' = m := List.inj_on_of_nodup_map h.names hm' hm (hhome m' hm' b hb)
    rw [← ha, ← hb, hsame]

/-- Where no other module has its name, look-ups answer for the module. -/
theorem shows (h : Distinct reg) (hm : m ∈ reg) (hone : m.OneEach) : reg.Shows m := by
  have hhome := (h.built m hm).home
  have htypes : ∀ {id r}, m.types.find? id = some r → reg.type? id = some r := fun hr =>
    h.findSome?_of_mem hm hr fun m' hm' b hb => ((h.built m' hm').home.types hb).symm.trans (hhome.types hr)
  have hfuncs : ∀ {id r}, m.funcs.find? id = some r → reg.func? id = some r := fun hr =>
    h.findSome?_of_mem hm hr fun m' hm' b hb => ((h.built m' hm').home.funcs hb).symm.trans (hhome.funcs hr)
  refine ⟨htypes, hfuncs, fun hr => ?_, fun scope hs => ?_⟩
  · exact h.findSome?_of_mem hm hr fun m' hm' b hb => ((h.built m' hm').home.vars hb).symm.trans (hhome.vars hr)
  · rcases hone.mem_scopes hs with ⟨r, hr, hps⟩ | ⟨r, hr, hps⟩
    · rw [typeParams?, htypes hr, ← hps]
    · -- No module has a type under the id of the function: another has no such ids, and this one has the function there.
      have hnone : reg.type? scope.id = none := by
        refine List.findSome?_eq_none_iff.2 fun m' hm' => ?_
        by_contra hsome
        obtain ⟨r', hr'⟩ := Option.ne_none_iff_exists'.1 hsome
        have hname : m'.name = m.name := ((h.built m' hm').home.types hr').symm.trans (hhome.funcs hr)
        rw [List.inj_on_of_nodup_map h.names hm' hm hname, hone.apart hr] at hr'
        cases hr'
      rw [typeParams?, hnone, hfuncs hr, ← hps]

end Distinct

end Registry

/-! ### The built-in module -/

namespace Module.Built

variable {m : Module}

theorem putType (h : m.Built) {r : TypeRecord} (hr : r.id.arity = r.typeParams.length) (hn : r.id.moduleName = m.name) :
    (m.putType r).Built := .type h (TypeRecord.check_eq_ok.2 ⟨hr, rfl⟩) (addType_eq_ok.2 ⟨hn, rfl⟩)

theorem putFunc (h : m.Built) {r : FuncRecord} (hr : r.id.arity = r.typeParams.length) (hn : r.id.moduleName = m.name) :
    (m.putFunc r).Built := .func h (FuncRecord.check_eq_ok.2 ⟨hr, rfl⟩) (addFunc_eq_ok.2 ⟨hn, rfl⟩)

theorem putVar (h : m.Built) {r : VarRecord} (hr : r.id.arity = 0) (hn : r.id.moduleName = m.name) :
    (m.putVar r).Built := .var h (VarRecord.check_eq_ok.2 ⟨hr, rfl⟩) (addVar_eq_ok.2 ⟨hn, rfl⟩)

end Module.Built

theorem Module.Grows.built {m m' : Module} {ds : List (ItemId × FuncDecl)} (h : m.Grows ds m') (hm : m.Built) : m'.Built := by
  induction h with
  | refl => exact hm
  | type _ hr hn _ ih => exact ih.putType hr hn
  | func _ hr hn _ ih => exact ih.putFunc hr hn
  | var _ hr hn ih => exact ih.putVar hr hn

/-- The module of a script is put together from checked records. -/
theorem Check.declareElements_built {ctx : Context} (script : Script) {m : Module} (hm : m.Built) :
    Answers Module.Built (declareElements ctx script m) := fun _ _ _ h => (declareElements_grows h).built hm

theorem Builtin.declarations_built : Builtin.declarations.Built := by
  refine .putFunc (.putType (.putVar (.putFunc (.putFunc (.putFunc (.putType (.putType (.putType (.putFunc (.putFunc
    (.putType (.empty Builtin.moduleName) ?_ ?_) ?_ ?_) ?_ ?_) ?_ ?_) ?_ ?_) ?_ ?_) ?_ ?_) ?_ ?_) ?_ ?_) ?_ ?_) ?_ ?_) ?_ ?_ <;>
  decide

/-! ### The main statement -/

/-- A result of which something was found out. -/
theorem Except.exists_of_any {ε α : Type} {x : Except ε α} {p : α → Bool} (h : x.toOption.any p = true) :
    ∃ a, x = .ok a ∧ p a = true := by
  cases x with
  | error e => cases h
  | ok a => exact ⟨a, rfl, h⟩

namespace Sample

/-- `class Chest<T>` with `class Drawer<T> : Chest<T> { T item; }`, a variable `Drawer<T> top` and a function
`seq T take<U>(Drawer<U> drawer, U key) { while (true) {} }` -/
def chests : Script := [.type (.mk (nd 0) .classDecl "Chest" ["T"] none [
  .type (.mk (nd 1) .classDecl "Drawer" ["T"] (some (.named (nd 2) "Chest" [.named (nd 3) "T" []]))
    [.field ⟨nd 4, "item", .named (nd 5) "T" [], false⟩]),
  .field ⟨nd 6, "top", .named (nd 7) "Drawer" [.named (nd 8) "T" []], false⟩,
  .func {
    node := nd 9
    name := .text "take"
    typeParams := ["U"]
    params := [⟨nd 10, "drawer", .named (nd 11) "Drawer" [.named (nd 12) "U" []]⟩, ⟨nd 13, "key", .named (nd 14) "U" []⟩]
    ret := .named (nd 15) "T" []
    isSequence := true
    isStatic := false
    body := forever 16 }])]

/-- The id of `Chest<T>`. -/
def chestId : ItemId := (ItemId.root "Sample").child (.text "Chest") 1

/-- The id of `Chest<T>.Drawer<T>`. -/
def drawerId : ItemId := chestId.child (.text "Drawer") 1

/-- `Chest<int>.take<string>` -/
def takeString : FuncRef := ⟨chestId.child (.text "take") 1, [[Builtin.int], [Builtin.string]]⟩

end Sample

/-- The type parameter occurs in one of the types. -/
def ParamRef.OccursIn (ts : List Ty) (ref : ParamRef) : Prop := ∃ t ∈ ts, ref ∈ t.paramRefs

theorem ParamRef.allParams_occursIn (ts : List Ty) : ∀ t ∈ ts, t.AllParams (ParamRef.OccursIn ts) :=
  fun t ht _ hr => ⟨t, ht, hr⟩

/-- The records of a script in which no declaration is reported twice are checked, and each mentions only type parameters of its
own declaration and of those around it, which have a record with the parameter. So where look-ups answer for the script's
declarations as the script makes them, what these are with fitting arguments mentions only type parameters of the arguments:
the signature of a function, the type of a variable and the base of a type. Look-ups answer so where no other module has the
script's name. -/
theorem script_records_are_scoped (setup : Setup) (script : Script) (m : Module) (s : State)
    (hcollected : (script.collect (.root setup.moduleName)).diagnostics = [])
    (hrun : Check.declareElements (setup.contextFor script) script (.empty setup.moduleName) .initial = .ok (m, s)) :
    m.Built ∧ m.Scoped m.scopes ∧
    (∀ reg : Registry, reg.Shows m →
      (∀ f : FuncRef, m.funcs.contains f.id = true → f.levels.fits f.id = true →
        ∃ sig, reg.funcType f = .ok sig ∧ ∀ t ∈ sig.types, t.AllParams (ParamRef.OccursIn f.types)) ∧
      (∀ v : VarRef, m.vars.contains v.id = true → v.levels.fits v.id = true →
        ∃ t, reg.varType v = .ok t ∧ t.AllParams (ParamRef.OccursIn v.types)) ∧
      ∀ (id : ItemId) (levels : Levels), m.types.contains id = true → levels.fits id = true →
        ∀ base, reg.baseOf (.nominal id levels) = some base → base.AllParams (ParamRef.OccursIn levels.flatten)) ∧
    ∀ reg : Registry, m ∈ reg → Registry.Distinct reg → reg.Shows m := by
  have hbuilt : m.Built := Check.declareElements_built script (.empty _) hrun
  obtain ⟨hone, hscoped⟩ := Check.declareElements_scoped hcollected hrun
  refine ⟨hbuilt, hscoped, fun reg hreg => ⟨fun f hf hfits => ?_, fun v hv hfits => ?_, fun id levels ht hfits base hb => ?_⟩,
    fun reg hm hdistinct => hdistinct.shows hm hone⟩
  · obtain ⟨r, hr⟩ := Option.isSome_iff_exists.1 hf
    refine ⟨_, Registry.funcType_eq_ok.2 ⟨r, hreg.funcs hr, rfl⟩, ?_⟩
    exact (hreg.binds hbuilt.consistent hone hfits).applyFunc (ParamRef.allParams_occursIn _)
      (hscoped.funcs _ (Table.mem_of_findIn hr))
  · obtain ⟨r, hr⟩ := Option.isSome_iff_exists.1 hv
    refine ⟨_, Registry.varType_eq_ok.2 ⟨r, hreg.vars hr, rfl⟩, ?_⟩
    exact (hreg.binds hbuilt.consistent hone hfits).substitute (ParamRef.allParams_occursIn _)
      (hscoped.vars _ (Table.mem_of_findIn hr) r.ty (by simp [VarRecord.types]))
  · obtain ⟨r, hr⟩ := Option.isSome_iff_exists.1 ht
    exact (hreg.binds hbuilt.consistent hone hfits).baseOf (ParamRef.allParams_occursIn _) (hreg.types hr)
      (hscoped.types _ (Table.mem_of_findIn hr)) hb

theorem sample_script_records_are_scoped : (Sample.chests.collect (.root "Sample")).diagnostics = [] ∧
    ∃ m s, Check.declareElements (Sample.setup.contextFor Sample.chests) Sample.chests (.empty "Sample") .initial = .ok (m, s) ∧
      m.Scoped m.scopes ∧ Registry.Shows [m, Builtin.declarations] m ∧
      ∃ sig, Registry.funcType [m, Builtin.declarations] Sample.takeString = .ok sig ∧
        sig.types = [Builtin.seq Builtin.int, .nominal Sample.drawerId [[Builtin.int], [Builtin.string]], Builtin.string] ∧
        ∀ t ∈ sig.types, t.AllParams (ParamRef.OccursIn Sample.takeString.types) := by
  have hcollected : (Sample.chests.collect (.root "Sample")).diagnostics = [] := by decide +kernel
  have hall : (Check.declareElements (Sample.setup.contextFor Sample.chests) Sample.chests (.empty "Sample")
      .initial).toOption.any (fun r => r.1.funcs.contains Sample.takeString.id ∧ r.1.name = "Sample" ∧
        (Registry.funcType [r.1, Builtin.declarations] Sample.takeString).toOption.map Signature.types =
          some [Builtin.seq Builtin.int, .nominal Sample.drawerId [[Builtin.int], [Builtin.string]], Builtin.string]) = true := by
    decide +kernel
  obtain ⟨⟨m, s⟩, hrun, hr⟩ := Except.exists_of_any hall
  obtain ⟨hknown, hname, htypes⟩ := of_decide_eq_true hr
  obtain ⟨hbuilt, hscoped, hclosed, hshows⟩ := script_records_are_scoped Sample.setup Sample.chests m s hcollected hrun
  have hreg : Registry.Shows [m, Builtin.declarations] m := by
    refine hshows _ List.mem_cons_self ⟨by simp [hbuilt, Builtin.declarations_built], ?_⟩
    rw [List.map_cons, hname]
    decide
  obtain ⟨sig, hsig, hparams⟩ := (hclosed _ hreg).1 Sample.takeString hknown (by decide)
  refine ⟨hcollected, m, s, hrun, hscoped, hreg, sig, hsig, ?_, hparams⟩
  rw [hsig] at htypes
  exact Option.some.inj htypes

/-- A function whose id is that of a type in another module with the script's name keeps its own type parameter in its signature,
whatever the argument for it is: the type is asked what it introduces. -/
theorem own_parameter_survives_behind_namesake : Sample.namesake.Built ∧
    (Sample.makes.collect (.root "Sample")).diagnostics = [] ∧
    ∃ m s, Check.declareElements (Sample.withNamesake.contextFor Sample.makes) Sample.makes (.empty "Sample") .initial =
        .ok (m, s) ∧
      m.funcs.contains Sample.makeId = true ∧ Levels.fits [[Builtin.int]] Sample.makeId = true ∧
      ∃ sig, Registry.funcType [m, Builtin.declarations, Sample.namesake] ⟨Sample.makeId, [[Builtin.int]]⟩ = .ok sig ∧
        ¬∀ t ∈ sig.types, t.AllParams (ParamRef.OccursIn [Builtin.int]) := by
  have hall : (Check.declareElements (Sample.withNamesake.contextFor Sample.makes) Sample.makes (.empty "Sample")
      .initial).toOption.any (fun r => r.1.funcs.contains Sample.makeId ∧
        (Registry.funcType [r.1, Builtin.declarations, Sample.namesake] ⟨Sample.makeId, [[Builtin.int]]⟩).toOption.any
          (·.types = [.param ⟨Sample.makeId, .text "U"⟩])) = true := by
    decide +kernel
  obtain ⟨⟨m, s⟩, hrun, hr⟩ := Except.exists_of_any hall
  obtain ⟨hknown, hsig⟩ := of_decide_eq_true hr
  obtain ⟨sig, hfunc, htypes⟩ := Except.exists_of_any hsig
  refine ⟨.putType (.empty "Sample") rfl rfl, by decide +kernel, m, s, hrun, hknown, by decide, sig, hfunc, fun hparams => ?_⟩
  rw [of_decide_eq_true htypes, List.forall_mem_singleton] at hparams
  obtain ⟨t, ht, hr⟩ := hparams ⟨Sample.makeId, .text "U"⟩ (by simp)
  rw [List.mem_singleton.1 ht] at hr
  revert hr
  decide

end ScriptCheck

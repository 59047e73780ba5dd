import ScriptCheck.Proofs.ExplicitTypeArgs
import ScriptCheck.Proofs.TotalLookups

/-!
# Type parameters in scope

A type parameter is in scope where one of the declarations around introduces it. The records of a module are scoped when each
mentions only type parameters of its own declaration and of those around it. Seen through fitting arguments, such a record
mentions no type parameters but those of the arguments, since each of its own is replaced. So what is found in a context whose
modules are scoped mentions only type parameters that are in scope there, apart from the open ones of a function that is about
to be called. Matching replaces these, or the call is reported; an indexer or a step operator is not matched, so it must have
no type parameters of its own.
-/

namespace ScriptCheck

variable {t : Ty}

/-! ### The type parameters of a type -/

/-- Every type parameter that occurs in the type has the property. -/
def Ty.AllParams (P : ParamRef → Prop) (t : Ty) : Prop := ∀ ref ∈ t.paramRefs, P ref

instance (P : ParamRef → Prop) [DecidablePred P] (t : Ty) : Decidable (t.AllParams P) :=
  inferInstanceAs (Decidable (∀ ref ∈ t.paramRefs, P ref))

theorem Ty.AllParams.mono {P Q : ParamRef → Prop} (h : t.AllParams P) (hpq : ∀ ref, P ref → Q ref) : t.AllParams Q :=
  fun ref hr => hpq ref (h ref hr)

instance (P : ParamRef → Prop) : Ty.Composed (Ty.AllParams P) where
  void := by simp [Ty.AllParams]
  func := by
    simp only [Ty.AllParams, Ty.mem_paramRefs_func, or_imp, forall_and, forall_exists_index, and_imp]
    exact and_congr_right fun _ => ⟨fun h t ht ref hr => h ref t ht hr, fun h ref t ht hr => h t ht ref hr⟩
  args h t ht ref hr := h ref (Ty.mem_paramRefs_nominal.2 ⟨t, ht, hr⟩)
  made _ hl ref hr := by
    obtain ⟨t, ht, hr⟩ := Ty.mem_paramRefs_nominal.1 hr
    exact hl t ht ref hr
  replaced _ _ hl ref hr := by
    obtain ⟨t, ht, hr⟩ := Ty.mem_paramRefs_nominal.1 hr
    exact hl t ht ref hr

namespace Ty

mutual

/-- What occurs after a replacement occurs in what one of the parameters was replaced by, or was not replaced. -/
theorem mem_paramRefs_subst {env : Env} {ref : ParamRef} : ∀ {t : Ty}, ref ∈ (t.subst env).paramRefs →
    ∃ r ∈ t.paramRefs, ref ∈ ((env.find? r).getD (.param r)).paramRefs
  | .void, h => by simp [subst] at h
  | .unresolved, h => by simp [subst] at h
  | .param r, h => ⟨r, by simp, h⟩
  | .nominal id levels, h => by
    rw [subst, mem_paramRefs_nominal] at h
    obtain ⟨u, hu, h⟩ := h
    obtain ⟨t, ht, r, hr, h⟩ := mem_paramRefs_substLevels hu h
    exact ⟨r, mem_paramRefs_nominal.2 ⟨t, ht, hr⟩, h⟩
  | .func ret params, h => by
    rw [subst, mem_paramRefs_func] at h
    rcases h with h | ⟨u, hu, h⟩
    · obtain ⟨r, hr, h⟩ := mem_paramRefs_subst h
      exact ⟨r, mem_paramRefs_func.2 (.inl hr), h⟩
    · obtain ⟨t, ht, r, hr, h⟩ := mem_paramRefs_substList hu h
      exact ⟨r, mem_paramRefs_func.2 (.inr ⟨t, ht, hr⟩), h⟩

theorem mem_paramRefs_substList {env : Env} {ref : ParamRef} {u : Ty} : ∀ {ts : List Ty}, u ∈ substList env ts →
    ref ∈ u.paramRefs → ∃ t ∈ ts, ∃ r ∈ t.paramRefs, ref ∈ ((env.find? r).getD (.param r)).paramRefs
  | [], hu, _ => by simp [substList] at hu
  | t :: ts, hu, h => by
    rw [substList] at hu
    rcases List.mem_cons.1 hu with rfl | hu
    · exact ⟨t, List.mem_cons_self, mem_paramRefs_subst h⟩
    · obtain ⟨t', ht', hr⟩ := mem_paramRefs_substList hu h
      exact ⟨t', List.mem_cons_of_mem _ ht', hr⟩

theorem mem_paramRefs_substLevels {env : Env} {ref : ParamRef} {u : Ty} : ∀ {ls : List (List Ty)},
    u ∈ (substLevels env ls).flatten → ref ∈ u.paramRefs →
    ∃ t ∈ ls.flatten, ∃ r ∈ t.paramRefs, ref ∈ ((env.find? r).getD (.param r)).paramRefs
  | [], hu, _ => by simp [substLevels] at hu
  | l :: ls, hu, h => by
    rw [substLevels, List.flatten_cons, List.mem_append] at hu
    rw [List.flatten_cons]
    rcases hu with hu | hu
    · obtain ⟨t, ht, hr⟩ := mem_paramRefs_substList hu h
      exact ⟨t, List.mem_append_left _ ht, hr⟩
    · obtain ⟨t, ht, hr⟩ := mem_paramRefs_substLevels hu h
      exact ⟨t, List.mem_append_right _ ht, hr⟩

end

/-- A type all of whose parameters are replaced mentions only what it is replaced by. -/
theorem substitute_allParams {P : ParamRef → Prop} {env : Env} (hb : ∀ ref ∈ t.paramRefs, (env.find? ref).isSome)
    (he : ∀ u ∈ env.values, u.AllParams P) : (t.substitute env).AllParams P := by
  rw [substitute_eq_subst]
  intro ref hr
  obtain ⟨r, hrt, hr⟩ := mem_paramRefs_subst hr
  obtain ⟨u, hu⟩ := Option.isSome_iff_exists.1 (hb r hrt)
  rw [hu, Option.getD_some] at hr
  exact he u (Table.mem_values_of_find? hu) ref hr

end Ty

/-! ### Declarations and the type parameters that they introduce -/

/-- One of the declarations introduces the type parameter. -/
def ParamRef.IntroducedIn (scopes : List DeclScope) (ref : ParamRef) : Prop :=
  ∃ scope ∈ scopes, scope.id = ref.owner ∧ ref.name ∈ scope.typeParams

instance (scopes : List DeclScope) (ref : ParamRef) : Decidable (ref.IntroducedIn scopes) :=
  inferInstanceAs (Decidable (∃ scope ∈ scopes, _))

/-- A declaration without type parameters introduces none. -/
theorem ParamRef.not_introducedIn {scopes : List DeclScope}
    (ha : ∀ scope ∈ scopes, scope.typeParams.length = scope.id.arity) {ref : ParamRef} (h : ref.owner.arity = 0) :
    ¬ref.IntroducedIn scopes := by
  rintro ⟨scope, hs, hid, hname⟩
  have harity := ha scope hs
  rw [hid, h, List.length_eq_zero_iff] at harity
  rw [harity] at hname
  cases hname

/-- Every type parameter that occurs in the type is introduced by one of the declarations. -/
abbrev Ty.ScopedIn (scopes : List DeclScope) : Ty → Prop := Ty.AllParams (ParamRef.IntroducedIn scopes)

/-- One of the declarations introduces the type parameter, and it is `id` or around it. -/
def ParamRef.InScopeOf (scopes : List DeclScope) (id : ItemId) (ref : ParamRef) : Prop :=
  ref.owner ∈ id.enclosing ∧ ref.IntroducedIn scopes

instance (scopes : List DeclScope) (id : ItemId) (ref : ParamRef) : Decidable (ref.InScopeOf scopes id) :=
  inferInstanceAs (Decidable (_ ∧ _))

theorem ParamRef.InScopeOf.mono {scopes scopes' : List DeclScope} {id : ItemId} {ref : ParamRef} (h : ref.InScopeOf scopes id)
    (hs : scopes ⊆ scopes') : ref.InScopeOf scopes' id := by
  obtain ⟨howner, scope, hmem, hintroduced⟩ := h
  exact ⟨howner, scope, hs hmem, hintroduced⟩

/-- The types and functions of a module, with the type parameters that they introduce. -/
def Module.scopes (m : Module) : List DeclScope :=
  m.types.entries.map (fun e => ⟨e.1, e.2.typeParams, true⟩) ++ m.funcs.entries.map fun e => ⟨e.1, e.2.typeParams, false⟩

/-- Each record mentions only type parameters of its own declaration and of those around it. -/
abbrev Module.Scoped (scopes : List DeclScope) (m : Module) : Prop :=
  m.Meets fun id => Ty.AllParams (ParamRef.InScopeOf scopes id)

/-- Indexers and step operators introduce no type parameters. -/
def PlainOperators (scopes : List DeclScope) : Prop :=
  ∀ scope ∈ scopes, scope.id.last?.any (·.name.reserved) = true → scope.typeParams = []

/-- The modules are consistent, their records are scoped, and they know what the declarations introduce. -/
structure Registry.Scoped (scopes : List DeclScope) (reg : Registry) : Prop where
  consistent : ∀ m ∈ reg, m.Consistent
  records : ∀ m ∈ reg, m.Scoped scopes
  known : ∀ m ∈ reg, m.scopes ⊆ scopes
  params : ∀ scope ∈ scopes, reg.typeParams? scope.id = some scope.typeParams
  plain : PlainOperators scopes

theorem Module.mem_scopes_of_types {m : Module} {id : ItemId} {r : TypeRecord} (h : m.types.find? id = some r) :
    ⟨id, r.typeParams, true⟩ ∈ m.scopes :=
  List.mem_append_left _ (List.mem_map.2 ⟨(id, r), Table.mem_of_findIn h, rfl⟩)

theorem Module.mem_scopes_of_funcs {m : Module} {id : ItemId} {r : FuncRecord} (h : m.funcs.find? id = some r) :
    ⟨id, r.typeParams, false⟩ ∈ m.scopes :=
  List.mem_append_right _ (List.mem_map.2 ⟨(id, r), Table.mem_of_findIn h, rfl⟩)

/-! ### What a declaration's arguments replace -/

/-- A fold has a property that one of its steps brings about and the others keep. -/
theorem List.foldl_reaches {α β : Type} {P : β → Prop} {f : β → α → β} (hkeep : ∀ b a, P b → P (f b a)) {l : List α} {a : α}
    (ha : a ∈ l) (hreach : ∀ b, P (f b a)) (b : β) : P (l.foldl f b) := by
  obtain ⟨before, after, rfl⟩ := List.append_of_mem ha
  rw [List.foldl_append, List.foldl_cons]
  exact List.foldlRecOn after f (hreach _) fun c hc a _ => hkeep c a hc

/-- Fitting levels have an argument for each type parameter of each declaration on the way. -/
theorem Levels.fits_zip {levels : Levels} {id owner : ItemId} (hf : levels.fits id = true) (ho : owner ∈ id.enclosing) :
    ∃ args, (owner, args) ∈ id.enclosing.zip levels ∧ args.length = owner.arity := by
  have hlengths : levels.map List.length = id.path.map (·.arity) := of_decide_eq_true hf
  obtain ⟨i, hi, rfl⟩ := List.mem_map.1 ho
  rw [List.mem_range] at hi
  have hlength : levels.length = id.path.length := by simpa using congrArg List.length hlengths
  have hil : i < levels.length := by omega
  refine ⟨levels[i], List.mem_iff_getElem?.2 ⟨i, ?_⟩, ?_⟩
  · rw [List.getElem?_zip_eq_some]
    simp [ItemId.enclosing, hi, hil]
  · have harity := congrArg (fun l => l[i]?) hlengths
    simp only [List.getElem?_map, List.getElem?_eq_getElem hil, List.getElem?_eq_getElem hi, Option.map_some,
      Option.some.injEq] at harity
    rw [harity, ItemId.arity, ItemId.last?]
    simp [List.getLast?_take, hi]

namespace Registry

variable {reg : Registry} {id : ItemId} {levels : Levels} {ref : ParamRef}

theorem insert_isSome {env : Env} {bound : ParamRef} (t : Ty) (he : (env.find? ref).isSome) :
    ((env.insert bound t).find? ref).isSome := by
  rw [Table.find?_insert]
  split
  · rfl
  · exact he

theorem bindLevel_isSome {env : Env} {owner : ItemId} {args : List Ty} (he : (env.find? ref).isSome) :
    ((reg.bindLevel env owner args).find? ref).isSome := by
  unfold bindLevel
  exact List.foldlRecOn (motive := fun env : Env => (env.find? ref).isSome) _ _ he fun _ he b _ => insert_isSome b.2 he

/-- Fitting arguments replace every type parameter that a declaration on the way is known to introduce, as many as its id says. -/
theorem bindings_isSome_of_length (hf : levels.fits id = true) {names : List Name} (ho : ref.owner ∈ id.enclosing)
    (hparams : reg.typeParams? ref.owner = some names) (harity : names.length = ref.owner.arity) (hname : ref.name ∈ names) :
    ((reg.bindings id levels).find? ref).isSome := by
  obtain ⟨args, hzip, hlength⟩ := Levels.fits_zip hf ho
  refine List.foldl_reaches (P := fun env : Env => (env.find? ref).isSome) (fun _ _ => bindLevel_isSome) hzip (fun env => ?_) _
  -- The parameter has a place among those of its declaration, and the level has an argument there.
  obtain ⟨i, hi, hget⟩ := List.mem_iff_getElem.1 hname
  have hi' : i < args.length := by omega
  have hpair : (ref.name, args[i]) ∈ names.zip args := by
    refine List.mem_iff_getElem?.2 ⟨i, ?_⟩
    rw [List.getElem?_zip_eq_some]
    simp [hi, hi', hget]
  unfold bindLevel
  rw [hparams, Option.getD_some]
  exact List.foldl_reaches (P := fun env : Env => (env.find? ref).isSome) (fun _ b he => insert_isSome b.2 he) hpair
    (fun env => by rw [Table.find?_insert, if_pos rfl]; rfl) _

theorem bindings_isSome (hc : ∀ m ∈ reg, m.Consistent) (hf : levels.fits id = true) {names : List Name}
    (ho : ref.owner ∈ id.enclosing) (hparams : reg.typeParams? ref.owner = some names) (hname : ref.name ∈ names) :
    ((reg.bindings id levels).find? ref).isSome :=
  bindings_isSome_of_length hf ho hparams (typeParams?_length hc hparams) hname

/-- The arguments of the declaration replace the type parameters. -/
def Binds (reg : Registry) (id : ItemId) (levels : Levels) (Q : ParamRef → Prop) : Prop :=
  ∀ ref, Q ref → ((reg.bindings id levels).find? ref).isSome

namespace Binds

variable {P Q : ParamRef → Prop}

/-- A type all of whose parameters are replaced mentions, seen through the arguments, only what these mention. -/
theorem substitute (h : reg.Binds id levels Q) (hl : ∀ t ∈ levels.flatten, t.AllParams P) (ht : t.AllParams Q) :
    (t.substitute (reg.bindings id levels)).AllParams P :=
  Ty.substitute_allParams (fun ref hr => h ref (ht ref hr)) (bindings_inherits hl)

theorem baseOf (h : reg.Binds id levels Q) (hl : ∀ t ∈ levels.flatten, t.AllParams P) {r : TypeRecord}
    (hr : reg.type? id = some r) (ht : ∀ t ∈ r.types, t.AllParams Q) {base : Ty}
    (hb : reg.baseOf (.nominal id levels) = some base) : base.AllParams P := by
  simp only [Registry.baseOf, hr, bind, Option.bind_some, Option.bind_eq_some_iff, pure, Option.some.injEq] at hb
  obtain ⟨b, hrb, rfl⟩ := hb
  exact h.substitute hl (ht b (by simp [TypeRecord.types, hrb]))

theorem applyFunc {f : FuncRef} (h : reg.Binds f.id f.levels Q) (hl : ∀ t ∈ f.types, t.AllParams P) {r : FuncRecord}
    (ht : ∀ t ∈ r.types, t.AllParams Q) : ∀ t ∈ (reg.applyFunc f r.signature).types, t.AllParams P := by
  obtain ⟨hret, hparams⟩ := List.forall_mem_cons.1 (FuncRecord.signature_inherits ht)
  refine List.forall_mem_cons.2 ⟨h.substitute hl hret, fun t htm => ?_⟩
  obtain ⟨u, hu, rfl⟩ := List.mem_map.1 htm
  exact h.substitute hl (hparams u hu)

end Binds

end Registry

namespace Registry.Scoped

variable {scopes : List DeclScope} {reg : Registry} {id : ItemId} {levels : Levels} {P : ParamRef → Prop}

theorem arity (h : reg.Scoped scopes) {scope : DeclScope} (hs : scope ∈ scopes) : scope.typeParams.length = scope.id.arity :=
  typeParams?_length h.consistent (h.params scope hs)

/-- Fitting arguments replace every type parameter that the declaration may mention. -/
theorem binds (h : reg.Scoped scopes) (hf : levels.fits id = true) : reg.Binds id levels (ParamRef.InScopeOf scopes id) := by
  rintro ref ⟨howner, scope, hs, hid, hname⟩
  exact Registry.bindings_isSome h.consistent hf howner (hid ▸ h.params scope hs) hname

theorem type? (h : reg.Scoped scopes) {r : TypeRecord} (hr : reg.type? id = some r) :
    ∀ t ∈ r.types, t.AllParams (ParamRef.InScopeOf scopes id) := by
  obtain ⟨m, hm, hfind⟩ := List.exists_of_findSome?_eq_some hr
  exact (h.records m hm).types (id, r) (Table.mem_of_findIn hfind)

theorem func? (h : reg.Scoped scopes) {r : FuncRecord} (hr : reg.func? id = some r) :
    ∀ t ∈ r.types, t.AllParams (ParamRef.InScopeOf scopes id) := by
  obtain ⟨m, hm, hfind⟩ := List.exists_of_findSome?_eq_some hr
  exact (h.records m hm).funcs (id, r) (Table.mem_of_findIn hfind)

theorem var? (h : reg.Scoped scopes) {r : VarRecord} (hr : reg.var? id = some r) :
    r.ty.AllParams (ParamRef.InScopeOf scopes id) := by
  obtain ⟨m, hm, hfind⟩ := List.exists_of_findSome?_eq_some hr
  exact (h.records m hm).vars (id, r) (Table.mem_of_findIn hfind) r.ty (by simp [VarRecord.types])

/-- A variable at the top level mentions no type parameter: nothing around it introduces one. -/
theorem globalVars (h : reg.Scoped scopes) {name : Name} {r : VarRecord} (hr : r ∈ reg.globalVars name) : r.ty.AllParams P := by
  obtain ⟨m, hm, hfind⟩ := List.mem_filterMap.1 hr
  have hscoped := (h.records m hm).vars _ (Table.mem_of_findIn hfind) r.ty (by simp [VarRecord.types])
  intro ref href
  obtain ⟨howner, hintroduced⟩ := hscoped ref href
  have hself : ref.owner = m.root.child name 0 := by
    simpa [ItemId.enclosing, Module.root, ItemId.root, ItemId.child] using howner
  exact absurd hintroduced (ParamRef.not_introducedIn (fun _ => h.arity) (by rw [hself, ItemId.arity_child]))

theorem baseOf (h : reg.Scoped scopes) {base : Ty} (ht : (Ty.nominal id levels).AllParams P) (hf : levels.fits id = true)
    (hb : reg.baseOf (.nominal id levels) = some base) : base.AllParams P := by
  obtain ⟨r, hr, -⟩ := Option.bind_eq_some_iff.1 hb
  exact (h.binds hf).baseOf (Ty.Composed.args ht) hr (h.type? hr) hb

theorem varType (h : reg.Scoped scopes) {v : VarRef} (hf : v.levels.fits v.id = true)
    (hv : ∀ t ∈ v.types, t.AllParams P) (ht : reg.varType v = .ok t) : t.AllParams P := by
  obtain ⟨r, hr, rfl⟩ := varType_eq_ok.1 ht
  exact (h.binds hf).substitute hv (h.var? hr)

theorem funcType (h : reg.Scoped scopes) {f : FuncRef} {sig : Signature} (hf : f.levels.fits f.id = true)
    (ht : ∀ t ∈ f.types, t.AllParams P) (hs : reg.funcType f = .ok sig) : ∀ t ∈ sig.types, t.AllParams P := by
  obtain ⟨r, hr, rfl⟩ := funcType_eq_ok.1 hs
  exact (h.binds hf).applyFunc ht (h.func? hr)

end Registry.Scoped

/-! ### Functions that are found -/

theorem Levels.mem_flatten {levels : Levels} :
    t ∈ levels.flatten ↔ t ∈ (List.dropLast levels).flatten ∨ t ∈ Levels.own levels := by
  rcases List.eq_nil_or_concat levels with rfl | ⟨around, last, rfl⟩
  · simp [own]
  · simp [own]

/-- What the function was found through is in scope, and so are the type arguments that it was named with. -/
structure FuncRef.FoundIn (scopes : List DeclScope) (f : FuncRef) : Prop where
  around : ∀ t ∈ (List.dropLast f.levels).flatten, t.ScopedIn scopes
  named : ∃ explicit, f.NamedWith explicit ∧ ∀ t ∈ explicit, t.ScopedIn scopes

namespace FuncRef.FoundIn

variable {scopes : List DeclScope} {f g : FuncRef} {params args : List Ty}

theorem fits (h : f.FoundIn scopes) : f.levels.fits f.id = true := by
  obtain ⟨_, hnamed, -⟩ := h.named
  exact hnamed.fits

/-- An argument on the function's own level is in scope, or is an open place. -/
theorem own (h : f.FoundIn scopes) (ht : t ∈ Levels.own f.levels) : t.ScopedIn scopes ∨ ∃ name, t = .param ⟨f.id, name⟩ := by
  obtain ⟨explicit, ⟨-, names, hown⟩, hexplicit⟩ := h.named
  rw [hown] at ht
  rcases List.mem_append.1 ht with ht | ht
  · exact .inl (hexplicit t ht)
  · obtain ⟨name, -, rfl⟩ := List.mem_map.1 ht
    exact .inr ⟨name, rfl⟩

/-- The type parameters that are mentioned in the arguments are in scope, or are the function's own. -/
theorem types (h : f.FoundIn scopes) : ∀ t ∈ f.types, t.AllParams fun ref => ref.IntroducedIn scopes ∨ ref.owner = f.id := by
  intro t ht ref hr
  rcases Levels.mem_flatten.1 ht with ht | ht
  · exact .inl (h.around t ht ref hr)
  · rcases h.own ht with hscoped | ⟨name, rfl⟩
    · exact .inl (hscoped ref hr)
    · rw [Ty.mem_paramRefs_param] at hr
      exact .inr (hr ▸ rfl)

/-- Where nothing is open, the arguments are in scope. -/
theorem types_of_closed (h : f.FoundIn scopes) (ho : f.openParam? = none) : ∀ t ∈ f.types, t.ScopedIn scopes := by
  intro t ht
  rcases Levels.mem_flatten.1 ht with ht | ht
  · exact h.around t ht
  · rcases h.own ht with hscoped | ⟨name, rfl⟩
    · exact hscoped
    · exact absurd rfl (openParam?_eq_none.1 ho _ ht)

/-- Matching against arguments in scope either leaves something open or gives a function with arguments in scope. -/
theorem types_of_inferFrom (h : f.FoundIn scopes) (ha : ∀ a ∈ args, a.ScopedIn scopes)
    (hg : f.inferFrom params args = .ok g) (ho : g.openParam? = none) :
    g.levels.fits g.id = true ∧ ∀ t ∈ g.types, t.ScopedIn scopes := by
  obtain ⟨hfits, rfl⟩ := FuncRef.make_eq_ok.1 hg
  have henv : ∀ u ∈ (Ty.unifyList f.id params args .empty).values, u.ScopedIn scopes :=
    Ty.unifyList_inherits f.id params ha (by simp [Table.values, Table.empty])
  refine ⟨hfits, Levels.nest_inherits h.around fun t ht => ?_⟩
  obtain ⟨u, hu, rfl⟩ := List.mem_map.1 ht
  rcases h.own hu with hscoped | ⟨name, rfl⟩
  · exact Ty.substitute_inherits hscoped henv
  · rw [Ty.substitute_eq_subst, Ty.subst] at ht ⊢
    cases hfind : (Ty.unifyList f.id params args .empty).find? ⟨f.id, name⟩ with
    | some u => exact henv u (Table.mem_values_of_find? hfind)
    | none =>
      -- An open place that stays as it is is still open.
      rw [hfind, Option.getD_none] at ht
      exact absurd rfl (openParam?_eq_none.1 ho _ (by rwa [Levels.own_withOwn]))

theorem of_choose {levels : Levels} {candidates : List FuncRecord} {explicit : List Ty}
    (hl : ∀ t ∈ levels.flatten, t.ScopedIn scopes) (he : ∀ t ∈ explicit, t.ScopedIn scopes)
    (hf : Registry.choose levels candidates explicit = .ok (.ok f)) : f.FoundIn scopes := by
  obtain ⟨r, rest, -, hrest, hmade⟩ := Registry.choose_eq_ok hf
  have hnamed := NamedWith.of_openParams hrest hmade
  obtain ⟨-, rfl⟩ := FuncRef.make_eq_ok.1 hmade
  exact ⟨by simpa [Levels.nest] using hl, explicit, hnamed, he⟩

end FuncRef.FoundIn

/-- The arguments fit, and none of the function's own type parameters is left standing for itself. -/
structure FuncRef.Bound (f : FuncRef) : Prop where
  fits : f.levels.fits f.id = true
  closed : ∀ name, Ty.param ⟨f.id, name⟩ ∉ Levels.own f.levels

theorem FuncRef.Bound.of_openParam? {f : FuncRef} (hf : f.levels.fits f.id = true) (ho : f.openParam? = none) : f.Bound :=
  ⟨hf, fun _ hm => openParam?_eq_none.1 ho _ hm rfl⟩

/-! ### A standard for types in scope -/

/-- The type parameters with which a type is seen from inside are in scope there. -/
def Context.Nests (ctx : Context) : Prop :=
  ∀ scope ∈ ctx.enclosing, scope.isType = true → ∀ owner ∈ scope.id.enclosing, ∀ name ∈ ctx.typeParamsOf owner,
    ParamRef.IntroducedIn ctx.enclosing ⟨owner, name⟩

/-- A note mentions only type parameters that are in scope in the region of its node, and only functions without open type
parameters. -/
def Ledger.scoped (regions : List Region) : Ledger where
  noted n t := ∃ p ∈ regions, n ∈ p.ids ∧ t.ScopedIn p.around
  bound := FuncRef.Bound
  kept _ := True

namespace Context

variable {ctx : Context}

theorem selfLevels_scoped (hn : ctx.Nests) {scope : DeclScope} (hs : scope ∈ ctx.enclosing) (htype : scope.isType = true) :
    ∀ t ∈ (ctx.selfLevels scope.id).flatten, t.ScopedIn ctx.enclosing := by
  intro t ht
  simp only [selfLevels, List.mem_flatten, List.mem_map] at ht
  obtain ⟨l, ⟨owner, ho, rfl⟩, ht⟩ := ht
  obtain ⟨name, hname, rfl⟩ := List.mem_map.1 ht
  intro ref hr
  rw [Ty.mem_paramRefs_param] at hr
  exact hr ▸ hn scope hs htype owner ho name hname

theorem namedType_scoped (hn : ctx.Nests) {name : String} {args : List Ty} (ha : ∀ a ∈ args, a.ScopedIn ctx.enclosing)
    (ht : ctx.namedType name args = .ok (.ok t)) : t.ScopedIn ctx.enclosing := by
  unfold namedType at ht
  split at ht
  · rename_i owner howner
    cases ht
    intro ref hr
    rw [Ty.mem_paramRefs_param] at hr
    split at howner
    · obtain ⟨scope, hfind, rfl⟩ := Option.map_eq_some_iff.1 howner
      refine ⟨scope, List.mem_of_find?_eq_some hfind, by rw [hr], ?_⟩
      simpa [hr] using List.find?_some hfind
    · cases howner
  · split at ht
    · rename_i outer houter
      obtain ⟨scope, hfind, rfl⟩ := Option.map_eq_some_iff.1 houter
      obtain ⟨u, hu, hut⟩ := Except.map_eq_ok.1 ht
      cases hut
      obtain ⟨hfits, rfl⟩ := Ty.make_eq_ok.1 hu
      have hpred := List.find?_some hfind
      rw [Bool.and_eq_true] at hpred
      have hself := selfLevels_scoped hn (List.mem_of_find?_eq_some hfind) hpred.1
      exact Ty.Composed.made hfits (Levels.nest_inherits hself ha)
    · exact globalType_inherits ha ht

variable {scopes : List DeclScope}

theorem lookup_scoped (hreg : ctx.registry.Scoped scopes) {frame : Frame} {globals : PrivateGlobals} {name : String}
    {args : List Ty} {allowPartial : Bool} {meaning : Meaning} (hf : frame.AllTypes (Ty.ScopedIn ctx.enclosing))
    (hg : ∀ t ∈ globals.slots, t.ScopedIn ctx.enclosing) (ha : ∀ a ∈ args, a.ScopedIn ctx.enclosing)
    (hm : ctx.lookup frame globals name args allowPartial = .ok meaning) :
    meaning.Meets (Ty.ScopedIn ctx.enclosing) (FuncRef.FoundIn ctx.enclosing) := by
  rcases lookup_cases hm with ⟨slot, ty, -, hl, rfl⟩ | ⟨slot, ty, -, -, hl, rfl⟩ | ⟨-, hglobal⟩
  · exact hf.read (by simp [Storage.types]) (hf.lookup? hl)
  · exact hf.read (by simp [Storage.types]) (hg _ (List.mem_of_getElem? (PrivateGlobals.lookup_eq_some hl).2))
  · rcases globalMeaning_cases hglobal with ⟨ms, hms, hmem⟩ | ⟨r, -, rest, f, -, hmade, rfl⟩ | rfl | ⟨count, rfl⟩
    · simp only [globalMeanings, Except.bind_eq_ok, Except.pure_eq_ok] at hms
      obtain ⟨funcs, hfuncs, types, htypes, rfl⟩ := hms
      simp only [List.mem_append, List.mem_map] at hmem
      rcases hmem with (⟨r, hr, rfl⟩ | ⟨f, hf, rfl⟩) | ⟨t, ht, rfl⟩
      · split at hr
        · exact hf.read (by simp [Storage.types]) (hreg.globalVars hr)
        · cases hr
      · obtain ⟨r, -, hmade⟩ := Except.mem_of_mapM_eq_ok hfuncs hf
        obtain ⟨-, rfl⟩ := FuncRef.make_eq_ok.1 hmade
        exact ⟨by simp, args, lookup_namedWith hm, ha⟩
      · obtain ⟨id, -, hmade⟩ := Except.mem_of_mapM_eq_ok htypes ht
        obtain ⟨hfits, rfl⟩ := Ty.make_eq_ok.1 hmade
        exact Ty.Composed.made hfits (by simpa using ha)
    · obtain ⟨-, rfl⟩ := FuncRef.make_eq_ok.1 hmade
      exact ⟨by simp, args, lookup_namedWith hm, ha⟩
    · trivial
    · trivial

end Context

namespace Registry.Scoped

variable {scopes around : List DeclScope} {reg : Registry} {name : Name} {receiver : Ty}

theorem member {_ : Patience} (h : reg.Scoped scopes) {args : List Ty} {found : MemberRef} (ht : receiver.ScopedIn around)
    (ha : ∀ a ∈ args, a.ScopedIn around) (hm : reg.member receiver name args = .ok (.ok found)) :
    found.Meets reg (Ty.ScopedIn around) (FuncRef.FoundIn around) := by
  rcases member_cases hm with ⟨v, rfl, hv⟩ | ⟨f, rfl, hf⟩
  · obtain ⟨id, levels, hu, hmade⟩ := memberVar_eq_ok (fun _ _ _ => h.baseOf) ht hv
    obtain ⟨hfits, rfl⟩ := VarRef.make_eq_ok.1 hmade
    have htypes : ∀ t ∈ (Levels.nest levels []).flatten, t.ScopedIn around :=
      Levels.nest_inherits (Ty.Composed.args hu) (by simp)
    exact ⟨htypes, fun t => h.varType hfits htypes⟩
  · obtain ⟨id, levels, hu, hchosen⟩ := memberFunc_eq_ok (fun _ _ _ => h.baseOf) ht hf
    exact .of_choose (Ty.Composed.args hu) ha hchosen

/-- An indexer or a step operator leaves nothing open. -/
theorem method? {_ : Patience} (h : reg.Scoped scopes) {regions : List Region} {f : FuncRef} (hn : name.written? = none)
    (ht : receiver.ScopedIn around) (hm : reg.method? receiver name = .ok (some f)) :
    f.Meets (Ty.ScopedIn around) (.scoped regions) := by
  obtain ⟨id, levels, hu, hchosen⟩ := memberFunc_eq_ok (fun _ _ _ => h.baseOf) ht (method?_eq_ok hm)
  obtain ⟨r, rest, hpick, hrest, hmade⟩ := choose_eq_ok hchosen
  obtain ⟨m, hmem, hr⟩ := List.mem_flatMap.1 (Selects.of_pick hpick).of_ok.1
  obtain ⟨hid, hfind⟩ := (h.consistent m hmem).funcsNamed hr
  have hscope := h.known m hmem (Module.mem_scopes_of_funcs hfind)
  have hnone : r.typeParams = [] := h.plain _ hscope (by simp [hid, Name.reserved_eq_true_iff, hn])
  have hopen : rest = [] := by
    simp only [FuncRecord.openParams, hnone] at hrest
    cases hrest
    rfl
  obtain ⟨hfits, rfl⟩ := FuncRef.make_eq_ok.1 hmade
  rw [hopen] at hfits ⊢
  exact ⟨Levels.nest_inherits (Ty.Composed.args hu) (by simp), hfits, by simp⟩

theorem hints (h : reg.Scoped scopes) {f : FuncRef} {sig : Signature} (hf : f.FoundIn around)
    (hs : reg.funcType f = .ok sig) : ∀ hint ∈ f.hints sig.params, ∀ t ∈ hint, t.ScopedIn around := by
  intro hint hh t ht ref hr
  obtain ⟨p, hp, rfl⟩ := List.mem_map.1 hh
  split at ht
  · cases ht
  · rename_i hmentions
    cases ht
    have hsig := h.funcType hf.fits hf.types hs t (List.mem_cons_of_mem _ hp)
    exact (hsig ref hr).resolve_right (Ty.owner_ne_of_mentions (by simpa using hmentions) ref hr)

end Registry.Scoped

theorem FuncRef.FoundIn.completes {around : List DeclScope} {regions : List Region} {f g : FuncRef} {params args : List Ty}
    (h : f.FoundIn around) (ha : ∀ a ∈ args, a.ScopedIn around) (hg : f.Completes params args g) :
    g.Meets (Ty.ScopedIn around) (.scoped regions) := by
  obtain ⟨hclosed, hg⟩ := hg
  split at hg
  · subst hg
    exact ⟨h.types_of_closed hclosed, .of_openParam? h.fits hclosed⟩
  · obtain ⟨hfits, htypes⟩ := h.types_of_inferFrom ha hg hclosed
    exact ⟨htypes, .of_openParam? hfits hclosed⟩

/-- What is written means types in scope. -/
def Naming.scoped (regions : List Region) {ctx : Context} (hn : ctx.Nests) : Naming (.scoped regions) ctx where
  ty := Ty.ScopedIn ctx.enclosing
  composed := inferInstance
  named := Context.namedType_scoped hn
  nested hp ha := Context.memberType_inherits ha hp

/-- In a context with scoped modules the types that are met are in scope. -/
def Standard.scoped (regions : List Region) {scopes : List DeclScope} {ctx : Context} (hn : ctx.Nests)
    (hreg : ctx.registry.Scoped scopes) : Standard (.scoped regions) ctx where
  toNaming := .scoped regions hn
  found := FuncRef.FoundIn ctx.enclosing
  kept _ := trivial
  lookup := Context.lookup_scoped hreg
  member := hreg.member
  reserved := hreg.method?
  signature hf := hreg.funcType hf.2.fits hf.1
  hints := hreg.hints
  completes hf _ := hf.completes

end ScriptCheck

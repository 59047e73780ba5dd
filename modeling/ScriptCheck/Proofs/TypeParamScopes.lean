import ScriptCheck.Proofs.NoFaults
import ScriptCheck.Proofs.ParamScopes

/-!
# No type parameter leaves its scope

The declarations around a region of a script introduce just the type parameters that a record which is made there may mention.
So the script's own records are scoped, like those of the modules it refers to, and a record knows the type parameters of each
declaration. Against these modules everything that is noted in a region mentions only type parameters that the declarations
around it introduce, and the functions that are noted have all their own type parameters replaced. Two things can get in the
way. An indexer or a step operator with type parameters of its own is used without them being found. And where one id is
declared twice, in the script and in a module it refers to or in two such modules, with other type parameters, only those of
the first are replaced.
-/

namespace ScriptCheck

/-- The types and functions that a script declares: those around its regions. -/
def Script.scopes (root : ItemId) (script : Script) : List DeclScope := (script.regions root).flatMap Region.around

/-- All declarations that an analysis knows of: those of the script, of the built-in module and of the modules it refers to. -/
def Setup.scopes (setup : Setup) (script : Script) : List DeclScope :=
  script.scopes (.root setup.moduleName) ++ (Builtin.declarations :: setup.modules).flatMap Module.scopes

/-- Declarations of one id introduce the same type parameters. -/
def Coherent (scopes : List DeclScope) : Prop := ∀ a ∈ scopes, ∀ b ∈ scopes, a.id = b.id → a.typeParams = b.typeParams

instance (scopes : List DeclScope) : Decidable (Coherent scopes) := inferInstanceAs (Decidable (∀ a ∈ scopes, _))

instance (scopes : List DeclScope) : Decidable (PlainOperators scopes) := inferInstanceAs (Decidable (∀ scope ∈ scopes, _))

/-! ### The declarations around a region -/

/-- The declarations around a place introduce just what the declaration `id` may mention there, and each of them may mention
only such type parameters. -/
structure ClosedAt (scopes : List DeclScope) (id : ItemId) (around : List DeclScope) : Prop where
  exact : ∀ ref : ParamRef, ref.IntroducedIn around ↔ ref.InScopeOf scopes id
  nested : ∀ scope ∈ around, ∀ ref : ParamRef, ref.InScopeOf scopes scope.id → ref.IntroducedIn around

theorem ParamRef.not_introducedIn_nil (ref : ParamRef) : ¬ref.IntroducedIn [] := by
  simp [IntroducedIn]

theorem ParamRef.introducedIn_cons {scope : DeclScope} {around : List DeclScope} {ref : ParamRef} :
    ref.IntroducedIn (scope :: around) ↔ (scope.id = ref.owner ∧ ref.name ∈ scope.typeParams) ∨ ref.IntroducedIn around := by
  simp [IntroducedIn]

theorem ParamRef.inScopeOf_child {scopes : List DeclScope} {id : ItemId} {name : Name} {k : Nat} {ref : ParamRef} :
    ref.InScopeOf scopes (id.child name k) ↔
      ref.InScopeOf scopes id ∨ (ref.owner = id.child name k ∧ ref.IntroducedIn scopes) := by
  simp only [InScopeOf, ItemId.enclosing_child, List.mem_append, List.mem_singleton, or_and_right]

namespace ClosedAt

variable {scopes around : List DeclScope} {outer : ItemId}

theorem root (moduleName : String) : ClosedAt scopes (.root moduleName) [] where
  exact ref := by simp [ParamRef.IntroducedIn, ParamRef.InScopeOf, ItemId.enclosing, ItemId.root]
  nested := by simp

/-- One declaration further in. -/
theorem child (hc : Coherent scopes) (h : ClosedAt scopes outer around) {name : Name} {k : Nat} {ps : List Name}
    {isType : Bool} (hs : ⟨outer.child name k, ps, isType⟩ ∈ scopes) :
    ClosedAt scopes (outer.child name k) (⟨outer.child name k, ps, isType⟩ :: around) := by
  have hexact : ∀ ref : ParamRef, ref.IntroducedIn (⟨outer.child name k, ps, isType⟩ :: around) ↔
      ref.InScopeOf scopes (outer.child name k) := by
    intro ref
    rw [ParamRef.introducedIn_cons, ParamRef.inScopeOf_child, h.exact, or_comm]
    refine or_congr_right ⟨fun ⟨hid, hname⟩ => ⟨hid.symm, _, hs, hid, hname⟩, ?_⟩
    rintro ⟨hid, scope, hscope, howner, hname⟩
    have hsame : scope.typeParams = ps := hc scope hscope _ hs (howner.trans hid)
    exact ⟨hid.symm, hsame ▸ hname⟩
  refine ⟨hexact, List.forall_mem_cons.2 ⟨fun ref hr => (hexact ref).2 hr, fun scope hscope ref hr => ?_⟩⟩
  exact ParamRef.introducedIn_cons.2 (.inr (h.nested scope hscope ref hr))

/-- A variable introduces nothing. -/
theorem field (ha : ∀ scope ∈ scopes, scope.typeParams.length = scope.id.arity) (h : ClosedAt scopes outer around)
    (name : Name) : ClosedAt scopes (outer.child name 0) around := by
  refine ⟨fun ref => ?_, h.nested⟩
  rw [ParamRef.inScopeOf_child, h.exact]
  refine (or_iff_left ?_).symm
  rintro ⟨hid, hintroduced⟩
  exact ParamRef.not_introducedIn ha (by rw [hid, ItemId.arity_child]) hintroduced

end ClosedAt

/-- The declarations around a region introduce just what may be mentioned in the record that is made there. -/
theorem closed_related {scopes : List DeclScope} (hc : Coherent scopes)
    (ha : ∀ scope ∈ scopes, scope.typeParams.length = scope.id.arity) : regionLists.Related regionLists (fun id around ps _ =>
      (∀ p ∈ ps, p.around ⊆ scopes) → ClosedAt scopes id around → ∀ p ∈ ps, ClosedAt scopes p.id p.around) where
  nil _ _ := by simp
  append h h' := by
    intro hs hclosed
    rw [List.forall_mem_append] at hs ⊢
    exact ⟨h hs.1 hclosed, h' hs.2 hclosed⟩
  func _ _ _ hs h := List.forall_mem_singleton.2 (h.child hc (List.forall_mem_singleton.1 hs List.mem_cons_self))
  field _ _ _ _ h := List.forall_mem_singleton.2 (h.field ha _)
  case _ _ _ _ h := List.forall_mem_singleton.2 h
  stmt _ _ _ _ h := List.forall_mem_singleton.2 h
  type h := by
    intro hs hclosed
    simp only [regionLists, TypeDecl.regions] at hs ⊢
    obtain ⟨hhead, hmembers⟩ := List.forall_mem_cons.1 hs
    have hinside := hclosed.child hc (hhead List.mem_cons_self)
    exact List.forall_mem_cons.2 ⟨hinside, h hmembers hinside⟩

/-! ### The declarations that are collected -/

/-- The types that are collected are among the declarations. -/
def Skeleton.ListedIn (scopes : List DeclScope) (s : Skeleton) : Prop :=
  ∀ id t, s.types.find? id = some t → ∃ scope ∈ scopes, scope.id = id ∧ scope.typeParams = t.typeParams

/-- The types that are declared are around regions. -/
theorem listed_related (scopes : List DeclScope) : regionLists.Related declaredLists (fun _ _ ps ds =>
    (∀ p ∈ ps, p.around ⊆ scopes) → ∀ d t, (d, some t) ∈ ds →
      ∃ scope ∈ scopes, scope.id = d ∧ scope.typeParams = t.typeParams) where
  nil _ _ := by simp
  append h h' := by
    intro hs d t hd
    rw [List.forall_mem_append] at hs
    exact (List.mem_append.1 hd).elim (h hs.1 d t) (h' hs.2 d t)
  func _ _ _ := by simp [declaredLists]
  field _ _ _ := by simp [declaredLists, Member.declared]
  case _ _ _ := by simp [declaredLists, Member.declared]
  stmt _ _ _ := by simp [declaredLists]
  type h := by
    intro hs d t hd
    obtain ⟨hhead, hmembers⟩ := List.forall_mem_cons.1 hs
    rcases List.mem_cons.1 hd with heq | hd
    · cases heq
      exact ⟨_, hhead List.mem_cons_self, rfl, rfl⟩
    · exact h hmembers d t hd

/-! ### The module of a script -/

/-- The module has a record of a type or function of this id. -/
def Module.knows (m : Module) (id : ItemId) : Bool := m.types.contains id || m.funcs.contains id

/-- From `m` to `m'` records were made of the declarations around these regions, apart from those in `around`, and of no
others. -/
structure Module.Gathers (around : List DeclScope) (regions : List Region) (m m' : Module) : Prop where
  consistent : m.Consistent → m'.Consistent
  only : ∀ scope ∈ m'.scopes, scope ∈ m.scopes ∨ ∃ p ∈ regions, scope ∈ p.around
  keeps : ∀ id, m.knows id = true → m'.knows id = true
  all : ∀ p ∈ regions, ∀ scope ∈ p.around, scope ∈ around ∨ m'.knows scope.id = true

namespace Module

variable {m m' m'' : Module} {around : List DeclScope} {regions regions' : List Region}
variable {r : TypeRecord}

theorem mem_scopes_putType {scope : DeclScope} (h : scope ∈ (m.putType r).scopes) :
    scope = ⟨r.id, r.typeParams, true⟩ ∨ scope ∈ m.scopes := by
  rcases List.mem_append.1 h with h | h
  · obtain ⟨e, he, rfl⟩ := List.mem_map.1 h
    rcases Table.mem_insertIn he with rfl | he
    · exact .inl rfl
    · exact .inr (List.mem_append_left _ (List.mem_map.2 ⟨e, he, rfl⟩))
  · exact .inr (List.mem_append_right _ h)

theorem mem_scopes_putFunc {r : FuncRecord} {scope : DeclScope} (h : scope ∈ (m.putFunc r).scopes) :
    scope = ⟨r.id, r.typeParams, false⟩ ∨ scope ∈ m.scopes := by
  rcases List.mem_append.1 h with h | h
  · exact .inr (List.mem_append_left _ h)
  · obtain ⟨e, he, rfl⟩ := List.mem_map.1 h
    rcases Table.mem_insertIn he with rfl | he
    · exact .inl rfl
    · exact .inr (List.mem_append_right _ (List.mem_map.2 ⟨e, he, rfl⟩))

theorem knows_putType {id : ItemId} : (m.putType r).knows id = true ↔ r.id = id ∨ m.knows id = true := by
  by_cases h : r.id = id <;> simp [knows, putType, Table.contains, h]

theorem knows_putFunc {r : FuncRecord} {id : ItemId} : (m.putFunc r).knows id = true ↔ r.id = id ∨ m.knows id = true := by
  by_cases h : r.id = id <;> simp [knows, putFunc, Table.contains, h]

namespace Gathers

theorem refl (m : Module) : Gathers around [] m m := ⟨id, fun _ h => .inl h, fun _ h => h, by simp⟩

theorem trans (h : Gathers around regions m m') (h' : Gathers around regions' m' m'') :
    Gathers around (regions ++ regions') m m'' where
  consistent hm := h'.consistent (h.consistent hm)
  only := by
    intro scope hs
    rcases h'.only scope hs with hs | ⟨p, hp, hs⟩
    · rcases h.only scope hs with hs | ⟨p, hp, hs⟩
      · exact .inl hs
      · exact .inr ⟨p, List.mem_append_left _ hp, hs⟩
    · exact .inr ⟨p, List.mem_append_right _ hp, hs⟩
  keeps id hk := h'.keeps id (h.keeps id hk)
  all := List.forall_mem_append.2
    ⟨fun p hp scope hs => (h.all p hp scope hs).imp_right (h'.keeps _), h'.all⟩

/-- A region without a declaration of its own. -/
theorem skip (m : Module) (id : ItemId) (ids : List Nat) : Gathers around [⟨around, id, ids⟩] m m :=
  ⟨fun hm => hm, fun _ hs => .inl hs, fun _ hk => hk, List.forall_mem_singleton.2 fun _ hs => .inl hs⟩

theorem putVar {r : VarRecord} (hr : r.id.arity = 0) (ids : List Nat) :
    Gathers around [⟨around, r.id, ids⟩] m (m.putVar r) where
  consistent hm := hm.putVar hr
  only _ hs := .inl hs
  keeps _ hk := hk
  all := List.forall_mem_singleton.2 fun _ hs => .inl hs

theorem putFunc {r : FuncRecord} (hr : r.id.arity = r.typeParams.length) (ids : List Nat) :
    Gathers around [⟨⟨r.id, r.typeParams, false⟩ :: around, r.id, ids⟩] m (m.putFunc r) where
  consistent hm := hm.putFunc hr
  only scope hs := by
    rcases mem_scopes_putFunc hs with rfl | hs
    · exact .inr ⟨_, List.mem_singleton_self _, List.mem_cons_self⟩
    · exact .inl hs
  keeps _ hk := knows_putFunc.2 (.inr hk)
  all := by
    rw [List.forall_mem_singleton]
    exact List.forall_mem_cons.2 ⟨.inr (knows_putFunc.2 (.inl rfl)), fun _ hs => .inl hs⟩

/-- The record of a type is put in after those of its members. -/
theorem putType (hr : r.id.arity = r.typeParams.length) (ids : List Nat)
    (h : Gathers (⟨r.id, r.typeParams, true⟩ :: around) regions m m') :
    Gathers around (⟨⟨r.id, r.typeParams, true⟩ :: around, r.id, ids⟩ :: regions) m (m'.putType r) where
  consistent hm := (h.consistent hm).putType hr
  only scope hs := by
    rcases mem_scopes_putType hs with rfl | hs
    · exact .inr ⟨_, List.mem_cons_self, List.mem_cons_self⟩
    · rcases h.only scope hs with hs | ⟨p, hp, hs⟩
      · exact .inl hs
      · exact .inr ⟨p, List.mem_cons_of_mem _ hp, hs⟩
  keeps id hk := knows_putType.2 (.inr (h.keeps id hk))
  all := by
    have hinside : ∀ scope ∈ (⟨r.id, r.typeParams, true⟩ :: around : List DeclScope),
        scope ∈ around ∨ (m'.putType r).knows scope.id = true :=
      List.forall_mem_cons.2 ⟨.inr (knows_putType.2 (.inl rfl)), fun _ hs => .inl hs⟩
    refine List.forall_mem_cons.2 ⟨hinside, fun p hp scope hs => ?_⟩
    rcases h.all p hp scope hs with hs | hk
    · exact hinside scope hs
    · exact .inr (knows_putType.2 (.inr hk))

end Gathers

end Module

namespace Check

variable {ctx : Context} {outer : ItemId} {m m' : Module} {s s' : State}

theorem declareFunc_gathers {decl : FuncDecl} {isStatic : Bool} (h : declareFunc ctx outer decl isStatic m s = .ok (m', s')) :
    Module.Gathers ctx.enclosing [decl.region outer ctx.enclosing] m m' := by
  obtain ⟨params, ret, u, -, -, harity, -, rfl⟩ := declareFunc_run h
  exact .putFunc (r := ⟨_, _, params, ret, _, isStatic⟩) harity _

theorem declareField_gathers {decl : FieldDecl} (h : declareField ctx outer decl m s = .ok (m', s')) :
    Module.Gathers ctx.enclosing [⟨ctx.enclosing, decl.idUnder outer, decl.node.id :: decl.ty.ids⟩] m m' := by
  obtain ⟨ty, -, harity, -, rfl⟩ := declareField_run h
  exact .putVar (r := ⟨_, ty, _⟩) harity _

/-- So are the regions of a type and its members, and of a script. -/
theorem gathersWalk : DeclWalk regionLists (fun ctx ps a b => Module.Gathers ctx.enclosing ps a.1 b.1) where
  refl _ a := .refl a.1
  trans := .trans
  func_run := declareFunc_gathers
  field_run := declareField_gathers
  case_run _ id _ a := .skip a.1 id _
  stmt_run ctx _ a := .skip a.1 ctx.root _
  type_run _ hmembers harity _ := .putType (r := ⟨_, _, _, _, _⟩) harity _ hmembers

/-- The records of a script are those of its own declarations. -/
theorem declareElements_gathers {script : Script} (hroot : ctx.enclosing = [])
    (h : declareElements ctx script m s = .ok (m', s')) : Module.Gathers [] (script.regions ctx.root) m m' := by
  have hregions : regionLists.Script ctx.root ctx.enclosing (Script.regions ctx.root) := hroot ▸ {}
  have hmade := gathersWalk.script_keeps (a := (m, s)) hregions h
  exact hroot ▸ hmade

end Check

/-! ### What the modules know -/

theorem Table.contains_of_mem {κ ν : Type} [DecidableEq κ] {t : Table κ ν} {e : κ × ν} (h : e ∈ t.entries) :
    t.contains e.1 = true := by
  obtain ⟨entries⟩ := t
  simp only [contains, find?]
  induction entries with
  | nil => cases h
  | cons f rest ih =>
    rw [findIn]
    split
    · rfl
    · rename_i hne
      rcases List.mem_cons.1 h with rfl | h
      · exact absurd rfl hne
      · exact ih h

theorem Module.knows_of_mem_scopes {m : Module} {scope : DeclScope} (h : scope ∈ m.scopes) : m.knows scope.id = true := by
  simp only [knows, Bool.or_eq_true]
  rcases List.mem_append.1 h with h | h
  · obtain ⟨e, he, rfl⟩ := List.mem_map.1 h
    exact .inl (Table.contains_of_mem he)
  · obtain ⟨e, he, rfl⟩ := List.mem_map.1 h
    exact .inr (Table.contains_of_mem he)

namespace Registry

variable {scopes : List DeclScope} {reg : Registry} {id : ItemId}

/-- What is known to be introduced under an id is what one of the declarations introduces there, or nothing is known. -/
theorem typeParams?_cases (hsub : ∀ m ∈ reg, m.scopes ⊆ scopes) (id : ItemId) :
    (∃ scope ∈ scopes, scope.id = id ∧ reg.typeParams? id = some scope.typeParams) ∨
      ((reg.typeParams? id).getD [] = [] ∧ ∀ m ∈ reg, m.knows id = false) := by
  unfold typeParams?
  split
  · rename_i r hr
    obtain ⟨m, hm, hfind⟩ := List.exists_of_findSome?_eq_some hr
    exact .inl ⟨_, hsub m hm (Module.mem_scopes_of_types hfind), rfl, rfl⟩
  · rename_i htypes
    split
    · rename_i r hr
      obtain ⟨m, hm, hfind⟩ := List.exists_of_findSome?_eq_some hr
      exact .inl ⟨_, hsub m hm (Module.mem_scopes_of_funcs hfind), rfl, rfl⟩
    · rename_i hfuncs
      refine .inr ⟨by cases reg.var? id <;> rfl, fun m hm => ?_⟩
      have htype := List.findSome?_eq_none_iff.1 htypes m hm
      have hfunc := List.findSome?_eq_none_iff.1 hfuncs m hm
      simp [Module.knows, Table.contains, htype, hfunc]

/-- Where declarations of one id introduce the same, that is what is known of each that a module has a record of. -/
theorem typeParams?_eq (hc : Coherent scopes) (hsub : ∀ m ∈ reg, m.scopes ⊆ scopes) {scope : DeclScope}
    (hs : scope ∈ scopes) {m : Module} (hm : m ∈ reg) (hk : m.knows scope.id = true) :
    reg.typeParams? scope.id = some scope.typeParams := by
  rcases typeParams?_cases hsub scope.id with ⟨found, hfound, hid, hps⟩ | ⟨-, hunknown⟩
  · rw [hps, hc found hfound scope hs hid]
  · rw [hunknown m hm] at hk
    cases hk

end Registry

/-- The declarations around a region are seen from inside with type parameters that are in scope. -/
theorem ClosedAt.nests {scopes : List DeclScope} {ctx : Context} {p : Region} (h : ClosedAt scopes p.id p.around)
    (hskeleton : ctx.skeleton.ListedIn scopes) (hsub : ∀ m ∈ ctx.registry, m.scopes ⊆ scopes) : (ctx.inside p).Nests := by
  intro scope hscope _ owner howner name hname
  refine h.nested scope hscope ⟨owner, name⟩ ⟨howner, ?_⟩
  unfold Context.typeParamsOf at hname
  split at hname
  · rename_i t ht
    obtain ⟨found, hfound, hid, hparams⟩ := hskeleton owner t ht
    exact ⟨found, hfound, hid, hparams ▸ hname⟩
  · have hknown : name ∈ (ctx.registry.typeParams? owner).getD [] := hname
    rcases Registry.typeParams?_cases hsub owner with ⟨found, hfound, hid, hps⟩ | ⟨hnone, -⟩
    · rw [hps] at hknown
      exact ⟨found, hfound, hid, hknown⟩
    · rw [hnone] at hknown
      cases hknown

/-! ### What is noted -/

theorem Ledger.scoped_noted {root : ItemId} {script : Script} (hids : script.ids.Nodup) {p : Region}
    (hp : p ∈ script.regions root) {n : Nat} (hn : n ∈ p.ids) (t : Ty) :
    (Ledger.scoped (script.regions root)).noted n t ↔ t.ScopedIn p.around := by
  constructor
  · rintro ⟨q, hq, hnq, ht⟩
    rwa [Script.region_unique hids hp hq hn hnq]
  · exact fun ht => ⟨p, hp, hn, ht⟩

/-- A node of a statement at the top level has no declaration around it. -/
theorem Script.exists_region_of_stmtIds (root : ItemId) {n : Nat} : ∀ script : Script, n ∈ script.stmtIds →
    ∃ p ∈ script.regions root, n ∈ p.ids ∧ p.around = []
  | .stmt st :: rest, h => by
    rw [Script.stmtIds] at h
    rcases List.mem_append.1 h with h | h
    · exact ⟨⟨[], root, st.ids⟩, List.mem_cons_self, h, rfl⟩
    · obtain ⟨p, hp, hn⟩ := Script.exists_region_of_stmtIds root rest h
      exact ⟨p, List.mem_append_right _ hp, hn⟩
  | .type _ :: rest, h => by
    obtain ⟨p, hp, hn⟩ := Script.exists_region_of_stmtIds root rest h
    exact ⟨p, List.mem_append_right _ hp, hn⟩
  | .func _ :: rest, h => by
    obtain ⟨p, hp, hn⟩ := Script.exists_region_of_stmtIds root rest h
    exact ⟨p, List.mem_append_right _ hp, hn⟩

/-- The built-in module mentions only type parameters of its own declarations, each where it may. -/
theorem Builtin.declarations_scoped {scopes : List DeclScope} (h : Builtin.declarations.scopes ⊆ scopes) :
    Builtin.declarations.Scoped scopes := by
  have hown : Builtin.declarations.Scoped Builtin.declarations.scopes := ⟨by decide, by decide, by decide⟩
  have hmono : ∀ (id : ItemId) (t : Ty), t.AllParams (ParamRef.InScopeOf Builtin.declarations.scopes id) →
      t.AllParams (ParamRef.InScopeOf scopes id) :=
    fun id t ht => ht.mono fun ref hr => hr.mono h
  exact ⟨fun e he t ht => hmono _ t (hown.types e he t ht), fun e he t ht => hmono _ t (hown.funcs e he t ht),
    fun e he t ht => hmono _ t (hown.vars e he t ht)⟩

/-- Only nodes of the script are noted. -/
theorem Analysed.mem_ids {setup : Setup} {script : Script} {m : Module} {s : State} (h : Analysed setup script m s)
    (hs : s.diagnostics = []) {n : Nat} {d : NodeData} (hd : s.nodes.find? n = some d) : n ∈ script.ids := by
  obtain ⟨u, hdecl, hbodies⟩ := Check.Quiet.script ⟨h.run, hs⟩
  obtain ⟨v, hstmts, hfuncs⟩ := hbodies.bodies
  by_contra hn
  have hlast := (Check.scriptBodies_effect _ script hfuncs.run).nodes n fun hm => hn (script.declIds_sublist.subset hm)
  have hmid := (Check.scriptStmts_effect _ script hstmts.run).nodes n fun hm => hn (script.stmtIds_sublist.subset hm)
  have hfirst := (Check.declareElements_effect _ script _ hdecl.run).nodes n fun hm =>
    hn (script.declIds_sublist.subset (script.typeIds_subset hm))
  have hstart : State.initial.nodes.find? n = none := rfl
  have hnone : s.nodes.find? n = none := hlast.trans (hmid.trans (hfirst.trans hstart))
  rw [hnone] at hd
  cases hd

section Analysis

variable {setup : Setup} {script : Script} {m : Module} {s : State}
variable {p : Region}

theorem Setup.around_subset (hp : p ∈ script.regions (.root setup.moduleName)) : p.around ⊆ setup.scopes script :=
  fun _ hscope => List.mem_append_left _ (List.mem_flatMap.2 ⟨p, hp, hscope⟩)

theorem Setup.scopes_subset (hm : m ∈ Builtin.declarations :: setup.modules) : m.scopes ⊆ setup.scopes script :=
  fun _ hscope => List.mem_append_right _ (List.mem_flatMap.2 ⟨m, hm, hscope⟩)

namespace Module.Gathers

variable (h : Gathers [] (script.regions (.root setup.moduleName)) (.empty setup.moduleName) m)

include h

theorem scopes_subset : ∀ m' ∈ m :: Builtin.declarations :: setup.modules, m'.scopes ⊆ setup.scopes script := by
  refine List.forall_mem_cons.2 ⟨fun scope hscope => ?_, fun _ => Setup.scopes_subset⟩
  rcases h.only scope hscope with hempty | ⟨p, hp, hmem⟩
  · cases hempty
  · exact Setup.around_subset hp hmem

theorem all_consistent (hbuilt : ∀ m ∈ setup.modules, m.Built) :
    ∀ m' ∈ m :: Builtin.declarations :: setup.modules, m'.Consistent :=
  List.forall_mem_cons.2 ⟨h.consistent (.empty _),
    List.forall_mem_cons.2 ⟨Builtin.declarations_consistent, fun m' hm' => (hbuilt m' hm').consistent⟩⟩

/-- What each declaration introduces is known once the script's own records are made. -/
theorem typeParams? (hc : Coherent (setup.scopes script)) : ∀ scope ∈ setup.scopes script,
    Registry.typeParams? (m :: Builtin.declarations :: setup.modules) scope.id = some scope.typeParams := by
  intro scope hscope
  rcases List.mem_append.1 hscope with hmem | hmem
  · obtain ⟨p, hp, hmem⟩ := List.mem_flatMap.1 hmem
    rcases h.all p hp scope hmem with hnil | hk
    · cases hnil
    · exact Registry.typeParams?_eq hc h.scopes_subset hscope List.mem_cons_self hk
  · obtain ⟨m', hm', hmem⟩ := List.mem_flatMap.1 hmem
    exact Registry.typeParams?_eq hc h.scopes_subset hscope (List.mem_cons_of_mem _ hm') (knows_of_mem_scopes hmem)

theorem regions_closed (hc : Coherent (setup.scopes script)) (hbuilt : ∀ m ∈ setup.modules, m.Built) :
    ∀ p ∈ script.regions (.root setup.moduleName), ClosedAt (setup.scopes script) p.id p.around := by
  have harity : ∀ scope ∈ setup.scopes script, scope.typeParams.length = scope.id.arity :=
    fun scope hscope => Registry.typeParams?_length (h.all_consistent hbuilt) (h.typeParams? hc scope hscope)
  have hlists : regionLists.Script (.root setup.moduleName) [] (Script.regions (.root setup.moduleName)) := {}
  exact (closed_related hc harity).of_script _ _ hlists hlists script (fun _ => Setup.around_subset) (.root setup.moduleName)

end Module.Gathers

theorem Setup.skeleton_listedIn (setup : Setup) (script : Script) :
    (setup.contextFor script).skeleton.ListedIn (setup.scopes script) :=
  fun _ _ hf => (listed_related _).of_script _ [] {} {} script (fun _ => Setup.around_subset) _ _ (mem_declared_of_collect hf)

/-- A record that is made in a region mentions what is in scope there. -/
theorem ClosedAt.judged {scopes : List DeclScope} {ctx : Context} {root : ItemId}
    (h : ClosedAt scopes p.id p.around) (hids : script.ids.Nodup) (hp : p ∈ script.regions root)
    (hskeleton : ctx.skeleton.ListedIn scopes) (hsub : ∀ m ∈ ctx.registry, m.scopes ⊆ scopes) :
    p.Judged (.scoped (script.regions root)) (fun id => Ty.AllParams (ParamRef.InScopeOf scopes id)) ctx := by
  refine ⟨.scoped _ (h.nests hskeleton hsub), ?_, ?_⟩
  · exact fun t ht => ht.mono fun ref => (h.exact ref).1
  · exact fun n hn t => Ledger.scoped_noted hids hp hn t

/-- A body in a region is analysed with types in scope there: those of its record, and those of the script's variables. -/
theorem ClosedAt.ready {scopes : List DeclScope} {ctx : Context} {root : ItemId}
    (h : ClosedAt scopes p.id p.around) (hids : script.ids.Nodup) (hp : p ∈ script.regions root)
    (hskeleton : ctx.skeleton.ListedIn scopes) (hreg : ctx.registry.Scoped scopes) :
    p.Ready (.scoped (script.regions root)) (Ty.ScopedIn []) ctx := by
  refine ⟨.scoped _ (h.nests hskeleton hreg.known) hreg, ?_, ?_, ?_⟩
  · exact fun t ht => ht.mono fun ref hr => absurd hr ref.not_introducedIn_nil
  · exact fun n hn t => Ledger.scoped_noted hids hp hn t
  · exact fun r hr t ht => (hreg.func? hr t ht).mono fun ref => (h.exact ref).2

/-- At the end of an analysis without problems the notes mention only type parameters in scope. -/
theorem Analysed.scoped (h : Analysed setup script m s) (hs : s.diagnostics = []) (hids : script.ids.Nodup)
    (hbuilt : ∀ m ∈ setup.modules, m.Built) (hscoped : ∀ m ∈ setup.modules, m.Scoped (setup.scopes script))
    (hc : Coherent (setup.scopes script)) (hplain : PlainOperators (setup.scopes script)) :
    (Ledger.scoped (script.regions (.root setup.moduleName))).Holds s.nodes := by
  obtain ⟨u, hdecl, hbodies⟩ := Check.Quiet.script ⟨h.run, hs⟩
  have hgathers : Module.Gathers [] (script.regions (.root setup.moduleName)) (.empty setup.moduleName) m :=
    Check.declareElements_gathers rfl hdecl.run
  have hclosed := hgathers.regions_closed hc hbuilt
  have hskeleton := setup.skeleton_listedIn script
  obtain ⟨hnodes, hmeets⟩ := Check.declareElements_writes (setup.contextFor script) rfl script
    (fun p hp => (hclosed p hp).judged hids hp hskeleton fun _ => Setup.scopes_subset) (.empty _) hdecl
    (by simp [Ledger.Holds, State.initial, Table.empty])
  have hrecords : ∀ m' ∈ m :: Builtin.declarations :: setup.modules, m'.Scoped (setup.scopes script) :=
    List.forall_mem_cons.2 ⟨hmeets, List.forall_mem_cons.2
      ⟨Builtin.declarations_scoped (Setup.scopes_subset List.mem_cons_self), hscoped⟩⟩
  have hreg : Registry.Scoped (setup.scopes script) (m :: Builtin.declarations :: setup.modules) :=
    ⟨hgathers.all_consistent hbuilt, hrecords, hgathers.scopes_subset, hgathers.typeParams? hc, hplain⟩
  -- The bodies are analysed against the script's own records, too.
  let ctx : Context := { setup.contextFor script with registry := m :: (setup.contextFor script).registry }
  have hstmts : ∀ n ∈ script.stmtIds, ∀ t,
      (Ledger.scoped (script.regions (.root setup.moduleName))).noted n t ↔ t.ScopedIn [] := by
    intro n hn t
    obtain ⟨p, hp, hnp, hnil⟩ := Script.exists_region_of_stmtIds (.root setup.moduleName) script hn
    rw [← hnil]
    exact Ledger.scoped_noted hids hp hnp t
  have hnests : ctx.Nests := by
    intro scope hnil
    cases hnil
  have hstart : u.Meets (Ty.ScopedIn []) (.scoped (script.regions (.root setup.moduleName))) :=
    Check.declareElements_meets Ty.Composed.void hdecl.run hnodes
  exact (Check.bodies_rests (Standard.scoped _ hnests hreg : Standard _ ctx) rfl hstmts
    (fun p hp => (hclosed p hp).ready hids hp hskeleton hreg) (fun f hf r hr => h.func_typeParams hs hf hr) hbodies
    hstart).nodes

end Analysis

/-! ### The main statement -/

namespace Sample

/-- `class Cell<T> { T first<U>(List<T> items, U other) { var box = wrap(other); box.get(); return items[0]; } }` -/
def cell : TypeDecl := .mk (nd 0) .classDecl "Cell" ["T"] none [.func {
  node := nd 1
  name := .text "first"
  typeParams := ["U"]
  params := [⟨nd 2, "items", .named (nd 3) "List" [.named (nd 4) "T" []]⟩, ⟨nd 5, "other", .named (nd 6) "U" []⟩]
  ret := .named (nd 7) "T" []
  isSequence := false
  isStatic := false
  body := .mk (nd 8) [
    .varDecl (nd 9) (.var (nd 10)) "box"
      (some (.call (nd 11) (.identifier (nd 12) "wrap" []) [.identifier (nd 13) "other" []])),
    .expr (nd 14) (.call (nd 15) (.member (nd 16) (.identifier (nd 17) "box" []) "get" []) []),
    .ret (nd 18) (some (.index (nd 19) (.identifier (nd 20) "items" []) (.intLit (nd 21) 0)))] }]

/-- `Cell<int> cell; List<int> numbers; cell.first(numbers, "a");` -/
def cells : Script := [.type cell,
  .stmt (.varDecl (nd 22) (.named (nd 23) "Cell" [.named (nd 24) "int" []]) "cell" none),
  .stmt (.varDecl (nd 25) (.named (nd 26) "List" [.named (nd 27) "int" []]) "numbers" none),
  .stmt (.expr (nd 28) (.call (nd 29) (.member (nd 30) (.identifier (nd 31) "cell" []) "first" [])
    [.identifier (nd 32) "numbers" [], .strLit (nd 33) "a"]))]

/-- The id of `Cell<T>.first<U>`. -/
def firstId : ItemId := ((ItemId.root "Sample").child (.text "Cell") 1).child (.text "first") 1

theorem library_scoped : library.Scoped (withLibrary.scopes cells) := ⟨by decide +kernel, by decide +kernel, by decide +kernel⟩

end Sample

/-- An analysis without problems notes a type parameter only inside the declaration that introduces it, provided that
declarations of one id introduce the same type parameters and that indexers and step operators introduce none: the types and
arguments that are noted for a node mention only what the declarations around the node introduce, nothing where it is part of a
statement at the top level, and a function that is noted has all its own type parameters replaced. -/
theorem type_parameters_stay_in_scope (setup : Setup) (script : Script) (out : Output) (hids : script.ids.Nodup)
    (hbuilt : ∀ m ∈ setup.modules, m.Built) (hscoped : ∀ m ∈ setup.modules, m.Scoped (setup.scopes script))
    (hcoherent : Coherent (setup.scopes script)) (hplain : PlainOperators (setup.scopes script))
    (h : analyze setup script = .ok (.ok out)) (n : Nat) (d : NodeData) (hd : out.nodes.find? n = some d) :
    (∃ p ∈ script.regions (.root setup.moduleName), n ∈ p.ids ∧ ∀ t ∈ d.types, t.ScopedIn p.around) ∧
      (n ∈ script.stmtIds → ∀ t ∈ d.types, t.paramRefs = []) ∧ ∀ f ∈ d.funcs, f.Bound := by
  obtain ⟨m, s, ha, hs, -, rfl⟩ := analyze_eq_ok h
  obtain ⟨htypes, hfuncs⟩ := ha.scoped hs hids hbuilt hscoped hcoherent hplain (n, d) (Table.mem_of_findIn hd)
  refine ⟨?_, fun hn t ht => ?_, hfuncs⟩
  · have hn := ha.mem_ids hs hd
    rw [← script.regions_ids (.root setup.moduleName)] at hn
    obtain ⟨p, hp, hnp⟩ := List.mem_flatMap.1 hn
    exact ⟨p, hp, hnp, fun t ht => (Ledger.scoped_noted hids hp hnp t).1 (htypes t ht)⟩
  · obtain ⟨p, hp, hnp, hnil⟩ := Script.exists_region_of_stmtIds (.root setup.moduleName) script hn
    have hscope := (Ledger.scoped_noted hids hp hnp t).1 (htypes t ht)
    rw [hnil] at hscope
    exact List.eq_nil_iff_forall_not_mem.2 fun ref hr => ref.not_introducedIn_nil (hscope ref hr)

theorem sample_type_parameters_stay_in_scope : Sample.cells.ids.Nodup ∧ Coherent (Sample.withLibrary.scopes Sample.cells) ∧
    PlainOperators (Sample.withLibrary.scopes Sample.cells) ∧
    ∃ out d, analyze Sample.withLibrary Sample.cells = .ok (.ok out) ∧ out.nodes.find? 11 = some d ∧
      d.ty = some (.nominal Sample.boxId [[.param ⟨Sample.firstId, .text "U"⟩]]) ∧
      (∃ p ∈ Sample.cells.regions (.root "Sample"), 11 ∈ p.ids ∧ ∀ t ∈ d.types, t.ScopedIn p.around) ∧
      ∀ f ∈ d.funcs, f.Bound := by
  have hids : Sample.cells.ids.Nodup := by decide +kernel
  have hcoherent : Coherent (Sample.withLibrary.scopes Sample.cells) := by decide +kernel
  have hplain : PlainOperators (Sample.withLibrary.scopes Sample.cells) := by decide +kernel
  have hrun : ((analyze Sample.withLibrary Sample.cells).toOption.bind Except.toOption).any (fun out =>
      out.nodes.ty? 11 = some (.nominal Sample.boxId [[.param ⟨Sample.firstId, .text "U"⟩]])) = true := by
    decide +kernel
  obtain ⟨out, h, hty⟩ := exists_output hrun
  have hty := of_decide_eq_true hty
  cases hd : out.nodes.find? 11 with
  | none => simp [NodeMap.ty?, NodeMap.dataOf, hd] at hty
  | some d =>
    have hbound := type_parameters_stay_in_scope Sample.withLibrary Sample.cells out hids
      (List.forall_mem_singleton.2 Sample.library_built) (List.forall_mem_singleton.2 Sample.library_scoped) hcoherent hplain
      h 11 d hd
    refine ⟨hids, hcoherent, hplain, out, d, h, hd, ?_, hbound.1, hbound.2.2⟩
    simpa [NodeMap.ty?, NodeMap.dataOf, hd] using hty

namespace Sample

/-- `{ while (true) {} }` -/
def forever (n : Nat) : Block :=
  .mk (nd n) [.whileDo (nd (n + 1)) (.boolLit (nd (n + 2)) true) (.block (nd (n + 3)) (.mk (nd (n + 4)) []))]

/-- `class Store { T [get]<T>(int i) { while (true) {} } } Store store; store[0];` -/
def stores : Script := [
  .type (.mk (nd 0) .classDecl "Store" [] none [.func {
    node := nd 1
    name := .indexerGet
    typeParams := ["T"]
    params := [⟨nd 2, "i", .named (nd 3) "int" []⟩]
    ret := .named (nd 4) "T" []
    isSequence := false
    isStatic := false
    body := forever 5 }]),
  .stmt (.varDecl (nd 10) (.named (nd 11) "Store" []) "store" none),
  .stmt (.expr (nd 12) (.index (nd 13) (.identifier (nd 14) "store" []) (.intLit (nd 15) 0)))]

/-- The id of the indexer of `Store`. -/
def getterId : ItemId := ((ItemId.root "Sample").child (.text "Store") 0).child .indexerGet 1

/-- `func U make<U>() { while (true) {} } make<int>();` -/
def makes : Script := [
  .func {
    node := nd 0
    name := .text "make"
    typeParams := ["U"]
    params := []
    ret := .named (nd 1) "U" []
    isSequence := false
    isStatic := true
    body := forever 2 },
  .stmt (.expr (nd 7) (.call (nd 8) (.identifier (nd 9) "make" [.named (nd 10) "int" []]) []))]

/-- The id of `make<U>`. -/
def makeId : ItemId := (ItemId.root "Sample").child (.text "make") 1

/-- A module with the name of the script's own that has `class make<T>`. -/
def namesake : Module := (Module.empty "Sample").putType ⟨makeId, .classType, [.text "T"], none, []⟩

/-- The script refers to a module with its own name. -/
def withNamesake : Setup := ⟨"Sample", [namesake], captures⟩

end Sample

/-- Both conditions are needed: an indexer with a type parameter is noted with the parameter open, and a function whose id is
that of a type with another type parameter gives a result with its own parameter in it. -/
theorem type_parameters_can_leave_their_scope :
    (Coherent (Sample.setup.scopes Sample.stores) ∧ 13 ∈ Sample.stores.stmtIds ∧
      ∃ out, analyze Sample.setup Sample.stores = .ok (.ok out) ∧
        out.nodes.ty? 13 = some (.param ⟨Sample.getterId, .text "T"⟩) ∧
        out.nodes.info? 13 = some (.indexer ⟨Sample.getterId, [[], [.param ⟨Sample.getterId, .text "T"⟩]]⟩)) ∧
    (Sample.namesake.Built ∧ Sample.namesake.Scoped (Sample.withNamesake.scopes Sample.makes) ∧
      PlainOperators (Sample.withNamesake.scopes Sample.makes) ∧ 8 ∈ Sample.makes.stmtIds ∧
      ∃ out, analyze Sample.withNamesake Sample.makes = .ok (.ok out) ∧
        out.nodes.ty? 8 = some (.param ⟨Sample.makeId, .text "U"⟩)) := by
  have hstores : ((analyze Sample.setup Sample.stores).toOption.bind Except.toOption).any (fun out =>
      out.nodes.ty? 13 = some (.param ⟨Sample.getterId, .text "T"⟩) ∧
      out.nodes.info? 13 = some (.indexer ⟨Sample.getterId, [[], [.param ⟨Sample.getterId, .text "T"⟩]]⟩)) = true := by
    decide +kernel
  have hmakes : ((analyze Sample.withNamesake Sample.makes).toOption.bind Except.toOption).any (fun out =>
      out.nodes.ty? 8 = some (.param ⟨Sample.makeId, .text "U"⟩)) = true := by
    decide +kernel
  have hbuilt : Sample.namesake.Built :=
    .type (.empty "Sample") (TypeRecord.check_eq_ok.2 ⟨rfl, rfl⟩) (Module.addType_eq_ok.2 ⟨rfl, rfl⟩)
  obtain ⟨out, h, hout⟩ := exists_output hstores
  obtain ⟨out', h', hout'⟩ := exists_output hmakes
  exact ⟨⟨by decide +kernel, by decide, out, h, of_decide_eq_true hout⟩,
    hbuilt, ⟨by decide, by decide, by decide⟩, by decide +kernel, by decide, out', h', of_decide_eq_true hout'⟩

end ScriptCheck

import ScriptCheck.Proofs.NoUnresolved
import ScriptCheck.Proofs.SafeBodies
import ScriptCheck.Proofs.TypeIds

/-!
# Analyses without faults

A script is analysed against modules that were put together from checked records and mention no type with wrong arguments.
The records of the script itself make another such module, so the bodies are analysed in a context in which every look-up has
an answer. Hence the analysis never breaks a promise about arguments, records or positions, and everything that it gives is
again in order: the script's own module can be referred to like the others.
-/

namespace ScriptCheck

/-! ### The module of a script -/

/-- The module has this name, was put together from checked records, and its types are in order. -/
structure Module.InOrder (name : String) (m : Module) : Prop where
  built : m.Built
  name_eq : m.name = name
  types : ∀ t ∈ m.recordTypes, t.WellFormed

namespace Module.InOrder

variable {name : String} {m : Module}

/-- An empty module is in order. -/
theorem empty (name : String) : (Module.empty name).InOrder name :=
  ⟨.empty name, rfl, by simp [recordTypes, Module.empty, Table.values, Table.empty]⟩

/-- It stays so when a type is added. -/
theorem addType (h : m.InOrder name) {r : TypeRecord} (hr : r.id.arity = r.typeParams.length) (hn : r.id.moduleName = name)
    (ht : ∀ t ∈ r.types, t.WellFormed) : Gives (InOrder name) (m.addType r) := by
  have hm : m.addType r = .ok (m.putType r) := addType_eq_ok.2 ⟨hn.trans h.name_eq.symm, rfl⟩
  exact ⟨_, hm, .type h.built (TypeRecord.check_eq_ok.2 ⟨hr, rfl⟩) hm, h.name_eq, recordTypes_putType h.types ht⟩

/-- So it does for a function. -/
theorem addFunc (h : m.InOrder name) {r : FuncRecord} (hr : r.id.arity = r.typeParams.length) (hn : r.id.moduleName = name)
    (ht : ∀ t ∈ r.types, t.WellFormed) : Gives (InOrder name) (m.addFunc r) := by
  have hm : m.addFunc r = .ok (m.putFunc r) := addFunc_eq_ok.2 ⟨hn.trans h.name_eq.symm, rfl⟩
  exact ⟨_, hm, .func h.built (FuncRecord.check_eq_ok.2 ⟨hr, rfl⟩) hm, h.name_eq, recordTypes_putFunc h.types ht⟩

/-- So it does for a variable. -/
theorem addVar (h : m.InOrder name) {r : VarRecord} (hr : r.id.arity = 0) (hn : r.id.moduleName = name)
    (ht : r.ty.WellFormed) : Gives (InOrder name) (m.addVar r) := by
  have hm : m.addVar r = .ok (m.putVar r) := addVar_eq_ok.2 ⟨hn.trans h.name_eq.symm, rfl⟩
  exact ⟨_, hm, .var h.built (VarRecord.check_eq_ok.2 ⟨hr, rfl⟩) hm, h.name_eq,
    recordTypes_putVar h.types (by simpa [VarRecord.types] using ht)⟩

end Module.InOrder

namespace Check

variable {ctx : Context} {outer : ItemId}
variable {name : String} {script : Script}

/-! ### The records of a script -/

/-- A base is found without a fault. -/
theorem declaredBase_safe (hctx : ctx.WellFormed) (base : Option TypeExpr) :
    Safe (fun ty => ∀ t ∈ ty, t.WellFormed) (declaredBase ctx base) := by
  cases base with
  | none => exact .pure (by simp)
  | some written =>
    refine (typeExpr_safe hctx written).bind fun ty ht => ?_
    split
    · exact .pure (by simp)
    · split
      · exact .pure (by simpa using ht)
      · exact (report_safe _ _).bind fun _ _ => .pure (by simp)
    · exact (report_safe _ _).bind fun _ _ => .pure (by simp)

/-- So are parameters. -/
theorem paramRecords_safe (hctx : ctx.WellFormed) : ∀ params : List FuncParam,
    Safe (fun rs => ∀ r ∈ rs, r.ty.WellFormed) (paramRecords ctx params)
  | [] => by
    rw [paramRecords]
    exact .pure (by simp)
  | p :: ps => by
    rw [paramRecords]
    exact (typeExpr_safe hctx p.ty).bind fun t ht => (paramRecords_safe hctx ps).bind fun rs hrs =>
      .pure (List.forall_mem_cons.2 ⟨ht, hrs⟩)

/-- A function is declared without a fault. -/
theorem declareFunc_safe (hctx : ctx.WellFormed) {m : Module} (hm : m.InOrder name)
    (ho : outer.moduleName = name) (decl : FuncDecl) (isStatic : Bool) :
    Safe (Module.InOrder name) (declareFunc ctx outer decl isStatic m) := by
  have hinside : (ctx.within ⟨decl.idUnder outer, decl.typeParams.map Name.text, false⟩).WellFormed :=
    hctx.within fun h => nomatch h
  have harity : (decl.idUnder outer).arity = (decl.typeParams.map Name.text).length := by simp [FuncDecl.idUnder]
  refine (paramRecords_safe hinside decl.params).bind fun params hp => (typeExpr_safe hinside decl.ret).bind fun ret hr => ?_
  have hcheck : FuncRecord.check ⟨decl.idUnder outer, decl.typeParams.map Name.text, params, ret, decl.isSequence, isStatic⟩ =
      .ok _ := FuncRecord.check_eq_ok.2 ⟨harity, rfl⟩
  refine (Safe.lift ⟨_, hcheck, rfl⟩).bind fun r (hr' : _ = r) => ?_
  subst hr'
  refine .lift (hm.addFunc harity ho (List.forall_mem_cons.2 ⟨hr, ?_⟩))
  simpa using hp

/-- So is a field. -/
theorem declareField_safe (hctx : ctx.WellFormed) {m : Module} (hm : m.InOrder name)
    (ho : outer.moduleName = name) (decl : FieldDecl) : Safe (Module.InOrder name) (declareField ctx outer decl m) := by
  have harity : (decl.idUnder outer).arity = 0 := by simp [FieldDecl.idUnder]
  refine (typeExpr_safe hctx decl.ty).bind fun ty ht => ?_
  have hcheck : VarRecord.check ⟨decl.idUnder outer, ty, decl.isStatic⟩ = .ok _ := VarRecord.check_eq_ok.2 ⟨harity, rfl⟩
  refine (Safe.lift ⟨_, hcheck, rfl⟩).bind fun r (hr' : _ = r) => ?_
  subst hr'
  exact .lift (hm.addVar harity ho ht)

/-- A type of the script with all types around it is one of the collected declarations. -/
theorem within_type (hctx : ctx.WellFormed) {typeParams : List String}
    (ho : ∀ id ∈ outer.enclosing, ctx.skeleton.types.contains id = true)
    (hid : ctx.skeleton.types.contains (outer.child (.text name) typeParams.length) = true) :
    (∀ id ∈ (outer.child (.text name) typeParams.length).enclosing, ctx.skeleton.types.contains id = true) ∧
      (ctx.within ⟨outer.child (.text name) typeParams.length, typeParams.map .text, true⟩).WellFormed := by
  have hall : ∀ id ∈ (outer.child (.text name) typeParams.length).enclosing, ctx.skeleton.types.contains id = true := by
    rw [ItemId.enclosing_child]
    exact List.forall_mem_append.2 ⟨ho, by simpa using hid⟩
  exact ⟨hall, hctx.within fun _ => hall⟩

mutual

/-- So is a type. -/
theorem declareType_safe : ∀ (decl : TypeDecl) {ctx : Context} {outer : ItemId} {name : String} {m : Module},
    ctx.WellFormed → m.InOrder name → outer.moduleName = name →
    (∀ id ∈ outer.enclosing, ctx.skeleton.types.contains id = true) →
    (∀ id ∈ decl.typeIds outer, ctx.skeleton.types.contains id = true) →
    Safe (Module.InOrder name) (declareType ctx outer decl m)
  | .mk node kind name typeParams base members, ctx, outer, moduleName, m, hctx, hm, ho, he, hids => by
    rw [TypeDecl.typeIds] at hids
    obtain ⟨hid, hmembers⟩ := List.forall_mem_cons.1 hids
    obtain ⟨hall, hinside⟩ := within_type hctx he hid
    have hchild : (outer.child (.text name) typeParams.length).moduleName = moduleName := ho
    rw [declareType]
    refine (declaredBase_safe hinside base).bind fun base hb =>
      (declareMembers_safe members hinside hm hchild hall hmembers).bind fun m' hm' => ?_
    have harity : (outer.child (.text name) typeParams.length).arity = (typeParams.map Name.text).length := by simp
    have hcheck : TypeRecord.check ⟨outer.child (.text name) typeParams.length, kind.typeKind, typeParams.map .text, base,
        enumCases members⟩ = .ok _ := TypeRecord.check_eq_ok.2 ⟨harity, rfl⟩
    refine (Safe.lift ⟨_, hcheck, rfl⟩).bind fun r (hr' : _ = r) => ?_
    subst hr'
    exact .lift (hm'.addType harity hchild fun t ht => hb t (Option.mem_toList.1 ht))

/-- So are members. -/
theorem declareMembers_safe : ∀ (members : List Member) {ctx : Context} {id : ItemId} {name : String} {m : Module},
    ctx.WellFormed → m.InOrder name → id.moduleName = name → (∀ id' ∈ id.enclosing, ctx.skeleton.types.contains id' = true) →
    (∀ id' ∈ Member.typeIdsOfList id members, ctx.skeleton.types.contains id' = true) →
    Safe (Module.InOrder name) (declareMembers ctx id members m)
  | [], ctx, id, name, m, _, hm, _, _, _ => by
    rw [declareMembers]
    exact .pure hm
  | member :: members, ctx, id, name, m, hctx, hm, ho, he, hids => by
    rw [Member.typeIdsOfList, List.forall_mem_append] at hids
    rw [declareMembers]
    exact (declareMember_safe member hctx hm ho he hids.1).bind fun m' hm' =>
      declareMembers_safe members hctx hm' ho he hids.2

/-- So is a single member. -/
theorem declareMember_safe : ∀ (member : Member) {ctx : Context} {id : ItemId} {name : String} {m : Module},
    ctx.WellFormed → m.InOrder name → id.moduleName = name → (∀ id' ∈ id.enclosing, ctx.skeleton.types.contains id' = true) →
    (∀ id' ∈ member.typeIds id, ctx.skeleton.types.contains id' = true) →
    Safe (Module.InOrder name) (declareMember ctx id member m)
  | .type decl, ctx, id, name, m, hctx, hm, ho, he, hids => by
    rw [Member.typeIds] at hids
    rw [declareMember]
    exact declareType_safe decl hctx hm ho he hids
  | .func decl, ctx, id, name, m, hctx, hm, ho, _, _ => by
    rw [declareMember]
    exact declareFunc_safe hctx hm ho decl decl.isStatic
  | .field decl, ctx, id, name, m, hctx, hm, ho, _, _ => by
    rw [declareMember]
    exact declareField_safe hctx hm ho decl
  | .case decl, ctx, id, name, m, _, hm, _, _, _ => by
    rw [declareMember]
    exact .pure hm

end

/-- So are the declarations of a script. -/
theorem declareElements_safe (hctx : ctx.WellFormed) : ∀ (script : Script) {m : Module}, m.InOrder ctx.moduleName →
    (∀ id ∈ script.typeIds ctx.root, ctx.skeleton.types.contains id = true) →
    Safe (Module.InOrder ctx.moduleName) (declareElements ctx script m)
  | [], m, hm, _ => by
    rw [declareElements]
    exact .pure hm
  | .type decl :: rest, m, hm, hids => by
    rw [Script.typeIds, List.forall_mem_append] at hids
    rw [declareElements]
    exact (declareType_safe decl hctx hm rfl (by simp [ItemId.enclosing, Context.root, ItemId.root]) hids.1).bind
      fun m' hm' => declareElements_safe hctx rest hm' hids.2
  | .func decl :: rest, m, hm, hids => by
    rw [declareElements]
    exact (declareFunc_safe hctx hm rfl decl true).bind fun m' hm' => declareElements_safe hctx rest hm' hids
  | .stmt st :: rest, m, hm, hids => by
    rw [declareElements]
    exact declareElements_safe hctx rest hm hids

/-- Reporting circles breaks no promise. -/
theorem rejectCycles_safe (ctx : Context) (m : Module) : Runs (rejectCycles ctx m) := by
  exact (Safe.forM fun _ _ => report_safe _ _).bind fun _ _ => .pure trivial

/-! ### The bodies of a script -/

/-- A record is known for each of the functions. -/
def FuncsKnown (reg : Registry) (ds : List (ItemId × FuncDecl)) : Prop :=
  ∀ d ∈ ds, ∃ r, reg.func? (d.2.idUnder d.1) = some r

/-- A body is analysed without a fault. -/
theorem funcBody_safe (hctx : ctx.WellFormed) {decl : FuncDecl}
    (hknown : ∃ r, ctx.registry.func? (decl.idUnder outer) = some r) : Runs (funcBody ctx outer decl) := by
  obtain ⟨record, hr⟩ := hknown
  refine (Safe.lift ⟨record, Registry.funcRecord_eq_ok.2 hr, rfl⟩).bind fun r (hr' : record = r) => ?_
  subst hr'
  obtain ⟨hret, hparams⟩ := List.forall_mem_cons.1 (Registry.AllTypes.func? hctx.registry.types hr)
  have hinside : (ctx.within ⟨decl.idUnder outer, record.typeParams, false⟩).WellFormed := hctx.within fun h => nomatch h
  have hbody : Runs (do
      declareParams (decl.params.map fun p => (p.node, p.name)) (record.params.map (·.ty))
      block (ctx.within ⟨decl.idUnder outer, record.typeParams, false⟩) decl.body) :=
    (declareParams_safe _ _ hparams).bind fun _ _ => block_safe hinside decl.body
  have hframe : record.frame.AllTypes Ty.WellFormed ∧ record.frame.Bounded := by
    unfold FuncRecord.frame
    split
    · exact ⟨.enter (by simp [ReturnMode.types]) (by simpa using hret), .enter _ _ _⟩
    · exact ⟨.enter (by simpa [ReturnMode.types] using hret) (by simp), .enter _ _ _⟩
  exact (inFrame_safe hframe.1 hframe.2 hbody).bind fun _ hf => (pushTemplate_safe _ hf.2 _).bind fun _ _ => .pure trivial

/-- So are those of a script. -/
theorem scriptBodies_safe (hctx : ctx.WellFormed)
    (hids : ∀ id ∈ script.typeIds ctx.root, ctx.skeleton.types.contains id = true)
    (hfuncs : FuncsKnown ctx.registry (script.funcs ctx.root)) : Runs (scriptBodies ctx script) := by
  have hinside : ∀ f ∈ script.funcSites ctx.root ctx.enclosing,
      Context.WellFormed { ctx with enclosing := f.around } := by
    refine fun f hf => ⟨hctx.registry, hctx.skeleton, fun scope hscope htype id hid => ?_⟩
    rcases Script.scopes_funcSites hscope htype hf with h | h
    · exact hctx.enclosing scope h htype id hid
    · exact hids id (Script.enclosing_typeIds h hid)
  rw [script.funcs_eq ctx.root ctx.enclosing] at hfuncs
  rw [scriptBodies_sites]
  exact .forM fun f hf => funcBody_safe (hinside f hf) (hfuncs _ (List.mem_map_of_mem hf))

/-- So are its statements. -/
theorem scriptStmts_safe (hctx : ctx.WellFormed) (script : Script) : Runs (scriptStmts ctx script) := by
  rw [scriptStmts_eq]
  exact stmts_safe hctx script.stmts

/-- The functions' bodies are analysed in a frame that is as the script's was at the start, so slots are not kept here. -/
theorem bodies_run (hctx : ctx.WellFormed) (hids : ∀ id ∈ script.typeIds ctx.root, ctx.skeleton.types.contains id = true)
    (hfuncs : FuncsKnown ctx.registry (script.funcs ctx.root)) {s : State} (hs : s.WellFormed) :
    ∃ s', bodies ctx script s = .ok ((), s') ∧ s'.WellFormed := by
  obtain ⟨_, t, ht, hwf, -, -⟩ := scriptStmts_safe hctx script hs
  have hafter : State.WellFormed { t.push .script t.frame none with frame := .script } :=
    (hwf.push .script hwf.types.frame none).withFrame (.enter (by simp [ReturnMode.types]) (by simp)) (.enter _ _ _)
  obtain ⟨_, u, hu, huwf, -, -⟩ := scriptBodies_safe hctx hids hfuncs hafter
  refine ⟨u, ?_, huwf⟩
  simp only [bodies, bind_eq_ok]
  exact ⟨_, t, ht, t, t, rfl, _, _, pushTemplate_apply _ _ _ t, _, _, rfl, hu⟩

/-- The analysis of a script ends without a fault, and if there is a module then it is in order. -/
theorem script_run (hctx : ctx.WellFormed) (hids : ∀ id ∈ script.typeIds ctx.root, ctx.skeleton.types.contains id = true)
    (hnodup : (funcIds (script.funcs ctx.root)).Nodup) {s : State} (hs : s.WellFormed) :
    ∃ made s', Check.script ctx script s = .ok (made, s') ∧ s'.WellFormed ∧ ∀ m ∈ made, m.InOrder ctx.moduleName := by
  obtain ⟨m, t, ht, htwf, -, hm⟩ := declareElements_safe hctx script (.empty ctx.moduleName) hids hs
  obtain ⟨acyclic, u, hu, huwf, -, -⟩ := rejectCycles_safe ctx m htwf
  cases acyclic with
  | false =>
    refine ⟨none, u, ?_, huwf, by simp⟩
    simp only [Check.script, bind_eq_ok]
    exact ⟨m, t, ht, false, u, hu, rfl⟩
  | true =>
    have hreg : Registry.WellFormed (m :: ctx.registry) := hctx.registry.cons hm.built.consistent hm.types
    have hfuncs : FuncsKnown (m :: ctx.registry) (script.funcs ctx.root) := by
      intro d hd
      obtain ⟨r, hr, -⟩ := (declareElements_grows ht).declares.made hnodup d hd
      exact ⟨r, by simp [Registry.func?, hr]⟩
    have hctx' : Context.WellFormed { ctx with registry := m :: ctx.registry } := ⟨hreg, hctx.skeleton, hctx.enclosing⟩
    obtain ⟨v, hv, hvwf⟩ := bodies_run hctx' hids hfuncs huwf
    refine ⟨some m, v, ?_, hvwf, by simpa using hm⟩
    simp only [Check.script, bind_eq_ok]
    exact ⟨m, t, ht, true, u, hu, bind_eq_ok.2 ⟨(), v, hv, rfl⟩⟩

end Check

/-- The context in which the script's records are made is in order. -/
theorem Setup.contextFor_wellFormed {setup : Setup} (hb : ∀ m ∈ setup.modules, m.Built)
    (ht : ∀ m ∈ setup.modules, ∀ t ∈ m.recordTypes, t.WellFormed) (script : Script) :
    (setup.contextFor script).WellFormed where
  registry := .cons Builtin.declarations_consistent Builtin.declarations_wellFormed
    ⟨fun m hm => (hb m hm).consistent, fun m hm => ht m hm⟩
  skeleton := script.collect_consistent _
  enclosing := by simp [Setup.contextFor, Setup.context]

theorem State.initial_wellFormed : State.initial.WellFormed where
  types := ⟨.enter (by simp [ReturnMode.types]) (by simp), by simp [State.initial, PrivateGlobals.empty],
    by simp [State.initial, Table.values, Table.empty], by simp [State.initial]⟩
  bounded := .enter _ _ _
  globals := fun x slot h => nomatch h
  refs := by simp [State.initial, Table.values, Table.empty]

theorem State.checkResolved_fault {s : State} {fault : Fault} (h : s.checkResolved = .error fault) :
    fault = .unresolvedTemplate ∨ fault = .unresolvedType := by
  unfold State.checkResolved at h
  split at h
  · cases h
    exact .inl rfl
  · split at h
    · cases h
      exact .inr rfl
    · cases h

/-! ### The main statement -/

/-- A script is analysed against modules that were put together from checked records and whose types have fitting arguments at
every depth. The analysis never ends in a fault about arguments, type parameters, records or positions: the only faults left
are those of the check for unknown types at its end. Where it has an output, every type in it has fitting arguments at every
depth, whether it is noted for a node, yielded by a body or part of a record of the script; every function and variable that a
note mentions has the arguments that its id asks for; and the script's own module has been put together from checked records. -/
theorem analysis_keeps_arities (setup : Setup) (script : Script) (hb : ∀ m ∈ setup.modules, m.Built)
    (ht : ∀ m ∈ setup.modules, ∀ t ∈ m.recordTypes, t.WellFormed) :
    (∀ fault, analyze setup script = .error fault → fault = .unresolvedTemplate ∨ fault = .unresolvedType) ∧
      ∀ out, analyze setup script = .ok (.ok out) →
        (∀ d ∈ out.nodes.values, (∀ t ∈ d.types, t.WellFormed) ∧ ∀ r ∈ d.refs, r.2.fits r.1 = true) ∧
        (∀ template ∈ out.templates, ∀ t ∈ template.types, t.WellFormed) ∧
        out.module.Built ∧ ∀ t ∈ out.module.recordTypes, t.WellFormed := by
  have hctx := Setup.contextFor_wellFormed hb ht script
  constructor
  · intro fault h
    unfold analyze at h
    dsimp only at h
    split at h
    · cases h
    · rename_i hc
      have hcollected : (script.collect (.root setup.moduleName)).diagnostics = [] := by simpa using hc
      obtain ⟨made, s, hrun, -, -⟩ := Check.script_run hctx (Script.collect_types hcollected)
        (Script.funcs_nodup hcollected) State.initial_wellFormed
      have hrun' : (Check.script { setup.context with skeleton := (script.collect (.root setup.moduleName)).skeleton }
          script).run .initial = .ok (made, s) := hrun
      simp only [hrun', bind, Except.bind] at h
      cases made with
      | none => cases h
      | some m =>
        dsimp only at h
        split at h
        · cases h
        · cases hcheck : s.checkResolved with
          | ok u =>
            rw [hcheck] at h
            cases h
          | error e =>
            rw [hcheck] at h
            cases h
            exact State.checkResolved_fault hcheck
  · intro out h
    obtain ⟨m, s, ha, -, -, rfl⟩ := analyze_eq_ok h
    obtain ⟨made, s', hrun, hs, hm⟩ := Check.script_run hctx (Script.collect_types ha.collected)
      (Script.funcs_nodup ha.collected) State.initial_wellFormed
    rw [ha.run] at hrun
    cases hrun
    exact ⟨fun d hd => ⟨hs.types.nodes d hd, hs.refs d hd⟩, hs.types.templates, (hm m rfl).built, (hm m rfl).types⟩

/-! ### A module with a generic type -/

namespace Sample

/-- The id of `Box<T>`. -/
def boxId : ItemId := (ItemId.root "Lib").child (.text "Box") 1

/-- The module `Lib` with `class Box<T> { T get() }` and `func Box<U> wrap<U>(U value)`. -/
def library : Module :=
  (((Module.empty "Lib").putType ⟨boxId, .classType, [.text "T"], none, []⟩).putFunc
    ⟨boxId.child (.text "get") 0, [], [], .param ⟨boxId, .text "T"⟩, false, false⟩).putFunc
    ⟨(ItemId.root "Lib").child (.text "wrap") 1, [.text "U"],
      [⟨.text "value", .param ⟨(ItemId.root "Lib").child (.text "wrap") 1, .text "U"⟩⟩],
      .nominal boxId [[.param ⟨(ItemId.root "Lib").child (.text "wrap") 1, .text "U"⟩]], false, true⟩

theorem library_built : library.Built :=
  .func (.func (.type (.empty "Lib") (TypeRecord.check_eq_ok.2 ⟨rfl, rfl⟩) (Module.addType_eq_ok.2 ⟨rfl, rfl⟩))
    (FuncRecord.check_eq_ok.2 ⟨rfl, rfl⟩) (Module.addFunc_eq_ok.2 ⟨rfl, rfl⟩))
    (FuncRecord.check_eq_ok.2 ⟨rfl, rfl⟩) (Module.addFunc_eq_ok.2 ⟨rfl, rfl⟩)

/-- Scripts that refer to `Lib`. -/
def withLibrary : Setup := ⟨"Sample", [library], captures⟩

/-- `var box = wrap(3); box.get();` -/
def boxed : Script :=
  [.stmt (.varDecl (nd 0) (.var (nd 1)) "box" (some (.call (nd 2) (.identifier (nd 3) "wrap" []) [.intLit (nd 4) 3]))),
    .stmt (.expr (nd 5) (.call (nd 6) (.member (nd 7) (.identifier (nd 8) "box" []) "get" []) []))]

end Sample

/-- The call of `wrap` gives a `Box<int>`, and `get` gives an `int`. -/
theorem sample_keeps_arities : (∀ m ∈ Sample.withLibrary.modules, m.Built) ∧
    (∀ m ∈ Sample.withLibrary.modules, ∀ t ∈ m.recordTypes, t.WellFormed) ∧
    ∃ out, analyze Sample.withLibrary Sample.boxed = .ok (.ok out) ∧
      out.nodes.ty? 2 = some (.nominal Sample.boxId [[Builtin.int]]) ∧ out.nodes.ty? 6 = some Builtin.int ∧
      (∀ d ∈ out.nodes.values, (∀ t ∈ d.types, t.WellFormed) ∧ ∀ r ∈ d.refs, r.2.fits r.1 = true) ∧ out.module.Built := by
  have hb : ∀ m ∈ Sample.withLibrary.modules, m.Built := by simpa [Sample.withLibrary] using Sample.library_built
  have ht : ∀ m ∈ Sample.withLibrary.modules, ∀ t ∈ m.recordTypes, t.WellFormed := by decide +kernel
  have hrun : ((analyze Sample.withLibrary Sample.boxed).toOption.bind Except.toOption).any (fun out =>
      out.nodes.ty? 2 = some (.nominal Sample.boxId [[Builtin.int]]) ∧ out.nodes.ty? 6 = some Builtin.int) = true := by
    decide +kernel
  obtain ⟨out, h, hout⟩ := exists_output hrun
  obtain ⟨hbox, hint⟩ := of_decide_eq_true hout
  obtain ⟨hnodes, -, hmodule, -⟩ := (analysis_keeps_arities Sample.withLibrary Sample.boxed hb ht).2 out h
  exact ⟨hb, ht, out, h, hbox, hint, hnodes, hmodule⟩

end ScriptCheck

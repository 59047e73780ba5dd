import ScriptCheck.Proofs.Declarations
import ScriptCheck.Proofs.MemberSelection

/-!
# A written type means the same everywhere

The types that declarations mention are looked up before the script has a module of its own, and those that bodies mention are
looked up with that module in front of the others. Both times a written type means the same. What the module would add about the
script's own types is known already: that they are there, which type parameters they introduce, and that they are the ones of
their names at the top level. Records of another module that has the script's name are left out of account both times.
-/

namespace ScriptCheck

/-! ### One module more -/

/-- The context with the declarations of a stack around the place. -/
def Context.enclosedBy (ctx : Context) (stack : List DeclScope) : Context := { ctx with enclosing := stack }

/-- The context with one module more in front, as that of the script is when bodies are analysed. -/
def Context.adding (ctx : Context) (m : Module) : Context := { ctx with registry := m :: ctx.registry }

/-- The module says of types only what the context knows without it: its types are types of the script. -/
structure Context.KnowsTypesOf (ctx : Context) (m : Module) : Prop where
  name : m.name = ctx.moduleName
  id : ∀ {id r}, m.types.find? id = some r → r.id = id
  declared : ∀ {id r}, m.types.find? id = some r → ctx.skeleton.types.contains id = true

/-- The types around the place are known, and so are those around them. -/
def Context.KnowsScopes (ctx : Context) : Prop :=
  ∀ scope ∈ ctx.enclosing, scope.isType = true → ∀ id ∈ scope.id.enclosing, ctx.skeleton.types.contains id = true

namespace Context.KnowsTypesOf

variable {ctx : Context} {m : Module}

theorem typeExists (h : ctx.KnowsTypesOf m) : (ctx.adding m).typeExists = ctx.typeExists := by
  funext id
  unfold Context.typeExists Registry.type? Context.adding
  rw [List.findSome?_cons]
  cases hfind : m.types.find? id with
  | none => rfl
  | some r => rw [h.declared hfind, Bool.true_or, Bool.true_or]

/-- A type around the place is seen from inside with the same arguments. -/
theorem selfLevels {id : ItemId} (hid : ∀ owner ∈ id.enclosing, ctx.skeleton.types.contains owner = true) :
    (ctx.adding m).selfLevels id = ctx.selfLevels id := by
  refine List.map_congr_left fun owner howner => ?_
  obtain ⟨t, ht⟩ := Option.isSome_iff_exists.1 (hid owner howner)
  simp only [Context.typeParamsOf, Context.adding, ht]

/-- The module's own types are not counted a second time. -/
theorem globalTypeIds (h : ctx.KnowsTypesOf m) : (ctx.adding m).globalTypeIds = ctx.globalTypeIds := by
  funext name arity
  have hothers : ((Registry.globalTypes (m :: ctx.registry) name arity).map (·.id)).filter
        (fun id => id.moduleName ≠ ctx.moduleName) =
      ((ctx.registry.globalTypes name arity).map (·.id)).filter fun id => id.moduleName ≠ ctx.moduleName := by
    rw [Registry.globalTypes, List.filterMap_cons]
    cases hfind : m.types.find? (m.root.child name arity) with
    | none => rfl
    | some r =>
      have hown : r.id.moduleName = ctx.moduleName := by
        rw [h.id hfind, ← h.name]
        rfl
      rw [List.map_cons, List.filter_cons_of_neg (by simp [hown])]
      rfl
  exact congrArg (_ ++ ·) hothers

theorem namedType (h : ctx.KnowsTypesOf m) (hscopes : ctx.KnowsScopes) : (ctx.adding m).namedType = ctx.namedType := by
  funext name args
  have hglobal : (ctx.adding m).globalType = ctx.globalType := by
    funext name args
    rw [Context.globalType, Context.globalType, h.globalTypeIds]
  have hnested : (ctx.adding m).nestedOwner? = ctx.nestedOwner? := by
    funext name arity
    rw [Context.nestedOwner?, Context.nestedOwner?, h.typeExists, Context.adding]
  have howner : (ctx.adding m).paramOwner? = ctx.paramOwner? := rfl
  rw [Context.namedType, Context.namedType, howner, hnested, hglobal]
  split
  · rfl
  · cases hfound : ctx.nestedOwner? name args.length with
    | none => rfl
    | some outer =>
      obtain ⟨scope, hscope, rfl⟩ := Option.map_eq_some_iff.1 hfound
      have htype := List.find?_some hscope
      rw [Bool.and_eq_true] at htype
      simp only [selfLevels (hscopes scope (List.mem_of_find?_eq_some hscope) htype.1)]

theorem memberType (h : ctx.KnowsTypesOf m) : (ctx.adding m).memberType = ctx.memberType := by
  funext parent name args
  cases parent with
  | nominal id levels => simp only [Context.memberType, h.typeExists]
  | _ => rfl

/-- A written type means the same with the module as without it. -/
theorem typeExpr (h : ctx.KnowsTypesOf m) (hscopes : ctx.KnowsScopes) : Check.typeExpr (ctx.adding m) = Check.typeExpr ctx :=
  funext (Check.typeExpr_congr (h.namedType hscopes) h.memberType)

end Context.KnowsTypesOf

/-- A script's own module says of types only what was collected. -/
theorem Check.declareElements_knowsTypesOf {ctx : Context} {script : Script} {m : Module} {s t : State}
    (hskeleton : ctx.skeleton = (script.collect ctx.root).skeleton) (hsilent : (script.collect ctx.root).diagnostics = [])
    (hrun : declareElements ctx script (.empty ctx.moduleName) s = .ok (m, t)) : ctx.KnowsTypesOf m := by
  have hids := ((collect_silent_iff ctx.root script).1 hsilent).2
  have hmem := mem_types_iff hrun hids
  obtain ⟨rss, hrss, rfl, hnodup⟩ := exists_records hrun hids
  have hentries := Module.holds_types.entries hnodup ctx.moduleName
  have hentry : ∀ {id r}, ((Module.empty ctx.moduleName).putAll rss.flatten).types.find? id = some r →
      (id, r) ∈ rss.flatten.filterMap Record.type? := by
    intro id r hr
    rw [← hentries]
    exact (Table.mem_entries_iff (Module.holds_types.keys hnodup _)).2 hr
  refine ⟨by simp [Module.empty], fun {id r} hr => ?_, fun {id r} hr => ?_⟩
  · obtain ⟨record, -, hrecord⟩ := List.mem_filterMap.1 (hentry hr)
    cases record <;> cases hrecord
    rfl
  · obtain ⟨d, hd⟩ := (hmem id).1 (List.mem_map.2 ⟨(id, r), hentries ▸ hentry hr, rfl⟩)
    rw [hskeleton, Table.contains, Script.collect_knows hsilent _ hd d rfl]
    rfl

/-! ### The main statement -/

/-- Let the declarations of a script be collected without a report, and let them make a module. With declarations of the script
around it, a written type is then looked up in the same way with the module in front of the others as without it: from every
state both runs end in the same fault, or give the same type and leave the same notes and reports behind. The stacks of
declarations around the places in the script are such stacks, nothing is asked of the names of the other modules, and where these
are in order there is no fault. -/
theorem written_types_mean_the_same_in_declarations_and_bodies (setup : Setup) (script : Script) (m : Module) (s : State)
    (hsilent : (script.collect (.root setup.moduleName)).diagnostics = [])
    (hrun : Check.declareElements (setup.contextFor script) script (.empty setup.moduleName) .initial = .ok (m, s)) :
    (∀ region ∈ script.regions (.root setup.moduleName), ∀ scope ∈ region.around, scope.isType = true →
      scope.id ∈ script.typeIds (.root setup.moduleName)) ∧
    ∀ stack : List DeclScope,
      (∀ scope ∈ stack, scope.isType = true → scope.id ∈ script.typeIds (.root setup.moduleName)) →
      (∀ (written : TypeExpr) (t : State),
        Check.typeExpr (((setup.contextFor script).adding m).enclosedBy stack) written t =
          Check.typeExpr ((setup.contextFor script).enclosedBy stack) written t) ∧
      ((∀ m ∈ setup.modules, m.Built) → (∀ m ∈ setup.modules, ∀ t ∈ m.recordTypes, t.WellFormed) →
        ∀ (written : TypeExpr) (t : State), t.WellFormed → ∃ ty t',
          Check.typeExpr ((setup.contextFor script).enclosedBy stack) written t = .ok (ty, t')) := by
  have hknows : (setup.contextFor script).KnowsTypesOf m := Check.declareElements_knowsTypesOf rfl hsilent hrun
  refine ⟨fun region hregion scope hscope htype => Script.scopes_typeIds hregion hscope htype, fun stack hstack => ?_⟩
  have hscopes : ((setup.contextFor script).enclosedBy stack).KnowsScopes :=
    fun scope hscope htype id hid =>
      Script.collect_types hsilent id (Script.enclosing_typeIds (hstack scope hscope htype) hid)
  have hinside : ((setup.contextFor script).enclosedBy stack).KnowsTypesOf m :=
    ⟨hknows.name, hknows.id, hknows.declared⟩
  refine ⟨fun written t => congrFun (congrFun (hinside.typeExpr hscopes) written) t, fun hb ht written t hwf => ?_⟩
  have hctx := Setup.contextFor_wellFormed hb ht script
  have hctx' : ((setup.contextFor script).enclosedBy stack).WellFormed := ⟨hctx.registry, hctx.skeleton, hscopes⟩
  obtain ⟨ty, t', hrun, -⟩ := Check.typeExpr_safe hctx' written hwf
  exact ⟨ty, t', hrun⟩

namespace Sample

/-- Another module of the script's name, with `class Hall` and `class Mood`. -/
def twin : Module :=
  Module.empty "Sample" |>.putType (plainClass "Sample" "Hall" none) |>.putType (plainClass "Sample" "Mood" none)

/-- A script whose own name a module that it refers to has, too. -/
def besideTwin : Setup := ⟨"Sample", [twin], captures⟩

/-- The declarations around the members of `Hall`. -/
def inHall : List DeclScope := [⟨plainId "Sample" "Hall", [], true⟩]

end Sample

/-- In `Hall` the name `Mood` means the enum in `Hall` and not the class of the other module, before and after the script has a
module of its own. -/
theorem sample_mood_means_the_same : (Sample.halls.collect (.root Sample.besideTwin.moduleName)).diagnostics = [] ∧
    ∃ m s, Check.declareElements (Sample.besideTwin.contextFor Sample.halls) Sample.halls
        (.empty Sample.besideTwin.moduleName) .initial = .ok (m, s) ∧
      ∀ t, Check.typeExpr (((Sample.besideTwin.contextFor Sample.halls).adding m).enclosedBy Sample.inHall)
          (.named (Sample.nd 20) "Mood" []) t =
        .ok (.nominal ((Sample.plainId "Sample" "Hall").child (.text "Mood") 0) [[], []],
          { t with nodes := t.nodes.setInfo 20 (.type (.nominal ((Sample.plainId "Sample" "Hall").child (.text "Mood") 0)
            [[], []])) }) := by
  have hsilent : (Sample.halls.collect (.root Sample.besideTwin.moduleName)).diagnostics = [] := by decide +kernel
  have hbuilt : ∀ m ∈ Sample.besideTwin.modules, m.Built :=
    List.forall_mem_singleton.2 (.putType (.putType (.empty "Sample") rfl rfl) rfl rfl)
  have hfit : ∀ m ∈ Sample.besideTwin.modules, ∀ t ∈ m.recordTypes, t.WellFormed := by decide +kernel
  obtain ⟨m, s, hrun, -⟩ := Check.declareElements_safe (Setup.contextFor_wellFormed hbuilt hfit Sample.halls) Sample.halls
    (.empty Sample.besideTwin.moduleName) (Script.collect_types hsilent) State.initial_wellFormed
  refine ⟨hsilent, m, s, hrun, fun t => ?_⟩
  obtain ⟨-, hsame⟩ := written_types_mean_the_same_in_declarations_and_bodies Sample.besideTwin Sample.halls m s hsilent hrun
  rw [(hsame Sample.inHall (by decide +kernel)).1]
  rfl

end ScriptCheck

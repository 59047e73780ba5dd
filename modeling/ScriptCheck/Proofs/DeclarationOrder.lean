import ScriptCheck.Proofs.BodyIndependence
import ScriptCheck.Proofs.FuncBodies
import ScriptCheck.Proofs.RecordLists
import ScriptCheck.Proofs.StepOrder

/-!
# Declarations in another order

A script may be written with its declarations in any order among themselves and among its statements. The same ids are
collected, so what a written type means is the same wherever it stands, and the records are the same. With the same records
every body means the same. What the analysis of one declaration notes is not looked at by that of another, so both the
records and the bodies can be gone through in any order. Only the positions of templates tell the orders apart.
-/

namespace ScriptCheck

theorem Script.ids_eq_flatMap : ∀ script : Script, script.ids = script.flatMap Element.ids
  | [] => rfl
  | e :: rest => by rw [Script.ids, List.flatMap_cons, ids_eq_flatMap rest]

theorem Element.funcSites_ids (root : ItemId) (around : List DeclScope) : ∀ e : Element,
    funcSiteIds (e.funcSites root around) ⊆ e.ids
  | .type decl => (decl.funcSites_ids root around).subset
  | .func decl => by simp [Element.funcSites, funcSiteIds, Element.ids]
  | .stmt _ => List.nil_subset _

namespace Check

variable {E : LookupError → LookupError → Prop} {ctx ctx' : Context}

/-! ### One declaration -/

/-- Analyses the function bodies in a declaration at the top level. -/
def elementBody (ctx : Context) : Element → Check Unit
  | .type decl => typeBodies ctx ctx.root decl
  | .func decl => funcBody ctx ctx.root decl
  | .stmt _ => return

theorem scriptBodies_eq (ctx : Context) : ∀ script : Script,
    scriptBodies ctx script = (fun _ => ()) <$> script.mapM (elementBody ctx)
  | [] => by
    rw [scriptBodies, List.mapM_nil, map_pure]
  | e :: rest => by
    have hfirst : scriptBodies ctx (e :: rest) = elementBody ctx e >>= fun _ => scriptBodies ctx rest := by
      cases e with
      | type decl => rw [scriptBodies, elementBody]
      | func decl => rw [scriptBodies, elementBody]
      | stmt s => rw [scriptBodies, elementBody, pure_bind]
    rw [hfirst, List.mapM_cons, scriptBodies_eq ctx rest]
    simp only [map_eq_pure_bind, bind_assoc, pure_bind]

theorem elementBody_sites (ctx : Context) : ∀ e : Element,
    elementBody ctx e = (e.funcSites ctx.root ctx.enclosing).forM (siteBody ctx)
  | .type decl => typeBodies_sites ctx ctx.root decl
  | .func decl => by simp [elementBody, Element.funcSites, siteBody]
  | .stmt _ => rfl

theorem elementBody_lockstep {N : Set Nat} (h : ctx.Alike E ctx') (e : Element) (hN : ∀ n ∈ e.ids, n ∈ N) :
    Lockstep E N Eq (elementBody ctx e) (elementBody ctx' e) := by
  rw [elementBody_sites, elementBody_sites, h.root, h.enclosing]
  exact sites_lockstep h _ fun n hn => hN n (e.funcSites_ids _ _ hn)

theorem elementRecords_confined (ctx : Context) (e : Element) : Confined e.ids (elementRecords ctx e) where
  reads N hN := elementRecords_lockstep (.refl (fun _ => rfl) ctx) e hN
  writes := by
    intro s rs t h
    have hdeclare : declareElements ctx [e] (.empty ctx.moduleName) s =
        .ok ((Module.empty ctx.moduleName).putAll [rs].flatten, t) := by
      rw [declareElements_eq ctx [e] _ rfl, List.mapM_cons, List.mapM_nil]
      simp only [pure_bind, map_bind, map_pure]
      exact bind_ok h
    have hnotes := declareElements_notes ctx [e] _ hdeclare
    have hids : TypeExpr.idsOfList (Script.types [e]) ⊆ Script.ids [e] :=
      fun _ hn => (Script.declIds_sublist [e]).subset (Script.typeIds_subset [e] hn)
    rw [Script.ids, Script.ids, List.append_nil] at hids
    exact ⟨hnotes.frame, hnotes.globalScope, hnotes.globals, fun n hn => hnotes.nodes n fun hm => hn (hids hm)⟩

theorem elementBody_confined (ctx : Context) (e : Element) : Confined e.ids (elementBody ctx e) where
  reads N hN := elementBody_lockstep (.refl (fun _ => rfl) ctx) e hN
  writes := by
    intro s a t h
    rw [elementBody_sites] at h
    have heffect := sites_effect ctx (e.funcSites_ids _ _) h
    exact ⟨(sites_run h).frame, heffect.globalScope, heffect.globals, heffect.nodes⟩

/-! ### All declarations -/

section Order

variable {script script' : Script}

/-- A step for each declaration, run in two contexts that are alike and in two orders. -/
theorem elements_shuffle {α : Type} {x y : Element → Check α} (hperm : script.Perm script') (hids : script.ids.Nodup)
    (hxy : ∀ e, Lockstep E .univ Eq (x e) (y e)) (hy : ∀ e, Confined e.ids (y e)) :
    Shuffle List.Perm (script.mapM x) (script'.mapM y) := by
  have hsame : Shuffle Eq (script.mapM x) (script.mapM y) := .of_lockstep (mapM_lockstep fun e _ => hxy e)
  rw [Script.ids_eq_flatMap] at hids
  refine hsame.trans (mapM_shuffle hperm (fun e _ => hy e) hids) ?_
  rintro _ bs cs rfl h
  exact h

/-- The records make modules that are alike. -/
theorem declareElements_shuffle (h : ctx.Alike E ctx') (hperm : script.Perm script') (hids : script.ids.Nodup)
    (hdeclared : ((script.declared ctx.root).map (·.1)).Nodup) :
    Shuffle Module.Alike (declareElements ctx script (.empty ctx.moduleName))
      (declareElements ctx' script' (.empty ctx'.moduleName)) := by
  have hlists := elements_shuffle hperm hids (fun e => elementRecords_lockstep h e fun _ _ => trivial)
    (elementRecords_confined ctx')
  rw [declareElements_eq ctx script _ rfl, declareElements_eq ctx' script' _ rfl, map_eq_pure_bind, map_eq_pure_bind,
    h.moduleName]
  refine (hlists.and_left fun _ _ _ hrun => (ids_records hrun).nodup_iff.2 hdeclared).bind fun rss rss' hrss => .pure ?_
  exact Module.alike_putAll hrss.2 hrss.1.flatten ctx.moduleName

theorem scriptBodies_shuffle (h : ctx.Alike E ctx') (hperm : script.Perm script') (hids : script.ids.Nodup) :
    Shuffle Eq (scriptBodies ctx script) (scriptBodies ctx' script') := by
  have hlists := elements_shuffle hperm hids (fun e => elementBody_lockstep h e fun _ _ => trivial)
    (elementBody_confined ctx')
  rw [scriptBodies_eq, scriptBodies_eq, map_eq_pure_bind, map_eq_pure_bind]
  exact hlists.bind fun _ _ _ => .pure rfl

/-- What is done before the function bodies are analysed. -/
def openBodies (ctx : Context) (ss : List Stmt) : Check Unit := do
  stmts ctx ss
  let _ ← pushTemplate .script (← get).frame none
  modifyFrame fun _ => .script

theorem bodies_eq (ctx : Context) (script : Script) :
    bodies ctx script = openBodies ctx script.stmts >>= fun _ => scriptBodies ctx script := by
  unfold bodies openBodies
  simp only [scriptStmts_eq, bind_assoc]

theorem openBodies_lockstep {N : Set Nat} (h : ctx.Alike E ctx') (ss : List Stmt) (hN : ∀ n ∈ Stmt.idsOfList ss, n ∈ N) :
    Lockstep E N Eq (openBodies ctx ss) (openBodies ctx' ss) := by
  refine (stmts_lockstep h ss hN).next fun _ => Lockstep.get.bind fun s s' hs => ?_
  rw [hs.frame]
  exact (pushTemplate_lockstep _ _ _).bind fun _ _ _ => modifyFrame_lockstep _

/-- Whether the template is that of the script's own statements. -/
def isScript (t : Template) : Bool := t.kind = .script

theorem openBodies_script {ss : List Stmt} {s t : State} (h : openBodies ctx ss s = .ok ((), t)) :
    (t.templates.find? isScript).isSome = true := by
  simp only [openBodies, bind_eq_ok, get_apply, pushTemplate_apply, modifyFrame_apply, ok_inj] at h
  obtain ⟨_, u, -, _, _, ⟨rfl, rfl⟩, _, _, ⟨-, rfl⟩, -, rfl⟩ := h
  simp [isScript]

/-- The bodies are analysed alike, and the script's own statements have the same template. -/
theorem bodies_alike (h : ctx.Alike E ctx') (hperm : script.Perm script') (hstmts : script'.stmts = script.stmts)
    (hids : script.ids.Nodup) {s s' : State} (hs : Agree .univ s s') (ht : s'.templates = s.templates) :
    Together (fun r r' => Agree .univ r.2 r'.2 ∧ Shuffled s r.2 s' r'.2 ∧
      r'.2.templates.find? isScript = r.2.templates.find? isScript) (bodies ctx script s) (bodies ctx' script' s') := by
  rw [bodies_eq, bodies_eq, hstmts]
  have hopen := (openBodies_lockstep h script.stmts (fun _ _ => trivial) hs).and_left
    (P := fun r => (r.2.templates.find? isScript).isSome = true) fun r hr => openBodies_script hr
  refine Together.bind hopen ?_
  rintro ⟨_, u⟩ ⟨_, u'⟩ ⟨⟨-, hu, hgain⟩, hscript⟩
  refine (scriptBodies_shuffle h hperm hids hu).mono ?_
  rintro ⟨_, t⟩ ⟨_, t'⟩ ⟨-, hagree, hgain'⟩
  refine ⟨hagree, hgain.shuffled.next hgain', ?_⟩
  obtain ⟨ts, hts, hts'⟩ := hgain.templates
  obtain ⟨us, us', hus, hus', -⟩ := hgain'.templates
  -- The template of the statements is there before the bodies are analysed, so their order cannot hide it.
  have hsame : u'.templates = u.templates := by rw [hts', hts, ht]
  dsimp only at hscript ⊢
  rw [hus, hus', hsame, List.find?_append, List.find?_append, Option.or_of_isSome hscript, Option.or_of_isSome hscript]

/-! ### Circles of bases -/

theorem reportCycles_apply (es : List (ItemId × Node)) (s : State) :
    (es.forM fun e => report (.cyclicBaseType e.1) e.2) s =
      .ok ((), { s with diagnostics := s.diagnostics ++ es.map fun e => ⟨.cyclicBaseType e.1, e.2⟩ }) := by
  induction es generalizing s with
  | nil =>
    rw [List.map_nil, List.append_nil]
    rfl
  | cons e rest ih =>
    refine (bind_ok (report_apply _ _ s)).trans ((ih _).trans ?_)
    rw [List.map_cons, List.append_assoc, List.singleton_append]

theorem rejectCycles_apply (ctx : Context) (m : Module) (s : State) : rejectCycles ctx m s = .ok (m.cyclicTypes.isEmpty,
    { s with diagnostics := s.diagnostics ++ (ctx.skeleton.inOrder m.cyclicTypes).map fun e => ⟨.cyclicBaseType e.1, e.2⟩ }) :=
  bind_ok (reportCycles_apply _ s)

theorem insertByNode_perm (e : ItemId × Node) (l : List (ItemId × Node)) : (insertByNode e l).Perm (e :: l) := by
  induction l with
  | nil => exact .refl _
  | cons f rest ih =>
    rw [insertByNode]
    split
    · exact .refl _
    · exact (ih.cons f).trans (.swap e f rest)

/-- What is put in order stays the same otherwise. -/
theorem inOrder_perm (s : Skeleton) (ids : List ItemId) :
    (s.inOrder ids).Perm (ids.filterMap fun id => (s.types.find? id).map fun t => (id, t.node)) := by
  unfold Skeleton.inOrder
  generalize (ids.filterMap fun id => (s.types.find? id).map fun t => (id, t.node)) = l
  induction l with
  | nil => exact .nil
  | cons e rest ih =>
    rw [List.foldr_cons]
    exact (insertByNode_perm e _).trans (ih.cons e)

/-- Modules that are alike have circles alike. -/
theorem rejectCycles_shuffle (h : ctx.Alike E ctx') {m m' : Module} (hm : m.Alike m') :
    Shuffle Eq (rejectCycles ctx m) (rejectCycles ctx' m') := by
  have hempty : m.cyclicTypes.isEmpty = m'.cyclicTypes.isEmpty := by
    rw [Bool.eq_iff_iff, List.isEmpty_iff_length_eq_zero, List.isEmpty_iff_length_eq_zero, hm.cyclicTypes.length_eq]
  have hlength : (ctx'.skeleton.inOrder m'.cyclicTypes).length = (ctx.skeleton.inOrder m.cyclicTypes).length := by
    simp only [(inOrder_perm _ _).length_eq, h.types]
    exact (hm.cyclicTypes.filterMap _).length_eq.symm
  intro s s' hs
  rw [rejectCycles_apply, rejectCycles_apply]
  refine .ok ⟨hempty, ⟨hs.frame, hs.globalScope, hs.globals, hs.nodes⟩, ?_, ⟨[], [], by simp, by simp, .nil⟩, id⟩
  exact ⟨_, by rw [List.length_append], by rw [List.length_append, List.length_map, List.length_map, hlength]⟩

/-! ### The whole script -/

/-- What two analyses end with differs at most in the order of records, diagnostics and templates. -/
structure EndsAlike (r r' : Option Module × State) : Prop where
  module : Option.Rel Module.Alike r.1 r'.1
  agree : Agree .univ r.2 r'.2
  gained : Shuffled .initial r.2 .initial r'.2
  script : r'.2.templates.find? isScript = r.2.templates.find? isScript

theorem script_alike (h : ctx.Alike Eq ctx') (hrefs : ctx'.registry = ctx.registry) (hperm : script.Perm script')
    (hstmts : script'.stmts = script.stmts) (hids : script.ids.Nodup)
    (hdeclared : ((script.declared ctx.root).map (·.1)).Nodup) :
    Together EndsAlike (Check.script ctx script .initial) (Check.script ctx' script' .initial) := by
  refine Together.bind ((declareElements_shuffle h hperm hids hdeclared (.refl _ .initial)).and_left
    (P := fun r => r.2.templates = []) fun r hr => (declareElements_notes ctx script _ hr).templates) ?_
  rintro ⟨m, t⟩ ⟨m', t'⟩ ⟨⟨hm, ht, hgain⟩, hnone⟩
  refine Together.bind ((rejectCycles_shuffle h hm ht).and_left (P := fun r => r.2.templates = []) ?_) ?_
  · rintro r hr
    rw [rejectCycles_apply] at hr
    cases hr
    exact hnone
  rintro ⟨fine, u⟩ ⟨_, u'⟩ ⟨⟨rfl, hu, hgain'⟩, hnone⟩
  have hgain := hgain.next hgain'
  have hnone' := hgain.templates_eq_nil hnone rfl
  -- Up to here only types were looked up, in the same references. From here on the script's own module is asked as well.
  cases fine with
  | false => exact .ok ⟨.none, hu, hgain, by rw [hnone, hnone']⟩
  | true =>
    have hinside : Context.Alike (fun _ _ => True) { ctx with registry := m :: ctx.registry }
        { ctx' with registry := m' :: ctx'.registry } :=
      ⟨h.moduleName, h.capturer, h.enclosing, h.types, by rw [hrefs]; exact hm.registry ctx.registry, h.patience⟩
    refine Together.bind (bodies_alike hinside hperm hstmts hids hu (hnone'.trans hnone.symm)) ?_
    rintro ⟨_, v⟩ ⟨_, v'⟩ ⟨hv, hgain', hscript⟩
    exact .ok ⟨.some hm, hv, hgain.next hgain', hscript⟩

end Order

end Check

/-! ### The main statement -/

/-- The outputs have the same records, counts, templates and notes; the records and the templates may be in another order, and
the notes of lambdas and tasks may say another position of their template. -/
structure Output.Reordered (out out' : Output) : Prop where
  module : out.module.Alike out'.module
  privateGlobals : out'.privateGlobals = out.privateGlobals
  scriptLocals : out'.scriptLocals = out.scriptLocals
  templates : out.templates.Perm out'.templates
  nodes : ∀ n, (out'.nodes.find? n).map NodeData.unplaced = (out.nodes.find? n).map NodeData.unplaced

/-- The types that are noted are known in one state if they are in the other. -/
theorem State.checkResolved_of_agree {s s' : State} (h : Agree .univ s s') (htemplates : s.templates.Perm s'.templates)
    (hkeys : s.nodes.keys.Nodup ∧ s'.nodes.keys.Nodup) (hs : s.checkResolved = .ok ()) : s'.checkResolved = .ok () := by
  rw [State.checkResolved_eq_ok] at hs ⊢
  refine ⟨fun t ht => hs.1 t (htemplates.mem_iff.2 ht), fun d' hd' ty hty => ?_⟩
  obtain ⟨⟨n, d'⟩, hmem, rfl⟩ := List.mem_map.1 hd'
  have hfind : (s.nodes.find? n).map NodeData.unplaced = some d'.unplaced := by
    rw [← h.nodes n trivial, (Table.mem_entries_iff hkeys.2).1 hmem, Option.map_some]
  obtain ⟨d, hd, hsame⟩ := Option.map_eq_some_iff.1 hfind
  have htys : d.unplaced.ty = d'.unplaced.ty := congrArg NodeData.ty hsame
  exact hs.2 d (List.mem_map.2 ⟨(n, d), (Table.mem_entries_iff hkeys.1).2 hd, rfl⟩) ty (htys ▸ hty)

theorem Setup.contextFor_alike {setup : Setup} {script script' : Script} (h : script.Perm script')
    (hsilent : (script.collect (.root setup.moduleName)).diagnostics = []) :
    (setup.contextFor script).Alike Eq (setup.contextFor script') :=
  ⟨rfl, rfl, rfl, find?_collect_perm h hsilent, .refl (fun _ => rfl) _, rfl⟩

/-- An analysis that has an output has one in any other order of the declarations. -/
theorem analyze_reordered {setup : Setup} {script script' : Script} {out : Output} (hperm : script.Perm script')
    (hstmts : script'.stmts = script.stmts) (hids : script.ids.Nodup) (h : analyze setup script = .ok (.ok out)) :
    ∃ out', analyze setup script' = .ok (.ok out') ∧ out.Reordered out' := by
  obtain ⟨m, s, ha, hs, hcheck, rfl⟩ := analyze_eq_ok h
  have hrun := Check.script_alike (Setup.contextFor_alike hperm ha.collected) rfl hperm hstmts hids
    ((collect_silent_iff _ script).1 ha.collected).2
  rw [ha.run] at hrun
  obtain ⟨⟨made, s'⟩, hrun', hmodule, hagree, hgain, hscript⟩ := hrun.of_ok
  cases hmodule with
  | some hm =>
    have hs' : s'.diagnostics = [] := by
      obtain ⟨k, hk, hk'⟩ := hgain.diagnostics
      rw [← List.length_eq_zero_iff] at hs ⊢
      simp only [State.initial, List.length_nil] at hk hk'
      omega
    have htemplates : s.templates.Perm s'.templates := by
      obtain ⟨ts, ts', hts, hts', hts''⟩ := hgain.templates
      rw [hts, hts']
      exact hts''.append_left _
    have hcheck' := State.checkResolved_of_agree hagree htemplates (hgain.keys ⟨List.nodup_nil, List.nodup_nil⟩) hcheck
    refine ⟨s'.output _, ?_, hm, congrArg PrivateGlobals.size hagree.globals, ?_, htemplates, fun n => hagree.nodes n trivial⟩
    · rw [analyze_of_analysed ⟨collect_silent_perm hperm ha.collected, hrun'⟩ hs', hcheck']
      rfl
    · exact congrArg (fun t => (t.map (·.locals)).getD 0) hscript

namespace Sample

/-- `func func<int> name() { return () => value; }`, with the nodes from `n` on. -/
def giver (n : Nat) (name : String) (value : Int) : FuncDecl where
  node := nd n
  name := .text name
  typeParams := []
  params := []
  ret := .func (nd (n + 1)) (.named (nd (n + 2)) "int" []) []
  isSequence := false
  isStatic := false
  body := .mk (nd (n + 3)) [.ret (nd (n + 4)) (some (.lambda (nd (n + 5)) [] none (.expr (.intLit (nd (n + 6)) value))))]

/-- `class Animal {}`, `class Dog : Animal {}`, two functions that make lambdas, and between them a statement that calls the
second. -/
def kennel : Script := [
  .type (.mk (nd 0) .classDecl "Animal" [] none []),
  .type (.mk (nd 1) .classDecl "Dog" [] (some (.named (nd 2) "Animal" [])) []),
  .func (giver 10 "one" 1),
  .stmt (.varDecl (nd 3) (.var (nd 4)) "f" (some (.call (nd 5) (.identifier (nd 6) "two" []) []))),
  .func (giver 20 "two" 2)]

end Sample

/-- The order of the declarations does not matter: if two scripts have the same declarations and statements, the statements
in the same order, then an analysis of one has an output if and only if one of the other has, and the outputs are the same
but for the order of records and templates. -/
theorem declaration_order_is_irrelevant (setup : Setup) (script script' : Script) (hperm : script.Perm script')
    (hstmts : script'.stmts = script.stmts) (hids : script.ids.Nodup) :
    ((∃ out, analyze setup script = .ok (.ok out)) ↔ ∃ out', analyze setup script' = .ok (.ok out')) ∧
    ∀ out out', analyze setup script = .ok (.ok out) → analyze setup script' = .ok (.ok out') → out.Reordered out' := by
  have hids' : script'.ids.Nodup := by
    rw [Script.ids_eq_flatMap] at hids ⊢
    exact (hperm.flatMap_right _).nodup_iff.1 hids
  refine ⟨⟨?_, ?_⟩, fun out out' h h' => ?_⟩
  · rintro ⟨out, h⟩
    obtain ⟨out', h', -⟩ := analyze_reordered hperm hstmts hids h
    exact ⟨out', h'⟩
  · rintro ⟨out', h'⟩
    obtain ⟨out, h, -⟩ := analyze_reordered hperm.symm hstmts.symm hids' h'
    exact ⟨out, h⟩
  · obtain ⟨out'', h'', hsame⟩ := analyze_reordered hperm hstmts hids h
    cases h'.symm.trans h''
    exact hsame

/-- Written backwards, `Dog` comes before its base, and the lambdas have each other's position. -/
theorem sample_declaration_order_is_irrelevant :
    Sample.kennel.Perm Sample.kennel.reverse ∧ Script.stmts Sample.kennel.reverse = Sample.kennel.stmts ∧
    Sample.kennel.ids.Nodup ∧ ∃ out out', analyze Sample.alone Sample.kennel = .ok (.ok out) ∧
      analyze Sample.alone Sample.kennel.reverse = .ok (.ok out') ∧ out'.templates ≠ out.templates ∧
      out'.nodes.find? 15 ≠ out.nodes.find? 15 ∧ out.Reordered out' := by
  have hperm : Sample.kennel.Perm Sample.kennel.reverse := (List.reverse_perm _).symm
  have hids : Sample.kennel.ids.Nodup := by decide +kernel
  have hall : ((analyze Sample.alone Sample.kennel).toOption.bind Except.toOption).any (fun out =>
      ((analyze Sample.alone Sample.kennel.reverse).toOption.bind Except.toOption).any fun out' =>
        out'.templates ≠ out.templates ∧ out'.nodes.find? 15 ≠ out.nodes.find? 15) = true := by decide +kernel
  obtain ⟨out, h, hout⟩ := exists_output hall
  obtain ⟨out', h', hout'⟩ := exists_output hout
  obtain ⟨htemplates, hnodes⟩ := of_decide_eq_true hout'
  exact ⟨hperm, rfl, hids, out, out', h, h', htemplates, hnodes,
    (declaration_order_is_irrelevant Sample.alone _ _ hperm rfl hids).2 out out' h h'⟩

end ScriptCheck

import ScriptCheck.Proofs.Outcome
import ScriptCheck.Proofs.TemplateSteps

/-!
# One template for each body

The templates of an analysis with an output are those of the blueprints that the tree says (`Analysed.blueprints`), so they
match the bodies of the script one to one: there is one for the script, one for each function, wherever it is declared, and one
for each lambda and task, wherever it stands. Node numbers and function ids are distinct, so the kind of a template says which
body it is of, and with it all else that the template says.
-/

namespace ScriptCheck

/-! ### Finding a template -/

/-- Of two elements of a list that stand in this order, the first has the smaller position. -/
theorem exists_getElem?_of_pair_sublist {α : Type} {a b : α} {l : List α} (h : [a, b].Sublist l) :
    ∃ i j : Nat, l[i]? = some a ∧ l[j]? = some b ∧ i < j := by
  have hall : l.Pairwise fun x y => ∃ i j : Nat, l[i]? = some x ∧ l[j]? = some y ∧ i < j := by
    rw [List.pairwise_iff_getElem]
    intro i j hi hj hij
    exact ⟨i, j, List.getElem?_eq_getElem hi, List.getElem?_eq_getElem hj, hij⟩
  simpa using hall.sublist h

section Kinds

variable {ts : List Template} {bs : List Blueprint}

theorem map_kind_blueprints (hlist : ts.map Template.blueprint = bs) : ts.map (·.kind) = bs.map (·.kind) := by
  rw [← hlist, List.map_map]
  rfl

/-- Where kinds are distinct, the kind of a template says what its blueprint is. -/
theorem blueprint_eq_of_kind (hlist : ts.map Template.blueprint = bs) (hkinds : (ts.map (·.kind)).Nodup) {t : Template}
    (ht : t ∈ ts) {b : Blueprint} (hb : b ∈ bs) (hkind : t.kind = b.kind) : t.blueprint = b := by
  rw [← hlist] at hb
  obtain ⟨t', ht', rfl⟩ := List.mem_map.1 hb
  rw [List.inj_on_of_nodup_map hkinds ht ht' hkind]

/-- Where kinds are distinct, templates stand in the order of their blueprints. -/
theorem position_lt_of_sublist (hlist : ts.map Template.blueprint = bs) (hkinds : (ts.map (·.kind)).Nodup) {b c : Blueprint}
    (hsub : [b, c].Sublist bs) {k : Nat} {t : Template} (hk : ts[k]? = some t) (hkind : t.kind = b.kind) :
    ∃ j u, ts[j]? = some u ∧ u.kind = c.kind ∧ k < j := by
  rw [← hlist] at hsub
  obtain ⟨i, j, hi, hj, hij⟩ := exists_getElem?_of_pair_sublist hsub
  rw [List.getElem?_map, Option.map_eq_some_iff] at hi hj
  obtain ⟨t', hi, rfl⟩ := hi
  obtain ⟨u, hj, rfl⟩ := hj
  have htt : t' = t :=
    List.inj_on_of_nodup_map hkinds (List.mem_of_getElem? hi) (List.mem_of_getElem? hk) hkind.symm
  have hik : i = k :=
    (List.getElem?_inj (List.getElem?_eq_some_iff.1 hi).1 (List.Nodup.of_map _ hkinds)).1 (by rw [hi, hk, htt])
  exact ⟨j, u, hj, rfl, hik ▸ hij⟩

end Kinds

theorem Output.funcTemplate?_eq_some {out : Output} {id : ItemId} {t : Template} (ht : t ∈ out.templates)
    (hkind : t.kind = .func id) (hkinds : (out.templates.map (·.kind)).Nodup) :
    ∃ k, out.funcTemplate? id = some k ∧ out.templates[k]? = some t := by
  have hsome : (out.funcTemplate? id).isSome := by
    rw [Output.funcTemplate?, List.findIdx?_isSome, List.any_eq_true]
    exact ⟨t, ht, by simp [hkind]⟩
  obtain ⟨k, hk⟩ := Option.isSome_iff_exists.1 hsome
  obtain ⟨hlt, hfound, -⟩ := List.findIdx?_eq_some_iff_getElem.1 hk
  refine ⟨k, hk, ?_⟩
  rw [List.getElem?_eq_getElem hlt]
  have hsame : out.templates[k].kind = t.kind := by
    rw [hkind]
    simpa using hfound
  rw [List.inj_on_of_nodup_map hkinds (List.getElem_mem hlt) ht hsame]

/-! ### The templates of a script -/

/-- The template of a lambda or a task is of the node that it stands at. -/
theorem Site.node?_of_closure? {w : Site} {b : Blueprint} (h : w.closure? = some b) :
    ∃ n, w.node? = some n ∧ b.kind.node? = some n := by
  obtain ⟨p, part⟩ := w
  cases part with
  | result e => cases h
  | expr e =>
    cases e with
    | lambda node params ret body =>
      cases h
      exact ⟨node.id, rfl, rfl⟩
    | _ => cases h
  | stmt s =>
    cases s with
    | task node block =>
      cases h
      exact ⟨node.id, rfl, rfl⟩
    | _ => cases h

/-- The kinds of the bodies of a script: its own, one for each function, and one for each lambda and task. -/
def Script.kinds (root : ItemId) (script : Script) : List TemplateKind :=
  .script :: ((funcIds (script.funcs root)).map .func ++ (script.sites root).filterMap fun w => w.closure?.map (·.kind))

theorem Script.kinds_nodup {root : ItemId} {script : Script} (hids : script.ids.Nodup)
    (hfuncs : (funcIds (script.funcs root)).Nodup) : (script.kinds root).Nodup := by
  have hkind : ∀ {w : Site} {kind : TemplateKind}, w.closure?.map (·.kind) = some kind →
      ∃ n, w.node? = some n ∧ kind.node? = some n := by
    intro w kind h
    obtain ⟨b, hb, rfl⟩ := Option.map_eq_some_iff.1 h
    exact Site.node?_of_closure? hb
  have hclosures : ((script.sites root).filterMap fun w => w.closure?.map (·.kind)).Nodup := by
    have hnodes := hids.sublist (script.sites_nodes root)
    refine List.pairwise_filterMap.2 ((List.pairwise_filterMap.1 hnodes).imp ?_)
    rintro w w' hne kind hw _ hw' rfl
    obtain ⟨n, hn, hk⟩ := hkind hw
    obtain ⟨n', hn', hk'⟩ := hkind hw'
    exact hne n hn n' hn' (Option.some.inj (hk.symm.trans hk'))
  have hnone : ∀ kind ∈ (script.sites root).filterMap (fun w => w.closure?.map (·.kind)), kind.node? ≠ none := by
    intro kind h
    obtain ⟨w, -, hw⟩ := List.mem_filterMap.1 h
    obtain ⟨n, -, hn⟩ := hkind hw
    simp [hn]
  refine List.nodup_cons.2 ⟨?_, List.nodup_append.2 ⟨hfuncs.map fun _ _ h => TemplateKind.func.inj h, hclosures, ?_⟩⟩
  · rw [List.mem_append, not_or]
    exact ⟨by simp, fun h => hnone _ h rfl⟩
  · rintro kind hfunc _ hclosure rfl
    obtain ⟨id, -, rfl⟩ := List.mem_map.1 hfunc
    exact hnone _ hclosure rfl

/-- A function's record is found among the script's own before all others. -/
theorem FuncDecl.blueprint?_own {m : Module} {reg : Registry} {outer : ItemId} {decl : FuncDecl} {r : FuncRecord}
    (h : m.funcs.find? (decl.idUnder outer) = some r) :
    decl.blueprint? (m :: reg) outer = some (.func (decl.idUnder outer) r decl.body.node.id) := by
  simp [FuncDecl.blueprint?, Registry.func?, h]

namespace Analysed

variable {setup : Setup} {script : Script} {m : Module} {s : State}

/-- The templates are those of the blueprints, in order, and notes about lambdas and tasks name their positions. -/
theorem blueprints (ha : Analysed setup script m s) (hs : s.diagnostics = []) :
    s.templates.map Template.blueprint =
      script.blueprints (m :: (setup.contextFor script).registry) (.root setup.moduleName) ∧ s.Refers := by
  obtain ⟨u, hdecl, hbodies⟩ := Check.Quiet.script ⟨ha.run, hs⟩
  obtain ⟨v, hstmts, hfuncs⟩ := hbodies.bodies
  have hnotes := Check.declareElements_notes _ script _ hdecl.run
  have hrecords : Builds [] .initial u := (Check.declareElements_typeNodes _ script _).writesTypes (R := Builds) hdecl.run
  have hfirst : Builds script.closures u v := Check.scriptStmts_builds _ script hstmts.run
  -- The frame of the script's body yields nothing and has no `this` to the end.
  have hown : Builds [.script] v v.afterStmts := by
    have heffect := Check.scriptStmts_effect _ script hstmts.run
    have hpushed : Builds [.script] v (v.push .script v.frame none) := by
      refine Check.pushed_builds ?_
      rw [heffect.seqElem, heffect.isThisCall, hnotes.frame]
      rfl
    exact hpushed.congr ⟨rfl, rfl, rfl⟩ ⟨rfl, rfl, rfl⟩
  have hsecond := Check.scriptBodies_builds _ script hfuncs.run
  have hall := hrecords.seq (hfirst.seq (hown.seq hsecond))
  exact ⟨hall.templates hs, hall.refers fun n info h => nomatch h⟩

/-- Every function of the script has a record, and every record is that of a function of the script. -/
theorem exists_func_iff (ha : Analysed setup script m s) (hs : s.diagnostics = []) (id : ItemId) :
    (∃ r, m.funcs.find? id = some r) ↔ id ∈ funcIds (script.funcs (.root setup.moduleName)) := by
  obtain ⟨u, hdecl, -⟩ := Check.Quiet.script ⟨ha.run, hs⟩
  have hdeclares := (Check.declareElements_grows hdecl.run).declares
  constructor
  · rintro ⟨r, hr⟩
    by_contra hid
    rw [hdeclares.other id hid] at hr
    cases hr
  · intro hid
    obtain ⟨d, hd, rfl⟩ := List.mem_map.1 hid
    obtain ⟨r, hr, -⟩ := hdeclares.made (Script.funcs_nodup ha.collected) d hd
    exact ⟨r, hr⟩

/-- The kinds of the templates are those of the bodies of the script. -/
theorem kinds (ha : Analysed setup script m s) (hs : s.diagnostics = []) :
    (s.templates.map (·.kind)).Perm (script.kinds (.root setup.moduleName)) := by
  rw [map_kind_blueprints (ha.blueprints hs).1]
  refine ((Script.blueprints_perm _ _ script).map _).trans ?_
  rw [List.map_cons, List.map_append, List.map_filterMap, List.map_filterMap]
  refine .cons _ (.append_right _ (.of_eq ?_))
  rw [funcIds, List.map_map, ← List.filterMap_eq_map]
  refine List.filterMap_congr fun d hd => ?_
  obtain ⟨r, hr⟩ := (ha.exists_func_iff hs _).2 (List.mem_map_of_mem hd)
  rw [FuncDecl.blueprint?_own hr]
  rfl

theorem kinds_nodup (ha : Analysed setup script m s) (hs : s.diagnostics = []) (hids : script.ids.Nodup) :
    (s.templates.map (·.kind)).Nodup :=
  (ha.kinds hs).nodup_iff.2 (Script.kinds_nodup hids (Script.funcs_nodup ha.collected))

end Analysed

/-- At this position stands the template of a lambda or a task at `p`, and it comes before that of the body around. -/
structure Output.HasClosure (out : Output) (p : Place) (b : Blueprint) (position : Nat) : Prop where
  own : ∃ t, out.templates[position]? = some t ∧ t.blueprint = b
  before : ∃ k t, out.templates[k]? = some t ∧ t.kind = p.here.owner.kind ∧ position < k

theorem Analysed.hasClosure {setup : Setup} {script : Script} {m : Module} {s : State} (ha : Analysed setup script m s)
    (hs : s.diagnostics = []) (hids : script.ids.Nodup) {w : Site} (hw : w ∈ script.sites (.root setup.moduleName))
    {b : Blueprint} (hb : w.closure? = some b) {k : Nat} {t : Template} (hk : s.templates[k]? = some t)
    (hkind : t.kind = b.kind) : (s.output m).HasClosure w.place b k := by
  have hlist := (ha.blueprints hs).1
  have hkinds := ha.kinds_nodup hs hids
  have hrecords : ∀ d ∈ script.funcs (.root setup.moduleName),
      (d.2.blueprint? (m :: (setup.contextFor script).registry) d.1).isSome := by
    intro d hd
    obtain ⟨r, hr⟩ := (ha.exists_func_iff hs _).2 (List.mem_map_of_mem hd)
    rw [FuncDecl.blueprint?_own hr]
    rfl
  obtain ⟨c, hc, hsub⟩ := Script.blueprints_before hrecords hw hb
  obtain ⟨j, u, hj, hu, hlt⟩ := position_lt_of_sublist hlist hkinds hsub hk hkind
  have hmem : b ∈ script.blueprints (m :: (setup.contextFor script).registry) (.root setup.moduleName) :=
    hsub.subset List.mem_cons_self
  exact ⟨⟨t, hk, blueprint_eq_of_kind hlist hkinds (List.mem_of_getElem? hk) hmem hkind⟩, j, u, hj, hu.trans hc, hlt⟩

/-! ### The main statement -/

/-- The templates of an analysis with an output match the bodies of the script one to one: there is one for the script, one for
each function and one for each lambda and task, and no other. The template of every function in the script's records is found,
and says what the function yields if it is a sequence, and whether it has a `this`. What is noted about a lambda or a task names
the position of its own template, and that comes before the template of the body around. -/
theorem templates_match_bodies (setup : Setup) (script : Script) (out : Output) (hids : script.ids.Nodup)
    (h : analyze setup script = .ok (.ok out)) :
    ((out.templates.map (·.kind)).Perm (script.kinds (.root setup.moduleName)) ∧
      (script.kinds (.root setup.moduleName)).Nodup) ∧
    (∀ id r, out.module.funcs.find? id = some r → ∃ k t, out.funcTemplate? id = some k ∧ out.templates[k]? = some t ∧
      t.kind = .func id ∧ t.seqElem = (if r.isSequence then some r.ret else none) ∧ t.isThisCall = !r.isStatic ∧
      ∃ d ∈ script.funcs (.root setup.moduleName), d.2.idUnder d.1 = id ∧ t.body = some d.2.body.node.id) ∧
    (∀ p node params ret body, ⟨p, .expr (.lambda node params ret body)⟩ ∈ script.sites (.root setup.moduleName) →
      ∃ c, out.nodes.info? node.id = some (.lambda c) ∧
        out.HasClosure p (.closure (.lambda node.id) body.node.id) c.template) ∧
    (∀ p node block, ⟨p, .stmt (.task node block)⟩ ∈ script.sites (.root setup.moduleName) →
      ∃ c, out.nodes.info? node.id = some (.task c) ∧
        out.HasClosure p (.closure (.task node.id) block.node.id) c.template) := by
  have hvisited := analyze_visited hids h
  obtain ⟨m, s, ha, hs, -, rfl⟩ := analyze_eq_ok h
  obtain ⟨hlist, hrefers⟩ := ha.blueprints hs
  have hkinds := ha.kinds_nodup hs hids
  refine ⟨⟨ha.kinds hs, Script.kinds_nodup hids (Script.funcs_nodup ha.collected)⟩, ?_, ?_, ?_⟩
  · intro id r hr
    obtain ⟨d, hd, rfl⟩ := List.mem_map.1 ((ha.exists_func_iff hs id).1 ⟨r, hr⟩)
    have hmem : Blueprint.func (d.2.idUnder d.1) r d.2.body.node.id ∈ s.templates.map Template.blueprint := by
      rw [hlist, (Script.blueprints_perm _ _ script).mem_iff]
      refine List.mem_cons_of_mem _ (List.mem_append_left _ (List.mem_filterMap.2 ⟨d, hd, ?_⟩))
      exact FuncDecl.blueprint?_own hr
    obtain ⟨t, ht, hblueprint⟩ := List.mem_map.1 hmem
    obtain ⟨hkind, helem, hthis, hbody⟩ := Blueprint.mk.inj hblueprint
    have hfound : ∃ k, (s.output m).funcTemplate? (d.2.idUnder d.1) = some k ∧ (s.output m).templates[k]? = some t :=
      Output.funcTemplate?_eq_some ht hkind hkinds
    obtain ⟨k, hk, htk⟩ := hfound
    exact ⟨k, t, hk, htk, hkind, helem, hthis, d, hd, rfl, hbody⟩
  · intro p node params ret body hsite
    obtain ⟨ctx, mode, u, u', -, -, hhandled⟩ := hvisited _ hsite
    obtain ⟨hint, ty, hrun⟩ := hhandled.as_value rfl
    obtain ⟨types, declared, v, entry, last, k, -, -, -, -, hinfo, -⟩ := hrun.lambda
    obtain ⟨t, hk, hkind⟩ := hrefers _ _ hinfo
    exact ⟨_, hinfo, ha.hasClosure hs hids hsite rfl hk hkind⟩
  · intro p node block hsite
    obtain ⟨ctx, mode, u, u', -, -, hrun, -⟩ := hvisited _ hsite
    obtain ⟨entry, last, k, hinfo, -⟩ := hrun.task
    obtain ⟨t, hk, hkind⟩ := hrefers _ _ hinfo
    exact ⟨_, hinfo, ha.hasClosure hs hids hsite rfl hk hkind⟩

namespace Sample

/-- `seq int runs() { task { var one = () => 1; } }` -/
def runs : FuncDecl where
  node := nd 1
  name := .text "runs"
  typeParams := []
  params := []
  ret := .named (nd 2) "int" []
  isSequence := true
  isStatic := false
  body := .mk (nd 3) [.task (nd 4) (.mk (nd 5) [
    .varDecl (nd 6) (.var (nd 7)) "one" (some (.lambda (nd 8) [] none (.expr (.intLit (nd 9) 1))))])]

/-- `class Tally { class Inner { seq int runs() ... } }` -/
def tally : Script :=
  [.type (.mk (nd 10) .classDecl "Tally" [] none [.type (.mk (nd 11) .classDecl "Inner" [] none [.func runs])])]

/-- The id of `Tally.Inner.runs`. -/
def runsId : ItemId := runs.idUnder ((((ItemId.root "Sample").child (.text "Tally") 0)).child (.text "Inner") 0)

end Sample

/-- A lambda in a task in a sequence: each comes before the body around it. -/
theorem sample_templates_match_bodies : Sample.tally.ids.Nodup ∧ ∃ out p q c d k t,
    analyze Sample.setup Sample.tally = .ok (.ok out) ∧
    out.templates.map (·.kind) = [.script, .lambda 8, .task 4, .func Sample.runsId] ∧
    (out.templates.map (·.kind)).Perm (Sample.tally.kinds (.root "Sample")) ∧
    p.here.owner.kind = .task 4 ∧ out.nodes.info? 8 = some (.lambda c) ∧ out.HasClosure p (.closure (.lambda 8) 9) c.template ∧
    q.here.owner.kind = .func Sample.runsId ∧ out.nodes.info? 4 = some (.task d) ∧
    out.HasClosure q (.closure (.task 4) 5) d.template ∧
    out.funcTemplate? Sample.runsId = some k ∧ out.templates[k]? = some t ∧ t.seqElem = some Builtin.int ∧
    t.isThisCall = true := by
  have hids : Sample.tally.ids.Nodup := by decide +kernel
  have hrun : ((analyze Sample.setup Sample.tally).toOption.bind Except.toOption).any (fun out =>
      out.templates.map (·.kind) = [.script, .lambda 8, .task 4, .func Sample.runsId] ∧
      (out.module.funcs.find? Sample.runsId).any fun r => r.isSequence && r.ret = Builtin.int && !r.isStatic) = true := by
    decide +kernel
  obtain ⟨out, h, hout⟩ := exists_output hrun
  obtain ⟨hkinds, hrecord⟩ := of_decide_eq_true hout
  obtain ⟨r, hr, hlike⟩ := (Option.any_eq_true _ _).1 hrecord
  simp only [Bool.and_eq_true, decide_eq_true_eq, Bool.not_eq_true'] at hlike
  obtain ⟨⟨hsequence, hret⟩, hstatic⟩ := hlike
  obtain ⟨⟨hperm, -⟩, hfuncs, hlambdas, htasks⟩ := templates_match_bodies Sample.setup Sample.tally out hids h
  obtain ⟨k, t, hk, ht, -, helem, hthis, -⟩ := hfuncs Sample.runsId r hr
  obtain ⟨c, hc, hlambda⟩ := hlambdas _ (Sample.nd 8) [] none _ (List.mem_of_getElem? (i := 2) rfl)
  obtain ⟨d, hd, htask⟩ := htasks _ (Sample.nd 4) _ (List.mem_of_getElem? (i := 0) rfl)
  rw [hsequence, if_pos rfl, hret] at helem
  rw [hstatic] at hthis
  exact ⟨hids, out, _, _, c, d, k, t, h, hkinds, hperm, rfl, hc, hlambda, rfl, hd, htask, hk, ht, helem, hthis⟩

end ScriptCheck

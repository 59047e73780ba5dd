import ScriptCheck.Proofs.Resolved
import ScriptCheck.Proofs.StandardBodies

/-!
# An analysis without problems leaves no type unknown

That a type is known passes from its parts to the type and back, so it is a standard for everything that a quiet analysis
finds. The records of the script itself are resolved where no problem was reported, and they join the resolved modules that
the bodies are analysed against. Hence the check at the end of an analysis cannot fail where there is no diagnostic.
-/

namespace ScriptCheck

/-! ### A standard for each property that types inherit -/

/-- What is written means types that have every inherited property. -/
def Naming.ofInherited (Q : Ty → Prop) [Ty.Inherited Q] (ctx : Context) : Naming (.all Q) ctx where
  ty := Q
  composed := inferInstance
  named ha ht := Context.namedType_inherits ha ht
  nested hp ha := Context.memberType_inherits ha hp

/-- Where all types that the modules mention have an inherited property, the types that are met in a context have it. -/
def Standard.ofInherited {Q : Ty → Prop} [Ty.Inherited Q] {ctx : Context} (hreg : ctx.registry.AllTypes Q) :
    Standard (.all Q) ctx where
  toNaming := .ofInherited Q ctx
  found f := ∀ t ∈ f.types, Q t
  kept h := h
  lookup {_ _ _ _ _ meaning} hf hg ha hm := by
    have h := Context.lookup_inherits hreg hf hg ha hm
    cases meaning with
    | var storage ty declared => exact h
    | func f => exact h
    | type ty => exact h ty (by simp [Meaning.types])
    | notFound => trivial
    | ambiguous count => trivial
  member {_ _ _ m} ht ha hf := by
    have h := Registry.member_inherits hreg ht ha hf
    cases m with
    | var v => exact ⟨h, fun t ht => Registry.varType_inherits (Q := Q) hreg h ht⟩
    | func f => exact h
  reserved _ ht hf := ⟨Registry.method?_inherits (Q := Q) hreg ht hf, trivial⟩
  signature hf := Registry.funcType_inherits (Q := Q) hreg hf.1
  hints hf hs := FuncRef.hints_types (List.forall_mem_cons.1 (Registry.funcType_inherits hreg hf hs)).2
  completes hf _ ha hg := by
    obtain ⟨-, hg⟩ := hg
    split at hg
    · exact ⟨hg ▸ hf, trivial⟩
    · exact ⟨FuncRef.inferFrom_inherits hf ha hg, trivial⟩

/-! ### The records and the notes of a script -/

theorem Module.Meets.resolved {m : Module} (h : m.Meets fun _ t => t.Resolved) : m.Resolved := by
  refine forall_recordTypes.2 ⟨fun r hr => ?_, fun r hr => ?_, fun r hr => ?_⟩
  · obtain ⟨e, he, rfl⟩ := List.mem_map.1 hr
    exact h.types e he
  · obtain ⟨e, he, rfl⟩ := List.mem_map.1 hr
    exact h.funcs e he
  · obtain ⟨e, he, rfl⟩ := List.mem_map.1 hr
    exact h.vars e he

/-- The state at the end of an analysis without problems is resolved, and so is the script's own module. -/
theorem Analysed.resolved {setup : Setup} {script : Script} {m : Module} {s : State} (h : Analysed setup script m s)
    (hm : Registry.Resolved setup.modules) (hs : s.diagnostics = []) : m.Resolved ∧ s.Resolved := by
  have hreg : Registry.Resolved (Builtin.declarations :: setup.modules) :=
    Registry.AllTypes.cons Builtin.declarations_resolved hm
  obtain ⟨u, hdecl, hbodies⟩ := Check.Quiet.script ⟨h.run, hs⟩
  have hjudged : ∀ p ∈ script.regions (.root setup.moduleName),
      p.Judged (.all Ty.Resolved) (fun _ t => t.Resolved) (setup.contextFor script) :=
    fun p _ => ⟨.ofInherited Ty.Resolved _, fun _ ht => ht, fun _ _ _ => Iff.rfl⟩
  obtain ⟨hnodes, hmeets⟩ := Check.declareElements_writes (setup.contextFor script) rfl script hjudged (.empty _) hdecl
    (by simp [Ledger.Holds, State.initial, Table.empty])
  have hreg' : Registry.Resolved (m :: Builtin.declarations :: setup.modules) := Registry.AllTypes.cons hmeets.resolved hreg
  -- The bodies are analysed against the script's own records, too.
  let ctx : Context := { setup.contextFor script with registry := m :: (setup.contextFor script).registry }
  have hready : ∀ p ∈ script.regions ctx.root, p.Ready (.all Ty.Resolved) Ty.Resolved ctx :=
    fun p _ => ⟨.ofInherited hreg', fun _ ht => ht, fun _ _ _ => Iff.rfl, fun r hr => Registry.AllTypes.func? hreg' hr⟩
  have hstart : u.Meets Ty.Resolved (.all Ty.Resolved) := Check.declareElements_meets Ty.resolved_void hdecl.run hnodes
  have hrests := Check.bodies_rests (Standard.ofInherited hreg' : Standard _ ctx) rfl (fun _ _ _ => Iff.rfl) hready
    (fun f hf r hr => h.func_typeParams hs hf hr) hbodies hstart
  exact ⟨hmeets.resolved, Ledger.holds_all.1 hrests.nodes, hrests.templates⟩

theorem any_hasUnresolved_eq_false {o : Option Ty} : o.any Ty.hasUnresolved = false ↔ ∀ t ∈ o, t.Resolved := by
  cases o <;> simp [Ty.Resolved]

/-- The check at the end passes exactly when all noted types and all element types of sequences are known. -/
theorem State.checkResolved_eq_ok {s : State} :
    s.checkResolved = .ok () ↔
      (∀ t ∈ s.templates, ∀ elem ∈ t.seqElem, elem.Resolved) ∧ ∀ d ∈ s.nodes.values, ∀ ty ∈ d.ty, ty.Resolved := by
  simp only [← any_hasUnresolved_eq_false]
  unfold State.checkResolved
  split
  · rename_i ht
    obtain ⟨t, hmem, hu⟩ := List.any_eq_true.1 ht
    refine iff_of_false (by simp) fun h => ?_
    rw [h.1 t hmem] at hu
    cases hu
  · rename_i ht
    have htemplates : ∀ t ∈ s.templates, t.seqElem.any Ty.hasUnresolved = false := by simpa using ht
    split
    · rename_i hd
      obtain ⟨d, hmem, hu⟩ := List.any_eq_true.1 hd
      refine iff_of_false (by simp) fun h => ?_
      rw [h.2 d hmem] at hu
      cases hu
    · rename_i hd
      exact iff_of_true rfl ⟨htemplates, by simpa using hd⟩

theorem NodeData.resolved_iff {d : NodeData} :
    AllResolved d.types ↔ (∀ ty ∈ d.ty, ty.Resolved) ∧ ∀ info ∈ d.info, AllResolved info.types := by
  obtain ⟨ty, notes⟩ := d
  cases ty <;> cases notes <;> simp [NodeData.types, NodeData.info]

/-- What a test of the output comes to says that there is one. -/
theorem exists_output {setup : Setup} {script : Script} {p : Output → Bool}
    (h : ((analyze setup script).toOption.bind Except.toOption).any p = true) :
    ∃ out, analyze setup script = .ok (.ok out) ∧ p out = true := by
  cases hrun : analyze setup script with
  | error fault =>
    rw [hrun] at h
    cases h
  | ok r =>
    rw [hrun] at h
    cases r with
    | error diagnostics => cases h
    | ok out => exact ⟨out, rfl, h⟩

/-- What a test of the problems comes to says that the analysis ends with them. -/
theorem analyze_eq_problems {setup : Setup} {script : Script} {problems : List Diagnostic}
    (h : (analyze setup script).toOption.any (fun
      | .error found => found = problems
      | .ok _ => false) = true) : analyze setup script = .ok (.error problems) := by
  cases hrun : analyze setup script with
  | error fault =>
    rw [hrun] at h
    cases h
  | ok r =>
    rw [hrun] at h
    cases r with
    | error found => rw [of_decide_eq_true h]
    | ok out => cases h

/-! ### A script with a sequence, a lambda and a task -/

namespace Sample

/-- The node with this number. -/
def nd (n : Nat) : Node := ⟨n, .zero⟩

/-- `func int twice(func<int, int> f, int x) { return f(f(x)); }` -/
def twice : FuncDecl where
  node := nd 0
  name := .text "twice"
  typeParams := []
  params := [⟨nd 1, "f", .func (nd 2) (.named (nd 3) "int" []) [.named (nd 4) "int" []]⟩,
    ⟨nd 5, "x", .named (nd 6) "int" []⟩]
  ret := .named (nd 7) "int" []
  isSequence := false
  isStatic := true
  body := .mk (nd 8) [.ret (nd 9) (some (.call (nd 10) (.identifier (nd 11) "f" [])
    [.call (nd 12) (.identifier (nd 13) "f" []) [.identifier (nd 14) "x" []]]))]

/-- A sequence that yields `0`, `1`, … below a limit. -/
def count : FuncDecl where
  node := nd 20
  name := .text "count"
  typeParams := []
  params := [⟨nd 21, "limit", .named (nd 22) "int" []⟩]
  ret := .named (nd 23) "int" []
  isSequence := true
  isStatic := true
  body := .mk (nd 24) [.varDecl (nd 25) (.named (nd 26) "int" []) "i" (some (.intLit (nd 27) 0)),
    .whileDo (nd 28) (.binary (nd 29) .lt (.identifier (nd 30) "i" []) (.identifier (nd 31) "limit" []))
      (.block (nd 32) (.mk (nd 33) [.yields (nd 34) (.identifier (nd 35) "i" []),
        .expr (nd 36) (.unary (nd 37) (.step .up false) (.identifier (nd 38) "i" []))])),
    .ret (nd 39) none]

/-- A block with a lambda that writes a variable around it, and a task with a lambda in it that reads one. -/
def block : Stmt :=
  .block (nd 40) (.mk (nd 41) [
    .varDecl (nd 42) (.named (nd 43) "int" []) "total" (some (.intLit (nd 44) 0)),
    .varDecl (nd 45) (.var (nd 46)) "last" (some (.call (nd 47) (.identifier (nd 48) "twice" [])
      [.lambda (nd 49) [⟨nd 50, "n", none⟩] none (.block (.mk (nd 51) [
          .expr (nd 52) (.assign (nd 53) (.identifier (nd 54) "total" [])
            (.binary (nd 55) .add (.identifier (nd 56) "total" []) (.identifier (nd 57) "n" []))),
          .ret (nd 58) (some (.identifier (nd 59) "total" []))])),
        .intLit (nd 60) 3])),
    .task (nd 61) (.mk (nd 62) [
      .varDecl (nd 63) (.var (nd 64)) "show"
        (some (.lambda (nd 65) [] none (.expr (.unary (nd 66) (.step .up true) (.identifier (nd 67) "last" []))))),
      .ifThen (nd 68) (.binary (nd 69) .eq (.identifier (nd 70) "last" []) (.identifier (nd 71) "total" []))
        (.expr (nd 72) (.assign (nd 73) (.identifier (nd 74) "last" []) (.call (nd 75) (.identifier (nd 76) "show" []) [])))
        none])])

/-- The script. -/
def script : Script := [.func twice, .func count, .stmt block]

/-- The script stands alone. -/
def setup : Setup := ⟨"Sample", [], captures⟩

/-- The script is analysed without a problem. -/
theorem analysed : ∃ m s, Analysed setup script m s ∧ s.diagnostics = [] := by
  have hcollected : (script.collect (.root setup.moduleName)).diagnostics = [] := by decide +kernel
  have hquiet : (Check.script (setup.contextFor script) script .initial).toOption.any
      (fun r => r.1.isSome && r.2.diagnostics.isEmpty) = true := by decide +kernel
  cases hrun : Check.script (setup.contextFor script) script .initial with
  | error fault =>
    rw [hrun] at hquiet
    cases hquiet
  | ok r =>
    obtain ⟨made, s⟩ := r
    rw [hrun] at hquiet
    obtain ⟨hmade, hs⟩ := Bool.and_eq_true_iff.1 hquiet
    obtain ⟨m, rfl⟩ := Option.isSome_iff_exists.1 hmade
    exact ⟨m, s, ⟨hcollected, hrun⟩, List.isEmpty_iff.1 hs⟩

/-- The analysis of the script has an output. -/
theorem output : ∃ out, analyze setup script = .ok (.ok out) := by
  have hout : ((analyze setup script).toOption.bind Except.toOption).any (fun _ => true) = true := by decide +kernel
  obtain ⟨out, h, -⟩ := exists_output hout
  exact ⟨out, h⟩

theorem ids_nodup : script.ids.Nodup := by decide +kernel

end Sample

/-! ### The main statement -/

/-- An analysis whose bodies were analysed without a problem, against modules whose records mention no unknown type, has
noted no unknown type at any depth: not as the type of a node, not in what else is known about a node, not as what a sequence
yields, and not in a record of the script. So the check at the end passes, and there is an output. -/
theorem analysis_leaves_nothing_unresolved (setup : Setup) (script : Script) (m : Module) (s : State)
    (hm : ∀ m ∈ setup.modules, m.Resolved) (ha : Analysed setup script m s) (hs : s.diagnostics = []) :
    (∀ d ∈ s.nodes.values, (∀ ty ∈ d.ty, ty.Resolved) ∧ ∀ info ∈ d.info, AllResolved info.types) ∧
      (∀ t ∈ s.templates, ∀ elem ∈ t.seqElem, elem.Resolved) ∧ m.Resolved ∧ s.checkResolved = .ok () ∧
      analyze setup script = .ok (.ok (s.output m)) := by
  obtain ⟨hmod, hstate⟩ := ha.resolved hm hs
  have hnodes : ∀ d ∈ s.nodes.values, (∀ ty ∈ d.ty, ty.Resolved) ∧ ∀ info ∈ d.info, AllResolved info.types :=
    fun d hd => NodeData.resolved_iff.1 (hstate.nodes d hd)
  have htemplates : ∀ t ∈ s.templates, ∀ elem ∈ t.seqElem, elem.Resolved :=
    fun t ht elem he => hstate.templates t ht elem (Option.mem_toList.2 he)
  have hcheck : s.checkResolved = .ok () := State.checkResolved_eq_ok.2 ⟨htemplates, fun d hd => (hnodes d hd).1⟩
  refine ⟨hnodes, htemplates, hmod, hcheck, ?_⟩
  rw [analyze_of_analysed ha hs, hcheck]
  rfl

theorem sample_leaves_nothing_unresolved : ∃ m s, Analysed Sample.setup Sample.script m s ∧ s.diagnostics = [] ∧
    (∀ d ∈ s.nodes.values, (∀ ty ∈ d.ty, ty.Resolved) ∧ ∀ info ∈ d.info, AllResolved info.types) ∧
      (∀ t ∈ s.templates, ∀ elem ∈ t.seqElem, elem.Resolved) ∧ m.Resolved ∧ s.checkResolved = .ok () ∧
      analyze Sample.setup Sample.script = .ok (.ok (s.output m)) := by
  obtain ⟨m, s, ha, hs⟩ := Sample.analysed
  exact ⟨m, s, ha, hs, analysis_leaves_nothing_unresolved Sample.setup Sample.script m s (by simp [Sample.setup]) ha hs⟩

end ScriptCheck

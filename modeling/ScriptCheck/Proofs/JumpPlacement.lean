import ScriptCheck.Proofs.DeclarationOrder
import ScriptCheck.Proofs.JumpSteps

/-!
# Misplaced jumps

Nothing about jumps is reported before the bodies of a script are analysed. The body of a function starts with a frame that
says whether the function is a sequence function, for its record says so. So a script that is analysed without problems has no
misplaced jump, and about jumps nothing but misplaced ones is ever reported (`jumpReports_script`).
-/

namespace ScriptCheck

/-! ### The bodies of functions -/

/-- The records that are found for these functions say which of them are sequence functions. -/
def Registry.KnowsSequences (reg : Registry) (ds : List (ItemId × FuncDecl)) : Prop :=
  ∀ d ∈ ds, ∀ r, reg.func? (d.2.idUnder d.1) = some r → r.isSequence = d.2.isSequence

/-- The records that a script makes say which of its functions are sequence functions. -/
theorem Check.declareElements_knowsSequences {ctx : Context} {script : Script} {m : Module} {s t : State} (reg : Registry)
    (h : declareElements ctx script (.empty ctx.moduleName) s = .ok (m, t)) (hids : (funcIds (script.funcs ctx.root)).Nodup) :
    Registry.KnowsSequences (m :: reg) (script.funcs ctx.root) := by
  intro d hd r hr
  obtain ⟨r', hr', hof⟩ := (declareElements_grows h).declares.made hids d hd
  rw [Registry.func?, List.findSome?_cons, hr', Option.some.injEq] at hr
  rw [← hr, hof.isSequence]

/-- The frame of a function knows whether the function is a sequence function. -/
theorem FuncRecord.frame_fits (r : FuncRecord) : r.frame.Fits [.func r.isSequence] := by
  unfold FuncRecord.frame
  cases r.isSequence with
  | true => exact Frame.fits_enter rfl _ _ _ (by simp)
  | false => exact Frame.fits_enter rfl _ _ _ (by simp)

namespace Check

variable {around : List Enclosure} {ctx : Context}
variable {script : Script}

theorem funcBody_judges {outer : ItemId} {decl : FuncDecl}
    (hseq : ∀ r, ctx.registry.func? (decl.idUnder outer) = some r → r.isSequence = decl.isSequence) :
    Keeps (Judges around decl.jumps) (funcBody ctx outer decl) := by
  intro s a s' h _
  obtain ⟨record, u, w, hrecord, hparams, hbody, rfl⟩ := funcBody_run h
  have hfits : record.frame.Fits [.func decl.isSequence] := hseq record hrecord ▸ record.frame_fits
  have hinside : Reports (Jump.misplaced decl.jumps) (s.enter record.frame) w :=
    Gathers.seq (declareParams_gathers (R := Judges _) _ _ hparams) (block_judges _ _ decl.body hbody) hfits
  exact ⟨hinside.diagnostics, hinside.jumps, rfl, rfl⟩

theorem scriptBodies_judges (hseq : ctx.registry.KnowsSequences (script.funcs ctx.root)) :
    Keeps (Judges around ((script.funcs ctx.root).flatMap fun d => d.2.jumps)) (scriptBodies ctx script) := by
  intro s a s' h
  exact (scriptBodies_runs script h).gathers fun d hd _ => funcBody_judges (hseq d hd)

theorem scriptStmts_judges (ctx : Context) (script : Script) :
    Keeps (Judges [.script] script.stmtJumps) (scriptStmts ctx script) := by
  rw [scriptStmts_eq, script.stmtJumps_eq]
  exact stmts_judges ctx _ script.stmts

/-- The script's statements leave no loop open, so that nothing changes when its frame is put back. -/
theorem resetFrame_judges : Keeps (Judges [.script] []) (modifyFrame fun _ => .script) := by
  intro s a s' h hs
  cases h
  refine .still rfl ?_ ?_
  · have hloop : ¬s.frame.loopDepth ≠ 0 := fun hl => not_inLoop_body rfl (hs.loop.1 hl)
    exact (not_not.1 hloop).symm
  · have hseq : ¬s.frame.seqElem.isSome = true := fun hl => by simpa using (inSequence_body rfl).1 (hs.sequence.1 hl)
    exact (Option.not_isSome_iff_eq_none.1 hseq).symm

theorem bodies_judges (ctx : Context) (hseq : ctx.registry.KnowsSequences (script.funcs ctx.root)) :
    Keeps (Judges [.script] (script.jumps ctx.root)) (bodies ctx script) :=
  (scriptStmts_judges ctx script).seq fun _ => Keeps.get.last fun _ => (pushTemplate_judges _ _ _).last fun _ =>
    resetFrame_judges.last fun _ => scriptBodies_judges hseq

/-- A whole run reports which jumps of the script are misplaced, or nothing about them if the bodies are not analysed. -/
theorem script_judges (hids : (funcIds (script.funcs ctx.root)).Nodup) {s s' : State} {made : Option Module}
    (h : Check.script ctx script s = .ok (made, s')) :
    Judges [.script] (made.elim [] fun _ => script.jumps ctx.root) s s' := by
  obtain ⟨m, t, hm, h⟩ := bind_eq_ok.1 h
  obtain ⟨fine, u, hu, h⟩ := bind_eq_ok.1 h
  have hstart : Judges [.script] [] s u :=
    Gathers.seq ((declareElements_typeNodes ctx script _).writesTypes (R := Judges _) hm) (rejectCycles_gathers m hu)
  cases fine with
  | false =>
    obtain ⟨rfl, rfl⟩ := pure_eq_ok.1 h
    exact hstart
  | true =>
    obtain ⟨_, w, hw, h⟩ := bind_eq_ok.1 h
    obtain ⟨rfl, rfl⟩ := pure_eq_ok.1 h
    have hknows : Registry.KnowsSequences (m :: ctx.registry) (script.funcs ctx.root) :=
      declareElements_knowsSequences ctx.registry hm hids
    have hall := Gathers.seq hstart (bodies_judges { ctx with registry := m :: ctx.registry } hknows hw)
    exact hall

end Check

/-! ### The main statement -/

/-- What a run reports about jumps, from the first state on. -/
theorem jumpReports_script {setup : Setup} {script : Script} {made : Option Module} {s : State}
    (hc : (script.collect (.root setup.moduleName)).diagnostics = [])
    (h : Check.script (setup.contextFor script) script .initial = .ok (made, s)) :
    s.jumpReports.Sublist (Jump.misplaced (made.elim [] fun _ => script.jumps (.root setup.moduleName))) ∧
      (s.CapturesFound → s.jumpReports = Jump.misplaced (made.elim [] fun _ => script.jumps (.root setup.moduleName))) := by
  have hfits : State.initial.frame.Fits [.script] := Frame.fits_enter rfl _ _ _ (by simp)
  have hids : (funcIds (script.funcs (setup.contextFor script).root)).Nodup := Script.funcs_nodup hc
  obtain ⟨added, hadded, hsub, hall⟩ := (Check.script_judges hids h hfits).jumps
  have hreports : s.jumpReports = added := hadded
  rw [hreports]
  exact ⟨hsub, hall⟩

/-- Where a script is analysed without problems, every `break` and `continue` stands in a loop of its own body, every `yield`
directly in the body of a sequence function, and no `return` with a value does. Whatever is reported instead, about jumps it is
only said of those that violate this, at their nodes, for a `return` that of the value. And once the bodies of a script are
analysed, each of these is reported, once and in order, if no capture of a lambda or task failed. -/
theorem jumps_stand_where_they_belong (setup : Setup) (script : Script) :
    (∀ out, analyze setup script = .ok (.ok out) → ∀ j ∈ script.jumps (.root setup.moduleName), j.Allowed) ∧
    (∀ r, analyze setup script = .ok r → ∀ d ∈ problemsOf r, d.problem.isJump = true →
      ∃ j ∈ script.jumps (.root setup.moduleName), ¬j.Allowed ∧ j.diagnostic = d) ∧
    ∀ m s, Analysed setup script m s → s.CapturesFound →
      s.diagnostics.filter (·.problem.isJump) = Jump.misplaced (script.jumps (.root setup.moduleName)) := by
  refine ⟨fun out h => ?_, fun r h d hd hjump => ?_, fun m s ha hfound => ?_⟩
  · obtain ⟨m, s, ha, hs, -, -⟩ := analyze_eq_ok h
    have hfound : s.CapturesFound := fun d hd => by simp [hs] at hd
    refine Jump.misplaced_eq_nil.1 (((jumpReports_script ha.collected ha.run).2 hfound).symm.trans ?_)
    rw [State.jumpReports, hs, List.filter_nil]
  · rcases problemsOf_analyze h with ⟨-, hp⟩ | ⟨hc, made, s, hrun, hp⟩
    · obtain ⟨name, hname⟩ := collect_reported _ _ d (hp ▸ hd)
      rw [hname] at hjump
      cases hjump
    · have hmem : d ∈ s.jumpReports := List.mem_filter.2 ⟨hp ▸ hd, hjump⟩
      have hmisplaced := (jumpReports_script hc hrun).1.subset hmem
      cases made with
      | none => cases hmisplaced
      | some m => exact Jump.mem_misplaced.1 hmisplaced
  · exact (jumpReports_script ha.collected ha.run).2 hfound

namespace Sample

/-- `seq int feed() { while (true) { yield 1; break; } await { yield 2; } return; }` -/
def feed : FuncDecl where
  node := nd 0
  name := .text "feed"
  typeParams := []
  params := []
  ret := .named (nd 1) "int" []
  isSequence := true
  isStatic := false
  body := .mk (nd 2) [
    .whileDo (nd 3) (.boolLit (nd 4) true) (.block (nd 5) (.mk (nd 6) [.yields (nd 7) (.intLit (nd 8) 1), .breaks (nd 9)])),
    .awaits (nd 10) (.mk (nd 11) [.yields (nd 12) (.intLit (nd 13) 2)]),
    .ret (nd 14) none]

/-- `seq int tangle() { while (true) { var f = () => { yield 3; break; }; task { continue; } } return 4; }` -/
def tangle : FuncDecl where
  node := nd 20
  name := .text "tangle"
  typeParams := []
  params := []
  ret := .named (nd 21) "int" []
  isSequence := true
  isStatic := false
  body := .mk (nd 22) [
    .whileDo (nd 23) (.boolLit (nd 24) true) (.block (nd 25) (.mk (nd 26) [
      .varDecl (nd 27) (.var (nd 28)) "f" (some (.lambda (nd 29) [] none (.block (.mk (nd 30) [
        .yields (nd 31) (.intLit (nd 32) 3), .breaks (nd 33)])))),
      .task (nd 34) (.mk (nd 35) [.continues (nd 36)])])),
    .ret (nd 37) (some (.intLit (nd 38) 4))]

end Sample

/-- In `feed` all jumps belong where they are. In `tangle` a lambda and a task stand between the jumps in them and the loop and
the sequence function around, so that all four jumps are reported. -/
theorem sample_jumps_stand_where_they_belong :
    (∃ out, analyze Sample.alone [.func Sample.feed] = .ok (.ok out) ∧
      ((Script.jumps (.root Sample.alone.moduleName) [.func Sample.feed]).map Jump.kind = [.yields, .breaks, .yields] ∧
        ∀ j ∈ Script.jumps (.root Sample.alone.moduleName) [.func Sample.feed], j.Allowed)) ∧
    ∃ m s, Analysed Sample.alone [.func Sample.tangle] m s ∧
      (s.diagnostics.filter (·.problem.isJump)).map (fun d => (d.problem, d.node.id)) =
        [(.yieldOutsideSequence, 31), (.invalidBreak, 33), (.invalidContinue, 36), (.returnValueInSequence, 38)] := by
  have hfeed : ((analyze Sample.alone [.func Sample.feed]).toOption.bind Except.toOption).any (fun _ => true) = true := by
    decide +kernel
  have htangle : (Check.script (Sample.alone.contextFor [.func Sample.tangle]) [.func Sample.tangle] .initial).toOption.any
      (fun r => r.1.isSome ∧ ∀ d ∈ r.2.diagnostics, d.problem.isJump = true) = true := by decide +kernel
  constructor
  · obtain ⟨out, h, -⟩ := exists_output hfeed
    exact ⟨out, h, by decide +kernel, (jumps_stand_where_they_belong Sample.alone [.func Sample.feed]).1 out h⟩
  · cases hrun : Check.script (Sample.alone.contextFor [.func Sample.tangle]) [.func Sample.tangle] .initial with
    | error e =>
      rw [hrun] at htangle
      cases htangle
    | ok r =>
      rw [hrun] at htangle
      obtain ⟨hmade, hjumps⟩ := of_decide_eq_true htangle
      obtain ⟨m, hm⟩ := Option.isSome_iff_exists.1 hmade
      have ha : Analysed Sample.alone [.func Sample.tangle] m r.2 := ⟨by decide +kernel, by rw [hrun, ← hm]⟩
      have hfound : r.2.CapturesFound := by
        intro d hd name hname
        have hjump := hjumps d hd
        rw [hname] at hjump
        cases hjump
      refine ⟨m, r.2, ha, ?_⟩
      rw [(jumps_stand_where_they_belong Sample.alone [.func Sample.tangle]).2.2 m r.2 ha hfound]
      decide +kernel

end ScriptCheck

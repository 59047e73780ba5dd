import ScriptCheck.Proofs.Jumps

/-!
# What a run reports about jumps

Every part of a body is analysed once and in order. So, if the frame at the start of a run knows which loops and which sequence
function are around the part (`Frame.Fits`), the run reports of its jumps those that are misplaced, and of no others that they
are (`Judges`). Only the body of a lambda or a task whose captures cannot be found is left out, and then that is reported. There
is one statement for each rule, and no rule but those for the jumps themselves reports anything about jumps.
-/

namespace ScriptCheck

/-! ### The relation -/

/-- The frame knows what is around the place. -/
structure Frame.Fits (around : List Enclosure) (f : Frame) : Prop where
  loop : f.loopDepth ≠ 0 ↔ InLoop around
  sequence : f.seqElem.isSome = true ↔ InSequence around

/-- No report says that a capture failed. -/
def State.CapturesFound (s : State) : Prop := ∀ d ∈ s.diagnostics, ∀ name, d.problem ≠ .captureFailed name

/-- Of the reports `ds` some were added, all of them if no capture failed, and no others about jumps; the frame still knows what
is around it. -/
structure Reports (ds : List Diagnostic) (s s' : State) : Prop where
  diagnostics : s.diagnostics <+: s'.diagnostics
  jumps : ∃ added, s'.jumpReports = s.jumpReports ++ added ∧ added.Sublist ds ∧ (s'.CapturesFound → added = ds)
  loopDepth : s'.frame.loopDepth = s.frame.loopDepth
  seqElem : s'.frame.seqElem = s.frame.seqElem

/-- From a frame that knows what is around the place the run reports which of the jumps `js` are misplaced. -/
def Judges (around : List Enclosure) (js : List Jump) (s s' : State) : Prop :=
  s.frame.Fits around → Reports (Jump.misplaced js) s s'

theorem State.CapturesFound.before {s s' : State} (h : s'.CapturesFound) (hadds : s.diagnostics <+: s'.diagnostics) :
    s.CapturesFound := fun d hd => h d (hadds.subset hd)

theorem Frame.Fits.congr {around : List Enclosure} {f g : Frame} (h : f.Fits around) (hloop : g.loopDepth = f.loopDepth)
    (hseq : g.seqElem = f.seqElem) : g.Fits around :=
  ⟨by rw [hloop, h.loop], by rw [hseq, h.sequence]⟩

/-- A frame without loops and sequence fits a body that is none of a sequence function. -/
theorem Frame.fits_enter {around : List Enclosure} {e : Enclosure} (he : e.isBody = true) (ret : ReturnMode)
    (seqElem : Option Ty) (isThisCall : Bool) (hseq : seqElem.isSome = true ↔ e = .func true) :
    (Frame.enter ret seqElem isThisCall).Fits (e :: around) := by
  refine ⟨?_, ?_⟩
  · simp [Frame.enter, not_inLoop_body he]
  · rw [inSequence_body he]
    exact hseq

namespace Reports

variable {ds es : List Diagnostic} {s t u : State}

theorem seq (h : Reports ds s t) (h' : Reports es t u) : Reports (ds ++ es) s u := by
  obtain ⟨added, hadded, hsub, hall⟩ := h.jumps
  obtain ⟨added', hadded', hsub', hall'⟩ := h'.jumps
  refine ⟨h.diagnostics.trans h'.diagnostics, ⟨added ++ added', ?_, hsub.append hsub', fun hu => ?_⟩,
    h'.loopDepth.trans h.loopDepth, h'.seqElem.trans h.seqElem⟩
  · rw [hadded', hadded, List.append_assoc]
  · rw [hall (hu.before h'.diagnostics), hall' hu]

/-- Nothing is reported. -/
theorem still (hd : t.diagnostics = s.diagnostics) (hloop : t.frame.loopDepth = s.frame.loopDepth)
    (hseq : t.frame.seqElem = s.frame.seqElem) : Reports [] s t :=
  ⟨hd ▸ List.prefix_refl _, ⟨[], by rw [State.jumpReports, hd, List.append_nil, State.jumpReports], .slnil, fun _ => rfl⟩, hloop,
    hseq⟩

/-- A jump in a wrong place is reported. -/
theorem jump (s : State) {problem : Problem} (hp : problem.isJump = true) (node : Node) :
    Reports [⟨problem, node⟩] s { s with diagnostics := s.diagnostics ++ [⟨problem, node⟩] } := by
  refine ⟨List.prefix_append _ _, ⟨_, ?_, List.Sublist.refl _, fun _ => rfl⟩, rfl, rfl⟩
  simp [State.jumpReports, hp]

end Reports

theorem Notes.reports {P : NodeInfo → Prop} {ids : List Nat} {s t : State} (h : Notes P ids s t) : Reports [] s t :=
  ⟨h.diagnostics, ⟨[], by rw [h.jumps, List.append_nil], .slnil, fun _ => rfl⟩, by rw [h.frame], by rw [h.frame]⟩

instance (around : List Enclosure) : GathersAnywhere (Judges around) where
  cost _ := []
  cost_append _ _ := rfl
  seq h h' hs := by
    have hfirst := h hs
    rw [Jump.misplaced_append]
    exact hfirst.seq (h' (hs.congr hfirst.loopDepth hfirst.seqElem))
  swap h := h
  spare _ _ _ _ h := h
  typedInstead h := h
  looks h _ := h.reports
  typed _ _ _ _ := .still rfl rfl rfl
  noted _ _ _ _ _ := .still rfl rfl rfl
  types h _ := h.reports
  widens h _ := .still rfl h.loopDepth h.seqElem
  still h hloop hseq _ := .still h.diagnostics hloop hseq

namespace Check

variable {α : Type} {around : List Enclosure} {js ks : List Jump} {ctx : Context} {node : Node}

/-! ### Lambdas and tasks -/

/-- Captures are given up only if one of them failed, and that is reported. -/
theorem not_capturesFound_of_wireCaptures : ∀ {needs : List CaptureNeed} {s s' : State},
    wireCaptures ctx node needs s = .ok (none, s') → ¬s'.CapturesFound
  | [], s, s', h => by
    rw [wireCaptures] at h
    cases (pure_eq_ok.1 h).1
  | need :: needs, s, s', h => by
    rw [wireCaptures] at h
    obtain ⟨meaning, t, -, h⟩ := bind_eq_ok.1 h
    have hfailed : ∀ {u : State} (r : Option (List PendingCapture)),
        (⟨.captureFailed need.name, node⟩ : Diagnostic) ∈ u.diagnostics → wireCaptures ctx node needs u = .ok (r, s') →
        ¬s'.CapturesFound := by
      intro u r hu hrest hfound
      have hnotes : Notes (fun _ => False) [] u s' := wireCaptures_notes node needs hrest
      exact hfound _ (hnotes.diagnostics.subset hu) _ rfl
    split at h
    · obtain ⟨rest, u, hrest, h⟩ := bind_eq_ok.1 h
      obtain ⟨hnone, rfl⟩ := pure_eq_ok.1 h
      rw [Option.map_eq_none_iff.1 hnone] at hrest
      exact not_capturesFound_of_wireCaptures hrest
    · exact not_capturesFound_of_wireCaptures h
    · exact not_capturesFound_of_wireCaptures h
    · exact not_capturesFound_of_wireCaptures h
    all_goals
      obtain ⟨_, v, hreport, h⟩ := bind_eq_ok.1 h
      rw [report_apply] at hreport
      cases hreport
      obtain ⟨r, w, hrest, h⟩ := bind_eq_ok.1 h
      obtain ⟨-, rfl⟩ := pure_eq_ok.1 h
      exact hfailed r (by simp) hrest

/-- A body is analysed unless captures are missing, and that is reported. -/
theorem wireCaptures_bind_judges {needs : List CaptureNeed} {f : Option (List PendingCapture) → Check α}
    (hnone : Keeps (Judges around []) (f none)) (hsome : ∀ pending, Keeps (Judges around js) (f (some pending))) :
    Keeps (Judges around js) (wireCaptures ctx node needs >>= f) := by
  intro s b s' h
  obtain ⟨r, t, hwire, hrest⟩ := bind_eq_ok.1 h
  have hfirst : Judges around [] s t := (wireCaptures_notes node needs).looks hwire
  cases r with
  | some pending => exact Gathers.seq hfirst (hsome pending hrest)
  | none =>
    intro hs
    have hstart := hfirst hs
    have hend := hnone hrest (hs.congr hstart.loopDepth hstart.seqElem)
    have hboth := hstart.seq hend
    obtain ⟨added, hadded, hsub, -⟩ := hboth.jumps
    refine ⟨hboth.diagnostics, ⟨added, hadded, hsub.trans (List.nil_sublist _), fun hfound => ?_⟩, hboth.loopDepth,
      hboth.seqElem⟩
    exact absurd (hfound.before hend.diagnostics) (not_capturesFound_of_wireCaptures hwire)

theorem noteInfo_judges (node : Node) (info : NodeInfo) : Keeps (Judges around []) (noteInfo node info) := by
  intro s a s' h _
  cases h
  exact .still rfl rfl rfl

theorem pushTemplate_judges (kind : TemplateKind) (frame : Frame) (body : Option Nat) :
    Keeps (Judges around []) (pushTemplate kind frame body) := by
  intro s a s' h _
  rw [pushTemplate_apply] at h
  cases h
  exact .still rfl rfl rfl

/-- The body of a lambda or a task starts anew: neither the loops nor the sequence function around it are known in it. -/
theorem closure_judges {e : Enclosure} (he : e.isBody = true) (hfunc : e ≠ .func true) {body : Check Unit}
    (params : List (Node × String)) (types : List Ty) (pending : List PendingCapture) (mode : ReturnMode)
    (hb : Keeps (Judges (e :: around) js) body) : Keeps (Judges around js) (closure params types pending mode body) := by
  intro s r s' h _
  obtain ⟨t, hr, -, rfl⟩ := inFrame_eq_ok.1 h
  have hfits : (Frame.enter mode none false).Fits (e :: around) := Frame.fits_enter he _ _ _ (by simpa using hfunc)
  have hinside : Keeps (Judges (e :: around) js) (do
      declareParams params types
      let captures ← declareCaptures pending
      body
      return captures) :=
    (declareParams_gathers (R := Judges (e :: around)) _ _).last fun _ => (declareCaptures_gathers _).last fun _ =>
      hb.first fun _ => .pure _
  have hbody := hinside hr hfits
  exact ⟨hbody.diagnostics, hbody.jumps, rfl, rfl⟩

theorem lambda_judges {params : List LambdaParam} {ret : Option TypeExpr} {body : Body} {analyse : Option Ty → Check Unit}
    (expected : Option Ty) (ha : ∀ declared, Keeps (Judges (.lambda :: around) js) (analyse declared)) :
    Keeps (Judges around js) (lambda ctx node params ret body expected analyse) := by
  refine (lambdaParams_gathers (R := Judges around) _ _).last fun types =>
    (declaredResult_gathers (R := Judges around) _).last fun declared => wireCaptures_bind_judges (.pure _) fun pending => ?_
  exact (closure_judges rfl (by simp) _ _ _ _ (ha declared)).first fun _ => (pushTemplate_judges _ _ _).last fun _ =>
    (noteInfo_judges node _).last fun _ => .pure _

theorem task_judges {block : Block} {analyse : Check Unit} (ha : Keeps (Judges (.task :: around) js) analyse) :
    Keeps (Judges around js) (task ctx node block analyse) := by
  refine wireCaptures_bind_judges (.pure _) fun pending => ?_
  exact (closure_judges rfl (by simp) _ _ _ _ ha).first fun _ => (pushTemplate_judges _ _ _).last fun _ =>
    noteInfo_judges node _

/-! ### Loops and jumps -/

/-- In the body of a loop one more loop is open, and after it as many as before. -/
theorem whileDo_judges {value : Check Ty} {body : Check Unit} (hv : Keeps (Judges around js) value)
    (hb : Keeps (Judges (.loop :: around) ks) body) : Keeps (Judges around (js ++ ks)) (whileDo node value body) := by
  refine (condition_gathers hv).seq fun _ s a s' h hs => ?_
  obtain ⟨_, t, ht, h⟩ := bind_eq_ok.1 h
  cases ht
  obtain ⟨_, u, hu, h⟩ := bind_eq_ok.1 h
  cases h
  have hfits : ({ s.frame with loopDepth := s.frame.loopDepth + 1 } : Frame).Fits (.loop :: around) :=
    ⟨by simp [inLoop_loop], hs.sequence.trans inSequence_loop.symm⟩
  have hinside := inBlock_gathers hb hu hfits
  exact ⟨hinside.diagnostics, hinside.jumps, by simp [hinside.loopDepth], hinside.seqElem⟩

theorem report_jump_judges {j : Jump} (hj : ¬j.Allowed) : Keeps (Judges around [j]) (report j.kind.problem j.node) := by
  intro s a s' h _
  rw [report_apply] at h
  cases h
  rw [Jump.misplaced_singleton, if_neg hj]
  exact .jump s j.kind.isJump_problem j.node

/-- A `return` with a value is reported exactly in a sequence function. -/
theorem returnValue_judges {analyse : Option Ty → Check Ty} (node : Node)
    (ha : ∀ hint, Keeps (Judges around js) (analyse hint)) :
    Keeps (Judges around (js ++ [⟨.returnsValue, node, around⟩])) (returnValue ctx node analyse) := by
  intro s a s' h hs
  obtain ⟨_, _, hget, h⟩ := bind_eq_ok.1 h
  cases hget
  cases hseq : s.frame.seqElem with
  | some elem =>
    rw [hseq] at h
    have hmisplaced : ¬(⟨.returnsValue, node, around⟩ : Jump).Allowed := not_not.2 (hs.sequence.1 (by rw [hseq]; rfl))
    exact ((valued_gathers (ha _)).seq fun _ => report_jump_judges hmisplaced) h hs
  | none =>
    rw [hseq] at h
    have hallowed : (⟨.returnsValue, node, around⟩ : Jump).Allowed := fun hin => by simpa [hseq] using hs.sequence.2 hin
    rw [Jump.misplaced_append, Jump.misplaced_singleton, if_pos hallowed, List.append_nil]
    rcases hret : s.frame.ret with expected | _ | expected
    · rw [hret] at h
      dsimp only at h
      split at h
      · refine ((ha _).first fun found => ?_) h hs
        split
        · exact report_gathers rfl _
        · exact .pure _
      · exact (compared_gathers (valued_gathers (ha _))) h hs
    · rw [hret] at h
      refine ((ha _).first fun found => ?_) h hs
      exact modifyFrame_gathers fun _ => ⟨rfl, rfl⟩
    · rw [hret] at h
      exact (compared_gathers (ha _)) h hs

/-- A `yield` is reported exactly outside of sequence functions. -/
theorem yields_judges {analyse : Option Ty → Check Ty} (node valueNode : Node)
    (ha : ∀ hint, Keeps (Judges around js) (analyse hint)) :
    Keeps (Judges around (js ++ [⟨.yields, node, around⟩])) (yields ctx node valueNode analyse) := by
  intro s a s' h hs
  obtain ⟨_, _, hget, h⟩ := bind_eq_ok.1 h
  cases hget
  cases hseq : s.frame.seqElem with
  | none =>
    rw [hseq] at h
    have hmisplaced : ¬(⟨.yields, node, around⟩ : Jump).Allowed := fun hin => by simpa [hseq] using hs.sequence.2 hin
    exact ((valued_gathers (ha _)).seq fun _ => report_jump_judges hmisplaced) h hs
  | some elem =>
    rw [hseq] at h
    have hallowed : (⟨.yields, node, around⟩ : Jump).Allowed := hs.sequence.1 (by rw [hseq]; rfl)
    rw [Jump.misplaced_append, Jump.misplaced_singleton, if_pos hallowed, List.append_nil]
    exact (compared_gathers (valued_gathers (ha _))) h hs

/-- A `break` or a `continue` is reported exactly outside of the loops of its body. -/
theorem inLoop_judges {j : Jump} (hallowed : j.Allowed ↔ InLoop around) :
    Keeps (Judges around [j]) (inLoop j.kind.problem j.node) := by
  intro s a s' h hs
  obtain ⟨_, _, hget, h⟩ := bind_eq_ok.1 h
  cases hget
  split at h
  · rename_i hdepth
    exact report_jump_judges (fun hj => hs.loop.2 (hallowed.1 hj) hdepth) h hs
  · rename_i hdepth
    rw [Jump.misplaced_singleton, if_pos (hallowed.2 (hs.loop.1 hdepth))]
    obtain ⟨-, rfl⟩ := pure_eq_ok.1 h
    exact .still rfl rfl rfl

/-! ### The walk -/

/-- The jumps of the parts, as what a walk gathers. -/
def judgesWalk : PartsWalk Judges Judges Judges where
  expr around e := e.jumps around
  exprs := Expr.jumpsOfList
  init := Expr.jumpsOfOption
  body around b := b.jumps around
  block around b := b.jumps around
  stmt around s := s.jumps around
  stmts := Stmt.jumpsOfList
  other := Stmt.jumpsOfOption
  expr_step _ e := .of_eq (by cases e <;> simp [Parts.exprStep, own, nameCost, Gathers.cost, Expr.jumps])
  stmt_step _ s := .of_eq (by cases s <;> simp [Parts.stmtStep, Gathers.cost, Stmt.jumps])
  toStmt := id
  toBody := id
  seq := Gathers.seq
  swap := Gathers.swap
  exprBody declared _ ha := exprBody_gathers declared ha
  declareVar _ := declareVar_gathers
  inBlock := inBlock_gathers
  ifThen _ _ _ := ifThen_gathers
  inLambda := (.lambda :: ·)
  inTask := (.task :: ·)
  inLoop := (.loop :: ·)
  lambda _ _ _ _ _ _ ha := typed_gathers (lambda_judges _ ha)
  task _ _ := task_judges
  whileDo _ _ _ _ _ := whileDo_judges
  returns node value hv := by
    cases value with
    | none => exact returnNothing_gathers _
    | some e => exact returnValue_judges _ (hv e rfl)
  yields node _ _ := yields_judges node _
  breaks around node := inLoop_judges (j := ⟨.breaks, node, around⟩) Iff.rfl
  continues around node := inLoop_judges (j := ⟨.continues, node, around⟩) Iff.rfl

/-- A block reports which of its jumps are misplaced. -/
theorem block_judges (ctx : Context) (around : List Enclosure) (b : Block) :
    Keeps (Judges around (b.jumps around)) (block ctx b) := judgesWalk.block_keeps ctx around b

theorem stmts_judges (ctx : Context) (around : List Enclosure) (ss : List Stmt) :
    Keeps (Judges around (Stmt.jumpsOfList around ss)) (stmts ctx ss) := judgesWalk.stmts_keeps ctx around ss

end Check

end ScriptCheck

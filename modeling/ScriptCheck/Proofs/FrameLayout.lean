import ScriptCheck.Proofs.OutcomeBodies

/-!
# The layout of frames

Every body of a script has a template, and the template says how many slots the body's frame has. The theorem of this module
says that none of them is wasted and none is missing: the slots that are noted for a body's parameters, captures and
declarations are all slots of the template, in order, and whatever is noted in the body stays within them. The variables that
stand directly in the script's body have the script's own slots in the same way.

The bodies of functions come after the script's statements. Each is run in a frame of its own, so nothing is left of it but its
templates (`funcBody_follows`), and what is true of one body is true of all of them by going through the declarations.
-/

namespace ScriptCheck

/-- Bodies that leave nothing behind but their templates. -/
def Outline.ofBodies (bodies : List BodyOutline) : Outline := { Outline.empty with bodies := bodies }

theorem Outline.ofBodies_append (as bs : List BodyOutline) : ofBodies (as ++ bs) = (ofBodies as).seq (ofBodies bs) := by
  simp [ofBodies, seq, empty]

/-- The record that is found for each of these functions has as many parameters as the function. -/
def Registry.Fits (reg : Registry) (ds : List (ItemId × FuncDecl)) : Prop :=
  ∀ d ∈ ds, ∀ r, reg.func? (d.2.idUnder d.1) = some r → r.params.length = d.2.params.length

theorem FuncRecord.frame_locals (r : FuncRecord) : r.frame.locals = [] := by
  unfold frame
  split <;> rfl

/-- A template made from the frame in which the body of a function ended lays the body out. -/
theorem BodyRun.outcome {ctx : Context} {fin : NodeMap} {inner : Outline} {s w : State} {b : BodyOutline}
    {body : Option Nat} (h : BodyRun fin b.params [] inner s w) (hlocals : b.locals = inner.locals)
    (hown : b.own = inner.own) (hkind : b.kind.node? = none) :
    Outcome ctx fin (.ofBodies (inner.bodies ++ [b])) s ((s.resume w).push b.kind w.frame body) where
  notes := h.notes
  locals := List.prefix_refl _
  size := rfl
  slots := rfl
  globals := by
    rw [← h.globals]
    exact List.prefix_refl _
  globalSize := congrArg PrivateGlobals.size h.globals
  globalSlots := rfl
  own := by simp [Outline.ofBodies, Outline.empty]
  overrides := (Table.filterKeys_of_forall fun _ _ => rfl).symm
  reads := by simp [Outline.ofBodies, Outline.empty]
  bodies := by
    intro hnil
    obtain ⟨ts, hts, hall⟩ := h.bodies hnil
    have hclosure : b.closure? fin = none := by simp [BodyOutline.closure?, hkind]
    refine ⟨ts ++ [⟨b.kind, w.frame.size, w.frame.seqElem, w.frame.isThisCall, body⟩], ?_, ?_⟩
    · simp [State.push, State.resume, hts]
    · refine hall.concat (h.laidOut rfl hlocals hown ?_ ?_ body)
      · simp [hclosure]
      · simp [hkind]

/-! ### The bodies in their order -/

/-- The bodies of the functions of declarations. -/
def bodyLists : DeclLists BodyOutline where
  func outer _ := FuncDecl.bodies outer
  type outer _ := TypeDecl.bodies outer
  members id _ := Member.bodiesOfList id
  member id _ := Member.bodies id

/-- The bodies come in the order of the functions. -/
theorem bodies_related : bodyLists.Related funcLists (fun _ _ bs ds => bs = ds.flatMap fun d => d.2.bodies d.1) where
  nil _ _ := rfl
  append h h' := by rw [h, h', List.flatMap_append]
  func _ _ _ := (List.append_nil _).symm
  field _ _ _ := rfl
  case _ _ _ := rfl
  stmt _ _ _ := rfl
  type h := h

theorem Script.declBodies_eq (root : ItemId) (script : Script) :
    script.declBodies root = (script.funcs root).flatMap fun d => d.2.bodies d.1 :=
  bodies_related.of_script root [] {} {} script

namespace Check

-- Bodies of functions contain no use of a name that is seen from outside, so their outcome is the same in every context.
variable {around : Context}

/-! ### The bodies of functions -/

theorem funcBody_follows {ctx : Context} {outer : ItemId} {decl : FuncDecl} (hfits : ctx.registry.Fits [(outer, decl)]) :
    Follows around decl.ids (fun _ => .ofBodies (decl.bodies outer)) (funcBody ctx outer decl) where
  touches := (funcBody_effect ctx outer decl).weaken fun _ _ h => h.toTouches
  outcome := by
    intro fin s s' a h _ hready hfin
    obtain ⟨record, u, w, hrecord, hp, hb, rfl⟩ := funcBody_run h
    have hnodes : (decl.params.map fun p => (p.node, p.name)).map (·.1.id) = decl.params.map (·.node.id) := by simp
    have hlen : (record.params.map (·.ty)).length = (decl.params.map fun p => (p.node, p.name)).length := by
      simpa using hfits (outer, decl) (List.mem_singleton_self _) record hrecord
    have hsub : (decl.params.map (·.node.id) ++ decl.body.ids).Sublist decl.ids :=
      ((FuncParam.nodes_sublist decl.params).append (List.sublist_append_right _ _)).cons _
    rw [← hnodes] at hsub
    have hpending : u = { u with frame := u.frame.declareAll (([] : List PendingCapture).map fun c => (c.name, c.ty)) } := rfl
    rw [hpending] at hb
    have hrun := body_run (block_follows _ decl.body) ((block_effect _ decl.body).weaken fun _ _ h => h.toBodyEffect)
      record.frame_locals hlen hp hb (hready.subperm hsub.subperm) (hfin.subset hsub.subset)
    rw [hnodes] at hrun
    exact hrun.outcome rfl rfl rfl

/-- Where there is no body there is nothing to lay out. -/
theorem no_bodies_follow {ids : List Nat} : Follows around ids (fun _ => .ofBodies []) (pure () : Check Unit) :=
  Follows.nothing (.pure _) (List.nil_sublist ids)

theorem sites_follow {ctx : Context} : ∀ fs : List FuncSite, ctx.registry.Fits (fs.map fun f => (f.outer, f.decl)) →
    Follows around (funcSiteIds fs) (fun _ => .ofBodies (fs.flatMap fun f => f.decl.bodies f.outer)) (fs.forM (siteBody ctx))
  | [], _ => no_bodies_follow
  | f :: fs, hfits => by
    obtain ⟨hf, hfs⟩ := List.forall_mem_cons.1 hfits
    have hbody : Follows around f.decl.ids (fun _ => .ofBodies (f.decl.bodies f.outer)) (siteBody ctx f) :=
      funcBody_follows (List.forall_mem_singleton.2 hf)
    rw [List.flatMap_cons, Outline.ofBodies_append]
    exact hbody.bind fun _ => sites_follow fs hfs

theorem scriptBodies_follows {ctx : Context} (script : Script) (hfits : ctx.registry.Fits (script.funcs ctx.root)) :
    Follows around script.declIds (fun _ => .ofBodies (script.declBodies ctx.root)) (scriptBodies ctx script) := by
  rw [script.funcs_eq ctx.root ctx.enclosing] at hfits
  rw [scriptBodies_sites, script.declBodies_eq ctx.root, script.funcs_eq ctx.root ctx.enclosing, List.flatMap_map]
  exact (sites_follow _ hfits).sublist (script.funcSites_ids _ _)

/-! ### The script's own body -/

/-- The statements at the top level follow the script's outline. -/
theorem scriptStmts_follows (ctx : Context) : ∀ script : Script,
    FollowsFrom (fun s => s.globalScope = true) ctx script.stmtIds (fun _ => script.outline) (scriptStmts ctx script)
  | [] => by
    rw [scriptStmts, Script.outline]
    exact (Follows.nothing (.pure _) (List.nil_sublist _)).weaken fun _ _ => trivial
  | .stmt st :: rest => by
    rw [scriptStmts, Script.stmtIds, Script.outline]
    have hst : FollowsFrom (fun s => s.globalScope = true) ctx st.ids (fun _ => st.outline true) (stmt ctx st) :=
      { touches := (stmt_follows ctx st).touches
        outcome := fun hr hg hready hfin => hg ▸ (stmt_follows ctx st).outcome hr trivial hready hfin }
    refine hst.bind (fun hg hr => ?_) fun _ _ => scriptStmts_follows ctx rest
    exact ((stmt_effect ctx st hr).globalScope).trans hg
  | .type decl :: rest => by
    rw [scriptStmts, Script.stmtIds, Script.outline]
    · exact scriptStmts_follows ctx rest
    · simp
  | .func decl :: rest => by
    rw [scriptStmts, Script.stmtIds, Script.outline]
    · exact scriptStmts_follows ctx rest
    · simp

end Check

/-- The template of the script's own body, made after its statements. -/
def State.scriptTemplate (s : State) : Template :=
  ⟨.script, s.frame.size, s.frame.seqElem, s.frame.isThisCall, none⟩

theorem State.afterStmts_templates (s : State) : s.afterStmts.templates = s.templates ++ [s.scriptTemplate] := rfl

/-- The script's own body is laid out by its template. -/
theorem Outcome.laidOut_script {ctx : Context} {fin : NodeMap} {o : Outline} {s t : State} (h : Outcome ctx fin o s t)
    (hs : s.frame.size = 0) (k : Nat) : BodyOutline.LaidOut fin ⟨.script, [], o.locals, o.own⟩ k t.scriptTemplate where
  kind := rfl
  position := by simp [TemplateKind.node?]
  slots := by
    have hslots := h.slots
    rw [hs, ← List.range_eq_range'] at hslots
    rw [State.scriptTemplate, h.size, hs, Nat.zero_add, ← hslots]
    rfl
  own := h.own

/-- Every body of a script with an output has its template: the script's own body, that of each function, lambda and task.
What is noted as the slots of the body's parameters, captures and declarations, in this order, is `0`, `1`, … up to the number
of slots of the template. What else is noted in the body speaks of no other slot, and what a lambda or a task in it carries in
comes from a slot of it. The variables that stand directly in the script's body have the script's slots in the same way, and
no note speaks of another. -/
theorem frames_are_laid_out (setup : Setup) (script : Script) (out : Output) (hids : script.ids.Nodup)
    (h : analyze setup script = .ok (.ok out)) :
    BodiesLaidOut out.nodes (script.bodies (.root setup.moduleName)) 0 out.templates ∧
      script.outline.globals.map out.nodes.globalSlotOf = (List.range out.privateGlobals).map some ∧
      ∀ n info, out.nodes.info? n = some info → info.InScript out.privateGlobals := by
  obtain ⟨m, s, ha, hs, -, rfl⟩ := analyze_eq_ok h
  obtain ⟨u, hdecl, hbodies⟩ := Check.Quiet.script ⟨ha.run, hs⟩
  obtain ⟨v, hstmts, hfuncs⟩ := hbodies.bodies
  -- Before the bodies, nothing but types has been noted.
  have hnotes := Check.declareElements_notes _ script _ hdecl.run
  have hready : Ready (script.stmtIds ++ script.declIds) u := by
    refine ⟨?_, fun n _ info hi => (hnotes.infos n info hi).elim (fun h => nomatch h) id⟩
    refine List.nodup_append.2 ⟨hids.sublist script.stmtIds_sublist, hids.sublist script.declIds_sublist, ?_⟩
    rintro n hn _ hn' rfl
    exact Script.stmtIds_disjoint hids n hn hn'
  have hstart : u.NotesInScript := fun n info hi =>
    (hnotes.infos n info hi).elim (fun h => nomatch h) fun h => h.free.inScript
  have hframe : u.frame.size = 0 := by
    rw [hnotes.frame]
    rfl
  -- The statements come first, and what is noted for them stays.
  have htouch := Check.scriptStmts_effect _ script hstmts.run
  have hrest := Check.scriptBodies_effect _ script hfuncs.run
  have hfirst := (Check.scriptStmts_follows _ script).outcome hstmts.run hnotes.globalScope
    (hready.subperm (List.sublist_append_left _ _).subperm)
    fun n hn => hrest.nodes n (Script.stmtIds_disjoint hids n hn)
  -- Then come the functions.
  have hlater : Ready script.declIds v := hready.later htouch.toTouches
  have hfits : Registry.Fits (m :: (setup.contextFor script).registry) (script.funcs (.root setup.moduleName)) :=
    fun d hd r hr => ha.func_record hs hd hr
  have hsecond : Outcome (setup.contextFor script) s.nodes (.ofBodies (script.declBodies (.root setup.moduleName)))
      v.afterStmts s :=
    (Check.scriptBodies_follows script hfits).outcome hfuncs.run trivial ⟨hlater.nodup, hlater.fresh⟩ fun _ _ => rfl
  obtain ⟨ts, hts, hall⟩ := hfirst.bodies hstmts.silent
  obtain ⟨ts', hts', hall'⟩ := hsecond.bodies hs
  rw [hnotes.templates] at hts hall
  rw [State.afterStmts_templates, hts] at hts' hall'
  have hglobals : s.globals.size = script.outline.globals.length := by
    have hsize := hfirst.globalSize
    rw [hnotes.globals] at hsize
    calc s.globals.size = v.globals.size := hsecond.globalSize
      _ = 0 + script.outline.globals.length := hsize
      _ = script.outline.globals.length := Nat.zero_add _
  refine ⟨?_, ?_, ?_⟩
  · have hscript := hall.concat (hfirst.laidOut_script hframe _)
    rw [List.append_assoc, List.length_append] at hall'
    have hwhole := hscript.append hall'
    rw [List.append_assoc, List.append_assoc] at hwhole
    rw [State.output, hts', List.append_assoc, List.append_assoc]
    exact hwhole
  · have hslots := hfirst.globalSlots
    rw [hnotes.globals] at hslots
    rw [State.output, hglobals, List.range_eq_range']
    exact hslots
  · exact hsecond.notes (hfirst.notes hstart)

namespace Sample

/-- The sample script with `int limit = 7;` at its end. -/
def longer : Script := script ++ [.stmt (.varDecl (nd 80) (.named (nd 81) "int" []) "limit" (some (.intLit (nd 82) 7)))]

end Sample

/-- The bodies of the sample script: its lambda, the lambda in its task, the task, the script, and the two functions. -/
theorem sample_frames_are_laid_out : Sample.longer.ids.Nodup ∧ ∃ out, analyze Sample.setup Sample.longer = .ok (.ok out) ∧
    out.templates.map (·.locals) = [2, 1, 3, 2, 2, 2] ∧ out.privateGlobals = 1 ∧
    BodiesLaidOut out.nodes (Sample.longer.bodies (.root "Sample")) 0 out.templates ∧
    out.nodes.globalSlotOf 80 = some 0 ∧ ∀ n info, out.nodes.info? n = some info → info.InScript 1 := by
  have hids : Sample.longer.ids.Nodup := by decide +kernel
  have hrun : ((analyze Sample.setup Sample.longer).toOption.bind Except.toOption).any (fun out =>
      out.templates.map (·.locals) = [2, 1, 3, 2, 2, 2] ∧ out.privateGlobals = 1) = true := by decide +kernel
  refine ⟨hids, ?_⟩
  cases h : analyze Sample.setup Sample.longer with
  | error fault =>
    rw [h] at hrun
    cases hrun
  | ok r =>
    rw [h] at hrun
    cases r with
    | error diagnostics => cases hrun
    | ok out =>
      obtain ⟨htemplates, hone⟩ := of_decide_eq_true hrun
      obtain ⟨hbodies, hslots, hnotes⟩ := frames_are_laid_out Sample.setup Sample.longer out hids h
      rw [hone] at hslots hnotes
      exact ⟨out, rfl, htemplates, hone, hbodies, (List.cons.inj hslots).1, hnotes⟩

end ScriptCheck

import ScriptCheck.Proofs.OutcomeRules

/-!
# Bodies and statements follow their outlines

A body starts in a frame without slots. Its parameters are given the first ones, its captures the next, and its declarations
the rest as they are met (`BodyRun`). Around the body nothing changes but what is noted about it. Statements then follow their
outlines, rule by rule, and with them every expression, block and body.
-/

namespace ScriptCheck

/-! ### A body in a frame of its own -/

/-- What a run through a body leaves behind, by the finished notes: it started from the state `s` around it with nothing but
these parameters and captures, and ended in its own frame in `w`. -/
structure BodyRun (fin : NodeMap) (params : List Nat) (captures : List CaptureInfo) (inner : Outline) (s w : State) :
    Prop where
  notes : s.NotesInScript → w.NotesInScript
  globals : w.globals = s.globals
  slots : params.map fin.slotOf ++ captures.map (fun c => some c.slot) ++ inner.locals.map fin.slotOf =
    (List.range w.frame.size).map some
  own : ∀ n ∈ inner.own, ∀ info, fin.info? n = some info → info.InFrame w.frame.size
  bodies : w.diagnostics = [] → ∃ ts, w.templates = s.templates ++ ts ∧
    BodiesLaidOut fin inner.bodies s.templates.length ts

/-- A template made from the frame in which a body ended lays the body out. -/
theorem BodyRun.laidOut {fin : NodeMap} {params : List Nat} {captures : List CaptureInfo} {inner : Outline} {s w : State}
    (h : BodyRun fin params captures inner s w) {b : BodyOutline} (hparams : b.params = params)
    (hlocals : b.locals = inner.locals) (hown : b.own = inner.own)
    (hcaptures : (b.closure? fin).toList.flatMap (·.captures) = captures) {k : Nat}
    (hposition : ∀ n, b.kind.node? = some n → ∃ c, b.closure? fin = some c ∧ c.template = k) (body : Option Nat) :
    b.LaidOut fin k ⟨b.kind, w.frame.size, w.frame.seqElem, w.frame.isThisCall, body⟩ where
  kind := rfl
  position := hposition
  slots := by
    rw [BodyOutline.slots, hparams, hlocals, ← h.slots, ← hcaptures, List.map_flatMap]
  own := hown ▸ h.own

namespace PendingCapture

theorem map_slot_numbered : ∀ (cs : List PendingCapture) (k : Nat), (numbered k cs).map (·.slot) = List.range' k cs.length
  | [], k => rfl
  | c :: cs, k => by rw [numbered, List.map_cons, map_slot_numbered cs, List.length_cons, List.range'_succ]

end PendingCapture

namespace Check

variable {α β : Type} {ctx : Context} {ids ids' : List Nat} {node : Node} {s s' : State} {o o' : Bool → Outline}
variable {inner : Outline} {fin : NodeMap} {params : List (Node × String)} {types : List Ty} {kind : TemplateKind}
  {info : ClosureInfo → NodeInfo}

/-- Giving parameters their slots notes slots of the frame and nothing else. -/
theorem declareParams_infos : ∀ {params : List (Node × String)} {types : List Ty} {s u : State} {a : Unit},
    declareParams params types s = .ok (a, u) → u.templates = s.templates ∧ ∀ n info, u.nodes.info? n = some info →
      s.nodes.info? n = some info ∨ ∃ slot, info = .varDecl (.localSlot slot)
  | [], types, s, u, a, h => by
    rw [declareParams.eq_def] at h
    obtain ⟨-, rfl⟩ := pure_eq_ok.1 h
    exact ⟨rfl, fun _ _ => .inl⟩
  | p :: ps, [], s, u, a, h => by
    rw [declareParams.eq_def] at h
    obtain ⟨-, rfl⟩ := pure_eq_ok.1 h
    exact ⟨rfl, fun _ _ => .inl⟩
  | (m, name) :: ps, ty :: tys, s, u, a, h => by
    simp only [declareParams, declareParam, bind_eq_ok, declareLocal_apply, noteInfo_apply, ok_inj] at h
    obtain ⟨_, _, ⟨_, _, ⟨rfl, rfl⟩, -, rfl⟩, h⟩ := h
    obtain ⟨htemplates, hinfos⟩ := declareParams_infos h
    refine ⟨htemplates, fun n info hi => (hinfos n info hi).elim (fun hold => ?_) .inr⟩
    rw [NodeMap.info?_setInfo] at hold
    split at hold
    · cases hold
      exact .inr ⟨_, rfl⟩
    · exact .inl hold

theorem range_append_range' (m n : Nat) : List.range m ++ List.range' m n = List.range (m + n) := by
  have h := @List.range'_append_1 0 m n
  rwa [Nat.zero_add, ← List.range_eq_range', ← List.range_eq_range'] at h

/-- The slots noted for the parameters of a body are the first of its frame. -/
theorem map_slotOf_params {u : State} {a : Unit}
    (h : declareParams params types s = .ok (a, u)) (hsize : s.frame.size = 0) (hlen : types.length = params.length)
    (hnodup : (params.map (·.1.id)).Nodup) (hfin : Agrees fin (params.map (·.1.id)) u) :
    (params.map (·.1.id)).map fin.slotOf = (List.range params.length).map some := by
  refine List.ext_getElem (by simp) fun i hi hi' => ?_
  have hparam : i < (params.map (·.1.id)).length := by simpa using hi
  have hnote := declareParams_notes h hnodup i (params.map (·.1.id))[i] (by rw [hlen]; simpa using hi)
    (List.getElem?_eq_getElem hparam)
  rw [hsize, Nat.zero_add] at hnote
  have hslot : fin.slotOf (params.map (·.1.id))[i] = some i := by
    rw [NodeMap.slotOf, hfin.info? (List.getElem_mem hparam), hnote]
  simpa using hslot

/-- A body that follows its outline leaves behind what the outline says. -/
theorem body_run {pending : List PendingCapture} {frame : Frame} {body : Check Unit} {u w : State} {a b : Unit}
    (hb : Follows ctx ids (fun _ => inner) body) (hkeep : Keeps (BodyEffect ids) body) (hempty : frame.locals = [])
    (hlen : types.length = params.length) (hp : declareParams params types (s.enter frame) = .ok (a, u))
    (hr : body { u with frame := u.frame.declareAll (pending.map fun c => (c.name, c.ty)) } = .ok (b, w))
    (hready : Ready (params.map (·.1.id) ++ ids) s) (hfin : Agrees fin (params.map (·.1.id) ++ ids) w) :
    BodyRun fin (params.map (·.1.id)) (PendingCapture.numbered u.frame.size pending) inner s w := by
  obtain ⟨hnodup, hnodup', hdisjoint⟩ := List.nodup_append.1 hready.nodup
  have hdisjoint : ∀ n ∈ params.map (·.1.id), n ∉ ids := fun n hn hn' => hdisjoint n hn n hn' rfl
  have hparams : StmtEffect (params.map (·.1.id)) (s.enter frame) u :=
    declareParams_effect params types (fun p hm => List.mem_map.2 ⟨p, hm, rfl⟩) hp
  have hframe : u.frame = frame.declareAll ((params.map (·.2)).zip types) := declareParams_frame hp
  have hsize : u.frame.size = params.length := by
    rw [hframe, Frame.size_declareAll]
    simp [Frame.size, hempty, hlen]
  obtain ⟨htemplates, hinfos⟩ := declareParams_infos hp
  -- The state in which the body itself starts.
  have hglobals : u.globals = s.globals := hparams.globals rfl
  have hinner : Ready ids { u with frame := u.frame.declareAll (pending.map fun c => (c.name, c.ty)) } := by
    refine ⟨hnodup', fun n hn info hi => ?_⟩
    have hsame := hparams.nodes n fun hm => hdisjoint n hm hn
    rw [NodeMap.info?, NodeMap.dataOf, hsame] at hi
    exact hready.fresh n (List.mem_append_right _ hn) info hi
  have hout := hb.outcome hr trivial hinner (hfin.subset (List.subset_append_right _ _))
  have heffect := hkeep hr
  have hfin' : Agrees fin (params.map (·.1.id)) u := fun n hn => by
    rw [hfin n (List.mem_append_left _ hn), heffect.nodes n (hdisjoint n hn)]
  refine ⟨fun hs => hout.notes fun n info hi => ?_, (heffect.globals hparams.globalScope).trans hglobals, ?_, hout.own,
    fun hw => ?_⟩
  · rcases hinfos n info hi with hold | ⟨slot, rfl⟩
    · rw [hglobals]
      exact hs n info hold
    · simp [NodeInfo.InScript, NodeInfo.places, Storage.InScript]
  · have hslots := map_slotOf_params hp (by simp [State.enter, Frame.size, hempty]) hlen hnodup hfin'
    have hcaptures : (PendingCapture.numbered u.frame.size pending).map (fun c => some c.slot) =
        (List.range' params.length pending.length).map some := by
      rw [← PendingCapture.map_slot_numbered, hsize, List.map_map]
      rfl
    have hlocals := hout.slots
    have hend := hout.size
    simp only [Frame.size_declareAll, List.length_map, hsize] at hlocals hend
    rw [hslots, hcaptures, hlocals, hend, ← List.map_append, ← List.map_append, range_append_range', range_append_range']
  · have hbodies := hout.bodies hw
    rwa [htemplates] at hbodies

/-! ### Lambdas and tasks -/

/-- What can be carried into a body: slots of the frame around it. -/
def Carriable (pending : List PendingCapture) (s : State) : Prop :=
  ∀ c ∈ pending, c.storage.isLocal = true ∧ c.storage.InFrame s.frame.size

/-- What is wired can be carried in, and where nothing is wired that is reported. -/
theorem wireCaptures_carriable : ∀ {needs : List CaptureNeed} {s s' : State} {r : Option (List PendingCapture)},
    wireCaptures ctx node needs s = .ok (r, s') →
      (r = none → s'.diagnostics ≠ []) ∧ ∀ pending, r = some pending → Carriable pending s'
  | [], s, s', r, h => by
    rw [wireCaptures] at h
    obtain ⟨rfl, rfl⟩ := pure_eq_ok.1 h
    exact ⟨by simp, by simp [Carriable]⟩
  | need :: needs, s, s', r, h => by
    rw [wireCaptures] at h
    obtain ⟨meaning, t, hlookup, hrun⟩ := bind_eq_ok.1 h
    obtain ⟨hmeaning, ht⟩ := lookup_eq_ok.1 hlookup
    rw [ht] at hrun
    have hfailed : (do report (.captureFailed need.name) node; let _ ← wireCaptures ctx node needs; return none) s =
        .ok (r, s') → (r = none → s'.diagnostics ≠ []) ∧ ∀ pending, r = some pending → Carriable pending s' := by
      intro h
      simp only [bind_eq_ok, report_apply, pure_eq_ok, ok_inj] at h
      obtain ⟨_, _, ⟨-, rfl⟩, _, u, hrest, rfl, rfl⟩ := h
      refine ⟨fun _ hnil => ?_, by simp⟩
      have hsilent := Keeps.silent (wireCaptures_notes node needs).looks hrest hnil
      simp at hsilent
    split at hrun
    · rename_i slot ty declared
      obtain ⟨rest, u, hrest, hrun⟩ := bind_eq_ok.1 hrun
      obtain ⟨rfl, rfl⟩ := pure_eq_ok.1 hrun
      obtain ⟨hnone, hsome⟩ := wireCaptures_carriable hrest
      obtain ⟨-, -, hframe, -⟩ := Context.lookup_var hmeaning
      refine ⟨fun hr => hnone (by simpa using hr), fun pending hp => ?_⟩
      obtain ⟨cs, rfl, rfl⟩ := Option.map_eq_some_iff.1 hp
      intro c hc
      rcases List.mem_cons.1 hc with rfl | hc
      · have hnotes : Notes NodeInfo.Free [] s u := wireCaptures_notes node needs hrest
        rw [hnotes.frame]
        exact ⟨rfl, hframe⟩
      · exact hsome cs rfl c hc
    · exact wireCaptures_carriable hrun
    · exact wireCaptures_carriable hrun
    · exact wireCaptures_carriable hrun
    · exact hfailed hrun
    · exact hfailed hrun

/-- A body that is not analysed, which has been reported. -/
theorem no_body_follows {x : Check α} {params : List Nat} (h : Keeps (Notes NodeInfo.IsType ids) x) (hn : node.id ∈ ids) :
    FollowsFrom (fun s => s.diagnostics ≠ []) ctx ids (fun _ => .closure kind node.id params inner) x where
  touches := h.weaken fun _ _ hn => hn.touches
  outcome := by
    intro fin s s' a hr hreported hready hfin
    have hnode : Outcome ctx fin (.node node.id) s s' :=
      (Follows.node (h.notes (fun _ hi => hi.free) (List.Subset.refl _)) hn).outcome hr trivial hready hfin
    exact { hnode with
      bodies := fun hnil => absurd ((h hr).touches.silent hnil) hreported }

/-- Nothing is noted, or only the type of a node. -/
inductive NotesType (node : Node) (s : State) : State → Prop where
  | nothing : NotesType node s s
  | type (ty : Ty) : NotesType node s (s.setType node ty)

theorem NotesType.notes (h : NotesType node s s') : Notes (fun _ => False) [node.id] s s' := by
  cases h with
  | nothing => exact Std.Refl.refl s
  | type ty => exact noteType_notes (List.mem_singleton_self _) ty (noteType_apply node ty s)

theorem NotesType.info? (h : NotesType node s s') (n : Nat) : s'.nodes.info? n = s.nodes.info? n := by
  cases h with
  | nothing => rfl
  | type ty => exact NodeMap.info?_setType _ _ _ _

theorem typed_notesType (ty : Ty) : Keeps (NotesType node) (typed node (pure ty)) := by
  intro s a s' h
  simp only [typed, bind_eq_ok, noteType_apply, pure_eq_ok, ok_inj] at h
  obtain ⟨_, _, ⟨rfl, rfl⟩, _, _, ⟨-, rfl⟩, -, rfl⟩ := h
  exact .type ty

/-- What is noted about a body is what it carries in and where its template is. -/
structure NotesClosure (info : ClosureInfo → NodeInfo) : Prop where
  closure : ∀ c, (info c).closure? = some c
  places : ∀ c, (info c).places = c.captures.map (·.storage)

theorem notesClosure_lambda : NotesClosure NodeInfo.lambda := ⟨fun _ => rfl, fun _ => rfl⟩

theorem notesClosure_task : NotesClosure NodeInfo.task := ⟨fun _ => rfl, fun _ => rfl⟩

/-- The note about a body that carries in slots of a frame speaks of those alone. -/
theorem NotesClosure.fits (h : NotesClosure info) {c : ClosureInfo} {size : Nat}
    (hc : ∀ x ∈ c.captures, x.storage.isLocal = true ∧ x.storage.InFrame size) :
    (info c).InFrame size ∧ ∀ size', (info c).InScript size' := by
  have hplaces : ∀ st ∈ (info c).places, st.isLocal = true ∧ st.InFrame size := by
    intro st hst
    rw [h.places] at hst
    obtain ⟨x, hx, rfl⟩ := List.mem_map.1 hst
    exact hc x hx
  refine ⟨⟨fun st hst => (hplaces st hst).2, fun c' hc' x hx => ?_⟩, fun size' st hst => ?_⟩
  · rw [h.closure] at hc'
    cases hc'
    exact (hc x hx).1
  · have hlocal := (hplaces st hst).1
    cases st with
    | localSlot slot => trivial
    | _ => cases hlocal

/-- Around a body that has been run, its template is added and noted, and nothing else has changed. -/
theorem closure_outcome {params : List Nat} {captures : List CaptureInfo} {w : State}
    {at? : Option Nat} (h : BodyRun fin params captures inner s w)
    (hkind : kind.node? = some node.id) (hinfo : NotesClosure info)
    (hcaptures : ∀ x ∈ captures, x.storage.isLocal = true ∧ x.storage.InFrame s.frame.size)
    (hnoted : fin.info? node.id = some (info ⟨captures, w.templates.length⟩))
    (hlast : NotesType node (((s.resume w).push kind w.frame at?).setInfo node (info ⟨captures, w.templates.length⟩)) s') :
    Outcome ctx fin (.closure kind node.id params inner) s s' := by
  have hnotes := hlast.notes
  have hglobals : s'.globals = s.globals := hnotes.globals.trans h.globals
  have hframe : s'.frame = s.frame := hnotes.frame
  have hfits := hinfo.fits (c := ⟨captures, w.templates.length⟩) hcaptures
  exact {
    notes := by
      intro hs n i hi
      rw [hlast.info?, State.setInfo, NodeMap.info?_setInfo] at hi
      rw [hglobals]
      split at hi
      · cases hi
        exact hfits.2 _
      · rw [← h.globals]
        exact h.notes hs n i hi
    locals := hframe ▸ List.prefix_refl _
    size := by
      rw [hframe]
      rfl
    slots := rfl
    globals := hglobals ▸ List.prefix_refl _
    globalSize := by
      rw [hglobals]
      rfl
    globalSlots := rfl
    own := by
      intro n hn i hi
      obtain rfl : n = node.id := by simpa [Outline.closure, Outline.node] using hn
      rw [hnoted] at hi
      cases hi
      rw [hframe]
      exact hfits.1
    overrides := by
      rw [hframe]
      exact (Table.filterKeys_of_forall fun _ _ => rfl).symm
    reads := by simp [Outline.closure, Outline.node, Outline.empty]
    bodies := by
      intro hnil
      obtain ⟨ts, hts, hall⟩ := h.bodies (hnotes.touches.silent hnil)
      have hclosure : BodyOutline.closure? fin ⟨kind, params, inner.locals, inner.own⟩ =
          some ⟨captures, w.templates.length⟩ := by
        simp [BodyOutline.closure?, hkind, hnoted, hinfo.closure]
      refine ⟨ts ++ [⟨kind, w.frame.size, w.frame.seqElem, w.frame.isThisCall, at?⟩], ?_, ?_⟩
      · rw [hnotes.templates]
        simp [State.setInfo, State.push, State.resume, hts]
      · refine hall.concat (h.laidOut rfl rfl rfl ?_ ?_ at?)
        · rw [hclosure]
          simp
        · intro n hn
          refine ⟨_, hclosure, ?_⟩
          rw [hts, List.length_append] }

/-- A body that is analysed: it is run in a frame of its own, and its template is noted. -/
theorem closure_follows {pending : List PendingCapture} {mode : ReturnMode}
    {body : Check Unit} {at? : Option Nat}
    {last : Frame → Check α} (hb : Follows ctx ids (fun _ => inner) body) (hkeep : Keeps (BodyEffect ids) body)
    (hlen : types.length = params.length) (hkind : kind.node? = some node.id) (hinfo : NotesClosure info)
    (hlast : ∀ f, Keeps (NotesType node) (last f)) :
    FollowsFrom (Carriable pending) ctx (params.map (·.1.id) ++ ids ++ [node.id])
      (fun _ => .closure kind node.id (params.map (·.1.id)) inner)
      (closure params types pending mode body >>= fun r => pushTemplate kind r.2 at? >>= fun position =>
        noteInfo node (info ⟨r.1, position⟩) >>= fun _ => last r.2) where
  touches := by
    have hnode : node.id ∈ params.map (·.1.id) ++ ids ++ [node.id] := by simp
    have hparams : ∀ p ∈ params, p.1.id ∈ params.map (·.1.id) ++ ids ++ [node.id] := fun p hm =>
      List.mem_append_left _ (List.mem_append_left _ (List.mem_map.2 ⟨p, hm, rfl⟩))
    refine ((closure_effect hparams (hkeep.weaken fun _ _ h => h.mono (by simp))).bind fun r =>
      (pushTemplate_effect _ _ _).bind fun position => (noteInfo_effect hnode _).bind fun _ => ?_).weaken
        fun _ _ h => h.toTouches
    exact (hlast _).weaken fun _ _ h => h.notes.exprEffect.mono (by simp)
  outcome := by
    intro fin s s' a hr hcarriable hready hfin
    obtain ⟨⟨captures, frame⟩, t, hclosure, hr⟩ := bind_eq_ok.1 hr
    simp only [bind_eq_ok, pushTemplate_apply, noteInfo_apply, ok_inj] at hr
    obtain ⟨_, _, ⟨rfl, rfl⟩, _, _, ⟨-, rfl⟩, hr⟩ := hr
    obtain ⟨_, hrun, rfl, rfl⟩ := inFrame_eq_ok.1 hclosure
    simp only [bind_eq_ok, declareCaptures_apply, pure_eq_ok, ok_inj] at hrun
    obtain ⟨_, u, hp, _, _, ⟨rfl, rfl⟩, _, w, hbody, rfl, rfl⟩ := hrun
    have hlast := hlast _ hr
    have hlater : ∀ n ∈ params.map (·.1.id) ++ ids, n ≠ node.id := fun n hn =>
      (List.nodup_append.1 hready.nodup).2.2 n hn node.id (by simp)
    have hfin' : Agrees fin (params.map (·.1.id) ++ ids) w := by
      intro n hn
      rw [hfin n (List.mem_append_left _ hn), hlast.notes.nodes n (by simpa using hlater n hn)]
      simp [NodeMap.setInfo, (hlater n hn).symm]
    have hrun := body_run hb hkeep rfl hlen hp hbody
      (hready.subperm (List.sublist_append_left _ _).subperm) hfin'
    refine closure_outcome hrun hkind hinfo ?_ ?_ hlast
    · exact fun x hx => hcarriable _ (PendingCapture.of_mem_numbered hx)
    · rw [hfin.info? (by simp), hlast.info?]
      simp

/-- What is done once it is known what a body can carry in. -/
theorem wireCaptures_bind {needs : List CaptureNeed} {f : Option (List PendingCapture) → Check α}
    (hnone : FollowsFrom (fun s => s.diagnostics ≠ []) ctx ids o (f none))
    (hsome : ∀ pending, FollowsFrom (Carriable pending) ctx ids o (f (some pending))) :
    Follows ctx ids o (wireCaptures ctx node needs >>= f) := by
  have hwire : Follows ctx [] (fun _ => .empty) (wireCaptures ctx node needs) :=
    Follows.nothing (wireCaptures_notes _ _) (List.Sublist.refl _)
  have h : Follows ctx ([] ++ ids) (fun g => Outline.seq .empty (o g)) (wireCaptures ctx node needs >>= f) := by
    refine FollowsFrom.bind hwire (fun _ hr => wireCaptures_carriable hr) fun r _ => ?_
    cases r with
    | none => exact hnone.weaken fun _ h => h.1 rfl
    | some pending => exact (hsome pending).weaken fun _ h => h.2 pending rfl
  simpa only [Outline.empty_seq, List.nil_append] using h

theorem lambda_follows {params : List LambdaParam} {ret : Option TypeExpr} {body : Body} {expected : Option Ty}
    {analyse : Option Ty → Check Unit} (hb : ∀ declared, Follows ctx ids (fun _ => inner) (analyse declared))
    (hkeep : ∀ declared, Keeps (BodyEffect ids) (analyse declared)) :
    Follows ctx (node.id :: (LambdaParam.idsOfList params ++ (TypeExpr.idsOfOption ret ++ ids)))
      (fun _ => .closure (.lambda node.id) node.id (params.map (·.node.id)) inner)
      (typed node (lambda ctx node params ret body expected analyse)) := by
  suffices h : Follows ctx (LambdaParam.typeIds params ++ (TypeExpr.idsOfOption ret ++
      (params.map (·.node.id) ++ ids ++ [node.id]))) (fun _ => .closure (.lambda node.id) node.id (params.map (·.node.id)) inner)
      (typed node (lambda ctx node params ret body expected analyse)) by
    refine h.subperm (List.Perm.subperm ?_)
    rw [List.perm_iff_count]
    intro n
    have hcount := (LambdaParam.idsOfList_perm params).count_eq n
    simp only [List.count_append, List.count_cons, List.count_nil] at hcount ⊢
    omega
  simp only [typed, lambda, bind_assoc]
  refine Follows.afterNotes ((lambdaParams_notes _ _).notes (fun _ h => h.free) (List.Subset.refl _)) fun types htypes => ?_
  refine Follows.afterNotes ((declaredResult_notes ret).notes (fun _ h => h.free) (List.Subset.refl _)) fun declared _ => ?_
  obtain ⟨_, _, htypes⟩ := htypes
  have hlen := lambdaParams_length htypes
  refine wireCaptures_bind ?_ fun pending => ?_
  · exact no_body_follows (typed_notes (by simp) (.pure _)) (by simp)
  · have hnodes : params.map (·.node.id) = (params.map fun p => (p.node, p.name)).map (·.1.id) := by simp
    simp only [bind_assoc, hnodes]
    have hlen' : types.length = (params.map fun p => (p.node, p.name)).length := by simpa using hlen
    have hkind : (TemplateKind.lambda node.id).node? = some node.id := rfl
    exact closure_follows (hb declared) (hkeep declared) hlen' hkind notesClosure_lambda fun f : Frame =>
      typed_notesType (.func (lambdaResult declared f.ret) types)

theorem task_follows {block : Block} {analyse : Check Unit} (hb : Follows ctx ids (fun _ => inner) analyse)
    (hkeep : Keeps (BodyEffect ids) analyse) :
    Follows ctx (node.id :: ids) (fun _ => .closure (.task node.id) node.id [] inner) (task ctx node block analyse) := by
  refine FollowsFrom.node_first (wireCaptures_bind ?_ fun pending => ?_)
  · exact no_body_follows (.pure _) (by simp)
  · have hlast : ∀ _ : Frame, Keeps (NotesType node) (pure () : Check Unit) := by
      intro _ s a s' h
      obtain ⟨-, rfl⟩ := pure_eq_ok.1 h
      exact .nothing
    have hlen : ([] : List Ty).length = ([] : List (Node × String)).length := rfl
    have hkind : (TemplateKind.task node.id).node? = some node.id := rfl
    exact closure_follows hb hkeep hlen hkind notesClosure_task hlast

end Check

/-! ### Scopes -/

/-- A use of a name inside a scope and the same use seen from around it: what is known at the start of the scope about a place
that no test around the name narrows is what was known around it. -/
def Read.SeenFrom (fin : NodeMap) (f g : Frame) (inner outer : Read) : Prop :=
  outer.node = inner.node ∧ outer.before = inner.before ∧
    ∀ st, (∀ c ∈ outer.guards, ∀ ty, narrowingOf fin c ≠ some (st, ty)) →
      (∀ c ∈ inner.guards, ∀ ty, narrowingOf fin c ≠ some (st, ty)) ∧ f.overrides.find? st = g.overrides.find? st

/-- A scope that starts with what is known around it, and perhaps more, leaves behind what its outline says. -/
theorem Outcome.leave {ctx : Context} {fin : NodeMap} {o o' : Outline} {s s₁ t : State} (h : Outcome ctx fin o s₁ t)
    (hnodes : s₁.nodes = s.nodes) (hlocals : s₁.frame.locals = s.frame.locals) (hglobals : s₁.globals = s.globals)
    (htemplates : s₁.templates = s.templates) (hkeys : ∀ st ∈ s.frame.overrides.keys, s₁.frame.overrides.contains st = true)
    (ho : o' = { o with reads := o'.reads }) (hreads : ∀ r ∈ o'.reads, ∃ r₀ ∈ o.reads, r₀.SeenFrom fin s₁.frame s.frame r) :
    Outcome ctx fin o' s (s.leave t) := by
  have hsize : s₁.frame.size = s.frame.size := by rw [Frame.size, hlocals, Frame.size]
  rw [ho]
  exact {
    notes := by
      intro hs
      refine h.notes fun n info hi => ?_
      rw [hglobals]
      exact hs n info (hnodes ▸ hi)
    locals := hlocals ▸ h.locals
    size := hsize ▸ h.size
    slots := hsize ▸ h.slots
    globals := hglobals ▸ h.globals
    globalSize := hglobals ▸ h.globalSize
    globalSlots := hglobals ▸ h.globalSlots
    own := h.own
    overrides := by
      refine Table.filterKeys_congr fun st hst => ?_
      have hold := hkeys st hst
      simp only [Table.contains] at hold ⊢
      rw [h.overrides, Table.find?_filterKeys]
      cases fin.writes o.writes st <;> simp [hold]
    reads := by
      intro r hr st hst hguards
      obtain ⟨r₀, hr₀, hnode, hbefore, hknown⟩ := hreads r hr
      obtain ⟨hguards₀, hfind⟩ := hknown st hguards
      obtain ⟨declared, hdecl, hty⟩ := h.reads r₀ hr₀ st (hnode ▸ hst) hguards₀
      refine ⟨declared, hdecl.mono (List.prefix_refl _) (List.prefix_refl _), ?_⟩
      rw [hnode, hbefore, hty, Frame.readType, Frame.readType, hfind]
    bodies := htemplates ▸ h.bodies }

/-- A condition narrows by what is noted for its own nodes. -/
theorem Agrees.narrowingOf_eq {fin : NodeMap} {ids : List Nat} {s : State} {cond : Expr} (h : Agrees fin ids s)
    (hsub : cond.ids ⊆ ids) : narrowingOf fin cond = narrowingOf s.nodes cond := by
  cases cond with
  | isTest node value ty =>
    have hnode : node.id ∈ ids := hsub (by simp [Expr.ids])
    have hvalue : value.node.id ∈ ids := hsub (by simp [Expr.ids, value.node_mem_ids])
    simp only [narrowingOf, h.info? hnode, h.info? hvalue]
  | _ => rfl

namespace Check

variable {α β : Type} {ctx : Context} {ids ids' : List Nat} {node : Node} {s s' : State} {o o' : Bool → Outline}
  {pre : State → Prop}
variable {fin : NodeMap} {x : Check α} {value : Check Ty} {name : String} {analyse : Option Ty → Check Ty}

/-- The part stands in a block or in a body with a frame of its own. -/
abbrev Nested (s : State) : Prop := s.globalScope = false

theorem inBlock_follows (hx : FollowsFrom Nested ctx ids o x) : Follows ctx ids (fun _ => o false) (inBlock x) where
  touches := by
    intro s a s' h
    obtain ⟨t, hr, rfl⟩ := inBlock_eq_ok.1 h
    have ht := hx.touches hr
    exact ⟨ht.diagnostics, ht.templates, ht.nodes, rfl⟩
  outcome := by
    intro fin s s' a h _ hready hfin
    obtain ⟨t, hr, rfl⟩ := inBlock_eq_ok.1 h
    have hinner : Ready ids { s with globalScope := false } :=
      ⟨hready.nodup, hready.fresh⟩
    have hout := hx.outcome hr rfl hinner hfin
    exact hout.leave rfl rfl rfl rfl (fun _ => Table.contains_of_mem_keys) rfl
      fun r hr => ⟨r, hr, rfl, rfl, fun _ hguards => ⟨hguards, rfl⟩⟩

/-- A change to the frame that no outline is about. -/
theorem modifyFrame_follows {f : Frame → Frame} (hlocals : ∀ frame, (f frame).locals = frame.locals)
    (hoverrides : ∀ frame, (f frame).overrides = frame.overrides) : Follows ctx [] (fun _ => .empty) (modifyFrame f) where
  touches := by
    intro s a s' h
    cases h
    exact ⟨List.prefix_refl _, List.prefix_refl _, fun _ _ => rfl, rfl⟩
  outcome := by
    intro fin s s' a h _ hready _
    cases h
    exact .unchanged rfl (hlocals _) (hoverrides _) rfl rfl

theorem get_follows {f : State → Check α} (hf : ∀ s, FollowsFrom pre ctx ids o (f s)) :
    FollowsFrom pre ctx ids o (get >>= f) where
  touches := by
    intro s a s' h
    obtain ⟨_, _, h₁, h₂⟩ := bind_eq_ok.1 h
    cases h₁
    exact (hf _).touches h₂
  outcome := by
    intro fin s s' a h hpre hready hfin
    obtain ⟨_, _, h₁, h₂⟩ := bind_eq_ok.1 h
    cases h₁
    exact (hf _).outcome h₂ hpre hready hfin

/-! ### Statements -/

theorem condition_follows (hv : Follows ctx ids o value) : Follows ctx ids o (condition node value) := by
  refine hv.andReports fun ty => ?_
  split
  · exact report_notes rfl _
  · exact .pure _

@[simp] theorem narrowedBy_locals (nodes : NodeMap) (cond : Expr) (f : Frame) : (narrowedBy nodes cond f).locals = f.locals := by
  unfold narrowedBy
  split <;> rfl

/-- What is known at the start of the branches about a place: what the condition has shown, or else what was known before. -/
theorem narrowedBy_find? (nodes : NodeMap) (cond : Expr) (f : Frame) (st : Storage) :
    (narrowedBy nodes cond f).overrides.find? st =
      match narrowingOf nodes cond with
      | some (st', ty) => if st' = st then some ty else f.overrides.find? st
      | none => f.overrides.find? st := by
  unfold narrowedBy
  cases narrowingOf nodes cond with
  | none => rfl
  | some p => simp [Frame.narrow]

/-- A run of an `if`, part by part: the outcome of the branches is that of a run from what the condition has shown. -/
theorem ifThen_outcome {cond : Expr} {branches : Check Unit} {a : Unit}
    (hv : Follows ctx ids o value) (hb : Follows ctx ids' o' branches) (hcond : cond.ids ⊆ ids)
    (hr : ifThen cond value branches s = .ok (a, s')) (hready : Ready (ids ++ ids') s) (hfin : Agrees fin (ids ++ ids') s') :
    ∃ u v, condition cond.node value s = .ok ((), u) ∧ Outcome ctx fin (o s.globalScope) s u ∧ s' = u.leave v ∧
      Touches ids' u s' ∧
      narrowingOf fin cond = narrowingOf u.nodes cond ∧
      Outcome ctx fin (o' s.globalScope) { u with frame := narrowedBy u.nodes cond u.frame } v := by
  obtain ⟨u, v, hvalue, hbranches, rfl⟩ := ifThen_run hr
  have hc : Follows ctx ids o (condition cond.node value) := condition_follows hv
  have htouch := hb.touches hbranches
  have hleave : Touches ids' u (u.leave v) := ⟨htouch.diagnostics, htouch.templates, htouch.nodes, rfl⟩
  have hdisjoint : ∀ n ∈ ids, n ∉ ids' := fun n hn hn' => (List.nodup_append.1 hready.nodup).2.2 n hn n hn' rfl
  have hfirst := hfin.back hleave (List.subset_append_left _ _) hdisjoint
  have hu := hc.outcome hvalue trivial (hready.subperm (List.sublist_append_left _ _).subperm) hfirst
  have hlater := hready.later (hc.touches hvalue)
  have hnarrowed : Ready ids' { u with frame := narrowedBy u.nodes cond u.frame } :=
    ⟨hlater.nodup, hlater.fresh⟩
  refine ⟨u, v, hvalue, hu, rfl, hleave, hfirst.narrowingOf_eq hcond, ?_⟩
  rw [← (hc.touches hvalue).globalScope]
  exact hb.outcome hbranches trivial hnarrowed (hfin.subset (List.subset_append_right _ _))

theorem ifThen_follows {cond : Expr} {branches : Check Unit} (hv : Follows ctx ids o value)
    (hb : Follows ctx ids' o' branches) (hcond : cond.ids ⊆ ids) :
    Follows ctx (ids ++ ids') (fun g => (o g).seq ((o' g).under cond)) (ifThen cond value branches) where
  touches := by
    intro s a s' hr
    obtain ⟨u, v, hvalue, hbranches, rfl⟩ := ifThen_run hr
    have htouch := hb.touches hbranches
    have hleave : Touches ids' u (u.leave v) := ⟨htouch.diagnostics, htouch.templates, htouch.nodes, rfl⟩
    exact ((condition_follows hv).touches hvalue).append hleave
  outcome := by
    intro fin s s' a hr _ hready hfin
    obtain ⟨u, v, -, hu, rfl, htouch, hnarrowing, hout⟩ := ifThen_outcome hv hb hcond hr hready hfin
    refine hu.seq (hout.leave rfl (by simp) rfl rfl ?_ rfl ?_) htouch.diagnostics
    · intro st hst
      have hold := Table.contains_of_mem_keys hst
      simp only [Table.contains] at hold ⊢
      rw [narrowedBy_find?]
      cases narrowingOf u.nodes cond with
      | none => exact hold
      | some p =>
        dsimp only
        split
        · rfl
        · exact hold
    · intro r hr
      obtain ⟨r₀, hr₀, rfl⟩ := List.mem_map.1 hr
      refine ⟨r₀, hr₀, rfl, rfl, fun st hguards => ⟨fun c hc => hguards c (List.mem_cons_of_mem _ hc), ?_⟩⟩
      have hother := hguards cond List.mem_cons_self
      rw [hnarrowing] at hother
      rw [narrowedBy_find?]
      cases hn : narrowingOf u.nodes cond with
      | none => rfl
      | some p =>
        obtain ⟨st', ty⟩ := p
        have hne : st' ≠ st := by
          rintro rfl
          exact hother ty hn
        simp [hne]

/-- A step, and a change to the frame that no outline is about. -/
theorem Follows.andFrame {f : Frame → Frame} (hx : Follows ctx ids o x)
    (hlocals : ∀ frame, (f frame).locals = frame.locals) (hoverrides : ∀ frame, (f frame).overrides = frame.overrides) :
    Follows ctx ids o (x >>= fun _ => modifyFrame f) := by
  have h : Follows ctx (ids ++ []) (fun g => (o g).seq .empty) (x >>= fun _ => modifyFrame f) :=
    hx.bind fun _ => modifyFrame_follows hlocals hoverrides
  simpa only [Outline.seq_empty, List.append_nil] using h

theorem whileDo_follows {cond : Node} {body : Check Unit} (hv : Follows ctx ids o value)
    (hb : FollowsFrom Nested ctx ids' o' body) :
    Follows ctx (ids ++ ids') (fun g => (o g).seq (o' false)) (whileDo cond value body) := by
  have hcond : Follows ctx ids o (condition cond value >>= fun _ =>
      modifyFrame fun f => { f with loopDepth := f.loopDepth + 1 }) :=
    (condition_follows hv).andFrame (fun _ => rfl) fun _ => rfl
  have hbody : Follows ctx ids' (fun _ => o' false) (inBlock body >>= fun _ =>
      modifyFrame fun f => { f with loopDepth := f.loopDepth - 1 }) :=
    (inBlock_follows hb).andFrame (fun _ => rfl) fun _ => rfl
  simpa only [whileDo, bind_assoc] using hcond.bind fun _ => hbody

theorem declaredType_follows {ty : TypeExpr} {init : Option Initial} {value : Outline}
    (hi : ∀ i ∈ init, ∀ hint, Follows ctx ids (fun _ => value) (i.analyse hint)) (hnone : init = none → value = .empty) :
    Follows ctx (ty.ids ++ ids) (fun _ => value) (declaredType ctx node ty name init) := by
  unfold declaredType
  split
  · rename_i tyNode init
    have hnotes : ∀ found, Keeps (Notes NodeInfo.Free [tyNode.id])
        (noteInfo tyNode (.type found) >>= fun _ => (pure found : Check Ty)) := fun found =>
      (noteInfo_notes (List.mem_singleton_self _) ⟨by simp [NodeInfo.places], rfl⟩).bind fun _ => .pure _
    exact ((hi init rfl none).andNotes hnotes).node_first
  · rename_i tyNode
    rw [hnone rfl]
    have hnotes : Keeps (Notes NodeInfo.IsType [tyNode.id]) (resolved tyNode (reject (.cannotInferVarType name) node)) :=
      resolved_notes (List.mem_singleton_self _) (reject_notes rfl _)
    exact Follows.nothing (hnotes.notes (fun _ h => h.free) (List.Subset.refl _)) (List.sublist_append_left _ _)
  · rename_i init _
    refine Follows.afterNotes ((typeExpr_notes ctx ty).notes (fun _ h => h.free) (List.Subset.refl _)) fun declared _ => ?_
    exact (hi init rfl _).andReports fun found => (checkAssignable_notes _ _ _).bind fun _ => .pure _
  · rw [hnone rfl]
    exact Follows.nothing ((typeExpr_notes ctx ty).notes (fun _ h => h.free) (List.Subset.refl _))
      (List.sublist_append_left _ _)

/-- A declaration directly in the script's body gets the next slot of the script. -/
theorem declareGlobal_outcome {n : Nat} (name : String) (ty : Ty)
    (hnoted : fin.info? n = some (.varDecl (.privateGlobal s.globals.size))) :
    Outcome ctx fin (.declare true n) s { s with
      globals := s.globals.declare name ty
      nodes := s.nodes.setInfo n (.varDecl (.privateGlobal s.globals.size)) } where
  notes := by
    intro hs k info hi
    simp only [NodeMap.info?_setInfo] at hi
    split at hi
    · cases hi
      simp [NodeInfo.InScript, NodeInfo.places, Storage.InScript, PrivateGlobals.declare, PrivateGlobals.size]
    · exact (hs k info hi).mono (by simp [PrivateGlobals.declare, PrivateGlobals.size])
  locals := List.prefix_refl _
  size := rfl
  slots := rfl
  globals := List.prefix_append _ _
  globalSize := by simp [PrivateGlobals.declare, PrivateGlobals.size, Outline.declare]
  globalSlots := by simp [Outline.declare, NodeMap.globalSlotOf, hnoted]
  own := by
    intro k hk info hi
    obtain rfl : k = n := by simpa [Outline.declare, Outline.node] using hk
    rw [hnoted] at hi
    cases hi
    exact ⟨by simp [NodeInfo.places, Storage.InFrame], by simp [NodeInfo.closure?]⟩
  overrides := (Table.filterKeys_of_forall fun _ _ => rfl).symm
  reads := by simp [Outline.declare, Outline.node, Outline.empty]
  bodies := fun _ => ⟨[], by simp, .nil⟩

/-- A declaration anywhere else gets the next slot of the frame. -/
theorem declareLocal_outcome {n : Nat} (name : String) (ty : Ty)
    (hnoted : fin.info? n = some (.varDecl (.localSlot s.frame.size))) :
    Outcome ctx fin (.declare false n) s { s with
      frame := s.frame.declare name ty
      nodes := s.nodes.setInfo n (.varDecl (.localSlot s.frame.size)) } where
  notes := by
    intro hs k info hi
    simp only [NodeMap.info?_setInfo] at hi
    split at hi
    · cases hi
      simp [NodeInfo.InScript, NodeInfo.places, Storage.InScript]
    · exact hs k info hi
  locals := List.prefix_append _ _
  size := by simp [Outline.declare]
  slots := by simp [Outline.declare, NodeMap.slotOf, hnoted]
  globals := List.prefix_refl _
  globalSize := rfl
  globalSlots := rfl
  own := by
    intro k hk info hi
    obtain rfl : k = n := by simpa [Outline.declare, Outline.node] using hk
    rw [hnoted] at hi
    cases hi
    exact ⟨by simp [NodeInfo.places, Storage.InFrame], by simp [NodeInfo.closure?]⟩
  overrides := (Table.filterKeys_of_forall fun _ _ => rfl).symm
  reads := by simp [Outline.declare, Outline.node, Outline.empty]
  bodies := fun _ => ⟨[], by simp, .nil⟩

theorem declareVar_follows {ty : Ty} :
    Follows ctx [node.id] (fun g => .declare g node.id) (declareVar name ty >>= fun st => noteInfo node (.varDecl st)) where
  touches := by
    have hnode := List.mem_singleton_self node.id
    exact ((declareVar_effect name ty).bind fun st => (noteInfo_effect hnode (.varDecl st)).toStmt).weaken
      fun _ _ h => h.toTouches
  outcome := by
    intro fin s s' a hr _ hready hfin
    simp only [bind_eq_ok, declareVar_apply, noteInfo_apply, ok_inj] at hr
    obtain ⟨_, _, ⟨rfl, rfl⟩, -, rfl⟩ := hr
    have hnoted : fin.info? node.id = some (.varDecl s.nextPlace) := by simp [hfin.info? (List.mem_singleton_self _)]
    cases hg : s.globalScope with
    | true =>
      simp only [State.nextPlace, State.declareVar, hg, if_true] at hnoted ⊢
      have h : Outcome ctx fin _ s _ := declareGlobal_outcome name ty hnoted
      rwa [hg] at h
    | false =>
      simp only [State.nextPlace, State.declareVar, hg, Bool.false_eq_true, if_false] at hnoted ⊢
      have h : Outcome ctx fin _ s _ := declareLocal_outcome name ty hnoted
      rwa [hg] at h

theorem varDecl_follows {ty : TypeExpr} {init : Option Initial} {value : Outline}
    (hi : ∀ i ∈ init, ∀ hint, Follows ctx ids (fun _ => value) (i.analyse hint)) (hnone : init = none → value = .empty) :
    Follows ctx (node.id :: (ty.ids ++ ids)) (fun g => value.seq (.declare g node.id)) (varDecl ctx node ty name init) :=
  FollowsFrom.node_first ((declaredType_follows hi hnone).bind fun _ => declareVar_follows)

/-- What a step gives settles what the lambda around it returns. -/
theorem settleResult_follows {x : Check Ty} (hx : Follows ctx ids o x) :
    Follows ctx ids o (x >>= fun found => modifyFrame fun f => { f with ret := .inferred (some found) }) := by
  have h : Follows ctx (ids ++ []) (fun g => (o g).seq .empty)
      (x >>= fun found => modifyFrame fun f => { f with ret := .inferred (some found) }) :=
    hx.bind fun _ => modifyFrame_follows (fun _ => rfl) fun _ => rfl
  simpa only [Outline.seq_empty, List.append_nil] using h

theorem exprBody_follows {declared : Option Ty}
    (ha : ∀ hint, Follows ctx ids o (analyse hint)) : Follows ctx ids o (exprBody ctx declared node analyse) := by
  unfold exprBody
  split
  · exact (ha none).andReports fun _ => .pure _
  · exact (valued_follows (ha _)).andReports fun _ => (checkAssignable_notes _ _ _).bind fun _ => .pure _
  · exact settleResult_follows (ha none)

theorem returnNothing_follows : Follows ctx ids (fun _ => .empty) (returnNothing ctx node) := by
  refine get_follows fun s => ?_
  dsimp only
  split
  · exact Follows.nothing (.pure _) (List.nil_sublist _)
  · split
    · exact Follows.nothing (report_notes rfl _) (List.nil_sublist _)
    · exact Follows.nothing (.pure _) (List.nil_sublist _)
  · exact FollowsFrom.sublist (modifyFrame_follows (fun _ => rfl) fun _ => rfl) (List.nil_sublist _)
  · exact Follows.nothing ((checkAssignable_notes _ _ _).bind fun _ => .pure _) (List.nil_sublist _)

/-- Whatever a report says, no outline is about it. -/
theorem report_follows (problem : Problem) : Follows ctx [] (fun _ => .empty) (report problem node) where
  touches := (report_effect problem node).weaken fun _ _ h => h.toTouches
  outcome := by
    intro fin s s' a h _ _ _
    cases h
    exact .unchanged rfl rfl rfl rfl rfl

theorem Follows.andReport (hx : Follows ctx ids o x) (problem : Problem) :
    Follows ctx ids o (x >>= fun _ => report problem node) := by
  simpa only [List.append_nil, Outline.seq_empty] using hx.bind fun _ => report_follows problem

theorem returnValue_follows (ha : ∀ hint, Follows ctx ids o (analyse hint)) :
    Follows ctx ids o (returnValue ctx node analyse) := by
  refine get_follows fun s => ?_
  dsimp only
  split
  · exact (valued_follows (ha none)).andReport _
  · split
    · refine (ha none).andReports fun found => ?_
      split
      · exact report_notes rfl _
      · exact .pure _
    · exact (valued_follows (ha _)).andReports fun _ => (checkAssignable_notes _ _ _).bind fun _ => .pure _
  · exact settleResult_follows (ha none)
  · exact (ha _).andReports fun _ => (checkAssignable_notes _ _ _).bind fun _ => .pure _

theorem yields_follows {valueNode : Node} (ha : ∀ hint, Follows ctx ids o (analyse hint)) :
    Follows ctx ids o (yields ctx node valueNode analyse) := by
  refine get_follows fun s => ?_
  split
  · exact (valued_follows (ha none)).andReport _
  · exact (valued_follows (ha _)).andReports fun _ => (checkAssignable_notes _ _ _).bind fun _ => .pure _

theorem inLoop_follows {problem : Problem} : Follows ctx ids (fun _ => .empty) (inLoop problem node) := by
  refine get_follows fun s => ?_
  split
  · exact (report_follows problem).sublist (List.nil_sublist _)
  · exact Follows.nothing (.pure _) (List.nil_sublist _)

/-! ### The walk through a body -/

/-- A statement of a block. -/
theorem Follows.nested {ctx : Context} {s : Stmt} (h : Follows ctx s.ids (fun g => s.outline g) (stmt ctx s)) :
    FollowsFrom Nested ctx s.ids (fun _ => s.outline false) (stmt ctx s) where
  touches := h.touches
  outcome hr hn hready hfin := hn ▸ h.outcome hr trivial hready hfin

mutual

/-- Every run through an expression makes of its outline what the finished notes say. -/
theorem expr_follows (ctx : Context) : ∀ (e : Expr) (hint : Option Ty),
    Follows ctx e.ids (fun _ => e.outline) (expr ctx e hint)
  | .identifier node name typeArgs, hint => by
    rw [expr, Expr.ids, Expr.outline]
    exact identifier_follows
  | .intLit node value, hint => by
    rw [expr, Expr.ids, Expr.outline]
    exact .node (typed_notes (by simp) (.pure _)) (by simp)
  | .boolLit node value, hint => by
    rw [expr, Expr.ids, Expr.outline]
    exact .node (typed_notes (by simp) (.pure _)) (by simp)
  | .strLit node value, hint => by
    rw [expr, Expr.ids, Expr.outline]
    exact .node (typed_notes (by simp) (.pure _)) (by simp)
  | .binary node op left right, hint => by
    rw [expr, Expr.ids, Expr.outline]
    exact (binary_follows (valued_follows (expr_follows ctx left none))
      (valued_follows (expr_follows ctx right none))).node_first₂
  | .unary node op operand, hint => by
    have ho := expr_follows ctx operand none
    rw [expr, Expr.ids, Expr.outline]
    cases op with
    | step op before => exact (step_follows (target_follows ctx operand _ ho) target_within).node_first
    | neg => exact (plainUnary_follows (valued_follows ho)).node_first
    | not => exact (plainUnary_follows (valued_follows ho)).node_first
  | .assign node left value, hint => by
    rw [expr, Expr.ids, Expr.outline]
    exact (assign_follows (target_follows ctx left _ (expr_follows ctx left none)) target_within
      (fun hint => valued_follows (expr_follows ctx value hint))
      fun hint => valued_gathers (expr_effect ctx value hint)).node_first₂
  | .call node callee args, hint => by
    rw [expr, Expr.ids, Expr.outline]
    exact call_follows ctx node callee _ (expr_follows ctx callee none) fun hints => exprs_follows ctx args hints
  | .lambda node params ret body, hint => by
    rw [expr, Expr.ids, Expr.outline]
    exact lambda_follows (fun declared => lambdaBody_follows ctx body declared)
      fun declared => lambdaBody_effect ctx body declared
  | .member node object name typeArgs, hint => by
    rw [expr, Expr.ids, Expr.outline]
    exact (memberValue_follows (receiver_follows (expr_follows ctx object none))).node_first
  | .index node object index, hint => by
    rw [expr, Expr.ids, Expr.outline]
    exact (elementValue_follows (valued_follows (expr_follows ctx object none))
      (valued_follows (expr_follows ctx index none))).node_first₂
  | .isTest node value ty, hint => by
    rw [expr, Expr.ids, Expr.outline]
    exact (isTest_follows (valued_follows (expr_follows ctx value none))).node_first₂

theorem exprs_follows (ctx : Context) : ∀ (es : List Expr) (hints : List (Option Ty)),
    Follows ctx (Expr.idsOfList es) (fun _ => Expr.outlineOfList es) (exprs ctx es hints)
  | [], hints => by
    rw [exprs, Expr.outlineOfList]
    exact .nothing (.pure _) (List.nil_sublist _)
  | e :: es, hints => by
    rw [exprs, Expr.idsOfList, Expr.outlineOfList]
    exact (valued_follows (expr_follows ctx e _)).bind fun _ => (exprs_follows ctx es _).andReports fun _ => .pure _

theorem target_follows (ctx : Context) (e : Expr) (asValue : Check Ty) (h : Follows ctx e.ids (fun _ => e.outline) asValue) :
    Follows ctx e.ids (fun _ => e.outline) (target ctx e asValue) := by
  cases e with
  | identifier node name typeArgs =>
    rw [target, Expr.ids, Expr.outline]
    exact identifierTarget_follows
  | member node object name typeArgs =>
    rw [target, Expr.ids, Expr.outline]
    exact (memberTarget_follows (receiver_follows (expr_follows ctx object none))).node_first
  | index node object index =>
    rw [target, Expr.ids, Expr.outline]
    exact (elementTarget_follows (valued_follows (expr_follows ctx object none))
      (valued_follows (expr_follows ctx index none))).node_first₂
  | _ =>
    rw [target_of_not_place rfl]
    exact h.andReports fun _ => notAssignable_notes _

/-- A call, by what stands before its arguments. -/
theorem call_follows (ctx : Context) (node : Node) (callee : Expr) (asValue : Check Ty)
    (h : Follows ctx callee.ids (fun _ => callee.outline) asValue) {argNodes : List Node} {args : Outline} {ids : List Nat}
    {analyse : List (Option Ty) → Check (List Ty)} (ha : ∀ hints, Follows ctx ids (fun _ => args) (analyse hints)) :
    Follows ctx (node.id :: (callee.ids ++ ids)) (fun _ => callee.outline.seq (args.seq (.node node.id)))
      (typed node (call ctx node callee.node (callable ctx callee asValue) argNodes analyse)) := by
  cases callee with
  | identifier c name typeArgs =>
    rw [callable, Expr.ids, Expr.outline]
    refine (identifierCall_follows ha).subperm (List.Perm.subperm ?_)
    rw [List.perm_iff_count]
    intro n
    simp only [List.count_append, List.count_cons, List.count_nil]
    omega
  | member m object name typeArgs =>
    rw [callable, Expr.ids, Expr.outline]
    simp only [Outline.seq_assoc]
    refine (memberCall_follows (receiver_follows (expr_follows ctx object none)) ha).subperm (List.Perm.subperm ?_)
    rw [List.perm_iff_count]
    intro n
    simp only [List.count_append, List.count_cons, List.count_nil]
    omega
  | _ =>
    rw [callable_of_not_named rfl]
    exact (valueCall_follows (valued_follows h) ha).node_first₂

theorem lambdaBody_follows (ctx : Context) : ∀ (body : Body) (declared : Option Ty),
    Follows ctx body.ids (fun _ => body.outline) (lambdaBody ctx body declared)
  | .expr e, declared => by
    rw [lambdaBody, Body.ids, Body.outline]
    exact exprBody_follows fun hint => expr_follows ctx e hint
  | .block b, declared => by
    rw [lambdaBody, Body.ids, Body.outline]
    exact block_follows ctx b

theorem block_follows (ctx : Context) : ∀ b : Block, Follows ctx b.ids (fun _ => b.outline) (block ctx b)
  | .mk node ss => by
    rw [block, Block.ids, Block.outline]
    exact (inBlock_follows (stmts_follows ctx ss)).sublist (List.sublist_cons_self _ _)

theorem stmts_follows (ctx : Context) : ∀ ss : List Stmt,
    FollowsFrom Nested ctx (Stmt.idsOfList ss) (fun _ => Stmt.outlineOfList ss) (stmts ctx ss)
  | [] => by
    rw [stmts, Stmt.outlineOfList]
    exact (Follows.nothing (.pure _) (List.nil_sublist _)).weaken fun _ _ => trivial
  | s :: ss => by
    rw [stmts, Stmt.idsOfList, Stmt.outlineOfList]
    refine FollowsFrom.bind (stmt_follows ctx s).nested (fun hn hr => ?_) fun _ _ => stmts_follows ctx ss
    exact ((stmt_effect ctx s hr).globalScope).trans hn

/-- Every run through a statement makes of its outline what the finished notes say. -/
theorem stmt_follows (ctx : Context) : ∀ s : Stmt, Follows ctx s.ids (fun g => s.outline g) (stmt ctx s)
  | .varDecl node ty name init => by
    rw [stmt, Stmt.ids]
    simp only [Stmt.outline]
    exact varDecl_follows (initial_follows ctx init) fun h => by cases init <;> simp [initial, Expr.outlineOfOption] at h ⊢
  | .ifThen node cond thenBody elseBody => by
    rw [stmt, Stmt.ids]
    simp only [Stmt.outline]
    exact (ifThen_follows (valued_follows (expr_follows ctx cond none)) ((inBlock_follows (stmt_follows ctx thenBody).nested).bind
      fun _ => otherwise_follows ctx elseBody) (List.Subset.refl _)).sublist (List.sublist_cons_self _ _)
  | .whileDo node cond body => by
    rw [stmt, Stmt.ids]
    simp only [Stmt.outline]
    exact (whileDo_follows (valued_follows (expr_follows ctx cond none)) (stmt_follows ctx body).nested).sublist
      (List.sublist_cons_self _ _)
  | .block node b => by
    rw [stmt, Stmt.ids]
    simp only [Stmt.outline]
    exact (block_follows ctx b).sublist (List.sublist_cons_self _ _)
  | .expr node e => by
    rw [stmt, Stmt.ids]
    simp only [Stmt.outline]
    exact ((expr_follows ctx e none).andReports fun _ => .pure _).sublist (List.sublist_cons_self _ _)
  | .ret node value => by
    rw [stmt, Stmt.ids]
    simp only [Stmt.outline]
    exact (returns_follows ctx node value).sublist (List.sublist_cons_self _ _)
  | .yields node e => by
    rw [stmt, Stmt.ids]
    simp only [Stmt.outline]
    exact (yields_follows fun hint => expr_follows ctx e hint).sublist (List.sublist_cons_self _ _)
  | .breaks node => by
    rw [stmt, Stmt.ids]
    simp only [Stmt.outline]
    exact inLoop_follows
  | .continues node => by
    rw [stmt, Stmt.ids]
    simp only [Stmt.outline]
    exact inLoop_follows
  | .task node b => by
    rw [stmt, Stmt.ids]
    simp only [Stmt.outline]
    exact task_follows (block_follows ctx b) ((block_effect ctx b).weaken fun _ _ h => h.toBodyEffect)
  | .awaits node b => by
    rw [stmt, Stmt.ids]
    simp only [Stmt.outline]
    exact (block_follows ctx b).sublist (List.sublist_cons_self _ _)

theorem initial_follows (ctx : Context) : ∀ (init : Option Expr), ∀ i ∈ initial ctx init, ∀ hint,
    Follows ctx (Expr.idsOfOption init) (fun _ => Expr.outlineOfOption init) (i.analyse hint)
  | none, i, hi, hint => by simp [initial] at hi
  | some e, i, hi, hint => by
    rw [initial, Option.mem_some_iff] at hi
    subst hi
    rw [Expr.idsOfOption, Expr.outlineOfOption]
    exact valued_follows (expr_follows ctx e hint)

theorem otherwise_follows (ctx : Context) : ∀ s : Option Stmt,
    Follows ctx (Stmt.idsOfOption s) (fun _ => Stmt.outlineOfOption s) (otherwise ctx s)
  | none => by
    rw [otherwise, Stmt.outlineOfOption]
    exact .nothing (.pure _) (List.nil_sublist _)
  | some s => by
    have h := inBlock_follows (stmt_follows ctx s).nested
    rwa [otherwise, Stmt.idsOfOption, Stmt.outlineOfOption]

theorem returns_follows (ctx : Context) (node : Node) : ∀ value : Option Expr,
    Follows ctx (Expr.idsOfOption value) (fun _ => Expr.outlineOfOption value) (returns ctx node value)
  | none => by
    rw [returns, Expr.outlineOfOption]
    exact returnNothing_follows
  | some e => by
    rw [returns, Expr.idsOfOption, Expr.outlineOfOption]
    exact returnValue_follows fun hint => expr_follows ctx e hint

end

end Check

end ScriptCheck

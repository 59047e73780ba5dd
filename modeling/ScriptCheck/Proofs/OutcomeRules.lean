import ScriptCheck.Proofs.Outcome

/-!
# The rules for expressions follow their outlines

Most of what a rule does between the parts of its expression is to look something up and note it. The rules that touch the
frame are few: a name is read with what is known about its place, an assignment or a step drops that, and the body of a lambda
has a frame of its own.
-/

namespace ScriptCheck

namespace Check

variable {α β : Type} {P : NodeInfo → Prop} {ctx : Context} {ids ids' : List Nat} {node : Node} {s s' : State}

/-! ### Names -/

theorem lookup_eq_ok {name : String} {args : List Ty} {allowPartial : Bool} {meaning : Meaning} :
    lookup ctx name args allowPartial s = .ok (meaning, s') ↔
      ctx.lookup s.frame s.globals name args allowPartial = .ok meaning ∧ s' = s := by
  simp only [lookup, bind_eq_ok, get_apply, ok_inj]
  constructor
  · rintro ⟨_, _, ⟨rfl, rfl⟩, h⟩
    exact lift_eq_ok.1 h
  · intro h
    exact ⟨s, s, ⟨rfl, rfl⟩, lift_eq_ok.2 h⟩

end Check

namespace Context

variable {ctx : Context} {frame : Frame} {globals : PrivateGlobals} {name : String} {args : List Ty} {allowPartial : Bool}
  {st : Storage} {ty declared : Ty}

/-- What is known about a variable that a name refers to: how it is read, how it is declared, and that its slot was made. -/
theorem lookup_var {s : State}
    (h : ctx.lookup s.frame s.globals name args allowPartial = .ok (.var st ty declared)) :
    ty = s.frame.readType st declared ∧ ctx.Declares s st declared ∧ st.InFrame s.frame.size ∧
      st.InScript s.globals.size := by
  rcases lookup_cases h with ⟨slot, found, -, hl, hm⟩ | ⟨slot, found, -, -, hl, hm⟩ | ⟨-, hm⟩
  · cases hm
    simp only [Frame.lookup?, Option.bind_eq_bind, Option.bind_eq_some_iff, Option.pure_def, Option.some.injEq,
      Prod.mk.injEq] at hl
    obtain ⟨_, hname, var, hvar, rfl, rfl⟩ := hl
    exact ⟨rfl, .frame hvar, (List.getElem?_eq_some_iff.1 hvar).1, trivial⟩
  · cases hm
    have hvar := (PrivateGlobals.lookup_eq_some hl).2
    exact ⟨rfl, .script hvar, trivial, (List.getElem?_eq_some_iff.1 hvar).1⟩
  · obtain ⟨hty, record, hrecord, rfl, rfl⟩ := globalMeaning_var hm
    exact ⟨hty, .module hrecord, trivial, trivial⟩

end Context

namespace Check

variable {α β : Type} {P : NodeInfo → Prop} {ctx : Context} {ids ids' : List Nat} {node : Node} {s s' : State}
variable {meaning : Meaning} {name : String} {typeArgs : List TypeExpr} {object : Node} {r : Check Receiver}

/-- What becomes of a name whose meaning is known: a variable is noted with its place and the type it is read with. -/
inductive Names (node : Node) (s s' : State) : Meaning → Prop where
  | var {st : Storage} {ty declared : Ty} (h : s' = (s.setInfo node (.storage st)).setType node ty) :
      Names node s s' (.var st ty declared)
  | other {meaning : Meaning} (h : Notes NodeInfo.Placeless [node.id] s s') : Names node s s' meaning

theorem typed_identifierValue_names {ty : Ty}
    (h : typed node (identifierValue ctx node name meaning) s = .ok (ty, s')) : Names node s s' meaning := by
  have hnode := List.mem_singleton_self node.id
  cases meaning with
  | var st ty declared =>
    simp only [typed, identifierValue, bind_eq_ok, noteInfo_apply, noteType_apply, pure_eq_ok, ok_inj] at h
    obtain ⟨_, _, ⟨_, _, ⟨-, rfl⟩, rfl, rfl⟩, _, _, ⟨-, rfl⟩, rfl, rfl⟩ := h
    exact .var rfl
  | func f => exact .other (typed_notes hnode (funcValue_notes (fun _ => ⟨rfl, rfl⟩) hnode f) h)
  | type t => exact .other (typed_notes hnode (reject_notes rfl _) h)
  | notFound => exact .other (typed_notes hnode (reject_notes rfl _) h)
  | ambiguous count => exact .other (typed_notes hnode (reject_notes rfl _) h)

/-- What a name of this meaning says about the state. -/
def Looked (ctx : Context) (meaning : Meaning) (s : State) : Prop :=
  ∃ name args allowPartial, ctx.lookup s.frame s.globals name args allowPartial = .ok meaning

/-- What a look-up finds is noted within the frame and the script, and a place with the type it is read with. -/
theorem Names.notes (h : Names node s s' meaning) (hlooked : Looked ctx meaning s) :
    Notes (fun info => info.InFrame s.frame.size ∧ info.InScript s.globals.size) [node.id] s s' ∧
      ∀ st, s'.nodes.info? node.id = some (.storage st) → s.nodes.info? node.id = some (.storage st) ∨
        ∃ declared, ctx.Declares s st declared ∧ s'.nodes.ty? node.id = some (s.frame.readType st declared) := by
  have hnode := List.mem_singleton_self node.id
  cases h with
  | @var st ty declared heq =>
    obtain ⟨_, _, _, hlookup⟩ := hlooked
    obtain ⟨hty, hdecl, hframe, hscript⟩ := Context.lookup_var hlookup
    have hfits : (NodeInfo.storage st).InFrame s.frame.size ∧ (NodeInfo.storage st).InScript s.globals.size :=
      ⟨⟨by simpa [NodeInfo.places] using hframe, by simp [NodeInfo.closure?]⟩, by simpa [NodeInfo.InScript, NodeInfo.places]⟩
    subst heq
    refine ⟨(noteInfo_notes hnode hfits (noteInfo_apply node _ s)).trans (noteType_notes hnode ty (noteType_apply node ty _)),
      fun st' hst => .inr ?_⟩
    obtain rfl : st = st' := by simpa [State.setType, State.setInfo] using hst
    exact ⟨declared, hdecl, by simp [State.setType, hty]⟩
  | other hn =>
    refine ⟨hn.weaken (fun _ hi => ⟨hi.free.inFrame, hi.free.inScript⟩) (List.Subset.refl _), fun st hst => ?_⟩
    exact (hn.infos _ _ hst).imp_right fun h => absurd rfl (h.ne_storage st)

theorem Names.touches (h : Names node s s' meaning) : Touches [node.id] s s' := by
  cases h with
  | var heq =>
    subst heq
    exact (Touches.setInfo s node _).trans (Touches.setType _ node _)
  | other hn => exact hn.touches

/-- A step that notes what a name was found to mean, whatever it does with it. -/
theorem Names.follows {x : Check α} (h : Keeps (fun s s' => Names node s s' meaning) x) :
    FollowsFrom (Looked ctx meaning) ctx [node.id] (fun _ => .read node.id) x where
  touches := h.weaken fun _ _ hn => hn.touches
  outcome := by
    intro fin s s' a hr hlooked hready hfin
    have hmem := List.mem_singleton_self node.id
    obtain ⟨hnote, hread⟩ := (h hr).notes hlooked
    refine hnote.outcome (fun _ hi => hi.2) rfl rfl rfl (fun _ => rfl) ?_ ?_
    · intro n hn info hi
      obtain rfl : n = node.id := by simpa [Outline.read, Outline.node] using hn
      rw [hnote.frame]
      exact (hready.noted hnote hfin hmem hi).elim (·.free.inFrame) (·.1)
    · intro r hr st hst
      obtain rfl : r = ⟨node.id, [], []⟩ := by simpa [Outline.read] using hr
      rw [hfin.info? hmem] at hst
      rcases hread st hst with hold | ⟨declared, hdecl, hty⟩
      · obtain ⟨_, h⟩ := hready.fresh _ hmem _ hold
        cases h
      · refine ⟨declared, hdecl.mono ?_ ?_, ?_⟩
        · exact hnote.frame ▸ List.prefix_refl _
        · exact hnote.globals ▸ List.prefix_refl _
        · rw [hfin.ty? hmem, hty]
          rfl

variable {o o' : Bool → Outline}

/-- Type arguments, a look-up, and what is done with what it finds. -/
theorem lookup_bind {allowPartial : Bool} {f : Meaning → Check α}
    (hf : ∀ meaning, FollowsFrom (Looked ctx meaning) ctx ids o (f meaning)) :
    Follows ctx (TypeExpr.idsOfList typeArgs ++ ids) o
      (typeExprs ctx typeArgs >>= fun args => lookup ctx name args allowPartial >>= f) := by
  refine Follows.afterNotes ((typeExprs_notes ctx typeArgs).notes (fun _ h => h.free) (List.Subset.refl _)) fun args _ => ?_
  have hlookup : Follows ctx [] (fun _ => .empty) (lookup ctx name args allowPartial) :=
    Follows.nothing (lookup_notes _ _ _) (List.Sublist.refl _)
  have h : Follows ctx ([] ++ ids) (fun g => Outline.seq .empty (o g)) (lookup ctx name args allowPartial >>= f) := by
    refine FollowsFrom.bind hlookup (fun {s t meaning} _ hr => ?_) fun meaning _ => hf meaning
    obtain ⟨hr, rfl⟩ := lookup_eq_ok.1 hr
    exact ⟨name, args, allowPartial, hr⟩
  simpa only [Outline.empty_seq, List.nil_append] using h

/-! ### Values, operators and elements -/

theorem valued_follows {x : Check Ty} (hx : Follows ctx ids o x) : Follows ctx ids o (valued node x) := by
  refine hx.andReports fun ty => ?_
  split
  · exact reject_notes rfl _
  · exact .pure _

theorem identifier_follows :
    Follows ctx (node.id :: TypeExpr.idsOfList typeArgs) (fun _ => .read node.id)
      (typed node (identifier ctx node name typeArgs)) := by
  simp only [typed, identifier, bind_assoc]
  exact FollowsFrom.node_first (lookup_bind fun meaning => Names.follows fun s a s' h => typed_identifierValue_names h)

theorem binary_follows {left right : Check Ty} {op : BinaryOp} (hl : Follows ctx ids o left) (hr : Follows ctx ids' o' right) :
    Follows ctx (ids ++ (ids' ++ [node.id])) (fun g => (o g).seq ((o' g).seq (.node node.id)))
      (typed node (binary ctx node op left right)) := by
  have hnode := List.mem_singleton_self node.id
  simp only [typed, binary, bind_assoc]
  refine hl.bind fun l => hr.bind fun r => .node (typed_notes hnode ?_) hnode
  split
  · exact .pure _
  · split
    · exact .pure _
    · exact (report_notes rfl _).bind fun _ => .pure _

theorem plainUnary_follows {operand : Check Ty} {op : UnaryOp} (ho : Follows ctx ids o operand) :
    Follows ctx (ids ++ [node.id]) (fun g => (o g).seq (.node node.id)) (typed node (plainUnary node op operand)) := by
  have hnode := List.mem_singleton_self node.id
  simp only [typed, plainUnary, bind_assoc]
  refine ho.bind fun ty => .node (typed_notes hnode ?_) hnode
  split
  · exact (report_notes rfl _).bind fun _ => .pure _
  · exact .pure _

theorem isTest_follows {value : Check Ty} {ty : TypeExpr} (hv : Follows ctx ids o value) :
    Follows ctx (ids ++ (ty.ids ++ [node.id])) (fun g => (o g).seq (.node node.id))
      (typed node (isTest ctx node value ty)) := by
  have hnode : node.id ∈ ty.ids ++ [node.id] := by simp
  simp only [typed, isTest, bind_assoc]
  refine hv.bind fun _ => .node (Keeps.bind ?_ fun tested => typed_notes hnode ?_) hnode
  · exact (typeExpr_notes ctx ty).notes (fun _ h => h.free) (List.subset_append_left _ _)
  · split
    · exact (noteInfo_notes hnode ⟨by simp [NodeInfo.places], rfl⟩).bind fun _ => .pure _
    · exact .pure _
    · exact (report_notes rfl _).bind fun _ => .pure _

theorem elementValue_follows {object index : Check Ty} {indexNode : Node} (ho : Follows ctx ids o object)
    (hi : Follows ctx ids' o' index) :
    Follows ctx (ids ++ (ids' ++ [node.id])) (fun g => (o g).seq ((o' g).seq (.node node.id)))
      (typed node (elementValue ctx node indexNode object index)) := by
  have hnode := List.mem_singleton_self node.id
  simp only [typed, elementValue, bind_assoc]
  refine ho.bind fun objectTy => hi.bind fun indexTy => .node ((indexerOf_notes _ _).bind fun r => typed_notes hnode ?_) hnode
  split
  · exact .pure _
  · exact reject_notes rfl _
  · exact (Keeps.lift _).bind fun _ => (checkArgs_notes _ _ _).bind fun _ =>
      (noteInfo_notes hnode ⟨by simp [NodeInfo.places], rfl⟩).bind fun _ => .pure _

/-! ### Members -/

/-- What stands before the dot is analysed as a value, or a name that is read names a type. -/
theorem receiver_follows {object : Expr} {asValue : Check Ty} (ho : Follows ctx object.ids (fun _ => object.outline) asValue) :
    Follows ctx object.ids (fun _ => object.outline) (receiver ctx object asValue) := by
  unfold receiver
  split
  · rename_i node name typeArgs
    rw [Expr.ids, Expr.outline]
    refine FollowsFrom.node_first (lookup_bind fun meaning => Names.follows fun s a s' h => ?_)
    split at h
    · obtain ⟨_, t, hnote, h⟩ := bind_eq_ok.1 h
      obtain ⟨-, rfl⟩ := pure_eq_ok.1 h
      exact .other (noteInfo_notes (List.mem_singleton_self _) ⟨rfl, rfl⟩ hnote)
    · obtain ⟨ty, t, hnote, h⟩ := bind_eq_ok.1 h
      obtain ⟨-, rfl⟩ := pure_eq_ok.1 h
      exact typed_identifierValue_names hnote
  · exact (valued_follows ho).andReports fun _ => .pure _

/-- A member is never kept in a slot. -/
theorem memberOf_storage {object : Option Nat} {ty t : Ty} {name : Name} {args : List Ty} {st : Storage}
    (h : memberOf ctx node object ty name args s = .ok (.storage st t, s')) : st.isSlot = false := by
  unfold memberOf at h
  split at h
  · cases h
  · split at h
    · cases h
      rfl
    · obtain ⟨r, u, -, h⟩ := bind_eq_ok.1 h
      split at h
      · simp only [useMember, bind_eq_ok] at h
        obtain ⟨isStatic, _, -, h⟩ := h
        split at h
        · cases h
        · split at h
          · obtain ⟨varTy, _, -, h⟩ := bind_eq_ok.1 h
            split at h <;> cases h <;> rfl
          · cases h
      · cases h
  · cases h

theorem memberUse_storage {ty : Ty}
    {st : Storage} (h : memberUse ctx node object r name typeArgs s = .ok (.storage st ty, s')) : st.isSlot = false := by
  simp only [memberUse, bind_eq_ok] at h
  obtain ⟨receiver, _, -, args, _, -, h⟩ := h
  cases receiver <;> exact memberOf_storage h

/-- A member, and what is done with what it was found to be. -/
theorem memberUse_bind
    {f : MemberUse → Check α} (hr : Follows ctx ids o r)
    (hf : ∀ use, (∀ st ty, use = .storage st ty → st.isSlot = false) → Follows ctx ids' o' (f use)) :
    Follows ctx (ids ++ TypeExpr.idsOfList typeArgs ++ ids') (fun g => (o g).seq (o' g))
      (memberUse ctx node object r name typeArgs >>= f) := by
  have huse : Follows ctx (ids ++ TypeExpr.idsOfList typeArgs) o (memberUse ctx node object r name typeArgs) := by
    refine hr.andNotes fun r => Keeps.bind ?_ fun args => ?_
    · exact (typeExprs_notes ctx typeArgs).notes (fun _ h => h.free) (List.Subset.refl _)
    · cases r <;> exact memberOf_notes _ _ _ _ _
  refine FollowsFrom.bind huse (fun _ _ => trivial) fun use hgives => hf use ?_
  rintro st ty rfl
  obtain ⟨s, t, h⟩ := hgives
  exact memberUse_storage h

theorem memberValue_follows
    (hr : Follows ctx ids o r) :
    Follows ctx (ids ++ TypeExpr.idsOfList typeArgs ++ [node.id]) (fun g => (o g).seq (.node node.id))
      (typed node (memberValue ctx node (memberUse ctx node object r name typeArgs))) := by
  have hnode := List.mem_singleton_self node.id
  simp only [typed, memberValue, bind_assoc]
  refine memberUse_bind hr fun use huse => .node (typed_notes hnode ?_) hnode
  cases use with
  | storage st ty =>
    have hfree : (NodeInfo.storage st).Free := ⟨by simpa [NodeInfo.places] using huse st ty rfl, rfl⟩
    exact (noteInfo_notes hnode hfree).bind fun _ => .pure _
  | func f object => exact funcValue_notes (fun _ => ⟨by simp [NodeInfo.places], rfl⟩) hnode f
  | unresolved => exact .pure _

/-! ### Targets -/

theorem identifierTarget_follows :
    Follows ctx (node.id :: TypeExpr.idsOfList typeArgs) (fun _ => .read node.id)
      (identifierTarget ctx node name typeArgs) := by
  have hnode := List.mem_singleton_self node.id
  refine FollowsFrom.node_first (lookup_bind fun meaning => Names.follows fun s a s' h => ?_)
  have hrejected : Keeps (Notes NodeInfo.Placeless [node.id])
      (noteType node .unresolved >>= fun _ => notAssignable node) :=
    (noteType_notes hnode _).bind fun _ => notAssignable_notes _
  split at h
  · simp only [bind_eq_ok, noteInfo_apply, noteType_apply, pure_eq_ok, ok_inj] at h
    obtain ⟨_, _, ⟨-, rfl⟩, _, _, ⟨-, rfl⟩, rfl, rfl⟩ := h
    exact .var rfl
  · exact .other (hrejected h)
  · exact .other (hrejected h)
  · obtain ⟨ty, t, hnote, h⟩ := bind_eq_ok.1 h
    obtain ⟨-, rfl⟩ := pure_eq_ok.1 h
    exact typed_identifierValue_names hnote

theorem memberTarget_follows
    (hr : Follows ctx ids o r) :
    Follows ctx (ids ++ TypeExpr.idsOfList typeArgs ++ [node.id]) (fun g => (o g).seq (.node node.id))
      (memberTarget node (memberUse ctx node object r name typeArgs)) := by
  have hnode := List.mem_singleton_self node.id
  have hrejected : Keeps (Notes NodeInfo.Free [node.id]) (noteType node .unresolved >>= fun _ => notAssignable node) :=
    (noteType_notes hnode _).bind fun _ => notAssignable_notes _
  refine memberUse_bind hr fun use huse => .node ?_ hnode
  cases use with
  | storage st ty =>
    have hfree : (NodeInfo.storage st).Free := ⟨by simpa [NodeInfo.places] using huse st ty rfl, rfl⟩
    dsimp only
    split
    · exact (noteInfo_notes hnode hfree).bind fun _ => (noteType_notes hnode _).bind fun _ => .pure _
    · exact hrejected
  | func f object => exact hrejected
  | unresolved => exact (noteType_notes hnode _).bind fun _ => .pure _

theorem elementTarget_follows {object index : Check Ty} {objectNode indexNode : Node} (ho : Follows ctx ids o object)
    (hi : Follows ctx ids' o' index) :
    Follows ctx (ids ++ (ids' ++ [node.id])) (fun g => (o g).seq ((o' g).seq (.node node.id)))
      (elementTarget ctx node objectNode indexNode object index) := by
  have hnode := List.mem_singleton_self node.id
  refine ho.bind fun objectTy => hi.bind fun indexTy => .node ?_ hnode
  refine (noteType_notes hnode _).bind fun _ => (indexerOf_notes _ _).bind fun r => ?_
  split
  · exact .pure _
  · exact accessorTarget_notes hnode _ _ _ _ _ _
  · exact (report_notes rfl _).bind fun _ => .pure _
  · exact (report_notes rfl _).bind fun _ => .pure _

end Check

/-- The slot of a target, if it is one, was made. -/
def Target.Within (target : Target) (s : State) : Prop :=
  ∀ st ∈ target.storage?, st.InFrame s.frame.size ∧ st.InScript s.globals.size

theorem Target.Within.of_eq {target : Target} {s s' : State} (h : target.Within s) (hsize : s'.frame.size = s.frame.size)
    (hglobals : s'.globals = s.globals) : target.Within s' := by
  intro st hst
  rw [hsize, hglobals]
  exact h st hst

/-- The note says that the target is written. -/
def NodeInfo.Writes (target : Target) (info : NodeInfo) : Prop :=
  info = .assign target ∨ ∃ operator before, info = .step target operator before

namespace NodeInfo.Writes

variable {info : NodeInfo} {target : Target}

theorem places (h : info.Writes target) : info.places = target.storage?.toList := by
  rcases h with rfl | ⟨_, _, rfl⟩ <;> rfl

theorem closure (h : info.Writes target) : info.closure? = none := by
  rcases h with rfl | ⟨_, _, rfl⟩ <;> rfl

theorem write? (h : info.Writes target) {m : NodeMap} {n : Nat} (hn : m.info? n = some info) :
    m.write? n = target.storage? := by
  unfold NodeMap.write?
  rcases h with rfl | ⟨_, _, rfl⟩ <;> rw [hn]

end NodeInfo.Writes

namespace State

variable (s : State) (target : Target)

@[simp] theorem written_locals : (s.written target).frame.locals = s.frame.locals := by
  cases target <;> rfl

@[simp] theorem written_globals : (s.written target).globals = s.globals := by
  cases target <;> rfl

@[simp] theorem written_nodes : (s.written target).nodes = s.nodes := by
  cases target <;> rfl

@[simp] theorem written_templates : (s.written target).templates = s.templates := by
  cases target <;> rfl

theorem written_overrides : (s.written target).frame.overrides =
    s.frame.overrides.filterKeys fun st => !decide (target.storage? = some st) := by
  cases target with
  | direct storage ty => simp [written, Frame.widen, Table.erase, Target.storage?, eq_comm]
  | callBased => exact (Table.filterKeys_of_forall fun _ _ => rfl).symm

end State

namespace Check

variable {α β : Type} {ctx : Context} {ids ids' : List Nat} {node : Node} {s s' : State} {o o' : Bool → Outline}
  {target : Target}
variable {name : String} {typeArgs : List TypeExpr} {callee : Node} {argNodes : List Node}
  {analyse : List (Option Ty) → Check (List Ty)}

theorem identifierTarget_within
    (h : identifierTarget ctx node name typeArgs s = .ok (some target, s')) : target.Within s' := by
  obtain ⟨args, t, hargs, h⟩ := bind_eq_ok.1 h
  obtain ⟨meaning, t', hlookup, h⟩ := bind_eq_ok.1 h
  obtain ⟨hmeaning, rfl⟩ := lookup_eq_ok.1 hlookup
  cases meaning with
  | var st ty declared =>
    simp only [bind_eq_ok, noteInfo_apply, noteType_apply, pure_eq_ok, ok_inj,
      Option.some.injEq] at h
    obtain ⟨_, _, ⟨-, rfl⟩, _, _, ⟨-, rfl⟩, rfl, rfl⟩ := h
    obtain ⟨-, -, hframe, hscript⟩ := Context.lookup_var hmeaning
    intro st' hst
    cases hst
    exact ⟨hframe, hscript⟩
  | func f =>
    obtain ⟨_, _, -, h⟩ := bind_eq_ok.1 h
    cases h
  | type t =>
    obtain ⟨_, _, -, h⟩ := bind_eq_ok.1 h
    cases h
  | notFound =>
    obtain ⟨_, _, -, h⟩ := bind_eq_ok.1 h
    cases h
  | ambiguous count =>
    obtain ⟨_, _, -, h⟩ := bind_eq_ok.1 h
    cases h

theorem memberTarget_within {r : Check Receiver} {object : Node}
    (h : memberTarget node (memberUse ctx node object r name typeArgs) s = .ok (some target, s')) : target.Within s' := by
  obtain ⟨use, t, huse, h⟩ := bind_eq_ok.1 h
  cases use with
  | storage st ty =>
    have hslot := memberUse_storage huse
    dsimp only at h
    split at h
    · simp only [bind_eq_ok, noteInfo_apply, noteType_apply, pure_eq_ok, ok_inj,
        Option.some.injEq] at h
      obtain ⟨_, _, -, _, _, -, rfl, -⟩ := h
      intro st' hst
      cases hst
      exact ⟨Storage.inFrame_of_not_isSlot hslot, Storage.inScript_of_not_isSlot hslot⟩
    · cases h
  | func f object => cases h
  | unresolved => cases h

theorem elementTarget_within {object index : Check Ty} {objectNode indexNode : Node}
    (h : elementTarget ctx node objectNode indexNode object index s = .ok (some target, s')) : target.Within s' := by
  obtain ⟨objectTy, _, -, h⟩ := bind_eq_ok.1 h
  obtain ⟨indexTy, _, -, h⟩ := bind_eq_ok.1 h
  obtain ⟨_, _, -, h⟩ := bind_eq_ok.1 h
  obtain ⟨r, _, -, h⟩ := bind_eq_ok.1 h
  split at h
  · cases h
  · obtain ⟨reads, _, -, h⟩ := bind_eq_ok.1 h
    obtain ⟨writes, _, -, h⟩ := bind_eq_ok.1 h
    obtain ⟨fits, _, -, h⟩ := bind_eq_ok.1 h
    split at h
    · cases h
    · split at h
      · cases h
      · cases h
        intro st hst
        cases hst
  · cases h
  · cases h

/-- A target that is found names no slot that was not made. -/
theorem target_within {e : Expr} {asValue : Check Ty}
    (h : Check.target ctx e asValue s = .ok (some target, s')) : target.Within s' := by
  cases e with
  | identifier node name typeArgs => exact identifierTarget_within (by rwa [Check.target] at h)
  | member node object name typeArgs => exact memberTarget_within (by rwa [Check.target] at h)
  | index node object index => exact elementTarget_within (by rwa [Check.target] at h)
  | _ =>
    rw [target_of_not_place rfl] at h
    obtain ⟨_, _, -, h⟩ := bind_eq_ok.1 h
    cases h

/-! ### Assignments and steps -/

/-- Where nothing is noted but types, nothing is written. -/
theorem Follows.not_written {x : Check α} (h : Keeps (Notes NodeInfo.IsType [node.id]) x) :
    Follows ctx [node.id] (fun _ => .write node.id) x where
  touches := h.weaken fun _ _ hn => hn.touches
  outcome := by
    intro fin s s' a hr _ hready hfin
    have hmem := List.mem_singleton_self node.id
    have hn := h hr
    have hinfo : ∀ info, fin.info? node.id = some info → info.IsType := by
      intro info hi
      exact (hready.noted hn hfin hmem hi).elim id id
    refine hn.outcome (fun _ hi => hi.free.inScript) rfl rfl rfl ?_ ?_ ?_
    · intro st
      simp only [Outline.write, NodeMap.writes, List.any_cons, List.any_nil, Bool.or_false, decide_eq_false_iff_not]
      unfold NodeMap.write?
      split
      · obtain ⟨_, h⟩ := hinfo _ ‹_›
        cases h
      · obtain ⟨_, h⟩ := hinfo _ ‹_›
        cases h
      · simp
    · intro n hn info hi
      obtain rfl : n = node.id := by simpa [Outline.write, Outline.node] using hn
      exact (hinfo info hi).free.inFrame
    · simp [Outline.write, Outline.node, Outline.empty]

theorem written_follows {info : NodeInfo} (hinfo : info.Writes target) (ty : Ty) :
    FollowsFrom target.Within ctx [node.id] (fun _ => .write node.id)
      (written target >>= fun _ => noteInfo node info >>= fun _ => typed node (pure ty)) where
  touches := by
    have heff : Keeps (ExprEffect ([node.id] ++ own ExprEffect node)) _ := (written_gathers target).last fun _ =>
      (noteInfo_effect (List.mem_singleton_self _) info).seq fun _ => literal_gathers ty
    exact heff.weaken fun _ _ h => h.toTouches.mono (by simp [own, Gathers.cost, NodeWrite.node])
  outcome := by
    intro fin s s' a hr hwithin hready hfin
    have hmem := List.mem_singleton_self node.id
    simp only [typed, bind_eq_ok, written_apply, noteInfo_apply, noteType_apply, pure_eq_ok, ok_inj] at hr
    obtain ⟨_, _, ⟨-, rfl⟩, _, _, ⟨-, rfl⟩, _, _, ⟨rfl, rfl⟩, _, _, ⟨-, rfl⟩, rfl, rfl⟩ := hr
    have hnoted : fin.info? node.id = some info := by simp [hfin.info? hmem]
    have hscript : info.InScript s.globals.size := by
      intro st hst
      rw [hinfo.places] at hst
      exact (hwithin st (Option.mem_toList.1 hst)).2
    have hframe : info.InFrame s.frame.size := by
      refine ⟨fun st hst => ?_, by simp [hinfo.closure]⟩
      rw [hinfo.places] at hst
      exact (hwithin st (Option.mem_toList.1 hst)).1
    exact {
      notes := by
        intro hs n i hi
        simp only [State.written_nodes, NodeMap.info?_setType, NodeMap.info?_setInfo] at hi
        simp only [State.written_globals]
        split at hi
        · cases hi
          exact hscript
        · exact hs n i hi
      locals := by simp
      size := by simp [Frame.size, Outline.write, Outline.node, Outline.empty]
      slots := rfl
      globals := by simp
      globalSize := by simp [Outline.write, Outline.node, Outline.empty]
      globalSlots := rfl
      own := by
        intro n hn i hi
        obtain rfl : n = node.id := by simpa [Outline.write, Outline.node] using hn
        obtain rfl : info = i := by simpa [hnoted] using hi
        simpa [Frame.size] using hframe
      overrides := by
        rw [State.written_overrides]
        refine Table.filterKeys_congr fun st _ => ?_
        simp [Outline.write, NodeMap.writes, hinfo.write? hnoted]
      reads := by simp [Outline.write, Outline.node, Outline.empty]
      bodies := fun _ => ⟨[], by simp, .nil⟩ }

/-- What a step finds as a target names no slot that was not made. -/
def FindsWithin (x : Check (Option Target)) : Prop :=
  ∀ {s t : State} {target : Target}, x s = .ok (some target, t) → target.Within t

theorem assign_follows {find : Check (Option Target)} {value : Option Ty → Check Ty} {valueNode : Node}
    (hfind : Follows ctx ids o find) (hwithin : FindsWithin find) (hv : ∀ hint, Follows ctx ids' o' (value hint))
    (hkeep : ∀ hint, Keeps (ExprEffect ids') (value hint)) :
    Follows ctx (ids ++ (ids' ++ [node.id])) (fun g => (o g).seq ((o' g).seq (.write node.id)))
      (typed node (assign ctx node valueNode find value)) := by
  have hnode := List.mem_singleton_self node.id
  simp only [typed, assign, bind_assoc]
  refine FollowsFrom.bind (Q := fun r t => ∀ target, r = some target → target.Within t) hfind ?_ fun r _ => ?_
  · rintro s t _ - hr target rfl
    exact hwithin hr
  · cases r with
    | none =>
      simp only [bind_assoc]
      exact ((hv none).bind fun _ => .not_written (typed_notes hnode (.pure _))).weaken fun _ _ => trivial
    | some target =>
      simp only [bind_assoc]
      refine FollowsFrom.after_lift fun expected => ?_
      refine FollowsFrom.bind (Q := fun _ t => target.Within t) ((hv _).weaken fun _ _ => trivial) ?_ fun found _ => ?_
      · intro s t found h hr
        have heffect := hkeep _ hr
        exact (h target rfl).of_eq (by rw [Frame.size, heffect.frame.locals, Frame.size]) heffect.globals
      · refine FollowsFrom.after_reports (checkAssignable_notes _ _ _) ?_ fun _ => written_follows (.inl rfl) target.ty
        exact fun s t hn h => h.of_eq (by rw [hn.frame]) hn.globals

theorem stepTarget_follows {op : StepOp} {before : Bool} :
    FollowsFrom target.Within ctx [node.id] (fun _ => .write node.id) (typed node (stepTarget ctx node op before target)) := by
  have hnode := List.mem_singleton_self node.id
  have hrejected : ∀ {problem : Problem}, problem.isJump = false → FollowsFrom target.Within ctx [node.id]
      (fun _ => .write node.id) (typed node (reject problem node)) := fun hp =>
    (Follows.not_written (typed_notes hnode (reject_notes hp node))).weaken fun _ _ => trivial
  unfold stepTarget
  dsimp only
  split
  · exact (Follows.not_written (typed_notes hnode (.pure _))).weaken fun _ _ => trivial
  · simp only [typed, bind_assoc]
    refine FollowsFrom.after_lift fun r => ?_
    split
    · exact hrejected rfl
    · simp only [bind_assoc]
      refine FollowsFrom.after_lift fun signature => ?_
      split
      · exact hrejected rfl
      · simp only [bind_assoc]
        refine FollowsFrom.after_lift fun fits => ?_
        split
        · simp only [bind_assoc]
          exact written_follows (.inr ⟨_, _, rfl⟩) _
        · exact hrejected rfl

theorem step_follows {find : Check (Option Target)} {op : StepOp} {before : Bool} (hfind : Follows ctx ids o find)
    (hwithin : FindsWithin find) :
    Follows ctx (ids ++ [node.id]) (fun g => (o g).seq (.write node.id)) (typed node (step ctx node op before find)) := by
  have hnode := List.mem_singleton_self node.id
  simp only [typed, step, bind_assoc]
  refine FollowsFrom.bind (Q := fun r t => ∀ target, r = some target → target.Within t) hfind ?_ fun r _ => ?_
  · rintro s t _ - hr target rfl
    exact hwithin hr
  · cases r with
    | none => exact (Follows.not_written (typed_notes hnode (.pure _))).weaken fun _ _ => trivial
    | some target => exact stepTarget_follows.weaken fun _ h => h target rfl

/-! ### Calls -/

/-- A name that is found to name no place reads nothing, whenever that is noted. -/
theorem Follows.named_after {n : Nat} {own : List Nat} {x : Check α} {f : α → Check β} (hx : Follows ctx ids o x)
    (hf : ∀ a, Keeps (Notes NodeInfo.Placeless (n :: own)) (f a)) :
    Follows ctx (ids ++ n :: own) (fun g => (Outline.read n).seq ((o g).seq { Outline.empty with own := own }))
      (x >>= f) := by
  have hboth : Follows ctx (ids ++ n :: own) (fun g => (o g).seq { Outline.empty with own := n :: own }) (x >>= f) :=
    hx.bind fun a => .of_notes _ ((hf a).notes (fun _ h => h.free) (List.Subset.refl _)) (List.Subset.refl _)
  refine ⟨hboth.touches, fun {fin s s' a} hr hpre hready hfin => ?_⟩
  have hn : n ∈ n :: own := List.mem_cons_self
  have hnone : ∀ st, fin.info? n ≠ some (.storage st) := by
    intro st hst
    obtain ⟨b, t, h₁, h₂⟩ := bind_eq_ok.1 hr
    have hsame := (hx.touches h₁).nodes n fun hm => (List.nodup_append.1 hready.nodup).2.2 n hm n hn rfl
    rw [hfin.info? (List.mem_append_right _ hn)] at hst
    rcases (hf b h₂).infos n _ hst with hold | hnew
    · rw [NodeMap.info?, NodeMap.dataOf, hsame] at hold
      obtain ⟨_, h⟩ := hready.fresh n (List.mem_append_right _ hn) _ hold
      cases h
    · exact hnew.ne_storage st rfl
  refine (hboth.outcome hr hpre hready hfin).relist ?_ ?_ ?_ ?_ ?_ ?_
  all_goals simp +contextual [Outline.seq, Outline.read, Outline.node, Outline.empty, hnone]

theorem callFunc_follows {f : FuncRef} {object : Option Nat}
    (ha : ∀ hints, Follows ctx ids o (analyse hints)) :
    Follows ctx ([callee.id] ++ (ids ++ [node.id])) (fun g => (Outline.read callee.id).seq ((o g).seq (.node node.id)))
      (typed node (callFunc ctx node callee f object argNodes analyse)) := by
  suffices h : Follows ctx (ids ++ [callee.id, node.id])
      (fun g => (Outline.read callee.id).seq ((o g).seq (.node node.id)))
      (typed node (callFunc ctx node callee f object argNodes analyse)) from h.subperm List.perm_middle.subperm
  have hnode : node.id ∈ [callee.id, node.id] := by simp
  have hcallee : callee.id ∈ [callee.id, node.id] := List.mem_cons_self
  simp only [typed, callFunc, bind_assoc]
  refine FollowsFrom.after_lift fun written => (ha _).named_after fun types => ?_
  refine (inferTypeArgs_notes _ _ _ _).bind fun r => typed_notes hnode ?_
  cases r with
  | none => exact (noteType_notes hcallee _).bind fun _ => .pure _
  | some f =>
    exact (Keeps.lift _).bind fun signature => (checkArgs_notes _ _ _).bind fun _ => (noteType_notes hcallee _).bind fun _ =>
      (noteInfo_notes hcallee ⟨rfl, rfl⟩).bind fun _ => (noteInfo_notes hnode ⟨rfl, rfl⟩).bind fun _ => .pure _

theorem callValue_follows {ty : Ty}
    (ha : ∀ hints, Follows ctx ids o (analyse hints)) :
    Follows ctx (ids ++ [node.id]) (fun g => (o g).seq (.node node.id))
      (typed node (callValue ctx node ty argNodes analyse)) := by
  have hnode := List.mem_singleton_self node.id
  have hlost : ∀ t, Follows ctx (ids ++ [node.id]) (fun g => (o g).seq (.node node.id))
      (analyse [] >>= fun _ => typed node (pure t)) := fun t =>
    (ha []).bind fun _ => .node (typed_notes hnode (.pure _)) hnode
  unfold callValue
  split
  · simp only [typed, bind_assoc]
    exact hlost _
  · simp only [typed, bind_assoc]
    have hfree : NodeInfo.callValue.Free := ⟨by simp [NodeInfo.places], rfl⟩
    exact (ha _).bind fun types => .node ((checkArgs_notes _ _ _).bind fun _ => (noteInfo_notes hnode hfree).bind fun _ =>
      typed_notes hnode (.pure _)) hnode
  · simp only [typed, bind_assoc]
    exact FollowsFrom.after_reports (report_notes rfl _) (fun _ _ _ => id) fun _ => hlost _

/-- A call of a name: a variable is read before the arguments are analysed, and a function is noted after them. -/
theorem identifierCall_follows
    (ha : ∀ hints, Follows ctx ids o (analyse hints)) :
    Follows ctx (TypeExpr.idsOfList typeArgs ++ ([callee.id] ++ (ids ++ [node.id])))
      (fun g => (Outline.read callee.id).seq ((o g).seq (.node node.id)))
      (typed node (call ctx node callee (identifierCallable ctx callee name typeArgs) argNodes analyse)) := by
  have hvalue : ∀ meaning, FollowsFrom (Looked ctx meaning) ctx ([callee.id] ++ (ids ++ [node.id]))
      (fun g => (Outline.read callee.id).seq ((o g).seq (.node node.id)))
      (typed callee (identifierValue ctx callee name meaning) >>= fun ty =>
        typed node (callValue ctx node ty argNodes analyse)) := fun meaning =>
    FollowsFrom.bind (Names.follows fun s a s' h => typed_identifierValue_names h) (fun _ _ => trivial) fun ty _ =>
      callValue_follows ha
  simp only [typed, call, identifierCallable, bind_assoc]
  refine lookup_bind fun meaning => ?_
  cases meaning with
  | func f =>
    exact (callFunc_follows ha).weaken fun _ _ => trivial
  | var st ty declared => simpa only [typed, bind_assoc, pure_bind] using hvalue (.var st ty declared)
  | type ty => simpa only [typed, bind_assoc, pure_bind] using hvalue (.type ty)
  | notFound => simpa only [typed, bind_assoc, pure_bind] using hvalue .notFound
  | ambiguous count => simpa only [typed, bind_assoc, pure_bind] using hvalue (.ambiguous count)

/-- A call of a member: a place is noted before the arguments are analysed, and a function after them. -/
theorem memberCall_follows {callee object : Node} {r : Check Receiver}
    (hr : Follows ctx ids o r)
    (ha : ∀ hints, Follows ctx ids' o' (analyse hints)) :
    Follows ctx (ids ++ TypeExpr.idsOfList typeArgs ++ ([callee.id] ++ (ids' ++ [node.id])))
      (fun g => (o g).seq ((Outline.node callee.id).seq ((o' g).seq (.node node.id))))
      (typed node (call ctx node callee (memberCallable callee (memberUse ctx callee object r name typeArgs)) argNodes
        analyse)) := by
  have hcallee : callee.id ∈ [callee.id] := List.mem_singleton_self _
  have hnode := List.mem_singleton_self node.id
  simp only [typed, call, memberCallable, bind_assoc]
  refine memberUse_bind hr fun use huse => ?_
  cases use with
  | func f object =>
    have h : Follows ctx ([callee.id] ++ (ids' ++ [node.id]))
        (fun g => (Outline.read callee.id).seq ((o' g).seq (.node node.id)))
        (typed node (callFunc ctx node callee f object argNodes analyse)) := callFunc_follows ha
    refine ⟨h.touches, fun hr hpre hready hfin => (h.outcome hr hpre hready hfin).relist rfl rfl rfl rfl ?_ ?_⟩
    · exact List.Subset.refl _
    · intro r hr
      exact .inl (List.mem_cons_of_mem _ hr)
  | storage st ty =>
    have hfree : (NodeInfo.storage st).Free := ⟨by simpa [NodeInfo.places] using huse st ty rfl, rfl⟩
    have hplace : Follows ctx [callee.id] (fun _ => .node callee.id)
        (noteInfo callee (.storage st) >>= fun _ => noteType callee ty) :=
      .node ((noteInfo_notes hcallee hfree).bind fun _ => noteType_notes hcallee ty) hcallee
    simpa only [typed, bind_assoc, pure_bind] using hplace.bind fun _ => callValue_follows ha
  | unresolved =>
    have hlost : Follows ctx [callee.id] (fun _ => .node callee.id) (noteType callee .unresolved) :=
      .node (noteType_notes hcallee _) hcallee
    have hargs : Follows ctx (ids' ++ [node.id]) (fun g => (o' g).seq (.node node.id))
        (analyse [] >>= fun _ => typed node (pure .unresolved)) :=
      (ha []).bind fun _ => .node (typed_notes hnode (.pure _)) hnode
    simpa only [typed, bind_assoc, pure_bind] using hlost.bind fun _ => hargs

/-- A call of anything else. -/
theorem valueCall_follows {value : Check Ty}
    (hv : Follows ctx ids o value)
    (ha : ∀ hints, Follows ctx ids' o' (analyse hints)) :
    Follows ctx (ids ++ (ids' ++ [node.id])) (fun g => (o g).seq ((o' g).seq (.node node.id)))
      (typed node (call ctx node callee (do return .value (← value)) argNodes analyse)) := by
  have h : Follows ctx (ids ++ (ids' ++ [node.id])) (fun g => (o g).seq ((o' g).seq (.node node.id)))
      (value >>= fun ty => typed node (callValue ctx node ty argNodes analyse)) := hv.bind fun ty => callValue_follows ha
  simpa only [typed, call, bind_assoc, pure_bind] using h

end Check

end ScriptCheck

import ScriptCheck.Proofs.Scoping

/-!
# Captures by reference

A variable is captured by reference so that a write inside the body reaches the variable itself. Which captures are by
reference is read off the tree, before the body is analysed; which slots are written is known from the notes at the end. The
two agree: a capture is by reference exactly if a slot that it is carried into, in the body or in a body nested in it, is
written there. The argument goes through the name: a slot of a frame is written by its plain name only
(`Check.Settled.target_local_iff`), and along captures all slots belong to one name that nothing in between binds.
-/

namespace ScriptCheck

/-- The assignment or step at a site writes this slot of its frame. -/
def Site.Writes (notes : NodeMap) (w : Site) (slot : Nat) : Prop :=
  (∃ node target value ty, w.part = .expr (.assign node target value) ∧
    notes.info? node.id = some (.assign (.direct (.localSlot slot) ty))) ∨
  ∃ node op before operand ty operator, w.part = .expr (.unary node (.step op before) operand) ∧
    notes.info? node.id = some (.step (.direct (.localSlot slot) ty) operator before)

/-- The captures of these bodies, which stand one inside the other with the innermost first, carry the slot `outer` of the body
around them all into the slot `slot` of the innermost. -/
inductive Carries (notes : NodeMap) : List Owner → Nat → Nat → Prop where
  | here (slot : Nat) : Carries notes [] slot slot
  | inward {o : Owner} {os : List Owner} {c : CaptureInfo} {slot outer : Nat} (hc : c ∈ o.captures notes)
      (hstorage : c.storage = .localSlot slot) (h : Carries notes os slot outer) : Carries notes (o :: os) c.slot outer

/-! ### Along captures -/

namespace Holds

variable {notes : NodeMap} {x : String} {slot : Nat}

/-- From a body that does not bind the name, the slot comes by captures from each body further out that does not either. -/
theorem carries {l : Level} {outer : List Level} (hl : l.find? x = none) : ∀ {inner : List Level} {slot : Nat},
    Holds notes x (inner ++ l :: outer) slot → (∀ m ∈ inner, m.find? x = none) →
    ∃ c ∈ l.owner.captures notes, c.name = x ∧ Carries notes (inner.map (·.owner)) slot c.slot
  | [], slot, h, _ => by
    cases h with
    | own hfind hnote hfresh =>
      rw [hl] at hfind
      cases hfind
    | @carried _ _ _ _ c hfind hc hname hslot hunique hstorage h => exact ⟨c, hc, hname, hslot ▸ .here c.slot⟩
  | m :: ms, slot, h, hinner => by
    have hm := hinner m List.mem_cons_self
    cases h with
    | own hfind hnote hfresh =>
      rw [hm] at hfind
      cases hfind
    | @carried _ _ _ mid d hfind hd hname hslot hunique hstorage h =>
      obtain ⟨c, hc, hcname, hcarries⟩ := carries hl h fun m' hm' => hinner m' (List.mem_cons_of_mem _ hm')
      exact ⟨c, hc, hcname, hslot ▸ .inward hd hstorage hcarries⟩

/-- Where captures lead out of bodies, none of these bodies binds the name. -/
theorem unbound_of_carries {o : Owner} {c : CaptureInfo} (hc : c ∈ o.captures notes) :
    ∀ {levels : List Level} {inner outer : List Owner} {slot : Nat}, Holds notes x levels slot →
      levels.map (·.owner) = inner ++ o :: outer → Carries notes inner slot c.slot →
      ∃ inner l outer, levels = inner ++ l :: outer ∧ l.owner = o ∧ c.name = x ∧ (∀ m ∈ inner, m.find? x = none) ∧
        l.find? x = none
  | [], inner, outer, slot, h, _, _ => by cases h
  | l :: ls, [], outer, slot, h, howners, hcarries => by
    cases hcarries
    rw [List.map_cons, List.nil_append, List.cons.injEq] at howners
    obtain ⟨rfl, -⟩ := howners
    cases h with
    | own hfind hnote hfresh => exact absurd rfl (hfresh c hc)
    | carried hfind hd hname hslot hunique hstorage h =>
      rw [← hunique c hc rfl] at hname
      exact ⟨[], l, ls, rfl, rfl, hname, by simp, hfind⟩
  | l :: ls, m :: ms, outer, slot, h, howners, hcarries => by
    rw [List.map_cons, List.cons_append, List.cons.injEq] at howners
    obtain ⟨rfl, howners⟩ := howners
    cases hcarries with
    | @inward _ _ d mid _ hd hstorage hcarries =>
      cases h with
      | own hfind hnote hfresh => exact absurd rfl (hfresh d hd)
      | @carried _ _ _ mid' e hfind he hname hslot hunique hstorage' h =>
        rw [← hunique d hd rfl, hstorage] at hstorage'
        cases hstorage'
        obtain ⟨inner, l', outer, rfl, ho, hcname, hinner, hl'⟩ := unbound_of_carries hc h howners hcarries
        refine ⟨l :: inner, l', outer, rfl, ho, hcname, ?_, hl'⟩
        intro k hk
        rcases List.mem_cons.1 hk with rfl | hk
        · exact hfind
        · exact hinner k hk

end Holds

/-- What does not bind a name does not change what it refers to. -/
theorem Unbound.resolve_eq {x : String} {outer : List Level} {q : Place} (h : Unbound outer x q) :
    resolve x q.levels = resolve x outer := by
  obtain ⟨inner, hlevels, hinner⟩ := h
  rw [hlevels]
  clear hlevels
  induction inner with
  | nil => rfl
  | cons m ms ih =>
    rw [List.cons_append, resolve, hinner m List.mem_cons_self]
    exact ih fun m' hm' => hinner m' (List.mem_cons_of_mem _ hm')

/-! ### Writes to slots -/

namespace Check

variable {fin : NodeMap} {ctx : Context} {node : Node} {s s' : State}

theorem Quiet.memberOf_ne_local {object : Option Nat} {t ty : Ty} {name : Name} {args : List Ty} {slot : Nat} :
    ¬Quiet (Check.memberOf ctx node object t name args) s (.storage (.localSlot slot) ty) s' := by
  intro h
  rcases h.memberOf with ⟨-, -, huse⟩ | ⟨-, -, huse⟩ | ⟨found, -, hused⟩
  · cases huse
  · cases huse
  · obtain ⟨-, hfound⟩ := hused.useMember
    cases found with
    | func f => cases hfound
    | var v =>
      obtain ⟨_, -, huse⟩ := hfound
      cases object <;> cases huse

/-- A member is never a variable of the frame. -/
theorem Quiet.memberUse_ne_local {object : Node} {receiver : Check Receiver} {name : String} {typeArgs : List TypeExpr}
    {slot : Nat} {ty : Ty} :
    ¬Quiet (Check.memberUse ctx node object receiver name typeArgs) s (.storage (.localSlot slot) ty) s' := by
  intro h
  obtain ⟨r, u, args, v, -, -, hfound⟩ := h.memberUse
  cases r with
  | type t => exact Quiet.memberOf_ne_local hfound
  | value t => exact Quiet.memberOf_ne_local hfound

/-- A slot of the frame is the target exactly if the plain name of a variable in it is assigned to. -/
theorem Settled.target_local_iff {e : Expr} {target : Target}
    (h : Settled fin e.ids (Check.target ctx e (Check.expr ctx e none)) s (some target) s') (slot : Nat) :
    (∃ ty, target = .direct (.localSlot slot) ty) ↔
      ∃ name ty, e.plainName? = some name ∧ s.frame.lookup? name = some (slot, ty) := by
  constructor
  · rintro ⟨ty, rfl⟩
    rcases h.target_found with ⟨node, name, typeArgs, args, u, _, _, _, rfl, hargs, hm, heq⟩ |
      ⟨_, _, _, _, _, _, _, -, huse, heq⟩ | ⟨_, _, _, _, _, _, _, _, -, heq, -⟩
    · cases heq
      obtain ⟨rfl, hlookup⟩ := Context.visible_of_lookup hm
      cases typeArgs with
      | nil =>
        obtain ⟨-, rfl⟩ := hargs.typeExprs_nil
        exact ⟨name, ty, rfl, hlookup⟩
      | cons t ts =>
        obtain ⟨_, _, _, -, -, hnil⟩ := hargs.typeExprs_cons
        cases hnil
    · cases heq
      exact huse.memberUse_ne_local.elim
    · cases heq
  · rintro ⟨name, ty, hname, hlookup⟩
    obtain ⟨node, rfl⟩ := Expr.eq_identifier_of_plainName? hname
    rcases h.target_found with ⟨_, _, _, args, u, _, _, _, heq, hargs, hm, rfl⟩ | ⟨_, _, _, _, _, _, _, heq, -⟩ |
      ⟨_, _, _, _, _, _, _, _, heq, -⟩
    · cases heq
      obtain ⟨rfl, rfl⟩ := hargs.typeExprs_nil
      rw [Context.lookup_of_visible hlookup] at hm
      cases hm
      exact ⟨ty, rfl⟩
    · cases heq
    · cases heq

end Check

namespace Site

variable {notes : NodeMap} {p : Place} {node : Node} {target : Target} {slot : Nat}

theorem writes_assign_iff {left value : Expr} (hinfo : notes.info? node.id = some (.assign target)) :
    Writes notes ⟨p, .expr (.assign node left value)⟩ slot ↔ ∃ ty, target = .direct (.localSlot slot) ty := by
  constructor
  · rintro (⟨_, _, _, ty, hpart, hnote⟩ | ⟨_, _, _, _, _, _, hpart, -⟩)
    · cases hpart
      rw [hinfo] at hnote
      cases hnote
      exact ⟨ty, rfl⟩
    · cases hpart
  · rintro ⟨ty, rfl⟩
    exact .inl ⟨node, left, value, ty, rfl, hinfo⟩

theorem writes_step_iff {op : StepOp} {before : Bool} {operand : Expr} {operator : FuncRef}
    (hinfo : notes.info? node.id = some (.step target operator before)) :
    Writes notes ⟨p, .expr (.unary node (.step op before) operand)⟩ slot ↔ ∃ ty, target = .direct (.localSlot slot) ty := by
  constructor
  · rintro (⟨_, _, _, _, hpart, -⟩ | ⟨_, _, _, _, ty, _, hpart, hnote⟩)
    · cases hpart
    · cases hpart
      rw [hinfo] at hnote
      cases hnote
      exact ⟨ty, rfl⟩
  · rintro ⟨ty, rfl⟩
    exact .inr ⟨node, op, before, operand, ty, operator, rfl, hinfo⟩

end Site

/-- The slots of the frame that are written at a site are those of the plain names that are written there. -/
theorem Visited.writes_iff {A : Finished} (hk : Known A.notes) {w : Site} (h : Visited A w) :
    ∃ mode f, Reached A w.place mode f ∧
      ∀ slot, w.Writes A.notes slot ↔ ∃ name ty, ⟨name, .ref⟩ ∈ w.part.uses ∧ f.lookup? name = some (slot, ty) := by
  obtain ⟨p, part⟩ := w
  cases part with
  | stmt st =>
    obtain ⟨ctx, mode, s, s', -, hat, -⟩ := h
    exact ⟨mode, s.frame, hat.reached, fun slot => by simp [Site.Writes, Part.uses]⟩
  | result e =>
    obtain ⟨ctx, declared, s, s', -, hat, -⟩ := h
    exact ⟨_, s.frame, hat.reached, fun slot => by simp [Site.Writes, Part.uses]⟩
  | expr e =>
    obtain ⟨ctx, mode, s, s', -, hat, hh⟩ := h
    refine ⟨mode, s.frame, hat.reached, fun slot => ?_⟩
    cases e with
    | assign node left value =>
      obtain ⟨hint, t, hv⟩ := hh.as_value rfl
      obtain ⟨target, expected, found, u, v, htarget, -, -, -, -, hinfo⟩ := hv.assign hk
      rw [Site.writes_assign_iff hinfo, htarget.target_local_iff]
      simp [Part.uses]
    | unary node op operand =>
      cases op with
      | step op before =>
        obtain ⟨hint, t, hv⟩ := hh.as_value rfl
        obtain ⟨target, operator, u, htarget, hinfo⟩ := hv.step hk
        rw [Site.writes_step_iff hinfo, htarget.target_local_iff]
        simp [Part.uses]
      | _ => simp [Site.Writes, Part.uses]
    | identifier node name typeArgs =>
      cases typeArgs <;> simp [Site.Writes, Part.uses]
    | _ => simp [Site.Writes, Part.uses]

section Sites

variable {A : Finished} {script : Script} {root : ItemId}

/-- From a slot that is written, captures lead outward by reference only. -/
theorem kind_of_write (hsites : A.sites = script.sites root) (hcapturer : A.capturer = captures) (hk : Known A.notes)
    {w : Site} (hw : w ∈ script.sites root) (hv : Visited A w) {slot : Nat} (hwrites : w.Writes A.notes slot)
    {inner outer : List Owner} {o : Owner} (howners : w.place.levels.map (·.owner) = inner ++ o :: outer) {c : CaptureInfo}
    (hc : c ∈ o.captures A.notes) (hcarries : Carries A.notes inner slot c.slot) : c.kind = .ref := by
  obtain ⟨mode, f, hreached, hiff⟩ := hv.writes_iff hk
  obtain ⟨x, ty, huse, hlookup⟩ := (hiff slot).1 hwrites
  have hscope : InScope A.notes w.place f := hreached.inScope hsites hcapturer
  obtain ⟨inner, l, outer, hlevels, rfl, rfl, hinner, hl⟩ := (hscope.holds hlookup).unbound_of_carries hc howners hcarries
  have hpart : l.owner.part? ≠ none := by
    cases ho : l.owner with
    | script => simp [ho, Owner.captures] at hc
    | func id => simp [ho, Owner.captures] at hc
    | lambda node params ret body => simp [Owner.part?]
    | task node block => simp [Owner.part?]
  have hused : UsedAt (· = .ref) c.name (l :: outer) (script.sites root) :=
    ⟨w, hw, ⟨.ref, rfl, huse⟩, inner, hlevels, hinner⟩
  obtain ⟨kind, rfl, hneed⟩ := Script.needs_of_use (by simp) hused hpart hl
  obtain ⟨g, hwired⟩ := hscope.wired l (by simp [hlevels])
  exact hwired.kind_eq hc hneed

/-- A capture by reference is carried into a slot that is written, in the body or in a body nested in it. -/
theorem write_of_kind (hsites : A.sites = script.sites root) (hcapturer : A.capturer = captures) (hk : Known A.notes)
    (hvisited : ∀ w ∈ script.sites root, Visited A w) {p : Place} {part : Part} {o : Owner}
    (hsite : ⟨p, part⟩ ∈ script.sites root) (ho : o.part? = some part) {c : CaptureInfo} (hc : c ∈ o.captures A.notes)
    (hkind : c.kind = .ref) :
    ∃ w ∈ o.inside p, ∃ inner slot, w.place.levels.map (·.owner) = inner ++ o :: p.levels.map (·.owner) ∧
      w.Writes A.notes slot ∧ Carries A.notes inner slot c.slot := by
  obtain ⟨mode, f, hreached, hwired⟩ := (hvisited _ hsite).wired hcapturer ho
  obtain ⟨hneed, outerSlot, hlookup, -⟩ := hwired.of_mem hc
  rw [hkind] at hneed
  -- A write of the name in the body, and what the name refers to there.
  have huses : Uses (· = .ref) c.name o.needs := ⟨.ref, rfl, hneed⟩
  obtain ⟨w, hw, ⟨kind, rfl, huse⟩, hfree⟩ := (o.uses_needs (by simp)).1 huses
  have hwsite := script.inside_subset hsite ho hw
  obtain ⟨wmode, g, hwreached, hiff⟩ := (hvisited w hwsite).writes_iff hk
  have hscope : InScope A.notes p f := hreached.inScope hsites hcapturer
  have hwscope : InScope A.notes w.place g := hwreached.inScope hsites hcapturer
  have hresolve : resolve c.name w.place.levels ≠ none := by
    obtain ⟨around, decl, declared, hresolve, -⟩ := (hscope.holds hlookup).origin
    rw [hfree.resolve_eq, hresolve]
    simp
  have hused : UsedAt (fun _ => True) c.name w.place.levels (script.sites root) :=
    ⟨w, hwsite, ⟨.ref, trivial, huse⟩, [], rfl, by simp⟩
  obtain ⟨slot, ty, hfound⟩ := hwscope.visible (fun _ => trivial) hused hresolve
  -- The slot of the name there comes by captures from the capture of the body.
  obtain ⟨inner, l, hlevels, rfl⟩ := Owner.levels_of_inside hw
  obtain ⟨⟨inner, hlevels, hinner⟩, hl⟩ := (unbound_cons ⟨inner, hlevels⟩).1 hfree
  have hholds := hwscope.holds hfound
  rw [hlevels] at hholds
  obtain ⟨d, hd, hname, hcarries⟩ := hholds.carries hl hinner
  rw [hwired.eq_of_name hc hd hname] at hcarries
  exact ⟨w, hw, inner.map (·.owner), slot, by simp [hlevels], (hiff slot).2 ⟨c.name, ty, huse, hfound⟩, hcarries⟩

end Sites

/-! ### The main statement -/

/-- After an analysis with the default capturer, no write to a captured variable is lost. A capture of a lambda or a task is
by reference exactly if, at a site in its body or in a body nested in that, a slot is written that the capture is carried into.
And from any slot that is written, all captures on the way out are by reference; so the slot of a capture by copy is never
written. The nodes of the script have to be different ones. -/
theorem captures_by_reference_are_those_written (setup : Setup) (script : Script) (out : Output) (hn : script.ids.Nodup)
    (hcapturer : setup.capturer = captures) (h : analyze setup script = .ok (.ok out)) :
    (∀ (p : Place) (part : Part) (o : Owner), ⟨p, part⟩ ∈ script.sites (.root setup.moduleName) → o.part? = some part →
      ∀ c ∈ o.captures out.nodes, (c.kind = .ref ↔ ∃ w ∈ o.inside p, ∃ inner slot,
        w.place.levels.map (·.owner) = inner ++ o :: p.levels.map (·.owner) ∧ w.Writes out.nodes slot ∧
          Carries out.nodes inner slot c.slot)) ∧
    (∀ w ∈ script.sites (.root setup.moduleName), ∀ slot, w.Writes out.nodes slot →
      ∀ inner o outer, w.place.levels.map (·.owner) = inner ++ o :: outer → ∀ c ∈ o.captures out.nodes,
        Carries out.nodes inner slot c.slot → c.kind = .ref) := by
  have hvisited := analyze_visited hn h
  have hk := analyze_known h
  have hwritten : ∀ w ∈ script.sites (.root setup.moduleName), ∀ slot, w.Writes out.nodes slot →
      ∀ inner o outer, w.place.levels.map (·.owner) = inner ++ o :: outer → ∀ c ∈ o.captures out.nodes,
        Carries out.nodes inner slot c.slot → c.kind = .ref := by
    intro w hw slot hwrites inner o outer howners c hc hcarries
    exact kind_of_write rfl hcapturer hk hw (hvisited w hw) hwrites howners hc hcarries
  refine ⟨?_, hwritten⟩
  intro p part o hsite ho c hc
  constructor
  · exact write_of_kind rfl hcapturer hk hvisited hsite ho hc
  · rintro ⟨w, hw, inner, slot, howners, hwrites, hcarries⟩
    exact hwritten w (script.inside_subset hsite ho hw) slot hwrites inner o _ howners c hc hcarries

/-- In the sample script, the task captures by reference a variable that a lambda inside it steps, and by copy one that is
only read. -/
theorem sample_captures_by_reference : ∃ (out : Output) (p : Place) (part : Part) (o : Owner) (c d : CaptureInfo),
    Sample.script.ids.Nodup ∧ Sample.setup.capturer = captures ∧ analyze Sample.setup Sample.script = .ok (.ok out) ∧
      ⟨p, part⟩ ∈ Sample.script.sites (.root Sample.setup.moduleName) ∧ o.part? = some part ∧
      o.captures out.nodes = [c, d] ∧ c.kind = .ref ∧ d.kind = .copy ∧
      (∃ w ∈ o.inside p, ∃ inner slot, w.place.levels.map (·.owner) = inner ++ o :: p.levels.map (·.owner) ∧
        w.Writes out.nodes slot ∧ Carries out.nodes inner slot c.slot) ∧
      ¬∃ w ∈ o.inside p, ∃ inner slot, w.place.levels.map (·.owner) = inner ++ o :: p.levels.map (·.owner) ∧
        w.Writes out.nodes slot ∧ Carries out.nodes inner slot d.slot := by
  obtain ⟨out, hout⟩ := Sample.output
  obtain ⟨p, part, o, hsite, ho, hcaptured⟩ : ∃ (p : Place) (part : Part) (o : Owner),
      ⟨p, part⟩ ∈ Sample.script.sites (.root Sample.setup.moduleName) ∧ o.part? = some part ∧
      (o.captures out.nodes).map (·.kind) = [.ref, .copy] := by
    refine ⟨_, _, .task (Sample.nd 61) _, List.mem_of_getElem? (i := 35) rfl, rfl, ?_⟩
    -- What is noted for a task does not depend on its block, so an empty one stands for it.
    have hrun : ((analyze Sample.setup Sample.script).toOption.bind Except.toOption).all (fun out =>
        ((Owner.task (Sample.nd 61) (.mk (Sample.nd 62) [])).captures out.nodes).map (·.kind) = [.ref, .copy]) = true := by
      decide +kernel
    rw [hout] at hrun
    exact of_decide_eq_true hrun
  obtain ⟨c, rest, hcaptures, hc, hrest⟩ := List.map_eq_cons_iff.1 hcaptured
  obtain ⟨d, rest, rfl, hd, hrest⟩ := List.map_eq_cons_iff.1 hrest
  rw [List.map_eq_nil_iff.1 hrest] at hcaptures
  have hkinds := (captures_by_reference_are_those_written Sample.setup Sample.script out Sample.ids_nodup rfl hout).1
    p part o hsite ho
  have hmem : c ∈ o.captures out.nodes ∧ d ∈ o.captures out.nodes := by simp [hcaptures]
  refine ⟨out, p, part, o, c, d, Sample.ids_nodup, rfl, hout, hsite, ho, hcaptures, hc, hd, (hkinds c hmem.1).1 hc, ?_⟩
  intro hwritten
  rw [(hkinds d hmem.2).2 hwritten] at hd
  cases hd

end ScriptCheck

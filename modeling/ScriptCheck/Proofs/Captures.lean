import ScriptCheck.Proofs.Nesting
import ScriptCheck.Proofs.Walk

/-!
# What lambdas and tasks carry in

A lambda or a task needs the outer names that are used in its body and bound nowhere inside it (`Owner.uses_needs`), so a use
further in is needed by every body on the way out to the one that binds the name (`Script.needs_of_use`). Of the names it
needs, it carries in those that the frame around it has (`Owner.Wired`): each once, in a slot of its own behind the parameters.
-/

namespace ScriptCheck

/-! ### The names a body needs -/

/-- The outer names that a lambda or a task needs. -/
def Owner.needs : Owner → List CaptureNeed
  | .script => []
  | .func _ => []
  | .lambda _ params _ body => captures (params.map (·.name)) body
  | .task _ block => captures [] (.block block)

theorem Owner.nodup_needs (o : Owner) : (o.needs.map (·.name)).Nodup := by
  cases o with
  | script => exact List.nodup_nil
  | func id => exact List.nodup_nil
  | lambda node params ret body => exact nodup_captures _ _
  | task node block => exact nodup_captures _ _

/-- A body does not need the names of its parameters. -/
theorem name_not_mem_of_mem_captures {params : List String} {body : Body} {need : CaptureNeed}
    (h : need ∈ captures params body) : need.name ∉ params := by
  obtain ⟨kind, huse⟩ := exists_mem_captures.1 ⟨need.kind, h⟩
  have hfree := body.freeUses_append params []
  rw [List.nil_append] at hfree
  rw [hfree] at huse
  exact (CaptureNeed.mem_unbound.1 huse).2

section Uses

variable {keep : CaptureKind → Prop} {x : String}

/-- The needs of a body keep the kinds of its free uses, up to reads of what is also written. -/
theorem uses_captures (hk : keep .copy → keep .ref) {params : List String} {body : Body} :
    Uses keep x (captures params body) ↔ Uses keep x (body.freeUses params) := by
  have hall : keep .copy → ∀ kind, keep kind := fun hc kind => by
    cases kind with
    | copy => exact hc
    | ref => exact hk hc
  constructor
  · rintro ⟨kind, hkind, hmem⟩
    cases kind with
    | ref => exact ⟨.ref, hkind, mem_captures_ref.1 hmem⟩
    | copy =>
      obtain ⟨kind, huse⟩ := exists_mem_captures.1 ⟨.copy, hmem⟩
      exact ⟨kind, hall hkind kind, huse⟩
  · rintro ⟨kind, hkind, huse⟩
    cases kind with
    | ref => exact ⟨.ref, hkind, mem_captures_ref.2 huse⟩
    | copy =>
      obtain ⟨kind, hmem⟩ := exists_mem_captures.2 ⟨.copy, huse⟩
      exact ⟨kind, hall hkind kind, hmem⟩

/-- A lambda or a task needs the names that are used at the sites in its body and bound nowhere inside it. -/
theorem Owner.uses_needs (hk : keep .copy → keep .ref) (o : Owner) {p : Place} :
    Uses keep x o.needs ↔ UsedAt keep x p.levels (o.inside p) := by
  cases o with
  | script => simp [needs, inside]
  | func id => simp [needs, inside]
  | lambda node params ret body =>
    have hbody := body.uses_iff (x := x) hk (p := p.enter (.lambda node params ret body) (LambdaParam.visible params)) rfl
    have hnames : ∀ y, y ∈ params.map (·.name) ↔
        y ∈ (p.enter (.lambda node params ret body) (LambdaParam.visible params)).names := by
      intro y
      simp [Place.names, Place.enter, LambdaParam.visible]
    rw [needs, uses_captures hk, Body.freeUses_congr hnames, hbody]
    rfl
  | task node block =>
    have hblock := block.uses_iff (x := x) hk (p := p.enter (.task node block) [])
    rw [needs, uses_captures hk]
    exact hblock

/-- A name that is used at a site is needed by each lambda or task around the site, up to the body that binds it. -/
theorem Script.needs_of_use (hk : keep .copy → keep .ref) {root : ItemId} {script : Script} {l : Level} {outer : List Level}
    (huse : UsedAt keep x (l :: outer) (script.sites root)) (hl : l.owner.part? ≠ none) (hfind : l.find? x = none) :
    Uses keep x l.owner.needs := by
  obtain ⟨w, hw, huse, inner, hlevels, hinner⟩ := huse
  obtain ⟨q, part, -, -, hq, hin⟩ := script.nested hw hlevels hl
  rw [l.owner.uses_needs hk (p := q), hq]
  refine ⟨w, hin, huse, inner ++ [l], by simp [hlevels], ?_⟩
  simp only [List.mem_append, List.mem_singleton]
  rintro m (hm | rfl)
  · exact hinner m hm
  · exact hfind

end Uses

/-! ### The captures of a body -/

/-- What the notes say that a lambda or a task carries in. -/
def Owner.captures (notes : NodeMap) : Owner → List CaptureInfo
  | .script => []
  | .func _ => []
  | .lambda node _ _ _ =>
    match notes.info? node.id with
    | some (.lambda info) => info.captures
    | _ => []
  | .task node _ =>
    match notes.info? node.id with
    | some (.task info) => info.captures
    | _ => []

/-- The number of slots that come before those of the captures. -/
def Owner.arity : Owner → Nat
  | .lambda _ params _ _ => params.length
  | _ => 0

namespace PendingCapture

variable {c d : CaptureInfo}

theorem slot_of_mem_numbered : ∀ {cs : List PendingCapture} {k : Nat}, c ∈ numbered k cs →
    k ≤ c.slot ∧ c.slot < k + cs.length
  | [], k, h => by simp [numbered] at h
  | p :: ps, k, h => by
    rcases List.mem_cons.1 h with rfl | h
    · simp
    · have ih := slot_of_mem_numbered h
      simp only [List.length_cons]
      omega

theorem eq_of_slot_eq : ∀ {cs : List PendingCapture} {k : Nat}, c ∈ numbered k cs → d ∈ numbered k cs → d.slot = c.slot → d = c
  | [], k, hc, _, _ => by simp [numbered] at hc
  | p :: ps, k, hc, hd, h => by
    rcases List.mem_cons.1 hc with rfl | hc <;> rcases List.mem_cons.1 hd with rfl | hd
    · rfl
    · have hle := (slot_of_mem_numbered hd).1
      simp only at h
      omega
    · have hle := (slot_of_mem_numbered hc).1
      simp only at h
      omega
    · exact eq_of_slot_eq hc hd h

theorem map_name_numbered : ∀ (cs : List PendingCapture) (k : Nat), (numbered k cs).map (·.name) = cs.map (·.name)
  | [], k => rfl
  | p :: ps, k => by rw [numbered, List.map_cons, List.map_cons, map_name_numbered ps]

theorem of_mem_numbered : ∀ {cs : List PendingCapture} {k : Nat}, c ∈ numbered k cs → ⟨c.name, c.kind, c.storage, c.ty⟩ ∈ cs
  | [], k, h => by simp [numbered] at h
  | p :: ps, k, h => by
    rcases List.mem_cons.1 h with rfl | h
    · exact List.mem_cons_self
    · exact List.mem_cons_of_mem _ (of_mem_numbered h)

end PendingCapture

namespace Frame

variable {f : Frame} {needs : List CaptureNeed}

theorem mem_carried {c : PendingCapture} (h : c ∈ f.carried needs) :
    ⟨c.name, c.kind⟩ ∈ needs ∧ ∃ slot, f.lookup? c.name = some (slot, c.ty) ∧ c.storage = .localSlot slot := by
  obtain ⟨need, hneed, hc⟩ := List.mem_filterMap.1 h
  obtain ⟨⟨slot, ty⟩, hfind, rfl⟩ := Option.map_eq_some_iff.1 hc
  exact ⟨hneed, slot, hfind, rfl⟩

theorem carried_of_mem {need : CaptureNeed} {slot : Nat} {ty : Ty} (h : need ∈ needs)
    (hfind : f.lookup? need.name = some (slot, ty)) : ⟨need.name, need.kind, .localSlot slot, ty⟩ ∈ f.carried needs :=
  List.mem_filterMap.2 ⟨need, h, by rw [hfind]; rfl⟩

theorem names_carried (f : Frame) : ∀ needs : List CaptureNeed, ((f.carried needs).map (·.name)).Sublist (needs.map (·.name))
  | [] => .slnil
  | need :: needs => by
    have ih := names_carried f needs
    cases h : f.lookup? need.name with
    | none =>
      simp only [carried, List.filterMap_cons, h, Option.map_none, List.map_cons]
      exact ih.cons _
    | some v =>
      simp only [carried, List.filterMap_cons, h, Option.map_some, List.map_cons]
      exact ih.cons_cons _

end Frame

/-- The notes have the captures of a body as they come from the frame around it. -/
def Owner.Wired (notes : NodeMap) (f : Frame) (o : Owner) : Prop :=
  o.captures notes = PendingCapture.numbered o.arity (f.carried o.needs)

namespace Owner.Wired

variable {notes : NodeMap} {f : Frame} {o : Owner} {c d : CaptureInfo}

theorem script : Owner.script.Wired notes f := rfl

theorem func {id : ItemId} : (Owner.func id).Wired notes f := rfl

theorem lambda {node : Node} {params : List LambdaParam} {ret : Option TypeExpr} {body : Body} {k : Nat}
    (h : notes.info? node.id = some (.lambda ⟨PendingCapture.numbered params.length
      (f.carried (ScriptCheck.captures (params.map (·.name)) body)), k⟩)) :
    (Owner.lambda node params ret body).Wired notes f := by
  rw [Owner.Wired, Owner.captures, h, Owner.arity, Owner.needs]

theorem task {node : Node} {block : Block} {k : Nat}
    (h : notes.info? node.id = some (.task ⟨PendingCapture.numbered 0
      (f.carried (ScriptCheck.captures [] (.block block))), k⟩)) : (Owner.task node block).Wired notes f := by
  rw [Owner.Wired, Owner.captures, h]
  rfl

/-- A capture is for a name that the body needs, and comes from the slot that the frame around has for the name. -/
theorem of_mem (h : o.Wired notes f) (hc : c ∈ o.captures notes) :
    ⟨c.name, c.kind⟩ ∈ o.needs ∧ ∃ slot, f.lookup? c.name = some (slot, c.ty) ∧ c.storage = .localSlot slot := by
  rw [h] at hc
  exact Frame.mem_carried (PendingCapture.of_mem_numbered hc)

theorem eq_of_slot (h : o.Wired notes f) (hc : c ∈ o.captures notes) (hd : d ∈ o.captures notes) (hs : d.slot = c.slot) :
    d = c := by
  rw [h] at hc hd
  exact PendingCapture.eq_of_slot_eq hc hd hs

theorem eq_of_name (h : o.Wired notes f) (hc : c ∈ o.captures notes) (hd : d ∈ o.captures notes) (hn : d.name = c.name) :
    d = c := by
  have hnodup : ((o.captures notes).map (·.name)).Nodup := by
    rw [h, PendingCapture.map_name_numbered]
    exact o.nodup_needs.sublist (f.names_carried _)
  exact List.inj_on_of_nodup_map hnodup hd hc hn

/-- The kind of a capture is the one that the body needs. -/
theorem kind_eq (h : o.Wired notes f) (hc : c ∈ o.captures notes) {kind : CaptureKind} (hn : ⟨c.name, kind⟩ ∈ o.needs) :
    c.kind = kind := by
  have heq := List.inj_on_of_nodup_map o.nodup_needs (h.of_mem hc).1 hn rfl
  exact congrArg CaptureNeed.kind heq

end Owner.Wired

/-- The captures of a lambda or a task that was visited come from a frame of its place. -/
theorem Visited.wired {A : Finished} (hcapturer : A.capturer = captures) {p : Place} {part : Part} {o : Owner}
    (h : Visited A ⟨p, part⟩) (ho : o.part? = some part) : ∃ mode f, Reached A p mode f ∧ o.Wired A.notes f := by
  cases o with
  | script => cases ho
  | func id => cases ho
  | lambda node params ret body =>
    cases ho
    obtain ⟨ctx, mode, s, s', hc, hat, hh⟩ := h
    obtain ⟨hint, t, hv⟩ := hh.as_value rfl
    obtain ⟨types, declared, v, entry, last, k, heff, -, -, -, hinfo, -⟩ := hv.lambda
    rw [hc.capturer, hcapturer] at hinfo
    exact ⟨mode, v.frame, (hat.expr heff).reached, .lambda hinfo⟩
  | task node block =>
    cases ho
    obtain ⟨ctx, mode, s, s', hc, hat, hst, -⟩ := h
    obtain ⟨entry, last, k, hinfo, -⟩ := hst.task
    rw [hc.capturer, hcapturer] at hinfo
    exact ⟨mode, s.frame, hat.reached, .task hinfo⟩

end ScriptCheck

import ScriptCheck.Proofs.Captures

/-!
# Names are scoped lexically

The walk finds the slot of a name in the frame at hand, and the captures of a body are found by a walk of their own along the
tree. `Holds` says that a slot of a frame is the one that lexical scoping asks for: the body declares the name itself, or it
carries the slot in from a body where that is so. `InScope` is what is true of a frame at every place that the walk reaches
(`Reached.inScope`): all that is visible in the frame is held as it should be, and all that is used there and declared
somewhere around is visible. The main result follows slots from an identifier outward to the declaration.
-/

namespace ScriptCheck

/-- Follows captures outward from a slot of the innermost of these bodies: the bodies and the slot where no capture leads
further out. -/
def origin (notes : NodeMap) : List Owner → Nat → List Owner × Nat
  | [], slot => ([], slot)
  | o :: os, slot =>
    match (o.captures notes).find? (·.slot = slot) with
    | some ⟨_, _, .localSlot outer, _, _⟩ => origin notes os outer
    | _ => (o :: os, slot)

/-- The slot is the one that the innermost of these bodies has for the variable that the name refers to. -/
inductive Holds (notes : NodeMap) (x : String) : List Level → Nat → Prop where
  | own {l : Level} {ls : List Level} {slot node : Nat} (hfind : l.find? x = some node)
      (hnote : notes.info? node = some (.varDecl (.localSlot slot)))
      (hfresh : ∀ c ∈ l.owner.captures notes, c.slot ≠ slot) : Holds notes x (l :: ls) slot
  | carried {l : Level} {ls : List Level} {slot outer : Nat} {c : CaptureInfo} (hfind : l.find? x = none)
      (hc : c ∈ l.owner.captures notes) (hname : c.name = x) (hslot : c.slot = slot)
      (hunique : ∀ d ∈ l.owner.captures notes, d.slot = slot → d = c) (hstorage : c.storage = .localSlot outer)
      (h : Holds notes x ls outer) : Holds notes x (l :: ls) slot

namespace Holds

variable {notes : NodeMap} {x : String} {l m : Level} {ls : List Level} {slot : Nat}

/-- Only the owner of the innermost body and what the name refers to in it matter. -/
theorem of_same (h : Holds notes x (l :: ls) slot) (howner : m.owner = l.owner) (hfind : m.find? x = l.find? x) :
    Holds notes x (m :: ls) slot := by
  cases h with
  | own hl hnote hfresh => exact .own (hfind.trans hl) hnote (howner ▸ hfresh)
  | carried hl hc hname hslot hunique hstorage h =>
    exact .carried (hfind.trans hl) (howner ▸ hc) hname hslot (howner ▸ hunique) hstorage h

/-- Captures lead outward from a slot that holds a variable to the slot of its declaration. -/
theorem origin (h : Holds notes x ls slot) : ∃ around node decl, resolve x ls = some (around, node) ∧
    notes.info? node = some (.varDecl (.localSlot decl)) ∧
    ScriptCheck.origin notes (ls.map (·.owner)) slot = (around.map (·.owner), decl) := by
  induction h with
  | @own l ls slot node hfind hnote hfresh =>
    have hnone : (l.owner.captures notes).find? (·.slot = slot) = none :=
      List.find?_eq_none.2 fun c hc => by simpa using hfresh c hc
    exact ⟨l :: ls, node, slot, by rw [resolve, hfind], hnote, by simp [ScriptCheck.origin, hnone]⟩
  | @carried l ls slot outer c hfind hc hname hslot hunique hstorage h ih =>
    obtain ⟨around, node, decl, hresolve, hnote, horigin⟩ := ih
    have hcapture : (l.owner.captures notes).find? (·.slot = slot) = some c := by
      cases hd : (l.owner.captures notes).find? (·.slot = slot) with
      | none => exact absurd hslot (by simpa using List.find?_eq_none.1 hd c hc)
      | some d => rw [hunique d (List.mem_of_find?_eq_some hd) (by simpa using List.find?_some hd)]
    refine ⟨around, node, decl, by rw [resolve, hfind]; exact hresolve, hnote, ?_⟩
    obtain ⟨name, kind, storage, ty, own⟩ := c
    subst hstorage
    rw [List.map_cons, ScriptCheck.origin, hcapture]
    exact horigin

end Holds

/-! ### What is visible in a frame -/

namespace Frame

variable {f : Frame} {x : String} {slot : Nat} {ty : Ty}

theorem find?_names_declareAll (x : String) : ∀ (vs : List (String × Ty)) {f : Frame},
    x ∈ vs.map (·.1) ∨ f.names.find? x ≠ none → (f.declareAll vs).names.find? x ≠ none
  | [], f, h => by simpa [declareAll] using h
  | v :: vs, f, h => by
    refine find?_names_declareAll x vs ?_
    rw [find?_names_declare]
    by_cases hv : v.1 = x
    · exact .inr (by simp [hv])
    · rw [if_neg hv]
      rcases h with h | h
      · exact .inl ((List.mem_cons.1 h).resolve_left (Ne.symm hv))
      · exact .inr h

theorem find?_of_lookup? (h : f.lookup? x = some (slot, ty)) : f.names.find? x = some slot := by
  simp only [lookup?, Option.bind_eq_bind, Option.bind_eq_some_iff, Option.pure_def, Option.some.injEq, Prod.mk.injEq] at h
  obtain ⟨slot', hfind, var, -, rfl, -⟩ := h
  exact hfind

end Frame

/-- Every visible name of a frame is held by its slot, and what the body declares is visible. -/
structure Scoped (notes : NodeMap) (l : Level) (outer : List Level) (f : Frame) : Prop where
  bound : f.Bounded
  holds : ∀ {x slot}, f.names.find? x = some slot → Holds notes x (l :: outer) slot
  found : ∀ {x}, l.find? x ≠ none → f.names.find? x ≠ none

/-- A body with one more variable. -/
def Level.declare (l : Level) (name : String) (node : Nat) : Level := { l with visible := (name, node) :: l.visible }

theorem Level.find?_declare (l : Level) (name x : String) (node : Nat) :
    (l.declare name node).find? x = if name = x then some node else l.find? x := by
  by_cases h : name = x <;> simp [declare, find?, h]

namespace Scoped

variable {notes : NodeMap} {l : Level} {outer : List Level} {f : Frame}

theorem empty {o : Owner} (hnames : f.names = .empty) : Scoped notes ⟨o, []⟩ outer f where
  bound x slot h := by simp [hnames] at h
  holds h := by simp [hnames] at h
  found h := by simp [Level.find?] at h

/-- A declaration: the new slot is none of the captures'. -/
theorem declare (h : Scoped notes l outer f) {name : String} {node : Nat} {ty : Ty}
    (hnote : notes.info? node = some (.varDecl (.localSlot f.size))) (hfresh : ∀ c ∈ l.owner.captures notes, c.slot ≠ f.size) :
    Scoped notes (l.declare name node) outer (f.declare name ty) where
  bound := h.bound.declare name ty
  holds {x slot} hx := by
    rw [Frame.find?_names_declare] at hx
    split at hx
    · rename_i hname
      cases hx
      exact .own (by rw [Level.find?_declare, if_pos hname]) hnote hfresh
    · rename_i hname
      exact (h.holds hx).of_same rfl (by rw [Level.find?_declare, if_neg hname])
  found {x} hx := by
    rw [Frame.find?_names_declare]
    rw [Level.find?_declare] at hx
    split
    · simp
    · rename_i hname
      rw [if_neg hname] at hx
      exact h.found hx

/-- A capture of a name that the body does not declare. -/
theorem carry (h : Scoped notes l outer f) {c : CaptureInfo} {slot : Nat} {ty : Ty} (hc : c ∈ l.owner.captures notes)
    (hslot : c.slot = f.size) (hunique : ∀ d ∈ l.owner.captures notes, d.slot = f.size → d = c)
    (hfind : l.find? c.name = none) (hstorage : c.storage = .localSlot slot) (hholds : Holds notes c.name outer slot) :
    Scoped notes l outer (f.declare c.name ty) where
  bound := h.bound.declare c.name ty
  holds {x slot} hx := by
    rw [Frame.find?_names_declare] at hx
    split at hx
    · rename_i hname
      cases hx
      subst hname
      exact .carried hfind hc rfl hslot hunique hstorage hholds
    · exact h.holds hx
  found {x} hx := by
    rw [Frame.find?_names_declare]
    split
    · simp
    · exact h.found hx

/-- Parameters, one after the other. -/
theorem params : ∀ {params : List (String × Nat)} {types : List Ty} {l : Level} {f : Frame}, Scoped notes l outer f →
    types.length = params.length →
    (∀ i n, (params.map (·.2))[i]? = some n → notes.info? n = some (.varDecl (.localSlot (f.size + i)))) →
    (∀ c ∈ l.owner.captures notes, f.size + params.length ≤ c.slot) →
    Scoped notes ⟨l.owner, params.reverse ++ l.visible⟩ outer (f.declareAll ((params.map (·.1)).zip types))
  | [], types, l, f, h, hlen, hnote, hfresh => h
  | (name, node) :: ps, [], l, f, h, hlen, hnote, hfresh => by simp at hlen
  | (name, node) :: ps, ty :: tys, l, f, h, hlen, hnote, hfresh => by
    have hfirst : notes.info? node = some (.varDecl (.localSlot f.size)) := by simpa using hnote 0 node (by simp)
    have hstep : Scoped notes (l.declare name node) outer (f.declare name ty) :=
      h.declare hfirst fun c hc => by
        have hle := hfresh c hc
        simp only [List.length_cons] at hle
        omega
    have ih : Scoped notes ⟨l.owner, ps.reverse ++ (l.declare name node).visible⟩ outer
        ((f.declare name ty).declareAll ((ps.map (·.1)).zip tys)) := Scoped.params hstep (by simpa using hlen)
      (fun i n hi => by
        have hrest := hnote (i + 1) n (by simpa using hi)
        rw [hrest, Frame.size_declare, Nat.add_assoc, Nat.add_comm 1 i])
      (fun c hc => by
        have hle := hfresh c hc
        simp only [List.length_cons] at hle
        rw [Frame.size_declare]
        omega)
    simpa [Level.declare, Frame.declareAll] using ih

/-- The start of a body: the parameters have the first slots, and captures come after them. -/
theorem entry {o : Owner} {params : List (String × Nat)} {types : List Ty} (hnames : f.names = .empty) (hsize : f.size = 0)
    (hlen : types.length = params.length) (hslots : NotedSlots notes (params.map (·.2)) params.length)
    (hfresh : ∀ c ∈ o.captures notes, params.length ≤ c.slot) :
    Scoped notes ⟨o, params.reverse⟩ outer (f.declareAll ((params.map (·.1)).zip types)) := by
  have hstart : Scoped notes ⟨o, []⟩ outer f := .empty hnames
  have hentry := hstart.params hlen
    (fun i n hi => by
      have hlt : i < params.length := by simpa using (List.getElem?_eq_some_iff.1 hi).1
      rw [hsize, Nat.zero_add]
      exact hslots i n hlt hi)
    (fun c hc => by
      rw [hsize, Nat.zero_add]
      exact hfresh c hc)
  simpa using hentry

/-- Captures, one after the other. -/
theorem captures : ∀ (pending : List PendingCapture) {f : Frame}, Scoped notes l outer f →
    (∀ c ∈ PendingCapture.numbered f.size pending, c ∈ l.owner.captures notes ∧
      (∀ d ∈ l.owner.captures notes, d.slot = c.slot → d = c) ∧ l.find? c.name = none ∧
      ∃ slot, c.storage = .localSlot slot ∧ Holds notes c.name outer slot) →
    Scoped notes l outer (f.declareAll (pending.map fun c => (c.name, c.ty)))
  | [], f, h, hcs => h
  | p :: ps, f, h, hcs => by
    obtain ⟨hc, hunique, hfind, slot, hstorage, hholds⟩ := hcs _ List.mem_cons_self
    have hstep : Scoped notes l outer (f.declare p.name p.ty) := h.carry hc rfl hunique hfind hstorage hholds
    refine Scoped.captures ps hstep fun c hc => ?_
    rw [Frame.size_declare] at hc
    exact hcs c (List.mem_cons_of_mem _ hc)

end Scoped

/-! ### What is in scope at a place -/

/-- What holds of a frame that the walk has at a place. -/
structure InScope (notes : NodeMap) (p : Place) (f : Frame) : Prop where
  names : Scoped notes p.here p.outer f
  /-- What the body needs and is declared around it, is visible. -/
  needed : ∀ need ∈ p.here.owner.needs, resolve need.name p.outer ≠ none → f.names.find? need.name ≠ none
  slots : ∀ c ∈ p.here.owner.captures notes, c.slot < f.size
  wired : ∀ l ∈ p.levels, ∃ f, l.owner.Wired notes f
  top : p.here.owner.part? = none → p.outer = []

namespace InScope

variable {notes : NodeMap} {p : Place} {f : Frame} {script : Script} {root : ItemId}

/-- A name that is visible is declared here or further out, and its slot is the one to have. -/
theorem holds (h : InScope notes p f) {x : String} {slot : Nat} {ty : Ty} (hlookup : f.lookup? x = some (slot, ty)) :
    Holds notes x p.levels slot := h.names.holds (Frame.find?_of_lookup? hlookup)

/-- A name that is used further in, and declared here or further out, is visible. -/
theorem visible (h : InScope notes p f) {x : String} {keep : CaptureKind → Prop} (hk : keep .copy → keep .ref)
    (huse : UsedAt keep x p.levels (script.sites root)) (hresolve : resolve x p.levels ≠ none) :
    ∃ slot ty, f.lookup? x = some (slot, ty) := by
  have hnames : f.names.find? x ≠ none := by
    cases hfind : p.here.find? x with
    | some node => exact h.names.found (by simp [hfind])
    | none =>
      have houter : resolve x p.outer ≠ none := by simpa [Place.levels, resolve, hfind] using hresolve
      have hpart : p.here.owner.part? ≠ none := fun hnone => houter (by rw [h.top hnone, resolve])
      obtain ⟨kind, -, hneed⟩ := Script.needs_of_use hk huse hpart hfind
      exact h.needed ⟨x, kind⟩ hneed houter
  obtain ⟨slot, hslot⟩ := Option.ne_none_iff_exists'.1 hnames
  exact ⟨slot, h.names.bound.lookup? hslot⟩

theorem grow (h : InScope notes p f) {g : Frame} (hg : f.Grows g) : InScope notes p g where
  names := by
    have hle : f.size ≤ g.size := hg.locals.length_le
    refine ⟨fun x slot hx => ?_, fun {x slot} hx => ?_, fun {x} hx => ?_⟩
    · rw [hg.names] at hx
      exact Nat.lt_of_lt_of_le (h.names.bound x slot hx) hle
    · rw [hg.names] at hx
      exact h.names.holds hx
    · rw [hg.names]
      exact h.names.found hx
  needed need hneed hresolve := by
    rw [hg.names]
    exact h.needed need hneed hresolve
  slots c hc := Nat.lt_of_lt_of_le (h.slots c hc) hg.locals.length_le
  wired := h.wired
  top := h.top

theorem declare (h : InScope notes p f) {name : String} {node : Nat} {ty : Ty} (hlocal : p.global = false)
    (hslot : notes.info? node = some (.varDecl (.localSlot f.size))) :
    InScope notes (p.declare name node) (f.declare name ty) := by
  have hplace : p.declare name node = { p with here := p.here.declare name node } := by
    simp [Place.declare, hlocal, Level.declare]
  rw [hplace]
  refine ⟨h.names.declare hslot fun c hc => Nat.ne_of_lt (h.slots c hc), ?_, ?_, ?_, h.top⟩
  · intro need hneed hresolve
    exact Frame.find?_names_declareAll _ [(name, ty)] (.inr (h.needed need hneed hresolve))
  · intro c hc
    rw [Frame.size_declare]
    exact Nat.lt_succ_of_lt (h.slots c hc)
  · intro l hl
    rcases List.mem_cons.1 hl with rfl | hl
    · exact h.wired p.here List.mem_cons_self
    · exact h.wired l (List.mem_cons_of_mem _ hl)

/-- The body of a lambda or a task: its parameters come first, and after them what it carries in. -/
theorem closure (h : InScope notes p f) {o : Owner} {params : List (String × Nat)} {types : List Ty} {mode : ReturnMode}
    (hpart : o.part? ≠ none) (hwired : o.Wired notes f) (harity : o.arity = params.length) (hlen : types.length = params.length)
    (hslots : NotedSlots notes (params.map (·.2)) params.length)
    (hparams : ∀ need ∈ o.needs, need.name ∉ params.map (·.1)) (hsites : o.inside p ⊆ script.sites root) :
    InScope notes (p.enter o params) (.closure mode ((params.map (·.1)).zip types) (f.carried o.needs)) := by
  have hsize : ((Frame.enter mode none false).declareAll ((params.map (·.1)).zip types)).size = params.length := by
    rw [Frame.size_declareAll, List.length_zip, List.length_map, hlen, Nat.min_self]
    exact Nat.zero_add _
  have hcaptures : o.captures notes = PendingCapture.numbered params.length (f.carried o.needs) := by
    rw [← harity]
    exact hwired
  have hentry : Scoped notes ⟨o, params.reverse⟩ p.levels
      ((Frame.enter mode none false).declareAll ((params.map (·.1)).zip types)) := by
    refine .entry rfl rfl hlen hslots fun c hc => ?_
    rw [hcaptures] at hc
    exact (PendingCapture.slot_of_mem_numbered hc).1
  refine ⟨?_, ?_, ?_, ?_, fun hnone => absurd hnone hpart⟩
  · refine Scoped.captures _ hentry ?_
    intro c hc
    rw [hsize, ← hcaptures] at hc
    obtain ⟨hneed, slot, hlookup, hstorage⟩ := hwired.of_mem hc
    refine ⟨hc, fun d hd => hwired.eq_of_slot hc hd, ?_, slot, hstorage, h.holds hlookup⟩
    have hnot := hparams _ hneed
    exact Level.find?_eq_none.2 (by simpa [Place.enter] using hnot)
  · intro need hneed hresolve
    have huses : Uses (fun _ => True) need.name o.needs := ⟨need.kind, trivial, hneed⟩
    have huse : UsedAt (fun _ => True) need.name p.levels (script.sites root) := by
      obtain ⟨w, hw, hused⟩ := (o.uses_needs (fun _ => trivial)).1 huses
      exact ⟨w, hsites hw, hused⟩
    obtain ⟨slot, ty, hlookup⟩ := h.visible (fun _ => trivial) huse hresolve
    refine Frame.find?_names_declareAll _ _ (.inl ?_)
    simp only [List.map_map, List.mem_map]
    exact ⟨_, Frame.carried_of_mem hneed hlookup, rfl⟩
  · intro c hc
    have hc' : c ∈ o.captures notes := hc
    rw [hcaptures] at hc'
    rw [Frame.closure, Frame.size_declareAll, hsize, List.length_map]
    exact (PendingCapture.slot_of_mem_numbered hc').2
  · intro l hl
    rcases List.mem_cons.1 hl with rfl | hl
    · exact ⟨f, hwired⟩
    · exact h.wired l hl

end InScope

theorem FuncRecord.names_frame (r : FuncRecord) : r.frame.names = .empty := by
  unfold frame
  split <;> rfl

section Sites

variable {A : Finished} {script : Script} {root : ItemId}

/-- At every place that the walk reaches, the frame has in scope what lexical scoping says. -/
theorem Reached.inScope (hsites : A.sites = script.sites root) (hcapturer : A.capturer = captures) {p : Place}
    {mode : ReturnMode} {f : Frame} (h : Reached A p mode f) : InScope A.notes p f := by
  induction h with
  | script =>
    refine ⟨.empty rfl, by simp [Place.script, Owner.needs], by simp [Place.script, Owner.captures], ?_, fun _ => rfl⟩
    intro l hl
    rw [List.mem_singleton.1 hl]
    exact ⟨.script, .script⟩
  | @func outer decl record hrecord hlength hslots =>
    refine ⟨?_, by simp [FuncDecl.place, Owner.needs], by simp [FuncDecl.place, Owner.captures], ?_, fun _ => rfl⟩
    · rw [← FuncParam.map_name_visible]
      refine .entry record.names_frame record.size_frame (by simp [hlength]) ?_ (by simp [Owner.captures])
      rw [FuncParam.map_node_visible, FuncParam.length_visible, ← hlength]
      exact hslots
    · intro l hl
      rw [List.mem_singleton.1 hl]
      exact ⟨record.frame, .func⟩
  | @lambda p outer mode final f node params ret body types k houter hinside htypes hslots hcaptures hret htype ih =>
    rw [hcapturer] at hcaptures ⊢
    rw [hsites] at hinside
    have hwired : (Owner.lambda node params ret body).Wired A.notes f := .lambda hcaptures
    have hclosure : InScope A.notes (p.enter (.lambda node params ret body) (LambdaParam.visible params))
        (.closure mode (((LambdaParam.visible params).map (·.1)).zip types)
          (f.carried (captures (params.map (·.name)) body))) := by
      refine ih.closure (by simp [Owner.part?]) hwired (by simp [Owner.arity]) (by simp [htypes]) ?_ ?_
        fun w hw => hinside (List.mem_cons_of_mem _ hw)
      · rw [LambdaParam.map_node_visible, LambdaParam.length_visible]
        exact hslots
      · rw [LambdaParam.map_name_visible]
        exact fun need hneed => name_not_mem_of_mem_captures hneed
    rw [LambdaParam.map_name_visible] at hclosure
    exact hclosure
  | @task p outer f node block k houter hinside hcaptures ih =>
    rw [hcapturer] at hcaptures ⊢
    rw [hsites] at hinside
    have hwired : (Owner.task node block).Wired A.notes f := .task hcaptures
    have hclosure : InScope A.notes (p.enter (.task node block) [])
        (.closure (.fixed .void) ((([] : List (String × Nat)).map (·.1)).zip []) (f.carried (captures [] (.block block)))) :=
      ih.closure (by simp [Owner.part?]) hwired rfl rfl (fun i n hi => absurd hi (Nat.not_lt_zero i))
        (fun _ _ => List.not_mem_nil) fun w hw => hinside (List.mem_cons_of_mem _ hw)
    exact hclosure
  | inner h ih => exact ⟨ih.names, ih.needed, ih.slots, ih.wired, ih.top⟩
  | grow h hg ih => exact ih.grow hg
  | declare h hlocal hslot ih => exact ih.declare hlocal hslot

end Sites

/-! ### Identifiers -/

namespace Check

variable {fin : NodeMap} {ctx : Context} {node : Node} {name : String} {meaning : Meaning} {b : Bool} {s s' : State}

/-- The notes have an identifier as a variable of the frame exactly if the name is visible there. -/
def ReadsFrame (fin : NodeMap) (f : Frame) (name : String) (node : Nat) : Prop :=
  ∀ slot, fin.info? node = some (.storage (.localSlot slot)) ↔ ∃ ty, f.lookup? name = some (slot, ty)

/-- What is noted for an identifier shows whether it means a variable of the frame. -/
theorem readsFrame_of_meaning (hm : ctx.lookup s.frame s.globals name [] b = .ok meaning)
    (hnote : ∀ slot, fin.info? node.id = some (.storage (.localSlot slot)) ↔
      ∃ ty declared, meaning = .var (.localSlot slot) ty declared) :
    ReadsFrame fin s.frame name node.id := by
  intro slot
  rw [hnote]
  constructor
  · rintro ⟨ty, declared, rfl⟩
    exact ⟨declared, (Context.visible_of_lookup hm).2⟩
  · rintro ⟨declared, hvisible⟩
    rw [Context.lookup_of_visible hvisible] at hm
    exact ⟨_, declared, (Except.ok.inj hm).symm⟩

theorem Quiet.readsFrame_of_value {t : Ty} (hm : ctx.lookup s.frame s.globals name [] b = .ok meaning)
    (h : Quiet (typed node (Check.identifierValue ctx node name meaning)) s t s')
    (hfin : fin.info? node.id = s'.nodes.info? node.id) : ReadsFrame fin s.frame name node.id := by
  refine readsFrame_of_meaning hm fun slot => ?_
  obtain ⟨u, hu, rfl⟩ := quiet_typed.1 h
  rw [hfin]
  rcases hu.identifierValue with ⟨storage, declared, rfl, rfl⟩ | ⟨f, rfl, hf⟩
  · simp [State.setInfo, State.setType]
  · obtain ⟨_, -, -, -, rfl⟩ := hf.funcValue
    simp [State.setInfo, State.setType]

/-- A plain identifier is noted as a variable of the frame exactly if it is visible there, however it is used. -/
theorem Handled.readsFrame (h : Handled fin ctx (.identifier node name []) s s') : ReadsFrame fin s.frame name node.id := by
  have hself : node.id ∈ (Expr.identifier node name []).ids := Expr.node_mem_ids _
  cases h with
  | value h =>
    have hrun := h.toQuiet
    rw [expr] at hrun
    obtain ⟨x, hx, rfl⟩ := quiet_typed.1 hrun
    obtain ⟨args, u, meaning, ha, hm, hv⟩ := hx.identifier
    obtain ⟨rfl, rfl⟩ := ha.typeExprs_nil
    exact (quiet_typed.2 ⟨x, hv, rfl⟩).readsFrame_of_value hm (h.agrees.info? hself)
  | target h =>
    have hrun := h.toQuiet
    rw [Check.target] at hrun
    obtain ⟨args, u, storage, ty, declared, ha, hm, -, rfl⟩ := hrun.identifierTarget
    obtain ⟨rfl, rfl⟩ := ha.typeExprs_nil
    refine readsFrame_of_meaning hm fun slot => ?_
    rw [h.agrees.info? hself]
    simp [State.setInfo, State.setType]
  | receiver h =>
    obtain ⟨args, u, meaning, ha, hm, hr⟩ := h.toQuiet.receiver_identifier
    obtain ⟨rfl, rfl⟩ := ha.typeExprs_nil
    rcases hr with ⟨ty, rfl, -, rfl⟩ | ⟨ty, -, hv⟩
    · refine readsFrame_of_meaning hm fun slot => ?_
      rw [h.agrees.info? hself]
      simp [State.setInfo]
    · exact hv.readsFrame_of_value hm (h.agrees.info? hself)
  | callee h =>
    have hrun := h.toQuiet
    have hown := h.own
    rw [callable] at hrun
    obtain ⟨args, u, meaning, ha, hm, hr⟩ := hrun.identifierCallable
    obtain ⟨rfl, rfl⟩ := ha.typeExprs_nil
    rcases hr with ⟨f, rfl, rfl, rfl⟩ | ⟨ty, rfl, hv⟩
    · obtain ⟨g, -, hg, -⟩ := hown
      refine readsFrame_of_meaning hm fun slot => ?_
      rw [show fin.info? node.id = some (.func g) from hg]
      simp
    · exact hv.readsFrame_of_value hm (Agrees.info? hown (List.mem_singleton_self _))

end Check

/-! ### The main statement -/

/-- After an analysis with the default capturer, an identifier is noted as lexical scoping says. Where its name refers to a
parameter or a variable of a body around it, the note has a slot of the frame, and captures lead from that slot outward to the
slot that is noted for the declaration, in the body of the declaration. Where it refers to none, the note has no slot of the
frame. The nodes of the script have to be different ones. -/
theorem identifiers_are_scoped_lexically (setup : Setup) (script : Script) (out : Output) (hn : script.ids.Nodup)
    (hcapturer : setup.capturer = captures) (h : analyze setup script = .ok (.ok out)) :
    ∀ p node name, ⟨p, .expr (.identifier node name [])⟩ ∈ script.sites (.root setup.moduleName) →
      (∀ around decl, resolve name p.levels = some (around, decl) →
        ∃ slot declared, out.nodes.info? node.id = some (.storage (.localSlot slot)) ∧
          out.nodes.info? decl = some (.varDecl (.localSlot declared)) ∧
          origin out.nodes (p.levels.map (·.owner)) slot = (around.map (·.owner), declared)) ∧
      (resolve name p.levels = none → ∀ slot, out.nodes.info? node.id ≠ some (.storage (.localSlot slot))) := by
  intro p node name hsite
  obtain ⟨ctx, mode, s, s', -, hat, hhandled⟩ := analyze_visited hn h _ hsite
  have hreads : Check.ReadsFrame out.nodes s.frame name node.id := hhandled.readsFrame
  have hscope : InScope out.nodes p s.frame := hat.reached.inScope rfl hcapturer
  have huse : UsedAt (fun _ => True) name p.levels (script.sites (.root setup.moduleName)) :=
    ⟨_, hsite, by simp [Part.uses], [], rfl, by simp⟩
  constructor
  · intro around decl hresolve
    obtain ⟨slot, ty, hlookup⟩ := hscope.visible (fun _ => trivial) huse (by simp [hresolve])
    obtain ⟨around', decl', declared, hresolve', hnote, horigin⟩ := (hscope.holds hlookup).origin
    rw [hresolve'] at hresolve
    cases hresolve
    exact ⟨slot, declared, (hreads slot).2 ⟨ty, hlookup⟩, hnote, horigin⟩
  · intro hresolve slot hinfo
    obtain ⟨ty, hlookup⟩ := (hreads slot).1 hinfo
    obtain ⟨around, decl, declared, hresolve', -⟩ := (hscope.holds hlookup).origin
    rw [hresolve'] at hresolve
    cases hresolve

/-- In the sample script, the lambda inside the task uses a variable of the block around both: two captures lead to it. -/
theorem sample_is_scoped_lexically : ∃ out p around slot declared,
    Sample.script.ids.Nodup ∧ Sample.setup.capturer = captures ∧ analyze Sample.setup Sample.script = .ok (.ok out) ∧
      ⟨p, .expr (.identifier (Sample.nd 67) "last" [])⟩ ∈ Sample.script.sites (.root Sample.setup.moduleName) ∧
      p.levels.length = 3 ∧ around.length = 1 ∧ resolve "last" p.levels = some (around, 45) ∧
      out.nodes.info? 67 = some (.storage (.localSlot slot)) ∧ out.nodes.info? 45 = some (.varDecl (.localSlot declared)) ∧
      origin out.nodes (p.levels.map (·.owner)) slot = (around.map (·.owner), declared) := by
  obtain ⟨out, hout⟩ := Sample.output
  obtain ⟨p, around, hsite, hresolve, hdepth, htop⟩ : ∃ p around,
      ⟨p, .expr (.identifier (Sample.nd 67) "last" [])⟩ ∈ Sample.script.sites (.root Sample.setup.moduleName) ∧
      resolve "last" p.levels = some (around, 45) ∧ p.levels.length = 3 ∧ around.length = 1 := by
    refine ⟨_, _, List.mem_of_getElem? (i := 40) rfl, rfl, ?_, ?_⟩
    · rfl
    · rfl
  obtain ⟨slot, declared, hinfo, hdecl, horigin⟩ := (identifiers_are_scoped_lexically Sample.setup Sample.script out
    Sample.ids_nodup rfl hout p (Sample.nd 67) "last" hsite).1 around 45 hresolve
  exact ⟨out, p, around, slot, declared, Sample.ids_nodup, rfl, hout, hsite, hdepth, htop, hresolve, hinfo, hdecl, horigin⟩

end ScriptCheck

import ScriptCheck.Proofs.QuietStmts

/-!
# What changes of a state keep

Each change that a step makes to a state keeps a property of all the types that the state mentions, provided the types that
are put in have it; frames and states are treated the same way for every property, whatever it says about a type. Visible
names go on referring to slots that were made.
-/

namespace ScriptCheck

/-- What is put under a key last counts. -/
theorem Table.insertIn_insertIn {κ ν : Type} [DecidableEq κ] (k : κ) (v w : ν) (l : List (κ × ν)) :
    insertIn k w (insertIn k v l) = insertIn k w l := by
  induction l with
  | nil => simp [insertIn]
  | cons e rest ih =>
    obtain ⟨k', v'⟩ := e
    by_cases h : k' = k
    · simp [insertIn, h]
    · simp [insertIn, h, ih]

/-- A type that is noted over another takes its place. -/
theorem State.setType_setType (s : State) (node : Node) (t u : Ty) : (s.setType node t).setType node u = s.setType node u := by
  simp [setType, NodeMap.setType, NodeMap.dataOf, Table.insert, Table.find?, Table.findIn_insertIn,
    Table.insertIn_insertIn]

variable {Q : Ty → Prop}

/-! ### Frames -/

namespace Frame.AllTypes

variable {f : Frame}

/-- A new frame mentions its return type and element type. -/
theorem enter {mode : ReturnMode} {seqElem : Option Ty} {isThisCall : Bool} (hm : ∀ t ∈ mode.types, Q t)
    (hq : ∀ t ∈ seqElem, Q t) : (Frame.enter mode seqElem isThisCall).AllTypes Q :=
  ⟨by simp [Frame.enter], by simp [Frame.enter, Table.values, Table.empty], hm, hq⟩

/-- A variable has its type. -/
theorem declare (h : f.AllTypes Q) (name : String) {ty : Ty} (ht : Q ty) : (f.declare name ty).AllTypes Q := by
  refine ⟨fun v hv => ?_, h.overrides, h.ret, h.seqElem⟩
  rcases List.mem_append.1 hv with hv | hv
  · exact h.locals v hv
  · rw [List.mem_singleton.1 hv]
    exact ht

/-- So do several. -/
theorem declareAll (h : f.AllTypes Q) {vars : List (String × Ty)} (hv : ∀ v ∈ vars, Q v.2) :
    (f.declareAll vars).AllTypes Q := by
  induction vars generalizing f with
  | nil => exact h
  | cons v vs ih =>
    exact ih (h.declare v.1 (hv v List.mem_cons_self)) fun w hw => hv w (List.mem_cons_of_mem _ hw)

/-- A narrowed variable has the narrower type. -/
theorem narrow (h : f.AllTypes Q) (storage : Storage) {ty : Ty} (ht : Q ty) : (f.narrow storage ty).AllTypes Q := by
  refine ⟨h.locals, fun t hm => ?_, h.ret, h.seqElem⟩
  rcases Table.mem_values_insert hm with rfl | hm
  · exact ht
  · exact h.overrides t hm

/-- A variable that is no longer narrowed adds no type. -/
theorem widen (h : f.AllTypes Q) (storage : Storage) : (f.widen storage).AllTypes Q :=
  ⟨h.locals, fun t ht => h.overrides t (Table.mem_values_filterKeys ht), h.ret, h.seqElem⟩

/-- After a block its variables are gone. -/
theorem leaveBlock {g : Frame} (h : f.AllTypes Q) (hg : g.AllTypes Q) : (f.leaveBlock g).AllTypes Q :=
  ⟨h.locals, fun t ht => hg.overrides t (Table.mem_values_filterKeys ht), h.ret, h.seqElem⟩

/-- What a body carries in has the types of the frame it is carried in from. -/
theorem carried (h : f.AllTypes Q) {needs : List CaptureNeed} {c : PendingCapture} (hc : c ∈ f.carried needs) :
    Q c.ty ∧ ∃ slot, c.storage = .localSlot slot := by
  obtain ⟨need, -, hn⟩ := List.mem_filterMap.1 hc
  obtain ⟨⟨slot, ty⟩, hl, rfl⟩ := Option.map_eq_some_iff.1 hn
  exact ⟨h.lookup? hl, slot, rfl⟩

end Frame.AllTypes

/-! ### States -/

/-- What is noted for a node may be mentioned there. -/
theorem Ledger.Holds.dataOf {L : Ledger} {m : NodeMap} (h : L.Holds m) (n : Nat) :
    (∀ t ∈ (m.dataOf n).types, L.noted n t) ∧ ∀ f ∈ (m.dataOf n).funcs, L.bound f := by
  unfold NodeMap.dataOf
  cases hf : m.find? n with
  | none => simp [NodeData.types, NodeData.funcs]
  | some d => exact h (n, d) (Table.mem_of_findIn hf)

/-- A type that may be noted at the node is noted. -/
theorem Ledger.Holds.setType {L : Ledger} {m : NodeMap} (h : L.Holds m) {n : Nat} {t : Ty} (ht : L.noted n t) :
    L.Holds (m.setType n t) := by
  intro e he
  rcases Table.mem_insertIn he with rfl | he
  · obtain ⟨htypes, hfuncs⟩ := h.dataOf n
    simp only [NodeData.types, List.forall_mem_append] at htypes ⊢
    exact ⟨⟨by simpa using ht, htypes.2⟩, hfuncs⟩
  · exact h e he

/-- So is what mentions only such types. -/
theorem Ledger.Holds.setInfo {L : Ledger} {m : NodeMap} (h : L.Holds m) {n : Nat} {info : NodeInfo}
    (ht : ∀ t ∈ info.types, L.noted n t) (hf : ∀ f ∈ info.funcs, L.bound f) : L.Holds (m.setInfo n info) := by
  intro e he
  rcases Table.mem_insertIn he with rfl | he
  · obtain ⟨htypes, -⟩ := h.dataOf n
    simp only [NodeData.types, List.forall_mem_append] at htypes ⊢
    exact ⟨⟨htypes.1, by simpa using ht⟩, by simpa [NodeData.funcs] using hf⟩
  · exact h e he

/-- One property for all notes. -/
theorem Ledger.holds_all {m : NodeMap} : (Ledger.all Q).Holds m ↔ ∀ d ∈ m.values, ∀ t ∈ d.types, Q t := by
  constructor
  · intro h d hd
    obtain ⟨e, he, rfl⟩ := List.mem_map.1 hd
    exact (h e he).1
  · intro h e he
    exact ⟨h e.2 (List.mem_map_of_mem he), fun _ _ => trivial⟩

/-- What is noted at one node has it. -/
theorem NodeMap.dataOf_types {m : NodeMap} (h : ∀ d ∈ m.values, ∀ t ∈ d.types, Q t) (n : Nat) :
    ∀ t ∈ (m.dataOf n).types, Q t := ((Ledger.holds_all.2 h).dataOf n).1

namespace State.Meets

variable {L : Ledger} {s : State} {node : Node}
variable {frame : Frame}

/-- A type is noted that may be noted there. -/
theorem setType (h : s.Meets Q L) {t : Ty} (ht : L.noted node.id t) : (s.setType node t).Meets Q L :=
  ⟨h.frame, h.globals, h.nodes.setType ht, h.templates⟩

/-- So is what mentions only such types. -/
theorem setInfo (h : s.Meets Q L) {info : NodeInfo} (ht : ∀ t ∈ info.types, L.noted node.id t)
    (hf : ∀ f ∈ info.funcs, L.bound f) : (s.setInfo node info).Meets Q L :=
  ⟨h.frame, h.globals, h.nodes.setInfo ht hf, h.templates⟩

/-- The frame is replaced by one with such types. -/
theorem withFrame (h : s.Meets Q L) (hf : frame.AllTypes Q) : State.Meets Q L { s with frame := frame } :=
  ⟨hf, h.globals, h.nodes, h.templates⟩

/-- A write notes nothing and changes no type. -/
theorem written (h : s.Meets Q L) (target : Target) : (s.written target).Meets Q L := by
  cases target with
  | direct storage ty => exact h.withFrame (h.frame.widen storage)
  | callBased _ _ _ _ _ _ => exact h

/-- A template keeps its element type. -/
theorem push (h : s.Meets Q L) (kind : TemplateKind) (hf : ∀ t ∈ frame.seqElem, L.kept t)
    (body : Option Nat) : (s.push kind frame body).Meets Q L := by
  refine ⟨h.frame, h.globals, h.nodes, fun t ht => ?_⟩
  rcases List.mem_append.1 ht with ht | ht
  · exact h.templates t ht
  · rw [List.mem_singleton.1 ht]
    intro ty hty
    exact hf ty (Option.mem_toList.1 hty)

/-- A body is gone into. -/
theorem enter (h : s.Meets Q L) (hf : frame.AllTypes Q) : (s.enter frame).Meets Q L :=
  ⟨hf, h.globals, h.nodes, h.templates⟩

/-- It is left again. -/
theorem resume {t : State} (h : s.Meets Q L) (ht : t.Meets Q L) : (s.resume t).Meets Q L :=
  ⟨h.frame, ht.globals, ht.nodes, ht.templates⟩

/-- The return type is settled. -/
theorem settleResult (h : s.Meets Q L) {ty : Ty} (ht : Q ty) : (s.settleResult ty).Meets Q L :=
  h.withFrame ⟨h.frame.locals, h.frame.overrides, by simpa [ReturnMode.types] using ht, h.frame.seqElem⟩

/-- A block is left. -/
theorem leave {t : State} (h : s.Meets Q L) (ht : t.Meets Q L) : (s.leave t).Meets Q L :=
  ⟨ht.frame.leaveBlock h.frame, ht.globals, ht.nodes, ht.templates⟩

/-- A variable with such a type is declared. -/
theorem declareVar (h : s.Meets Q L) (name : String) {ty : Ty} (ht : Q ty) : (s.declareVar name ty).Meets Q L := by
  unfold State.declareVar
  split
  · refine ⟨h.frame, ?_, h.nodes, h.templates⟩
    exact List.forall_mem_append.2 ⟨h.globals, by simpa using ht⟩
  · exact h.withFrame (h.frame.declare name ht)

/-- Parameters are given slots with their types. -/
theorem declareParams : ∀ {params : List (Node × String)} {types : List Ty} {s s' : State},
    Check.declareParams params types s = .ok ((), s') → s.Meets Q L → (∀ t ∈ types, Q t) → s'.Meets Q L
  | [], _, s, s', h, hs, _ => by
    rw [Check.declareParams.eq_def] at h
    cases h
    exact hs
  | _ :: _, [], s, s', h, hs, _ => by
    rw [Check.declareParams.eq_def] at h
    cases h
    exact hs
  | (node, name) :: ps, ty :: tys, s, s', h, hs, ht => by
    obtain ⟨hty, htys⟩ := List.forall_mem_cons.1 ht
    simp only [Check.declareParams, Check.declareParam, Check.bind_eq_ok, Check.declareLocal_apply, Check.noteInfo_apply,
      Check.ok_inj] at h
    obtain ⟨_, _, ⟨_, _, ⟨rfl, rfl⟩, -, rfl⟩, h⟩ := h
    have hdecl := hs.withFrame (hs.frame.declare name hty)
    have hnoted : State.Meets Q L (State.setInfo _ node (.varDecl (.localSlot s.frame.size))) :=
      hdecl.setInfo (by simp [NodeInfo.types, Storage.types]) (by simp [NodeInfo.funcs])
    exact declareParams h hnoted htys

end State.Meets

/-- The property for all types of a state, as a standard. -/
theorem State.allTypes_iff {s : State} : s.AllTypes Q ↔ s.Meets Q (.all Q) :=
  ⟨fun h => ⟨h.frame, h.globals, Ledger.holds_all.2 h.nodes, h.templates⟩,
    fun h => ⟨h.frame, h.globals, Ledger.holds_all.1 h.nodes, h.templates⟩⟩

namespace State.AllTypes

variable {s : State} {node : Node}

/-- A type with the property is noted. -/
theorem setType (h : s.AllTypes Q) {t : Ty} (ht : Q t) : (s.setType node t).AllTypes Q :=
  allTypes_iff.2 ((allTypes_iff.1 h).setType ht)

/-- So is what mentions only such types. -/
theorem setInfo (h : s.AllTypes Q) (info : NodeInfo) (hi : ∀ t ∈ info.types, Q t) : (s.setInfo node info).AllTypes Q :=
  allTypes_iff.2 ((allTypes_iff.1 h).setInfo hi fun _ _ => trivial)

/-- The frame is replaced by one with such types. -/
theorem withFrame (h : s.AllTypes Q) {frame : Frame} (hf : frame.AllTypes Q) : State.AllTypes Q { s with frame := frame } :=
  ⟨hf, h.globals, h.nodes, h.templates⟩

/-- A template is kept. -/
theorem push (h : s.AllTypes Q) (kind : TemplateKind) {frame : Frame} (hf : frame.AllTypes Q) (body : Option Nat) :
    (s.push kind frame body).AllTypes Q := allTypes_iff.2 ((allTypes_iff.1 h).push kind hf.seqElem body)

/-- A body is left. -/
theorem resume {t : State} (h : s.AllTypes Q) (ht : t.AllTypes Q) : (s.resume t).AllTypes Q :=
  ⟨h.frame, ht.globals, ht.nodes, ht.templates⟩

/-- A block is left. -/
theorem leave {t : State} (h : s.AllTypes Q) (ht : t.AllTypes Q) : (s.leave t).AllTypes Q :=
  ⟨ht.frame.leaveBlock h.frame, ht.globals, ht.nodes, ht.templates⟩

end State.AllTypes

/-- Captures that get slots keep their types. -/
theorem PendingCapture.numbered_types : ∀ {cs : List PendingCapture} (n : Nat),
    (∀ c ∈ cs, Q c.ty ∧ ∃ slot, c.storage = .localSlot slot) → ∀ t ∈ (numbered n cs).flatMap CaptureInfo.types, Q t
  | [], _, _ => by simp [numbered]
  | c :: cs, n, h => by
    obtain ⟨ht, slot, hs⟩ := h c List.mem_cons_self
    have hrest := numbered_types (n + 1) fun d hd => h d (List.mem_cons_of_mem _ hd)
    rw [numbered, List.flatMap_cons, List.forall_mem_append]
    exact ⟨by simpa [CaptureInfo.types, hs, Storage.types] using ht, hrest⟩

/-! ### Names and slots -/

namespace Frame

variable {f g : Frame} {x : String} {slot : Nat}

/-- Visible names refer to slots that were made. -/
def Bounded (f : Frame) : Prop := ∀ x slot, f.names.find? x = some slot → slot < f.size

/-- The name that was declared last hides others. -/
theorem find?_names_declare (f : Frame) (name x : String) (ty : Ty) :
    (f.declare name ty).names.find? x = if name = x then some f.size else f.names.find? x :=
  Table.find?_insert f.names name x f.size

/-- A variable's slot is one of the frame. -/
theorem Bounded.declare (h : f.Bounded) (name : String) (ty : Ty) : (f.declare name ty).Bounded := by
  intro x slot hx
  rw [find?_names_declare] at hx
  rw [size_declare]
  split at hx
  · cases hx
    omega
  · have hlt := h x slot hx
    omega

/-- A new frame has no names. -/
theorem Bounded.enter (ret : ReturnMode) (seqElem : Option Ty) (isThisCall : Bool) :
    (Frame.enter ret seqElem isThisCall).Bounded := by
  intro x slot h
  simp [Frame.enter] at h

/-- More slots and the same names. -/
theorem Bounded.grow (h : f.Bounded) (hs : f.size ≤ g.size) (hn : g.names = f.names) : g.Bounded := by
  intro x slot hx
  rw [hn] at hx
  exact Nat.lt_of_lt_of_le (h x slot hx) hs

/-- A name of the frame is found. -/
theorem Bounded.lookup? (h : f.Bounded) (hx : f.names.find? x = some slot) : ∃ ty, f.lookup? x = some (slot, ty) := by
  have hlt : slot < f.locals.length := h x slot hx
  exact ⟨(f.locals[slot]).ty, by simp [Frame.lookup?, hx, List.getElem?_eq_getElem hlt]⟩

end Frame

/-! ### Types that are handed on -/

/-- The type of a target is one that it mentions. -/
theorem Target.ty_mem_types (target : Target) : target.ty ∈ target.types := by
  cases target <;> simp [Target.types, Target.ty]

/-- Arguments have the types that were found for them. -/
theorem Argument.zip_types_subset (nodes : List Node) (types : List Ty) : (Argument.zip nodes types).map (·.ty) ⊆ types := by
  intro t ht
  obtain ⟨a, ha, rfl⟩ := List.mem_map.1 ht
  rw [Argument.zip, ← List.map_uncurry_zip_eq_zipWith] at ha
  obtain ⟨⟨n, u⟩, hp, rfl⟩ := List.mem_map.1 ha
  exact (List.of_mem_zip hp).2

/-- A hint that a parameter gives is the type of the parameter. -/
theorem FuncRef.hints_types {f : FuncRef} {params : List Ty} (hp : ∀ t ∈ params, Q t) :
    ∀ hint ∈ f.hints params, ∀ t ∈ hint, Q t := by
  intro hint hh t ht
  obtain ⟨p, hmem, rfl⟩ := List.mem_map.1 hh
  split at ht
  · cases ht
  · rw [Option.mem_some_iff] at ht
    exact ht ▸ hp p hmem

/-- The types that a lambda's parameters are expected to have are those of the expected function type. -/
theorem paramHints_types [Ty.Composed Q] {expected : Option Ty} (he : ∀ t ∈ expected, Q t) (count : Nat) :
    ∀ ts ∈ paramHints expected count, ∀ t ∈ ts, Q t := by
  intro ts hts
  unfold paramHints at hts
  split at hts
  · split at hts
    · rw [Option.mem_some_iff] at hts
      exact hts ▸ (Ty.Composed.func.1 (he _ rfl)).2
    · cases hts
  · cases hts

/-- A lambda returns its declared type, or what was found. -/
theorem lambdaResult_types [Ty.Composed Q] {declared : Option Ty} {mode : ReturnMode} (hd : ∀ t ∈ declared, Q t)
    (hm : ∀ t ∈ mode.types, Q t) : Q (lambdaResult declared mode) := by
  unfold lambdaResult
  split
  · exact hd _ rfl
  · exact hm _ (by simp [ReturnMode.types])
  · exact Ty.Composed.void

/-- The type that a test narrows to is noted at the test. -/
theorem narrowingOf_types {L : Ledger} {nodes : NodeMap} (h : L.Holds nodes) {cond : Expr} {storage : Storage} {ty : Ty}
    (hn : narrowingOf nodes cond = some (storage, ty)) : L.noted cond.node.id ty := by
  cases cond with
  | isTest node value tested =>
    simp only [narrowingOf] at hn
    split at hn
    · rename_i _ _ hinfo
      cases hn
      refine (h.dataOf node.id).1 ty ?_
      rw [NodeMap.info?] at hinfo
      simp [NodeData.types, hinfo, NodeInfo.types]
    · cases hn
  | _ => cases hn

end ScriptCheck

import ScriptCheck.Analysis.Body
import ScriptCheck.Proofs.FreeUses
import ScriptCheck.Proofs.NodeIds
import ScriptCheck.Proofs.Runs
import Mathlib.Data.List.Forall2
import Mathlib.Data.Set.Basic

/-!
# Two runs side by side

To see that something does not matter to an analysis, two runs are compared that differ in it. They are in step as long as
both have the same frame and the same variables of the script, and know the same about the nodes that they still ask about
(`Agree`). What was reported and which templates were made may differ, for no rule reads them back; so may the position of a
template, which depends on how many were made before. `Lockstep` says that two steps take states that agree to states that
agree, and that what the second run gains on the way is like what the first one gains (`Gained`): the same templates, and
diagnostics at the same nodes, which are nodes of the part that is analysed. Either both runs end in a fault or none does.
-/

namespace ScriptCheck

/-! ### Notes without positions -/

/-- What is known about a node, without the position of a template. -/
def NodeInfo.unplaced : NodeInfo → NodeInfo
  | lambda info => lambda { info with template := 0 }
  | task info => task { info with template := 0 }
  | info => info

/-- What is known about a node, without the position of a template. -/
def NodeData.unplaced (d : NodeData) : NodeData := ⟨d.ty, d.notes.map NodeInfo.unplaced⟩

theorem NodeData.unplaced_info (d : NodeData) : d.unplaced.info = d.info.map NodeInfo.unplaced := List.head?_map

@[simp] theorem NodeData.unplaced_ty (d : NodeData) : d.unplaced.ty = d.ty := rfl

/-- The place and the type of a test, as they are noted. -/
def narrowingFrom : Option NodeInfo → Option NodeInfo → Option (Storage × Ty)
  | some (.storage storage), some (.isTest ty) => some (storage, ty)
  | _, _ => none

/-- What a test shows has no position. -/
theorem narrowingFrom_unplaced (a b : Option NodeInfo) :
    narrowingFrom (a.map NodeInfo.unplaced) (b.map NodeInfo.unplaced) = narrowingFrom a b := by
  rcases a with _ | a
  · rfl
  · cases a <;> first | rfl | (rcases b with _ | b; rfl; cases b <;> rfl)

theorem narrowingOf_isTest (nodes : NodeMap) (node : Node) (value : Expr) (ty : TypeExpr) :
    narrowingOf nodes (.isTest node value ty) =
      value.plainName?.bind fun _ => narrowingFrom (nodes.info? value.node.id) (nodes.info? node.id) := by
  simp only [narrowingOf]
  cases value.plainName? with
  | none => rfl
  | some _ =>
    rw [Option.bind_some]
    unfold narrowingFrom
    split <;> simp_all

theorem NodeMap.unplaced_dataOf (m : NodeMap) (n : Nat) :
    (m.dataOf n).unplaced = ((m.find? n).map NodeData.unplaced).getD ⟨none, []⟩ := by
  unfold dataOf
  cases m.find? n <;> rfl

/-! ### Both or none -/

/-- Both end in a fault, or both answer and `R` relates the answers. -/
inductive Together {α β : Type} (R : α → β → Prop) : Except Fault α → Except Fault β → Prop where
  | ok {a : α} {b : β} (h : R a b) : Together R (.ok a) (.ok b)
  | fault (e e' : Fault) : Together R (.error e) (.error e')

namespace Together

variable {α β γ δ : Type} {R : α → β → Prop} {x : Except Fault α} {y : Except Fault β}

theorem refl {R : α → α → Prop} (hR : ∀ a, R a a) : ∀ x : Except Fault α, Together R x x
  | .ok a => .ok (hR a)
  | .error e => .fault e e

theorem mono {R' : α → β → Prop} (h : Together R x y) (hR : ∀ a b, R a b → R' a b) : Together R' x y := by
  cases h with
  | ok h => exact .ok (hR _ _ h)
  | fault e e' => exact .fault e e'

/-- Look-ups in a row. -/
theorem bind {R' : γ → δ → Prop} {f : α → Except Fault γ} {g : β → Except Fault δ} (h : Together R x y)
    (hf : ∀ a b, R a b → Together R' (f a) (g b)) : Together R' (x >>= f) (y >>= g) := by
  cases h with
  | ok h => exact hf _ _ h
  | fault e e' => exact .fault e e'

theorem trans {R' : β → γ → Prop} {R'' : α → γ → Prop} {z : Except Fault γ} (h : Together R x y) (h' : Together R' y z)
    (hR : ∀ a b c, R a b → R' b c → R'' a c) : Together R'' x z := by
  cases h with
  | ok h =>
    cases h' with
    | ok h' => exact .ok (hR _ _ _ h h')
  | fault e e' =>
    cases h' with
    | fault => exact .fault e _

/-- Where the first answers, so does the second. -/
theorem of_ok {a : α} (h : Together R (.ok a) y) : ∃ b, y = .ok b ∧ R a b := by
  cases h with
  | ok h => exact ⟨_, rfl, h⟩

theorem of_fault {e : Fault} (h : Together R (.error e) y) : ∃ e', y = .error e' := by
  cases h with
  | fault _ e' => exact ⟨e', rfl⟩

/-- What is known of the first answer. -/
theorem and_left {P : α → Prop} (h : Together R x y) (hx : ∀ a, x = .ok a → P a) : Together (fun a b => R a b ∧ P a) x y := by
  cases h with
  | ok h => exact .ok ⟨h, hx _ rfl⟩
  | fault e e' => exact .fault e e'

end Together

/-! ### Diagnostics that say the same -/

/-- The diagnostics are the same, or both say at one node why a look-up failed, for reasons that `E` relates. -/
inductive Diagnostic.Alike (E : LookupError → LookupError → Prop) : Diagnostic → Diagnostic → Prop where
  | refl (d : Diagnostic) : Alike E d d
  | lookup {e e' : LookupError} (ty : Ty) (name : Name) (node : Node) (h : E e e') :
      Alike E ⟨e.problem ty name, node⟩ ⟨e'.problem ty name, node⟩

/-- For equal reasons they are equal. -/
theorem Diagnostic.Alike.eq {d d' : Diagnostic} (h : d.Alike Eq d') : d' = d := by
  cases h with
  | refl => rfl
  | lookup ty name node h => rw [h]

/-! ### States that agree -/

/-- The states differ at most in what was reported, in the templates, and in what is known about nodes outside `N`. -/
structure Agree (N : Set Nat) (s s' : State) : Prop where
  frame : s'.frame = s.frame
  globalScope : s'.globalScope = s.globalScope
  globals : s'.globals = s.globals
  nodes : ∀ n ∈ N, (s'.nodes.find? n).map NodeData.unplaced = (s.nodes.find? n).map NodeData.unplaced

namespace Agree

variable {N : Set Nat} {s s' s'' : State}

theorem refl (N : Set Nat) (s : State) : Agree N s s := ⟨rfl, rfl, rfl, fun _ _ => rfl⟩

theorem symm (h : Agree N s s') : Agree N s' s :=
  ⟨h.frame.symm, h.globalScope.symm, h.globals.symm, fun n hn => (h.nodes n hn).symm⟩

theorem trans (h : Agree N s s') (h' : Agree N s' s'') : Agree N s s'' :=
  ⟨h'.frame.trans h.frame, h'.globalScope.trans h.globalScope, h'.globals.trans h.globals,
    fun n hn => (h'.nodes n hn).trans (h.nodes n hn)⟩

theorem mono {N' : Set Nat} (h : Agree N s s') (hN : N' ⊆ N) : Agree N' s s' :=
  ⟨h.frame, h.globalScope, h.globals, fun n hn => h.nodes n (hN hn)⟩

/-- The notes of a node agree. -/
theorem unplaced_dataOf (h : Agree N s s') {n : Nat} (hn : n ∈ N) :
    (s'.nodes.dataOf n).unplaced = (s.nodes.dataOf n).unplaced := by
  rw [NodeMap.unplaced_dataOf, NodeMap.unplaced_dataOf, h.nodes n hn]

/-- Notes that differ at most in the position of a template keep the states in agreement. -/
theorem insert (h : Agree N s s') {n : Nat} {d d' : NodeData} (hd : n ∈ N → d'.unplaced = d.unplaced) :
    Agree N { s with nodes := s.nodes.insert n d } { s' with nodes := s'.nodes.insert n d' } := by
  refine ⟨h.frame, h.globalScope, h.globals, fun k hk => ?_⟩
  simp only [Table.find?_insert]
  by_cases heq : n = k
  · rw [if_pos heq, if_pos heq, Option.map_some, Option.map_some, hd (heq ▸ hk)]
  · rw [if_neg heq, if_neg heq]
    exact h.nodes k hk

/-- A test says the same about its variable in both states. -/
theorem narrowingOf (h : Agree N s s') {e : Expr} (he : ∀ n ∈ e.ids, n ∈ N) :
    ScriptCheck.narrowingOf s'.nodes e = ScriptCheck.narrowingOf s.nodes e := by
  have hinfo : ∀ n ∈ N, (s'.nodes.info? n).map NodeInfo.unplaced = (s.nodes.info? n).map NodeInfo.unplaced := by
    intro n hn
    rw [NodeMap.info?, NodeMap.info?, ← NodeData.unplaced_info, ← NodeData.unplaced_info, h.unplaced_dataOf hn]
  cases e with
  | isTest node value ty =>
    rw [narrowingOf_isTest, narrowingOf_isTest]
    refine Option.bind_congr fun _ _ => ?_
    rw [← narrowingFrom_unplaced, hinfo _ (he _ (by simp [Expr.ids, value.node_mem_ids])), hinfo _ (he _ (by simp [Expr.ids])),
      narrowingFrom_unplaced]
  | _ => rfl

end Agree

/-- From `s'` to `t'` was gained what is like what was gained from `s` to `t`: the same templates, and diagnostics at the same
nodes of `N`. No node is listed twice if none was. -/
structure Gained (E : LookupError → LookupError → Prop) (N : Set Nat) (s t s' t' : State) : Prop where
  diagnostics : ∃ ds ds', t.diagnostics = s.diagnostics ++ ds ∧ t'.diagnostics = s'.diagnostics ++ ds' ∧
    List.Forall₂ (Diagnostic.Alike E) ds ds' ∧ ∀ d ∈ ds, d.node.id ∈ N
  templates : ∃ ts, t.templates = s.templates ++ ts ∧ t'.templates = s'.templates ++ ts
  keys : s.nodes.keys.Nodup ∧ s'.nodes.keys.Nodup → t.nodes.keys.Nodup ∧ t'.nodes.keys.Nodup

namespace Gained

variable {E : LookupError → LookupError → Prop} {N : Set Nat} {s t u s' t' u' : State}

theorem refl (s s' : State) : Gained E N s s s' s' :=
  ⟨⟨[], [], by simp, by simp, .nil, by simp⟩, ⟨[], by simp, by simp⟩, id⟩

/-- Gains add up. -/
theorem trans (h : Gained E N s t s' t') (h' : Gained E N t u t' u') : Gained E N s u s' u' where
  diagnostics := by
    obtain ⟨ds, ds', hd, hd', halike, hin⟩ := h.diagnostics
    obtain ⟨es, es', he, he', halike', hin'⟩ := h'.diagnostics
    refine ⟨ds ++ es, ds' ++ es', by rw [he, hd, List.append_assoc], by rw [he', hd', List.append_assoc],
      List.rel_append halike halike', fun d hm => ?_⟩
    rcases List.mem_append.1 hm with hm | hm
    · exact hin d hm
    · exact hin' d hm
  templates := by
    obtain ⟨ts, ht, ht'⟩ := h.templates
    obtain ⟨us, hu, hu'⟩ := h'.templates
    exact ⟨ts ++ us, by rw [hu, ht, List.append_assoc], by rw [hu', ht', List.append_assoc]⟩
  keys := fun hk => h'.keys (h.keys hk)

theorem insert (n : Nat) (d d' : NodeData) : Gained E N s { s with nodes := s.nodes.insert n d } s'
    { s' with nodes := s'.nodes.insert n d' } :=
  ⟨⟨[], [], by simp, by simp, .nil, by simp⟩, ⟨[], by simp, by simp⟩,
    fun hk => ⟨Table.nodup_keys_insert hk.1 _ _, Table.nodup_keys_insert hk.2 _ _⟩⟩

/-- Nothing but the frame and where the statements stand has changed. -/
theorem of_eq (h : t.diagnostics = s.diagnostics ∧ t.templates = s.templates ∧ t.nodes = s.nodes)
    (h' : t'.diagnostics = s'.diagnostics ∧ t'.templates = s'.templates ∧ t'.nodes = s'.nodes) : Gained E N s t s' t' :=
  ⟨⟨[], [], by simp [h.1], by simp [h'.1], .nil, by simp⟩, ⟨[], by simp [h.2.1], by simp [h'.2.1]⟩,
    by rw [h.2.2, h'.2.2]; exact id⟩

end Gained

/-! ### Steps that stay in step -/

namespace Check

variable {E : LookupError → LookupError → Prop} {N : Set Nat} {α β γ δ : Type}
variable {y : Check β} {node : Node}

/-- From states that agree, both steps end in a fault, or both end in states that agree and their answers are related. -/
def Lockstep (E : LookupError → LookupError → Prop) (N : Set Nat) (R : α → β → Prop) (x : Check α) (y : Check β) : Prop :=
  ∀ ⦃s s' : State⦄, Agree N s s' → Together
    (fun r r' => R r.1 r'.1 ∧ Agree N r.2 r'.2 ∧ Gained E N s r.2 s' r'.2) (x s) (y s')

namespace Lockstep

variable {R : α → β → Prop}
variable {x : Check α}

/-- The answers are related. -/
theorem pure {a : α} {b : β} (h : R a b) : Lockstep E N R (pure a) (pure b) :=
  fun s s' hs => .ok ⟨h, hs, .refl s s'⟩

/-- Steps in a row. -/
theorem bind {R' : γ → δ → Prop} {f : α → Check γ} {g : β → Check δ}
    (h : Lockstep E N R x y) (hf : ∀ a b, R a b → Lockstep E N R' (f a) (g b)) : Lockstep E N R' (x >>= f) (y >>= g) := by
  intro s s' hs
  refine Together.bind (h hs) ?_
  rintro ⟨a, t⟩ ⟨b, t'⟩ ⟨hab, ht, hgain⟩
  exact (hf a b hab ht).mono fun _ _ hr => ⟨hr.1, hr.2.1, hgain.trans hr.2.2⟩

theorem weaken {R' : α → β → Prop} (h : Lockstep E N R x y) (hR : ∀ a b, R a b → R' a b) :
    Lockstep E N R' x y := fun _ _ hs => (h hs).mono fun _ _ hr => ⟨hR _ _ hr.1, hr.2⟩

/-- Where the answers are the same, only one of them has to be followed. -/
theorem next {R' : γ → δ → Prop} {x y : Check α} {f : α → Check γ} {g : α → Check δ} (h : Lockstep E N Eq x y)
    (hf : ∀ a, Lockstep E N R' (f a) (g a)) : Lockstep E N R' (x >>= f) (y >>= g) :=
  h.bind fun a _ hab => hab ▸ hf a

/-- A look-up in both runs. -/
theorem lift {x : Except Fault α} {y : Except Fault β} (h : Together R x y) :
    Lockstep E N R (liftM x : Check α) (liftM y : Check β) := by
  intro s s' hs
  cases h with
  | ok h => exact .ok ⟨h, hs, .refl s s'⟩
  | fault e e' => exact .fault e e'

/-- A look-up that does not depend on the run. -/
theorem same (x : Except Fault α) : Lockstep E N Eq (liftM x : Check α) (liftM x : Check α) := lift (.refl (fun _ => rfl) x)

/-- What a step that is in step with itself gains. -/
theorem gained (h : Lockstep E N Eq x x) {s t : State} {a : α} (hrun : x s = .ok (a, t)) : Gained E N s t s t := by
  have hself := h (.refl N s)
  rw [hrun] at hself
  obtain ⟨_, hr, -, -, hgain⟩ := hself.of_ok
  cases hr
  exact hgain

/-- What is read agrees. -/
theorem get : Lockstep E N (Agree N) (get : Check State) (get : Check State) :=
  fun s s' hs => .ok ⟨hs, hs, .refl s s'⟩

end Lockstep

/-! ### Primitive steps -/

/-- Both runs report the same. -/
theorem report_lockstep (problem : Problem) (hn : node.id ∈ N) :
    Lockstep E N Eq (report problem node) (report problem node) := by
  intro s s' hs
  refine .ok ⟨rfl, ⟨hs.frame, hs.globalScope, hs.globals, hs.nodes⟩, ?_⟩
  refine ⟨⟨_, _, rfl, rfl, .cons (.refl _) .nil, ?_⟩, ⟨[], by simp, by simp⟩, id⟩
  simpa using hn

theorem reject_lockstep (problem : Problem) (hn : node.id ∈ N) : Lockstep E N Eq (reject problem node) (reject problem node) :=
  (report_lockstep problem hn).next fun _ => .pure rfl

/-- Both runs report why a look-up failed. -/
theorem report_problem_lockstep {e e' : LookupError} (h : E e e') (ty : Ty) (name : Name) (hn : node.id ∈ N) :
    Lockstep E N Eq (report (e.problem ty name) node) (report (e'.problem ty name) node) := by
  intro s s' hs
  refine .ok ⟨rfl, ⟨hs.frame, hs.globalScope, hs.globals, hs.nodes⟩, ?_⟩
  refine ⟨⟨_, _, rfl, rfl, .cons (.lookup ty name node h) .nil, ?_⟩, ⟨[], by simp, by simp⟩, id⟩
  simpa using hn

theorem noteType_lockstep (node : Node) (ty : Ty) : Lockstep E N Eq (noteType node ty) (noteType node ty) := by
  refine fun s s' hs => .ok ⟨rfl, hs.insert fun hn => ?_, .insert _ _ _⟩
  exact congrArg (NodeData.mk (some ty)) (congrArg NodeData.notes (hs.unplaced_dataOf hn))

/-- Notes may differ in a position. -/
theorem noteInfo_lockstep (node : Node) {info info' : NodeInfo} (h : info'.unplaced = info.unplaced) :
    Lockstep E N Eq (noteInfo node info) (noteInfo node info') := by
  refine fun s s' hs => .ok ⟨rfl, hs.insert fun hn => ?_, .insert _ _ _⟩
  obtain ⟨hty, hnotes⟩ := NodeData.mk.inj (hs.unplaced_dataOf hn)
  simp only [NodeData.unplaced, hty, hnotes, h, List.map_cons]

/-- Both frames change alike. -/
theorem modifyFrame_lockstep (f : Frame → Frame) : Lockstep E N Eq (modifyFrame f) (modifyFrame f) :=
  fun _ _ hs => .ok ⟨rfl, ⟨congrArg f hs.frame, hs.globalScope, hs.globals, hs.nodes⟩, .of_eq ⟨rfl, rfl, rfl⟩ ⟨rfl, rfl, rfl⟩⟩

theorem declareLocal_lockstep (name : String) (ty : Ty) : Lockstep E N Eq (declareLocal name ty) (declareLocal name ty) := by
  refine Lockstep.get.bind fun s s' hs => ?_
  rw [hs.frame]
  exact (modifyFrame_lockstep _).next fun _ => .pure rfl

/-- The template is the same, its position need not be. -/
theorem pushTemplate_lockstep (kind : TemplateKind) (frame : Frame) (body : Option Nat) :
    Lockstep E N (fun _ _ => True) (pushTemplate kind frame body) (pushTemplate kind frame body) :=
  fun s s' hs => .ok ⟨trivial, ⟨hs.frame, hs.globalScope, hs.globals, hs.nodes⟩,
    ⟨⟨[], [], by simp, by simp, .nil, by simp⟩, ⟨_, rfl, rfl⟩, id⟩⟩

/-- A scope ends in both runs. -/
theorem inScope_lockstep {R : α → β → Prop} {x : Check α} (h : Lockstep E N R x y) :
    Lockstep E N R (inScope x) (inScope y) := by
  refine Lockstep.get.bind fun s s' hs => h.bind fun a b hab => ?_
  refine Lockstep.bind (R := fun _ _ => True) ?_ fun _ _ _ => .pure hab
  rw [hs.frame, hs.globalScope]
  exact fun t t' ht => .ok ⟨trivial, ⟨congrArg (·.leaveBlock s.frame) ht.frame, rfl, ht.globals, ht.nodes⟩,
    .of_eq ⟨rfl, rfl, rfl⟩ ⟨rfl, rfl, rfl⟩⟩

theorem inBlock_lockstep {R : α → β → Prop} {x : Check α} (h : Lockstep E N R x y) :
    Lockstep E N R (inBlock x) (inBlock y) := by
  refine inScope_lockstep (Lockstep.bind (R := fun _ _ => True) ?_ fun _ _ _ => h)
  exact fun t t' ht => .ok ⟨trivial, ⟨ht.frame, rfl, ht.globals, ht.nodes⟩, .of_eq ⟨rfl, rfl, rfl⟩ ⟨rfl, rfl, rfl⟩⟩

/-- A step in a frame of its own gives back the same frame in both runs. -/
theorem inFrame_lockstep (frame : Frame) {x y : Check α} (h : Lockstep E N Eq x y) :
    Lockstep E N Eq (inFrame frame x) (inFrame frame y) := by
  have hrun : ∀ (z : Check α) (s : State), inFrame frame z s = (z { s with frame := frame, globalScope := false }) >>= fun r =>
      .ok ((r.1, r.2.frame), { r.2 with frame := s.frame, globalScope := s.globalScope }) := fun _ _ => rfl
  intro s s' hs
  rw [hrun x s, hrun y s']
  refine Together.bind (h ⟨rfl, rfl, hs.globals, hs.nodes⟩) ?_
  rintro ⟨a, t⟩ ⟨_, t'⟩ ⟨rfl, ht, hgain⟩
  exact .ok ⟨by rw [ht.frame], ⟨hs.frame, hs.globalScope, ht.globals, ht.nodes⟩, hgain.diagnostics, hgain.templates, hgain.keys⟩

/-- The same type is noted. -/
theorem typed_lockstep (node : Node) {x y : Check Ty} (h : Lockstep E N Eq x y) :
    Lockstep E N Eq (typed node x) (typed node y) :=
  h.next fun ty => (noteType_lockstep node ty).next fun _ => .pure rfl

theorem valued_lockstep (hn : node.id ∈ N) {x y : Check Ty} (h : Lockstep E N Eq x y) :
    Lockstep E N Eq (valued node x) (valued node y) := by
  refine h.next fun ty => ?_
  split
  · exact reject_lockstep _ hn
  · exact .pure rfl

end Check

end ScriptCheck

import ScriptCheck.Proofs.OutcomeBodies

/-!
# Narrowed reads and the writes before them

Inside the branches of `if (x is T)` the name `x` is read as a `T`, which is wrong once the variable has been written. Which
writes can run between the test and a read is a question of control flow: those earlier on a way to the read, those that a loop
around the read brings back, and those in the bodies of lambdas and tasks that exist by then, since such a body may run at any
time. `Stmt.flow` lists them for each use of a name.

The analysis goes through a body once and in order, and a lambda or a task has a frame of its own. So of all these writes it
takes notice of the straight ones, which stand in the same body and earlier on the way. The theorem of this module says that it
misses none of these and takes notice of no other.
-/

namespace ScriptCheck

/-- An assignment, `++` or `--` in a part of a body: the lambdas and tasks of the part around it, outermost first, and its
node. -/
structure Write where
  closures : List Nat
  node : Nat

/-- The write stands in the body itself. -/
def Write.Straight (w : Write) : Prop := w.closures = []

instance (w : Write) : Decidable w.Straight := inferInstanceAs (Decidable (w.closures = []))

/-- A use of a name in a part of a body, outside of the lambdas and tasks in it. -/
structure Use where
  node : Nat
  /-- The conditions of the `if`s of the part in whose branches the name stands. -/
  guards : List Expr
  /-- The writes of the part that stand on a way to the use. -/
  before : List Write
  /-- The writes in the loops of the part around the use. -/
  around : List Write

/-- The uses in a part of a body and the writes that can run before them. -/
structure Flow where
  writes : List Write
  uses : List Use

namespace Flow

/-- Neither a use nor a write. -/
def empty : Flow := ⟨[], []⟩

/-- A use of a name. -/
def use (n : Nat) : Flow := ⟨[], [⟨n, [], [], []⟩]⟩

/-- An assignment or a step. -/
def write (n : Nat) : Flow := ⟨[⟨[], n⟩], []⟩

/-- Two parts of which the second runs after the first. -/
def seq (a b : Flow) : Flow :=
  ⟨a.writes ++ b.writes, a.uses ++ b.uses.map fun u => { u with before := a.writes ++ u.before }⟩

/-- Two parts of which one runs. -/
def choice (a b : Flow) : Flow := ⟨a.writes ++ b.writes, a.uses ++ b.uses⟩

/-- A part that runs again and again. -/
def loop (a : Flow) : Flow := { a with uses := a.uses.map fun u => { u with around := a.writes ++ u.around } }

/-- The branches of an `if`. -/
def under (cond : Expr) (a : Flow) : Flow := { a with uses := a.uses.map fun u => { u with guards := cond :: u.guards } }

/-- The body of a lambda or a task, which may run at any time from then on. -/
def closure (n : Nat) (inner : Flow) : Flow := ⟨inner.writes.map fun w => { w with closures := n :: w.closures }, []⟩

end Flow

mutual

/-- The uses and writes in an expression. -/
def Expr.flow : Expr → Flow
  | .identifier node _ _ => .use node.id
  | .intLit _ _ => .empty
  | .boolLit _ _ => .empty
  | .strLit _ _ => .empty
  | .binary _ _ left right => left.flow.seq right.flow
  | .unary node op operand => operand.flow.seq (if op.step?.isSome then .write node.id else .empty)
  | .assign node target value => target.flow.seq (value.flow.seq (.write node.id))
  | .call _ callee args => callee.flow.seq (Expr.flowOfList args)
  | .lambda node _ _ body => .closure node.id body.flow
  | .member _ object _ _ => object.flow
  | .index _ object index => object.flow.seq index.flow
  | .isTest _ value _ => value.flow

/-- The uses and writes in several expressions. -/
def Expr.flowOfList : List Expr → Flow
  | [] => .empty
  | e :: es => e.flow.seq (Expr.flowOfList es)

/-- The uses and writes in a lambda's body. -/
def Body.flow : Body → Flow
  | .expr e => e.flow
  | .block b => b.flow

/-- The uses and writes in a block. -/
def Block.flow : Block → Flow
  | .mk _ ss => Stmt.flowOfList ss

/-- The uses and writes in several statements. -/
def Stmt.flowOfList : List Stmt → Flow
  | [] => .empty
  | s :: ss => s.flow.seq (Stmt.flowOfList ss)

/-- The uses and writes in a statement. -/
def Stmt.flow : Stmt → Flow
  | .varDecl _ _ _ init => Expr.flowOfOption init
  | .ifThen _ cond thenBody elseBody => cond.flow.seq ((thenBody.flow.choice (Stmt.flowOfOption elseBody)).under cond)
  | .whileDo _ cond body => (cond.flow.seq body.flow).loop
  | .block _ b => b.flow
  | .expr _ e => e.flow
  | .ret _ value => Expr.flowOfOption value
  | .yields _ e => e.flow
  | .breaks _ => .empty
  | .continues _ => .empty
  | .task node b => .closure node.id b.flow
  | .awaits _ b => b.flow

/-- The uses and writes in an expression that may be missing. -/
def Expr.flowOfOption : Option Expr → Flow
  | none => .empty
  | some e => e.flow

/-- The uses and writes in the branch after `else`, if there is one. -/
def Stmt.flowOfOption : Option Stmt → Flow
  | none => .empty
  | some s => s.flow

end

/-! ### Writes of a variable -/

namespace NodeMap

/-- The places at which the variable at a place is found in the body of a lambda or a task: a slot of the enclosing frame is
found where it was carried to by reference, and any other variable where it was. -/
def placesIn (m : NodeMap) (closure : Nat) (place : Storage) : List Storage :=
  if place.isLocal then
    ((m.info? closure).bind NodeInfo.closure?).toList.flatMap fun c =>
      (c.captures.filter fun x => x.kind = .ref ∧ x.storage = place).map fun x => .localSlot x.slot
  else [place]

/-- The places at which the variable at a place is found inside of these lambdas and tasks, outermost first. -/
def placesInside (m : NodeMap) (place : Storage) : List Nat → List Storage
  | [] => [place]
  | n :: ns => (m.placesIn n place).flatMap fun inner => m.placesInside inner ns

/-- Whether a write is noted as one of the variable that the body around the part has at this place. -/
def writesVar (m : NodeMap) (place : Storage) (w : Write) : Bool :=
  (m.placesInside place w.closures).any fun inner => m.write? w.node = some inner

/-- A straight write is one of the place that is noted at its node. -/
theorem writesVar_straight {m : NodeMap} {place : Storage} {n : Nat} :
    m.writesVar place ⟨[], n⟩ = true ↔ m.write? n = some place := by
  simp [writesVar, placesInside]

/-- A place is written to at one of the nodes. -/
theorem writes_eq_true {m : NodeMap} {nodes : List Nat} {place : Storage} :
    m.writes nodes place = true ↔ ∃ n ∈ nodes, m.write? n = some place := by
  simp [writes]

end NodeMap

/-! ### What the analysis takes notice of -/

/-- The outline of a part, with which the analysis goes by, has the straight writes of the part and no others: those on a way
to a use come before it, and so may some that are on no way to it. -/
structure Flow.Traces (f : Flow) (o : Outline) : Prop where
  writes : ∀ n, n ∈ o.writes ↔ ⟨[], n⟩ ∈ f.writes
  uses : ∀ u ∈ f.uses, ∃ r ∈ o.reads, r.node = u.node ∧ r.guards = u.guards ∧
    (∀ n, ⟨[], n⟩ ∈ u.before → n ∈ r.before) ∧ r.before ⊆ o.writes

namespace Flow.Traces

variable {a b f : Flow} {o o' : Outline}

/-- A part without uses and without straight writes. -/
theorem nothing (hf : f.uses = []) (hw : ∀ n, ⟨[], n⟩ ∉ f.writes) (ho : o.writes = []) : f.Traces o where
  writes n := by simp [ho, hw n]
  uses u hu := by simp [hf] at hu

/-- In nothing there is nothing to trace. -/
theorem empty : Flow.empty.Traces .empty := nothing rfl (by simp [Flow.empty]) rfl

/-- Nor is there at a node that is no use of a name. -/
theorem node (n : Nat) : Flow.empty.Traces (.node n) := nothing rfl (by simp [Flow.empty]) rfl

/-- What a body does is traced on its own. -/
theorem closure (kind : TemplateKind) (n : Nat) (params : List Nat) (inner : Outline) :
    (Flow.closure n f).Traces (.closure kind n params inner) := nothing rfl (by simp [Flow.closure]) rfl

/-- A read is traced. -/
theorem use (n : Nat) : (Flow.use n).Traces (.read n) where
  writes m := by simp [Flow.use, Outline.read, Outline.node, Outline.empty]
  uses u hu := by
    rw [Flow.use, List.mem_singleton] at hu
    subst hu
    exact ⟨⟨n, [], []⟩, by simp [Outline.read], rfl, rfl, by simp, by simp⟩

/-- So is a write. -/
theorem write (n : Nat) : (Flow.write n).Traces (.write n) where
  writes m := by simp [Flow.write, Outline.write]
  uses u hu := by simp [Flow.write] at hu

/-- What is traced in one part is traced in the two together, also where the earlier writes are on no way to the later uses. -/
theorem join (ha : a.Traces o) (hb : b.Traces o') {uses : List Use}
    (huses : ∀ u ∈ uses, u ∈ a.uses ∨ ∃ v ∈ b.uses, u.node = v.node ∧ u.guards = v.guards ∧ u.before ⊆ a.writes ++ v.before) :
    Flow.Traces ⟨a.writes ++ b.writes, uses⟩ (o.seq o') where
  writes n := by simp only [Outline.seq, List.mem_append, ha.writes n, hb.writes n]
  uses u hu := by
    rcases huses u hu with hu | ⟨v, hv, hnode, hguards, hbefore⟩
    · obtain ⟨r, hr, hn, hg, hw, hsub⟩ := ha.uses u hu
      exact ⟨r, List.mem_append_left _ hr, hn, hg, hw, List.Subset.trans hsub (List.subset_append_left _ _)⟩
    · obtain ⟨r, hr, hn, hg, hw, hsub⟩ := hb.uses v hv
      refine ⟨r.after o.writes, List.mem_append_right _ (List.mem_map.2 ⟨r, hr, rfl⟩), hn.trans hnode.symm,
        hg.trans hguards.symm, fun n hn => ?_, ?_⟩
      · rcases List.mem_append.1 (hbefore hn) with h | h
        · exact List.mem_append_left _ ((ha.writes n).2 h)
        · exact List.mem_append_right _ (hw n h)
      · exact List.append_subset.2
          ⟨List.subset_append_left _ _, List.Subset.trans hsub (List.subset_append_right _ _)⟩

/-- One part after the other. -/
theorem seq (ha : a.Traces o) (hb : b.Traces o') : (a.seq b).Traces (o.seq o') := by
  refine ha.join hb fun u hu => ?_
  rcases List.mem_append.1 hu with hu | hu
  · exact .inl hu
  · obtain ⟨v, hv, rfl⟩ := List.mem_map.1 hu
    exact .inr ⟨v, hv, rfl, rfl, List.Subset.refl _⟩

/-- One part or the other. -/
theorem choice (ha : a.Traces o) (hb : b.Traces o') : (a.choice b).Traces (o.seq o') := by
  refine ha.join hb fun u hu => ?_
  rcases List.mem_append.1 hu with hu | hu
  · exact .inl hu
  · exact .inr ⟨u, hu, rfl, rfl, List.subset_append_right _ _⟩

/-- Any number of times. -/
theorem loop (ha : a.Traces o) : a.loop.Traces o where
  writes := ha.writes
  uses u hu := by
    obtain ⟨v, hv, rfl⟩ := List.mem_map.1 hu
    exact ha.uses v hv

/-- Where the condition holds. -/
theorem under (ha : a.Traces o) (cond : Expr) : (a.under cond).Traces (o.under cond) where
  writes := ha.writes
  uses u hu := by
    obtain ⟨v, hv, rfl⟩ := List.mem_map.1 hu
    obtain ⟨r, hr, hn, hg, hrest⟩ := ha.uses v hv
    exact ⟨r.under cond, List.mem_map.2 ⟨r, hr, rfl⟩, hn, congrArg (cond :: ·) hg, hrest⟩

/-- Where a part ends with something that is not a write, the end adds nothing. -/
theorem ending (ha : a.Traces o) (ho : o'.writes = []) : a.Traces (o.seq o') where
  writes n := by simp [Outline.seq, ho, ha.writes n]
  uses u hu := by
    obtain ⟨r, hr, hrest⟩ := ha.uses u hu
    exact ⟨r, List.mem_append_left _ hr, by simpa [Outline.seq, ho] using hrest⟩

end Flow.Traces

mutual

/-- Every expression is traced. -/
theorem Expr.flow_traces : ∀ e : Expr, e.flow.Traces e.outline
  | .identifier node _ _ => by
    rw [Expr.flow, Expr.outline]
    exact .use _
  | .intLit node _ => by
    rw [Expr.flow, Expr.outline]
    exact .node _
  | .boolLit node _ => by
    rw [Expr.flow, Expr.outline]
    exact .node _
  | .strLit node _ => by
    rw [Expr.flow, Expr.outline]
    exact .node _
  | .binary node _ left right => by
    rw [Expr.flow, Expr.outline]
    exact left.flow_traces.seq (right.flow_traces.ending rfl)
  | .unary node op operand => by
    rw [Expr.flow, Expr.outline]
    refine operand.flow_traces.seq ?_
    split
    · exact .write _
    · exact .node _
  | .assign node target value => by
    rw [Expr.flow, Expr.outline]
    exact target.flow_traces.seq (value.flow_traces.seq (.write _))
  | .call node callee args => by
    rw [Expr.flow, Expr.outline]
    exact callee.flow_traces.seq ((Expr.flowOfList_traces args).ending rfl)
  | .lambda node params ret body => by
    rw [Expr.flow, Expr.outline]
    exact .closure _ _ _ _
  | .member node object _ _ => by
    rw [Expr.flow, Expr.outline]
    exact object.flow_traces.ending rfl
  | .index node object index => by
    rw [Expr.flow, Expr.outline]
    exact object.flow_traces.seq (index.flow_traces.ending rfl)
  | .isTest node value _ => by
    rw [Expr.flow, Expr.outline]
    exact value.flow_traces.ending rfl

/-- So are several. -/
theorem Expr.flowOfList_traces : ∀ es : List Expr, (Expr.flowOfList es).Traces (Expr.outlineOfList es)
  | [] => by
    rw [Expr.flowOfList, Expr.outlineOfList]
    exact .empty
  | e :: es => by
    rw [Expr.flowOfList, Expr.outlineOfList]
    exact e.flow_traces.seq (Expr.flowOfList_traces es)

/-- So is a block. -/
theorem Block.flow_traces : ∀ b : Block, b.flow.Traces b.outline
  | .mk _ ss => by
    rw [Block.flow, Block.outline]
    exact Stmt.flowOfList_traces ss

/-- So are statements in a row. -/
theorem Stmt.flowOfList_traces : ∀ ss : List Stmt, (Stmt.flowOfList ss).Traces (Stmt.outlineOfList ss)
  | [] => by
    rw [Stmt.flowOfList, Stmt.outlineOfList]
    exact .empty
  | s :: ss => by
    rw [Stmt.flowOfList, Stmt.outlineOfList]
    exact s.flow_traces.seq (Stmt.flowOfList_traces ss)

/-- So is a statement. -/
theorem Stmt.flow_traces : ∀ s : Stmt, s.flow.Traces (s.outline false)
  | .varDecl node _ _ init => by
    rw [Stmt.flow, Stmt.outline]
    exact (Expr.flowOfOption_traces init).ending rfl
  | .ifThen _ cond thenBody elseBody => by
    rw [Stmt.flow, Stmt.outline]
    exact cond.flow_traces.seq ((thenBody.flow_traces.choice (Stmt.flowOfOption_traces elseBody)).under cond)
  | .whileDo _ cond body => by
    rw [Stmt.flow, Stmt.outline]
    exact (cond.flow_traces.seq body.flow_traces).loop
  | .block _ b => by
    rw [Stmt.flow, Stmt.outline]
    exact b.flow_traces
  | .expr _ e => by
    rw [Stmt.flow, Stmt.outline]
    exact e.flow_traces
  | .ret _ value => by
    rw [Stmt.flow, Stmt.outline]
    exact Expr.flowOfOption_traces value
  | .yields _ e => by
    rw [Stmt.flow, Stmt.outline]
    exact e.flow_traces
  | .breaks _ => by
    rw [Stmt.flow, Stmt.outline]
    exact .empty
  | .continues _ => by
    rw [Stmt.flow, Stmt.outline]
    exact .empty
  | .task node b => by
    rw [Stmt.flow, Stmt.outline]
    exact .closure _ _ _ _
  | .awaits _ b => by
    rw [Stmt.flow, Stmt.outline]
    exact b.flow_traces

/-- So is an expression that may be missing. -/
theorem Expr.flowOfOption_traces : ∀ e : Option Expr, (Expr.flowOfOption e).Traces (Expr.outlineOfOption e)
  | none => by
    rw [Expr.flowOfOption, Expr.outlineOfOption]
    exact .empty
  | some e => by
    rw [Expr.flowOfOption, Expr.outlineOfOption]
    exact e.flow_traces

/-- So is a statement that may be missing. -/
theorem Stmt.flowOfOption_traces : ∀ s : Option Stmt, (Stmt.flowOfOption s).Traces (Stmt.outlineOfOption s)
  | none => by
    rw [Stmt.flowOfOption, Stmt.outlineOfOption]
    exact .empty
  | some s => by
    rw [Stmt.flowOfOption, Stmt.outlineOfOption]
    exact s.flow_traces

end

/-! ### Narrowed reads -/

/-- A name in the branches of an `if` whose condition narrows its place, and that no test further in narrows again, is read
with what the condition has shown up to the first write of the outline, and as it is declared from then on. -/
theorem Check.ifThen_narrowed {ctx : Context} {fin : NodeMap} {s s' : State} {node : Node} {cond : Expr} {thenBody : Stmt}
    {elseBody : Option Stmt} {place : Storage} {tested : Ty}
    (hready : Ready (Stmt.ifThen node cond thenBody elseBody).ids s)
    (h : stmt ctx (.ifThen node cond thenBody elseBody) s = .ok ((), s'))
    (hfin : Agrees fin (Stmt.ifThen node cond thenBody elseBody).ids s') (hcond : narrowingOf fin cond = some (place, tested)) :
    ∀ r ∈ ((thenBody.outline false).seq (Stmt.outlineOfOption elseBody)).reads, fin.info? r.node = some (.storage place) →
      (∀ c ∈ r.guards, ∀ t, narrowingOf fin c ≠ some (place, t)) →
      ∃ declared, ctx.Declares s' place declared ∧
        fin.ty? r.node = some (if fin.writes r.before place then declared else tested) := by
  rw [stmt] at h
  rw [Stmt.ids] at hready hfin
  have hvalue : Follows ctx _ _ (valued cond.node (expr ctx cond none)) := valued_follows (expr_follows ctx cond none)
  have hbranches := (inBlock_follows (stmt_follows ctx thenBody).nested).bind fun _ => otherwise_follows ctx elseBody
  obtain ⟨u, v, -, -, rfl, -, hnarrowing, hout⟩ := ifThen_outcome hvalue hbranches (List.Subset.refl _) h
    (hready.subperm (List.sublist_cons_self _ _).subperm) (hfin.subset (List.subset_cons_self _ _))
  intro r hr hplace hguards
  obtain ⟨declared, hdeclares, hty⟩ := hout.reads r hr place hplace hguards
  refine ⟨declared, hdeclares.mono (List.prefix_refl _) (List.prefix_refl _), hty.trans ?_⟩
  rw [Frame.readType, narrowedBy_find?, ← hnarrowing, hcond]
  simp

/-- Where a script has an output, take any `if (x is T)` in it, with `x` a variable, and the run of the analysis that came to
it. A name of the variable in the branches, in the same body and not narrowed again by a test further in, is read as a `T`
though the variable is declared otherwise only where no straight write of the variable stands on a way to it: each write that
may run between the test and the read is in a lambda or a task, or only comes back round a loop. Such writes are never taken
notice of: where the branches have no straight write of the variable, the name is read as a `T`. -/
theorem straight_writes_end_narrowing (setup : Setup) (script : Script) (out : Output) (hids : script.ids.Nodup)
    (h : analyze setup script = .ok (.ok out)) (p : Place) (node test xNode : Node) (x : String) (ty : TypeExpr)
    (thenBody : Stmt) (elseBody : Option Stmt) (place : Storage) (tested : Ty)
    (hsite : ⟨p, .stmt (.ifThen node (.isTest test (.identifier xNode x []) ty) thenBody elseBody)⟩ ∈
      script.sites (.root setup.moduleName))
    (hx : out.nodes.info? xNode.id = some (.storage place)) (htest : out.nodes.info? test.id = some (.isTest tested)) :
    ∃ ctx s s', ctx.registry = out.module :: Builtin.declarations :: setup.modules ∧
      Check.stmt ctx (.ifThen node (.isTest test (.identifier xNode x []) ty) thenBody elseBody) s = .ok ((), s') ∧
      Agrees out.nodes (Stmt.ifThen node (.isTest test (.identifier xNode x []) ty) thenBody elseBody).ids s' ∧
      ∀ u ∈ (thenBody.flow.choice (Stmt.flowOfOption elseBody)).uses, out.nodes.info? u.node = some (.storage place) →
        (∀ c ∈ u.guards, ∀ t, narrowingOf out.nodes c ≠ some (place, t)) →
        ∃ declared, ctx.Declares s' place declared ∧
          (out.nodes.ty? u.node = some tested → tested ≠ declared →
            ∀ w ∈ u.before ++ u.around, out.nodes.writesVar place w = true → ¬w.Straight ∨ w ∉ u.before) ∧
          ((∀ w ∈ (thenBody.flow.choice (Stmt.flowOfOption elseBody)).writes,
              w.Straight → out.nodes.writesVar place w = false) →
            out.nodes.ty? u.node = some tested) := by
  obtain ⟨ctx, mode, s, s', hc, -, hsettled, -⟩ := analyze_visited hids h _ hsite
  replace hsettled : Check.Settled out.nodes _ _ s () s' := hsettled
  refine ⟨ctx, s, s', hc.registry, hsettled.run, hsettled.agrees, fun u hu hplace hguards => ?_⟩
  have hcond : narrowingOf out.nodes (.isTest test (.identifier xNode x []) ty) = some (place, tested) := by
    simp [narrowingOf, Expr.plainName?, Expr.node, hx, htest]
  have htraces := thenBody.flow_traces.choice (Stmt.flowOfOption_traces elseBody)
  obtain ⟨r, hr, hnode, hg, hbefore, hsub⟩ := htraces.uses u hu
  obtain ⟨declared, hdeclares, hty⟩ := Check.ifThen_narrowed ⟨hsettled.nodup, hsettled.fresh⟩ hsettled.run hsettled.agrees
    hcond r hr (hnode ▸ hplace) (hg ▸ hguards)
  rw [hnode] at hty
  refine ⟨declared, hdeclares, fun htyped hne w hw hwrites => ?_, fun hnone => ?_⟩
  · by_contra hcontra
    obtain ⟨hstraight, hmem⟩ := not_or.1 hcontra
    obtain ⟨closures, n⟩ := w
    obtain rfl : closures = [] := not_not.1 hstraight
    have hwritten : out.nodes.writes r.before place = true :=
      NodeMap.writes_eq_true.2 ⟨n, hbefore n (not_not.1 hmem), NodeMap.writesVar_straight.1 hwrites⟩
    rw [hwritten, if_pos rfl, htyped] at hty
    exact hne (Option.some.inj hty)
  · have hwritten : out.nodes.writes r.before place = false := by
      refine Bool.eq_false_iff.2 fun hwritten => ?_
      obtain ⟨n, hn, hwrite⟩ := NodeMap.writes_eq_true.1 hwritten
      have hstraight := hnone ⟨[], n⟩ ((htraces.writes n).1 (hsub hn)) rfl
      rw [NodeMap.writesVar_straight.2 hwrite] at hstraight
      cases hstraight
    rw [hty, hwritten]
    rfl

namespace Sample

/-- `x = 1;` -/
def assignOne (target value node stmt : Nat) : Stmt :=
  .expr (nd stmt) (.assign (nd node) (.identifier (nd target) "x" []) (.intLit (nd value) 1))

/-- `var x = 1; if (x is string) …` -/
def testsX (branch : Stmt) : Script :=
  [.stmt (.varDecl (nd 2) (.var (nd 0)) "x" (some (.intLit (nd 1) 1))),
    .stmt (.ifThen (nd 20) (.isTest (nd 5) (.identifier (nd 3) "x" []) (.named (nd 4) "string" [])) branch none)]

/-- `{ task { x = 1; } x; }` -/
def afterTask : Stmt :=
  .block (nd 15) (.mk (nd 14) [.task (nd 11) (.mk (nd 10) [assignOne 6 7 8 9]), .expr (nd 13) (.identifier (nd 12) "x" [])])

/-- `while (true) { x; x = 1; }` -/
def inLoop : Stmt :=
  .whileDo (nd 15) (.boolLit (nd 6) true)
    (.block (nd 14) (.mk (nd 13) [.expr (nd 8) (.identifier (nd 7) "x" []), assignOne 9 10 11 12]))

end Sample

/-- In `var x = 1; if (x is string) { task { x = 1; } x; }` the last name is read as a `string`, for the write is in a task. -/
theorem sample_task_keeps_narrowing : (Sample.testsX Sample.afterTask).ids.Nodup ∧
    ∃ out, analyze Sample.setup (Sample.testsX Sample.afterTask) = .ok (.ok out) ∧
      out.nodes.ty? 12 = some Builtin.string ∧ out.nodes.writesVar (.privateGlobal 0) ⟨[11], 8⟩ = true := by
  have hids : (Sample.testsX Sample.afterTask).ids.Nodup := by decide +kernel
  have hrun : ((analyze Sample.setup (Sample.testsX Sample.afterTask)).toOption.bind Except.toOption).any (fun out =>
      out.nodes.info? 3 = some (.storage (.privateGlobal 0)) ∧ out.nodes.info? 5 = some (.isTest Builtin.string) ∧
      out.nodes.info? 12 = some (.storage (.privateGlobal 0)) ∧
      out.nodes.writesVar (.privateGlobal 0) ⟨[11], 8⟩ = true) = true := by
    decide +kernel
  obtain ⟨out, h, hout⟩ := exists_output hrun
  obtain ⟨hx, htest, hread, hwrite⟩ := of_decide_eq_true hout
  obtain ⟨_, _, _, -, -, -, hreads⟩ := straight_writes_end_narrowing Sample.setup (Sample.testsX Sample.afterTask) out hids h
    .script (Sample.nd 20) (Sample.nd 5) (Sample.nd 3) "x" (.named (Sample.nd 4) "string" []) Sample.afterTask none
    (.privateGlobal 0) Builtin.string (List.mem_of_getElem? (i := 2) rfl) hx htest
  obtain ⟨_, -, -, hkept⟩ := hreads ⟨12, [], [⟨[11], 8⟩], []⟩ (List.mem_of_getElem? (i := 0) rfl) hread (by simp)
  have hnone : ∀ w ∈ (Sample.afterTask.flow.choice (Stmt.flowOfOption none)).writes, ¬w.Straight := by decide
  exact ⟨hids, out, h, hkept fun w hw hstraight => absurd hstraight (hnone w hw), hwrite⟩

/-- A read after a task that writes the variable, and one in a loop that writes it further on, are both read as what the test
was for, though the variable is an `int`. -/
theorem writes_in_tasks_and_loops_are_missed :
    (∃ out, analyze Sample.setup (Sample.testsX Sample.afterTask) = .ok (.ok out) ∧
      ∃ u ∈ Sample.afterTask.flow.uses, ∃ w ∈ u.before, out.nodes.info? u.node = some (.storage (.privateGlobal 0)) ∧
        out.nodes.ty? u.node = some Builtin.string ∧ out.nodes.writesVar (.privateGlobal 0) w = true ∧
        out.nodes.info? w.node = some (.assign (.direct (.privateGlobal 0) Builtin.int))) ∧
    ∃ out, analyze Sample.setup (Sample.testsX Sample.inLoop) = .ok (.ok out) ∧
      ∃ u ∈ Sample.inLoop.flow.uses, ∃ w ∈ u.around, out.nodes.info? u.node = some (.storage (.privateGlobal 0)) ∧
        out.nodes.ty? u.node = some Builtin.string ∧ out.nodes.writesVar (.privateGlobal 0) w = true ∧
        out.nodes.info? w.node = some (.assign (.direct (.privateGlobal 0) Builtin.int)) := by
  constructor
  · have hrun : ((analyze Sample.setup (Sample.testsX Sample.afterTask)).toOption.bind Except.toOption).any (fun out =>
        out.nodes.info? 12 = some (.storage (.privateGlobal 0)) ∧ out.nodes.ty? 12 = some Builtin.string ∧
        out.nodes.writesVar (.privateGlobal 0) ⟨[11], 8⟩ = true ∧
        out.nodes.info? 8 = some (.assign (.direct (.privateGlobal 0) Builtin.int))) = true := by
      decide +kernel
    obtain ⟨out, h, hout⟩ := exists_output hrun
    exact ⟨out, h, ⟨12, [], [⟨[11], 8⟩], []⟩, List.mem_of_getElem? (i := 0) rfl, ⟨[11], 8⟩, List.mem_singleton_self _,
      of_decide_eq_true hout⟩
  · have hrun : ((analyze Sample.setup (Sample.testsX Sample.inLoop)).toOption.bind Except.toOption).any (fun out =>
        out.nodes.info? 7 = some (.storage (.privateGlobal 0)) ∧ out.nodes.ty? 7 = some Builtin.string ∧
        out.nodes.writesVar (.privateGlobal 0) ⟨[], 11⟩ = true ∧
        out.nodes.info? 11 = some (.assign (.direct (.privateGlobal 0) Builtin.int))) = true := by
      decide +kernel
    obtain ⟨out, h, hout⟩ := exists_output hrun
    exact ⟨out, h, ⟨7, [], [], [⟨[], 11⟩]⟩, List.mem_of_getElem? (i := 0) rfl, ⟨[], 11⟩, List.mem_singleton_self _,
      of_decide_eq_true hout⟩

end ScriptCheck

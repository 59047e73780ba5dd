import Mathlib.Data.List.Induction
import ScriptCheck.Proofs.FreeUses

/-!
# Where a name is free

Each part of a body has an address: the way down to it, as the numbers of the parts that the way goes through. On the way the
names come together that are bound at the part (`Spot.parts`): what a block has declared before a statement is bound in that
statement, and the parameters of a lambda are bound in its body. A plain identifier that is not bound at its address is free
there, and the addresses in their dictionary order are the parts from left to right. The capturer lists the free identifiers in
that order, although its walk knows of no addresses: the uses that it finds in a part are those of the parts of that part
(`Spot.uses_eq`), one after the other.
-/

namespace ScriptCheck

/-- An expression, a statement or a block. -/
inductive Piece where
  | expr (e : Expr)
  | stmt (s : Stmt)
  | block (b : Block)

/-- A piece with the names that are bound where it stands. It is written where it is the target of an assignment or the operand
of a step. -/
structure Spot where
  piece : Piece
  bound : List String
  written : Bool

/-- A piece that is not written, where nothing is bound. -/
def Piece.spot (piece : Piece) : Spot := ⟨piece, [], false⟩

def Body.piece : Body → Piece
  | .expr e => .expr e
  | .block b => .block b

/-- The parts of an expression, from left to right. A lambda binds its parameters in its body. -/
def Expr.parts : Expr → List Spot
  | .identifier _ _ _ => []
  | .intLit _ _ => []
  | .boolLit _ _ => []
  | .strLit _ _ => []
  | .binary _ _ left right => [(Piece.expr left).spot, (Piece.expr right).spot]
  | .unary _ op operand => [⟨.expr operand, [], op.step?.isSome⟩]
  | .assign _ target value => [⟨.expr target, [], true⟩, (Piece.expr value).spot]
  | .call _ callee args => (callee :: args).map fun e => (Piece.expr e).spot
  | .lambda _ params _ body => [⟨body.piece, params.map (·.name), false⟩]
  | .member _ object _ _ => [(Piece.expr object).spot]
  | .index _ object key => [(Piece.expr object).spot, (Piece.expr key).spot]
  | .isTest _ value _ => [(Piece.expr value).spot]

/-- The parts of a statement, from left to right. What a branch or the body of a loop declares is bound in it alone. -/
def Stmt.parts : Stmt → List Spot
  | .varDecl _ _ _ init => init.toList.map fun e => (Piece.expr e).spot
  | .ifThen _ cond thenBody elseBody =>
    (Piece.expr cond).spot :: (thenBody :: elseBody.toList).map fun s => (Piece.stmt s).spot
  | .whileDo _ cond body => [(Piece.expr cond).spot, (Piece.stmt body).spot]
  | .block _ b => [(Piece.block b).spot]
  | .expr _ e => [(Piece.expr e).spot]
  | .ret _ value => value.toList.map fun e => (Piece.expr e).spot
  | .yields _ e => [(Piece.expr e).spot]
  | .breaks _ => []
  | .continues _ => []
  | .task _ b => [(Piece.block b).spot]
  | .awaits _ b => [(Piece.block b).spot]

/-- The statements of a block. What those before a statement declare is bound in it. -/
def Block.parts : Block → List Spot
  | .mk _ stmts => stmts.mapIdx fun k s => ⟨.stmt s, (stmts.take k).filterMap Stmt.declared?, false⟩

def Piece.parts : Piece → List Spot
  | .expr e => e.parts
  | .stmt s => s.parts
  | .block b => b.parts

namespace Spot

/-- What is bound at a piece is bound at its parts, too. -/
def parts (w : Spot) : List Spot := w.piece.parts.map fun c => { c with bound := c.bound ++ w.bound }

/-- The part at an address. -/
def at? : Spot → List Nat → Option Spot
  | w, [] => some w
  | w, k :: path => w.parts[k]?.bind fun c => c.at? path

/-- The use that the piece itself is: that of a plain identifier which is not bound. -/
def freeUse? (w : Spot) : Option CaptureNeed :=
  match w.piece with
  | .expr (.identifier _ name []) =>
    if name ∈ w.bound then none else some ⟨name, if w.written then .ref else .copy⟩
  | _ => none

/-- The part at the address is a free use. -/
def FreeAt (w : Spot) (path : List Nat) (use : CaptureNeed) : Prop := (w.at? path).bind freeUse? = some use

instance (w : Spot) (path : List Nat) (use : CaptureNeed) : Decidable (w.FreeAt path use) :=
  inferInstanceAs (Decidable (_ = _))

/-- The uses that the walk through a piece finds. -/
def uses (w : Spot) : List CaptureNeed :=
  match w.piece with
  | .expr e => if w.written then writeUses w.bound e (e.freeUses w.bound) else e.freeUses w.bound
  | .stmt s => s.freeUses w.bound
  | .block b => b.freeUses w.bound

end Spot

/-! ### The walk goes through the parts -/

theorem Expr.freeUsesOfList_eq (bound : List String) (es : List Expr) :
    Expr.freeUsesOfList bound es = es.flatMap (·.freeUses bound) := by
  induction es with
  | nil => rfl
  | cons e es ih => rw [Expr.freeUsesOfList, ih, List.flatMap_cons]

theorem Expr.freeUsesOfOption_eq (bound : List String) (e : Option Expr) :
    Expr.freeUsesOfOption bound e = e.toList.flatMap (·.freeUses bound) := by
  cases e with
  | none => rfl
  | some e => simp [Expr.freeUsesOfOption]

theorem Stmt.freeUsesOfOption_eq (bound : List String) (s : Option Stmt) :
    Stmt.freeUsesOfOption bound s = s.toList.flatMap (·.freeUses bound) := by
  cases s with
  | none => rfl
  | some s => simp [Stmt.freeUsesOfOption]

/-- In a scope, a statement is walked through with the names bound that those before it declare. -/
theorem Stmt.freeUsesOfList_eq (ss : List Stmt) (bound : List String) : Stmt.freeUsesOfList bound ss =
    (ss.mapIdx fun k s => s.freeUses ((ss.take k).filterMap Stmt.declared? ++ bound)).flatten := by
  induction ss generalizing bound with
  | nil => rfl
  | cons s ss ih =>
    rw [Stmt.freeUsesOfList, ih, List.mapIdx_cons, List.flatten_cons]
    congr 2
    -- on both sides the same names are bound, in another order
    refine congrArg (List.mapIdx · ss) (funext fun k => funext fun s' => Stmt.freeUses_congr fun x => ?_)
    cases hs : s.declared? <;> simp [hs, or_left_comm]

namespace Spot

/-- The uses in a written piece are those in it where it is read, unless it is a plain identifier. -/
theorem uses_expr {e : Expr} (h : e.plainName? = none) (bound : List String) (written : Bool) :
    (Spot.mk (.expr e) bound written).uses = e.freeUses bound := by
  cases written <;> simp [uses, writeUses, h]

theorem freeUses_eq_expr (e : Expr) (bound : List String) (h : e.plainName? = none) :
    e.freeUses bound = (Spot.mk (.expr e) bound false).parts.flatMap uses := by
  cases e with
  | identifier node name typeArgs =>
    cases typeArgs with
    | nil => cases h
    | cons t ts => rfl
  | unary node op operand =>
    cases op <;> simp [Expr.freeUses, operandUses, parts, Piece.parts, Expr.parts, uses, UnaryOp.step?]
  | call node callee args =>
    simp [Expr.freeUses, Expr.freeUsesOfList_eq, parts, Piece.parts, Expr.parts, Piece.spot, uses, List.flatMap_map]
  | lambda node params ret body =>
    cases body <;> simp [Expr.freeUses, Body.freeUses, parts, Piece.parts, Expr.parts, Body.piece, uses]
  | _ => simp [Expr.freeUses, parts, Piece.parts, Expr.parts, Piece.spot, uses]

theorem freeUses_eq_stmt (s : Stmt) (bound : List String) (written : Bool) :
    s.freeUses bound = (Spot.mk (.stmt s) bound written).parts.flatMap uses := by
  cases s <;> simp [Stmt.freeUses, Expr.freeUsesOfOption_eq, Stmt.freeUsesOfOption_eq, parts, Piece.parts, Stmt.parts,
    Piece.spot, uses, List.flatMap_map]

theorem freeUses_eq_block (b : Block) (bound : List String) (written : Bool) :
    b.freeUses bound = (Spot.mk (.block b) bound written).parts.flatMap uses := by
  obtain ⟨node, ss⟩ := b
  simp only [Block.freeUses, Stmt.freeUsesOfList_eq, parts, Piece.parts, Block.parts, List.flatMap_def,
    List.mapIdx_eq_zipIdx_map, List.map_map]
  rfl

/-- The walk through a piece finds the use that the piece is, or the uses in its parts one after the other. -/
theorem uses_eq (w : Spot) : w.uses = w.freeUse?.toList ++ w.parts.flatMap uses := by
  obtain ⟨piece, bound, written⟩ := w
  cases piece with
  | stmt s => exact freeUses_eq_stmt s bound written
  | block b => exact freeUses_eq_block b bound written
  | expr e =>
    cases hname : e.plainName? with
    | none =>
      have hself : (Spot.mk (.expr e) bound written).freeUse? = none := by
        unfold freeUse?
        split
        · cases ‹Piece.expr e = _›
          cases hname
        · rfl
      rw [hself, uses_expr hname, freeUses_eq_expr e bound hname]
      rfl
    | some name =>
      cases e with
      | identifier node name typeArgs =>
        cases typeArgs with
        | nil => by_cases hb : name ∈ bound <;> cases written <;>
            simp [uses, writeUses, Expr.plainName?, Expr.freeUses, freeUse, freeUse?, parts, Piece.parts, Expr.parts, hb]
        | cons t ts => cases hname
      | _ => cases hname

/-- The parts of a piece are smaller than it is. -/
theorem sizeOf_parts {w c : Spot} (h : c ∈ w.parts) : sizeOf c.piece < sizeOf w.piece := by
  obtain ⟨c, hc, rfl⟩ := List.mem_map.1 h
  cases hw : w.piece with
  | expr e =>
    rw [hw] at hc
    cases e with
    | call node callee args =>
      obtain ⟨e, he, rfl⟩ := List.mem_map.1 hc
      have hlt := List.sizeOf_lt_of_mem he
      simp only [List.cons.sizeOf_spec] at hlt
      simp only [Piece.spot, Piece.expr.sizeOf_spec, Expr.call.sizeOf_spec]
      omega
    | lambda node params ret body => cases body <;> simp_all [Piece.parts, Expr.parts, Body.piece] <;> omega
    | _ => simp_all [Piece.parts, Expr.parts, Piece.spot] <;> grind
  | stmt s =>
    rw [hw] at hc
    cases s <;> simp_all [Piece.parts, Stmt.parts, Piece.spot] <;> grind
  | block b =>
    rw [hw] at hc
    obtain ⟨node, ss⟩ := b
    simp only [Piece.parts, Block.parts, List.mem_mapIdx] at hc
    obtain ⟨k, hk, rfl⟩ := hc
    have hlt := List.sizeOf_lt_of_mem (List.getElem_mem hk)
    simp only [Piece.stmt.sizeOf_spec, Piece.block.sizeOf_spec, Block.mk.sizeOf_spec]
    omega

/-! ### The free identifiers in their order -/

variable {w : Spot} {use : CaptureNeed}

theorem freeAt_nil : w.FreeAt [] use ↔ w.freeUse? = some use := Iff.rfl

theorem freeAt_cons {k : Nat} {path : List Nat} :
    w.FreeAt (k :: path) use ↔ ∃ c, w.parts[k]? = some c ∧ c.FreeAt path use := by
  unfold FreeAt
  rw [at?, Option.bind_assoc, Option.bind_eq_some_iff]

/-- The free uses in a piece with their addresses, in the order of these and in that of the walk. -/
structure Listed (w : Spot) (found : List (List Nat × CaptureNeed)) : Prop where
  sorted : found.Pairwise fun o o' => o.1 < o'.1
  mem : ∀ path use, (path, use) ∈ found ↔ w.FreeAt path use
  uses : found.map (·.2) = w.uses

/-- The free uses in several pieces, numbered from `n` on, are those of the first and then those of the others. -/
theorem exists_listed_parts : ∀ (cs : List Spot) (n : Nat), (∀ c ∈ cs, ∃ found, c.Listed found) →
    ∃ found : List (List Nat × CaptureNeed), found.Pairwise (fun o o' => o.1 < o'.1) ∧
      (∀ path use, (path, use) ∈ found ↔ ∃ k rest c, path = (n + k) :: rest ∧ cs[k]? = some c ∧ c.FreeAt rest use) ∧
      found.map (·.2) = cs.flatMap Spot.uses
  | [], n, _ => ⟨[], by simp⟩
  | c :: cs, n, h => by
    obtain ⟨first, hfirst⟩ := h c List.mem_cons_self
    obtain ⟨others, hsorted, hmem, huses⟩ := exists_listed_parts cs (n + 1) fun d hd => h d (List.mem_cons_of_mem c hd)
    refine ⟨first.map (fun o => (n :: o.1, o.2)) ++ others, ?_, ?_, ?_⟩
    · refine List.pairwise_append.2 ⟨?_, hsorted, ?_⟩
      · refine List.pairwise_map.2 (hfirst.sorted.imp fun hlt => ?_)
        exact List.cons_lt_cons_iff.2 (.inr ⟨rfl, hlt⟩)
      · rintro o ho ⟨path, use⟩ ho'
        obtain ⟨o, -, rfl⟩ := List.mem_map.1 ho
        obtain ⟨k, rest, d, rfl, -, -⟩ := (hmem path use).1 ho'
        exact List.cons_lt_cons_iff.2 (.inl (by omega))
    · intro path use
      rw [List.mem_append, List.mem_map, hmem]
      constructor
      · rintro (⟨⟨rest, use⟩, ho, heq⟩ | ⟨k, rest, d, rfl, hd, hfree⟩)
        · cases heq
          exact ⟨0, rest, c, rfl, rfl, (hfirst.mem rest use).1 ho⟩
        · exact ⟨k + 1, rest, d, by rw [Nat.add_assoc, Nat.add_comm 1 k], hd, hfree⟩
      · rintro ⟨k, rest, d, rfl, hd, hfree⟩
        cases k with
        | zero =>
          cases hd
          exact .inl ⟨(rest, use), (hfirst.mem rest use).2 hfree, rfl⟩
        | succ k => exact .inr ⟨k, rest, d, by rw [Nat.add_assoc, Nat.add_comm 1 k], hd, hfree⟩
    · rw [List.map_append, List.map_map, List.flatMap_cons, huses, ← hfirst.uses]
      rfl

/-- The walk through a piece finds the free uses in it, in the order of their addresses. -/
theorem exists_listed (w : Spot) : ∃ found, w.Listed found := by
  obtain ⟨found, hsorted, hmem, huses⟩ := exists_listed_parts w.parts 0 fun c hc => exists_listed c
  refine ⟨w.freeUse?.toList.map ([], ·) ++ found, ?_, ?_, ?_⟩
  · refine List.pairwise_append.2 ⟨?_, hsorted, ?_⟩
    · cases w.freeUse? <;> simp
    · rintro o ho ⟨path, use⟩ ho'
      obtain ⟨u, -, rfl⟩ := List.mem_map.1 ho
      obtain ⟨k, rest, c, rfl, -, -⟩ := (hmem path use).1 ho'
      exact List.nil_lt_cons ..
  · intro path use
    rw [List.mem_append, List.mem_map, hmem]
    cases path with
    | nil => simp [freeAt_nil]
    | cons k path =>
      rw [freeAt_cons]
      constructor
      · rintro (⟨u, -, heq⟩ | ⟨j, rest, c, heq, hc, hfree⟩)
        · cases heq
        · rw [Nat.zero_add] at heq
          cases heq
          exact ⟨c, hc, hfree⟩
      · rintro ⟨c, hc, hfree⟩
        exact .inr ⟨k, path, c, by rw [Nat.zero_add], hc, hfree⟩
  · rw [List.map_append, List.map_map, huses, uses_eq w]
    simp [Function.comp_def]
termination_by sizeOf w.piece
decreasing_by exact sizeOf_parts hc

end Spot

/-- Among uses with their addresses, one of `x` stands before all those of `y`. -/
def UsedBefore (found : List (List Nat × CaptureNeed)) (x y : String) : Prop :=
  ∃ o ∈ found, o.2.name = x ∧ ∀ o' ∈ found, o'.2.name = y → o.1 < o'.1

/-- A use behind all others changes nothing about the order of first uses. -/
theorem UsedBefore.append {found : List (List Nat × CaptureNeed)} {last : List Nat × CaptureNeed} {x y : String}
    (h : UsedBefore found x y) (hlast : ∀ o ∈ found, o.1 < last.1) : UsedBefore (found ++ [last]) x y := by
  obtain ⟨o, ho, hx, hy⟩ := h
  refine ⟨o, List.mem_append_left _ ho, hx, fun o' ho' hname => ?_⟩
  rcases List.mem_append.1 ho' with ho' | ho'
  · exact hy o' ho' hname
  · rw [List.mem_singleton.1 ho']
    exact hlast o ho

/-- The names are captured in the order of their first uses. -/
theorem pairwise_keys_addUses (found : List (List Nat × CaptureNeed)) (hsorted : found.Pairwise fun o o' => o.1 < o'.1) :
    ((found.map (·.2)).foldl addUse .empty).keys.Pairwise (UsedBefore found) := by
  -- from the end, since a new name goes behind all that have been used
  induction found using List.reverseRecOn with
  | nil => exact .nil
  | append_singleton found last ih =>
    obtain ⟨hfound, -, hlast⟩ := List.pairwise_append.1 hsorted
    have hlater : ∀ o ∈ found, o.1 < last.1 := fun o ho => hlast o ho last List.mem_cons_self
    have hnames : ∀ x, x ∈ ((found.map (·.2)).foldl addUse .empty).keys ↔ ∃ o ∈ found, o.2.name = x := by
      simp [mem_keys_addUses]
    have hbefore := (ih hfound).imp (S := UsedBefore (found ++ [last])) fun h => h.append hlater
    rw [List.map_append, List.foldl_append, List.map_singleton, List.foldl_cons, List.foldl_nil, keys_addUse]
    split
    · exact hbefore
    · rename_i hnew
      refine List.pairwise_append.2 ⟨hbefore, List.pairwise_singleton .., fun x hx y hy => ?_⟩
      obtain ⟨o, ho, hname⟩ := (hnames x).1 hx
      refine ⟨o, List.mem_append_left _ ho, hname, fun o' ho' hname' => ?_⟩
      rw [List.mem_singleton.1 hy] at hname'
      rcases List.mem_append.1 ho' with ho' | ho'
      · exact absurd ((hnames _).2 ⟨o', ho', hname'⟩) hnew
      · rw [List.mem_singleton.1 ho']
        exact hlater o ho

/-- A use is free at an address of a body with these parameters. -/
def Body.FreeAt (params : List String) (body : Body) (path : List Nat) (use : CaptureNeed) : Prop :=
  (Spot.mk body.piece params false).FreeAt path use

instance (params : List String) (body : Body) (path : List Nat) (use : CaptureNeed) :
    Decidable (body.FreeAt params path use) :=
  inferInstanceAs (Decidable (Spot.FreeAt ..))

theorem Body.uses_spot (params : List String) (body : Body) : (Spot.mk body.piece params false).uses = body.freeUses params := by
  cases body <;> simp [Body.piece, Spot.uses, Body.freeUses]

/-- `{ y = x; var x = x; x = z; }` -/
def Sample.assigns : Body :=
  let node : Node := ⟨0, .zero⟩
  let name (x : String) : Expr := .identifier node x []
  .block (.mk node [.expr node (.assign node (name "y") (name "x")), .varDecl node (.var node) "x" (some (name "x")),
    .expr node (.assign node (name "x") (name "z"))])

/-! ### The main statement -/

/-- The capturer lists the free identifiers of a body, each name once, and in the order of the first addresses at which they are
free. A name is captured by reference exactly if it is free as the target of an assignment or the operand of a step. -/
theorem captures_are_the_free_identifiers (params : List String) (body : Body) :
    ((captures params body).map (·.name)).Nodup ∧
    (∀ x, x ∈ (captures params body).map (·.name) ↔ ∃ path kind, body.FreeAt params path ⟨x, kind⟩) ∧
    (∀ need ∈ captures params body, need.kind = .ref ↔ ∃ path, body.FreeAt params path ⟨need.name, .ref⟩) ∧
    (captures params body).Pairwise fun need later => ∃ path kind, body.FreeAt params path ⟨need.name, kind⟩ ∧
      ∀ path' kind', body.FreeAt params path' ⟨later.name, kind'⟩ → path < path' := by
  obtain ⟨found, hsorted, hmem, huses⟩ := Spot.exists_listed ⟨body.piece, params, false⟩
  rw [Body.uses_spot] at huses
  have hfree : ∀ use, use ∈ body.freeUses params ↔ ∃ path, body.FreeAt params path use := by
    intro use
    rw [← huses, List.mem_map]
    constructor
    · rintro ⟨o, ho, rfl⟩
      exact ⟨o.1, (hmem _ _).1 ho⟩
    · rintro ⟨path, hpath⟩
      exact ⟨_, (hmem path use).2 hpath, rfl⟩
  refine ⟨nodup_captures params body, fun x => ?_, fun need hneed => ?_, ?_⟩
  · rw [← CaptureNeed.exists_mem_iff, exists_mem_captures, exists_comm]
    simp only [hfree]
  · rw [← hfree, ← mem_captures_ref, mem_captures]
    rw [mem_captures] at hneed
    rw [hneed, Option.some.injEq]
  · have hnames := pairwise_keys_addUses found hsorted
    rw [huses, ← map_name_captures] at hnames
    refine (List.pairwise_map.1 hnames).imp ?_
    rintro need later ⟨o, ho, hname, hlater⟩
    refine ⟨o.1, o.2.kind, ?_, fun path kind hpath => ?_⟩
    · rw [← hname]
      exact (hmem _ _).1 ho
    · exact hlater (path, ⟨later.name, kind⟩) ((hmem _ _).2 hpath) rfl

/-- In the sample `x` is free twice before it is declared, and read there. What is written is the variable that is declared. -/
theorem sample_captures_are_the_free_identifiers :
    captures [] Sample.assigns = [⟨"y", .ref⟩, ⟨"x", .copy⟩, ⟨"z", .copy⟩] ∧
    Sample.assigns.FreeAt [] [0, 0, 0] ⟨"y", .ref⟩ ∧ Sample.assigns.FreeAt [] [0, 0, 1] ⟨"x", .copy⟩ ∧
    Sample.assigns.FreeAt [] [1, 0] ⟨"x", .copy⟩ ∧ ¬∃ path, Sample.assigns.FreeAt [] path ⟨"x", .ref⟩ := by
  have hneeds : captures [] Sample.assigns = [⟨"y", .ref⟩, ⟨"x", .copy⟩, ⟨"z", .copy⟩] := by decide +kernel
  obtain ⟨-, -, hkind, -⟩ := captures_are_the_free_identifiers [] Sample.assigns
  have hread := hkind ⟨"x", .copy⟩ (by rw [hneeds]; decide)
  refine ⟨hneeds, by decide +kernel, by decide +kernel, by decide +kernel, fun hwritten => ?_⟩
  cases hread.2 hwritten

end ScriptCheck

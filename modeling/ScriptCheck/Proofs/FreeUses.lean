import ScriptCheck.Syntax.FreeUse

/-!
# Free uses and captures

Names that are bound in addition only take uses away (`Expr.freeUses_append`), so which uses are free depends on the bound
names as a set. Of the free uses of a body the default capturer keeps each name once, and asks for a reference exactly if one
of the uses writes (`mem_captures_ref`).
-/

namespace ScriptCheck

/-! ### More bound names -/

/-- The uses that are left when further names are bound. -/
def CaptureNeed.unbound (bound : List String) (uses : List CaptureNeed) : List CaptureNeed :=
  uses.filter fun u => u.name ∉ bound

/-- What is left are the uses of names that are not bound. -/
@[simp] theorem CaptureNeed.mem_unbound {bound : List String} {uses : List CaptureNeed} {u : CaptureNeed} :
    u ∈ CaptureNeed.unbound bound uses ↔ u ∈ uses ∧ u.name ∉ bound := by
  simp [unbound]

/-- Uses, one after the other. -/
theorem CaptureNeed.unbound_append (bound : List String) (uses more : List CaptureNeed) :
    CaptureNeed.unbound bound (uses ++ more) = CaptureNeed.unbound bound uses ++ CaptureNeed.unbound bound more :=
  List.filter_append ..

open CaptureNeed (unbound unbound_append)

/-- A name that is bound outside is not used freely. -/
theorem freeUse_append (b c : List String) (name : String) (kind : CaptureKind) :
    freeUse (b ++ c) name kind = unbound c (freeUse b name kind) := by
  by_cases hb : name ∈ b <;> by_cases hc : name ∈ c <;> simp [freeUse, unbound, hb, hc]

/-- Nor is one that is written to. -/
theorem writeUses_append (b c : List String) (target : Expr) (reads : List CaptureNeed) :
    writeUses (b ++ c) target (unbound c reads) = unbound c (writeUses b target reads) := by
  unfold writeUses
  cases target.plainName? with
  | none => rfl
  | some name => exact freeUse_append b c name .ref

/-- Nor is an operand. -/
theorem operandUses_append (b c : List String) (op : UnaryOp) (operand : Expr) (reads : List CaptureNeed) :
    operandUses (b ++ c) op operand (unbound c reads) = unbound c (operandUses b op operand reads) := by
  cases op with
  | step op before => exact writeUses_append b c operand reads
  | _ => rfl

mutual

/-- Names that are bound in addition take their uses away and nothing else. -/
theorem Expr.freeUses_append (c : List String) : ∀ (e : Expr) (b : List String),
    e.freeUses (b ++ c) = unbound c (e.freeUses b)
  | .identifier node name typeArgs, b => by
    rw [Expr.freeUses, Expr.freeUses]
    split
    · exact freeUse_append b c name .copy
    · rfl
  | .intLit node value, b => rfl
  | .boolLit node value, b => rfl
  | .strLit node value, b => rfl
  | .binary node op left right, b => by
    rw [Expr.freeUses, Expr.freeUses, Expr.freeUses_append c left, Expr.freeUses_append c right, unbound_append]
  | .unary node op operand, b => by
    rw [Expr.freeUses, Expr.freeUses, Expr.freeUses_append c operand, operandUses_append]
  | .assign node target value, b => by
    rw [Expr.freeUses, Expr.freeUses, Expr.freeUses_append c target, Expr.freeUses_append c value, unbound_append,
      writeUses_append]
  | .call node callee args, b => by
    rw [Expr.freeUses, Expr.freeUses, Expr.freeUses_append c callee, Expr.freeUsesOfList_append c args, unbound_append]
  | .lambda node params ret body, b => by
    rw [Expr.freeUses, Expr.freeUses, ← List.append_assoc, Body.freeUses_append c body]
  | .member node object name typeArgs, b => by
    rw [Expr.freeUses, Expr.freeUses, Expr.freeUses_append c object]
  | .index node object index, b => by
    rw [Expr.freeUses, Expr.freeUses, Expr.freeUses_append c object, Expr.freeUses_append c index, unbound_append]
  | .isTest node value ty, b => by
    rw [Expr.freeUses, Expr.freeUses, Expr.freeUses_append c value]

/-- So it is for expressions. -/
theorem Expr.freeUsesOfList_append (c : List String) : ∀ (es : List Expr) (b : List String),
    Expr.freeUsesOfList (b ++ c) es = unbound c (Expr.freeUsesOfList b es)
  | [], b => rfl
  | e :: es, b => by
    rw [Expr.freeUsesOfList, Expr.freeUsesOfList, Expr.freeUses_append c e, Expr.freeUsesOfList_append c es, unbound_append]

/-- So it is for bodies. -/
theorem Body.freeUses_append (c : List String) : ∀ (body : Body) (b : List String),
    body.freeUses (b ++ c) = unbound c (body.freeUses b)
  | .expr e, b => by
    rw [Body.freeUses, Body.freeUses, Expr.freeUses_append c e]
  | .block blk, b => by
    rw [Body.freeUses, Body.freeUses, Block.freeUses_append c blk]

/-- So it is for blocks. -/
theorem Block.freeUses_append (c : List String) : ∀ (blk : Block) (b : List String),
    blk.freeUses (b ++ c) = unbound c (blk.freeUses b)
  | .mk node ss, b => by
    rw [Block.freeUses, Block.freeUses, Stmt.freeUsesOfList_append c ss]

/-- So it is for statements in a row. -/
theorem Stmt.freeUsesOfList_append (c : List String) : ∀ (ss : List Stmt) (b : List String),
    Stmt.freeUsesOfList (b ++ c) ss = unbound c (Stmt.freeUsesOfList b ss)
  | [], b => rfl
  | s :: ss, b => by
    rw [Stmt.freeUsesOfList, Stmt.freeUsesOfList, Stmt.freeUses_append c s, ← List.append_assoc,
      Stmt.freeUsesOfList_append c ss, unbound_append]

/-- So it is for a statement. -/
theorem Stmt.freeUses_append (c : List String) : ∀ (s : Stmt) (b : List String),
    s.freeUses (b ++ c) = unbound c (s.freeUses b)
  | .varDecl node ty name init, b => by
    rw [Stmt.freeUses, Stmt.freeUses, Expr.freeUsesOfOption_append c init]
  | .ifThen node cond thenBody elseBody, b => by
    rw [Stmt.freeUses, Stmt.freeUses, Expr.freeUses_append c cond, Stmt.freeUses_append c thenBody,
      Stmt.freeUsesOfOption_append c elseBody, unbound_append, unbound_append]
  | .whileDo node cond body, b => by
    rw [Stmt.freeUses, Stmt.freeUses, Expr.freeUses_append c cond, Stmt.freeUses_append c body, unbound_append]
  | .block node blk, b => by
    rw [Stmt.freeUses, Stmt.freeUses, Block.freeUses_append c blk]
  | .expr node e, b => by
    rw [Stmt.freeUses, Stmt.freeUses, Expr.freeUses_append c e]
  | .ret node value, b => by
    rw [Stmt.freeUses, Stmt.freeUses, Expr.freeUsesOfOption_append c value]
  | .yields node e, b => by
    rw [Stmt.freeUses, Stmt.freeUses, Expr.freeUses_append c e]
  | .breaks node, b => rfl
  | .continues node, b => rfl
  | .task node blk, b => by
    rw [Stmt.freeUses, Stmt.freeUses, Block.freeUses_append c blk]
  | .awaits node blk, b => by
    rw [Stmt.freeUses, Stmt.freeUses, Block.freeUses_append c blk]

/-- So it is for an expression that may be missing. -/
theorem Expr.freeUsesOfOption_append (c : List String) : ∀ (e : Option Expr) (b : List String),
    Expr.freeUsesOfOption (b ++ c) e = unbound c (Expr.freeUsesOfOption b e)
  | none, b => rfl
  | some e, b => by
    rw [Expr.freeUsesOfOption, Expr.freeUsesOfOption, Expr.freeUses_append c e]

/-- So it is for a statement that may be missing. -/
theorem Stmt.freeUsesOfOption_append (c : List String) : ∀ (s : Option Stmt) (b : List String),
    Stmt.freeUsesOfOption (b ++ c) s = unbound c (Stmt.freeUsesOfOption b s)
  | none, b => rfl
  | some s, b => by
    rw [Stmt.freeUsesOfOption, Stmt.freeUsesOfOption, Stmt.freeUses_append c s]

end

/-- Only which names are bound matters. -/
theorem CaptureNeed.unbound_congr {b c : List String} (h : ∀ x, x ∈ b ↔ x ∈ c) (uses : List CaptureNeed) :
    unbound b uses = unbound c uses := by
  simp only [unbound, h]

/-- Which uses of a statement are free depends on the bound names as a set. -/
theorem Stmt.freeUses_congr {s : Stmt} {b c : List String} (h : ∀ x, x ∈ b ↔ x ∈ c) : s.freeUses b = s.freeUses c :=
  calc s.freeUses b = unbound b (s.freeUses []) := Stmt.freeUses_append b s []
    _ = unbound c (s.freeUses []) := CaptureNeed.unbound_congr h _
    _ = s.freeUses c := (Stmt.freeUses_append c s []).symm

/-- Which uses of a body are free depends on the bound names as a set. -/
theorem Body.freeUses_congr {body : Body} {b c : List String} (h : ∀ x, x ∈ b ↔ x ∈ c) : body.freeUses b = body.freeUses c :=
  calc body.freeUses b = unbound b (body.freeUses []) := Body.freeUses_append b body []
    _ = unbound c (body.freeUses []) := CaptureNeed.unbound_congr h _
    _ = body.freeUses c := (Body.freeUses_append c body []).symm

/-! ### Tables -/

namespace Table

variable {κ ν : Type} [DecidableEq κ]
variable {t : Table κ ν}

omit [DecidableEq κ] in
/-- An empty table has no keys. -/
@[simp] theorem keys_empty : (empty : Table κ ν).keys = [] := rfl

/-- The first list comes first. -/
theorem findIn_append (k : κ) (l l' : List (κ × ν)) : findIn k (l ++ l') = (findIn k l).or (findIn k l') := by
  induction l with
  | nil => rfl
  | cons e rest ih =>
    obtain ⟨k', v⟩ := e
    rw [List.cons_append, findIn, findIn, ih]
    split <;> rfl

/-- A key is not found where it is not there. -/
theorem findIn_eq_none {k : κ} {l : List (κ × ν)} : findIn k l = none ↔ k ∉ l.map (·.1) := by
  induction l with
  | nil => simp [findIn]
  | cons e rest ih =>
    obtain ⟨k', v⟩ := e
    rw [findIn, List.map_cons, List.mem_cons, not_or]
    by_cases h : k' = k
    · simp [h]
    · simp [h, Ne.symm h, ih]

/-- A new key is put at the end. -/
theorem keys_insertIn (k : κ) (v : ν) : ∀ l : List (κ × ν),
    (insertIn k v l).map (·.1) = if k ∈ l.map (·.1) then l.map (·.1) else l.map (·.1) ++ [k]
  | [] => by simp [insertIn]
  | (k', v') :: rest => by
    rw [insertIn]
    by_cases h : k' = k
    · simp [h]
    · have ih := keys_insertIn k v rest
      by_cases hm : k ∈ rest.map (·.1)
      · simp [h, ih, hm]
      · simp [h, Ne.symm h, ih, hm]

/-- So it is in a table. -/
theorem keys_insert (t : Table κ ν) (k : κ) (v : ν) : (t.insert k v).keys = if k ∈ t.keys then t.keys else t.keys ++ [k] :=
  keys_insertIn k v t.entries

/-- So it is where a key that is there is left alone. -/
theorem keys_insertNew (t : Table κ ν) (k : κ) (v : ν) :
    (t.insertNew k v).keys = if k ∈ t.keys then t.keys else t.keys ++ [k] := by
  unfold insertNew
  split
  · rename_i hk
    have hmem : k ∈ t.keys := Decidable.byContradiction fun hmem => by
      simp [contains, find?, findIn_eq_none.2 hmem] at hk
    rw [if_pos hmem]
  · exact keys_insert t k v

/-- Keys stay different. -/
theorem nodup_keys_insert (h : t.keys.Nodup) (k : κ) (v : ν) : (t.insert k v).keys.Nodup := by
  rw [keys_insert]
  split
  · exact h
  · rename_i hk
    refine List.nodup_append.2 ⟨h, by simp, ?_⟩
    rintro a ha b hb rfl
    rw [List.mem_singleton] at hb
    exact hk (hb ▸ ha)

/-- So they do where a key that is there is left alone. -/
theorem nodup_keys_insertNew (h : t.keys.Nodup) (k : κ) (v : ν) : (t.insertNew k v).keys.Nodup := by
  unfold insertNew
  split
  · exact h
  · exact nodup_keys_insert h k v

/-- In a table with different keys, the entries are what is found. -/
theorem mem_entries_iff (h : t.keys.Nodup) {k : κ} {v : ν} : (k, v) ∈ t.entries ↔ t.find? k = some v := by
  obtain ⟨l⟩ := t
  unfold keys at h
  unfold find?
  induction l with
  | nil => simp [findIn]
  | cons e rest ih =>
    obtain ⟨k', v'⟩ := e
    simp only [List.map_cons, List.nodup_cons] at h
    rw [findIn]
    by_cases hk : k' = k
    · subst hk
      have hrest : (k', v) ∉ rest := fun hm => h.1 (List.mem_map.2 ⟨_, hm, rfl⟩)
      simp [hrest, eq_comm]
    · have hne : (k, v) ≠ (k', v') := fun he => hk (congrArg Prod.fst he).symm
      simp only [List.mem_cons, hne, false_or, hk, if_false]
      exact ih h.2

end Table

/-! ### The default capturer -/

/-- A use adds its name, unless an earlier one has. -/
theorem keys_addUse (t : Table String CaptureKind) (u : CaptureNeed) :
    (addUse t u).keys = if u.name ∈ t.keys then t.keys else t.keys ++ [u.name] := by
  unfold addUse
  split
  · exact t.keys_insertNew u.name .copy
  · exact t.keys_insert u.name .ref

/-- The names that are used. -/
theorem mem_keys_addUses (x : String) : ∀ (uses : List CaptureNeed) (t : Table String CaptureKind),
    x ∈ (uses.foldl addUse t).keys ↔ x ∈ t.keys ∨ x ∈ uses.map (·.name)
  | [], t => by simp
  | u :: uses, t => by
    have hkeys : x ∈ (addUse t u).keys ↔ x ∈ t.keys ∨ x = u.name := by
      rw [keys_addUse]
      split
      · rename_i hu
        exact ⟨.inl, fun h => h.elim id fun hx => hx ▸ hu⟩
      · simp
    rw [List.foldl_cons, mem_keys_addUses x uses, hkeys, List.map_cons, List.mem_cons, or_assoc]

/-- Each is there once. -/
theorem nodup_keys_addUse {t : Table String CaptureKind} (h : t.keys.Nodup) (u : CaptureNeed) : (addUse t u).keys.Nodup := by
  unfold addUse
  split
  · exact t.nodup_keys_insertNew h _ _
  · exact t.nodup_keys_insert h _ _

/-- So it is after several uses. -/
theorem nodup_keys_addUses : ∀ (uses : List CaptureNeed) {t : Table String CaptureKind}, t.keys.Nodup →
    (uses.foldl addUse t).keys.Nodup
  | [], _, h => h
  | u :: uses, _, h => nodup_keys_addUses uses (nodup_keys_addUse h u)

/-- What is needed of a name after further uses: a reference as soon as one of them writes. -/
theorem find?_addUses (x : String) : ∀ (uses : List CaptureNeed) (t : Table String CaptureKind),
    (uses.foldl addUse t).find? x =
      if ⟨x, .ref⟩ ∈ uses then some .ref
      else (t.find? x).or (if ⟨x, .copy⟩ ∈ uses then some .copy else none)
  | [], t => by simp
  | ⟨name, kind⟩ :: uses, t => by
    rw [List.foldl_cons, find?_addUses x uses]
    cases kind with
    | copy =>
      by_cases hx : name = x
      · subst hx
        cases ht : t.find? name <;> simp [addUse, Table.find?_insertNew, ht]
      · simp [addUse, Table.find?_insertNew, hx, Ne.symm hx]
    | ref =>
      by_cases hx : name = x
      · subst hx
        simp [addUse]
      · simp [addUse, hx, Ne.symm hx]

/-- What is captured is what is used freely, in its way. -/
theorem mem_captures {params : List String} {body : Body} {need : CaptureNeed} :
    need ∈ captures params body ↔ ((body.freeUses params).foldl addUse .empty).find? need.name = some need.kind := by
  have hkeys : ((body.freeUses params).foldl addUse .empty).keys.Nodup := nodup_keys_addUses _ List.nodup_nil
  rw [← Table.mem_entries_iff hkeys]
  simp only [captures, List.mem_map]
  constructor
  · rintro ⟨e, he, rfl⟩
    exact he
  · exact fun he => ⟨_, he, rfl⟩

/-- The captured names in order. -/
theorem map_name_captures (params : List String) (body : Body) :
    (captures params body).map (·.name) = ((body.freeUses params).foldl addUse .empty).keys := by
  simp [captures, Table.keys, Function.comp_def]

/-- Each name is captured once. -/
theorem nodup_captures (params : List String) (body : Body) : ((captures params body).map (·.name)).Nodup := by
  rw [map_name_captures]
  exact nodup_keys_addUses _ List.nodup_nil

/-- A name is captured by reference exactly if one of its free uses writes. -/
theorem mem_captures_ref {params : List String} {body : Body} {x : String} :
    ⟨x, .ref⟩ ∈ captures params body ↔ ⟨x, .ref⟩ ∈ body.freeUses params := by
  rw [mem_captures, find?_addUses]
  by_cases h : ⟨x, .ref⟩ ∈ body.freeUses params
  · simp [h]
  · by_cases hc : ⟨x, .copy⟩ ∈ body.freeUses params <;> simp [h, hc]

/-- A name is used in some way. -/
theorem CaptureNeed.exists_mem_iff {uses : List CaptureNeed} {x : String} :
    (∃ kind, ⟨x, kind⟩ ∈ uses) ↔ x ∈ uses.map (·.name) := by
  rw [List.mem_map]
  constructor
  · rintro ⟨kind, h⟩
    exact ⟨_, h, rfl⟩
  · rintro ⟨u, h, rfl⟩
    exact ⟨u.kind, h⟩

/-- A name is captured exactly if it has a free use. -/
theorem exists_mem_captures {params : List String} {body : Body} {x : String} :
    (∃ kind, ⟨x, kind⟩ ∈ captures params body) ↔ ∃ kind, ⟨x, kind⟩ ∈ body.freeUses params := by
  rw [CaptureNeed.exists_mem_iff, CaptureNeed.exists_mem_iff, map_name_captures, mem_keys_addUses]
  simp

end ScriptCheck

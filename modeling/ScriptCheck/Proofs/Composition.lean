import ScriptCheck.Proofs.Instances

/-!
# Two replacements in a row

Replacing the type parameters of a type, and then those of the result, is one replacement. It puts for a parameter that the
first one replaces what the first one puts there, with the second one done in it, and for a parameter that only the second one
replaces what the second one puts (`Env.andThen`). The two may bind the same parameters and mention each other's: each is done
in a single pass, so nothing that is put in is looked at again.
-/

namespace ScriptCheck

theorem Table.findIn_map {κ ν μ : Type} [DecidableEq κ] (f : ν → μ) (k : κ) (l : List (κ × ν)) :
    findIn k (l.map fun e => (e.1, f e.2)) = (findIn k l).map f := by
  induction l with
  | nil => rfl
  | cons e rest ih =>
    obtain ⟨k', v⟩ := e
    rw [List.map_cons, findIn, findIn, ih]
    split <;> rfl

/-- What type parameters stand for when those of `env` are replaced and then those of `env'`. -/
def Env.andThen (env env' : Env) : Env :=
  ⟨env.entries.map (fun e => (e.1, e.2.substitute env')) ++ (env'.filterKeys fun ref => !env.contains ref).entries⟩

namespace Env

variable {env env' both : Env}

/-- A parameter of the first environment stands for its value there with the second one put in, and any other for its value in
the second one. -/
theorem find?_andThen (env env' : Env) (ref : ParamRef) :
    (env.andThen env').find? ref = ((env.find? ref).map (·.substitute env')).or (env'.find? ref) := by
  have hfirst : Table.findIn ref (env.entries.map fun e => (e.1, e.2.substitute env')) =
      (env.find? ref).map (·.substitute env') := Table.findIn_map (·.substitute env') ref env.entries
  have hsecond := env'.find?_filterKeys (fun r => !env.contains r) ref
  rw [andThen, Table.find?, Table.findIn_append, hfirst, ← Table.find?, hsecond]
  cases h : env.find? ref with
  | none => simp [Table.contains, h]
  | some u => simp

/-- A type in which parameters are replaced twice, and at once. -/
theorem substitute_substitute (h : ∀ ref, both.find? ref = (env.andThen env').find? ref) (t : Ty) :
    (t.substitute env).substitute env' = t.substitute both := by
  simp only [Ty.substitute_eq_subst]
  refine Ty.subst_subst fun ref _ => ?_
  rw [h, find?_andThen]
  cases env.find? ref with
  | none => rfl
  | some u => exact (Ty.substitute_eq_subst u env').symm

theorem signature_substitute_substitute (h : ∀ ref, both.find? ref = (env.andThen env').find? ref) (s : Signature) :
    (s.substitute env).substitute env' = s.substitute both := by
  simp only [Signature.substitute, List.map_map, substitute_substitute h]
  congr 1
  exact List.map_congr_left fun t _ => substitute_substitute h t

end Env

/-! ### The main statement -/

/-- Replacing by `env` and then by `env'` is replacing once, in types and in signatures: by any environment that puts for each
parameter of `env` its value with `env'` put in, and for each parameter of `env'` alone its value there. There is such an
environment. -/
theorem substitution_composes (env env' : Env) :
    (∀ ref, (env.andThen env').find? ref = ((env.find? ref).map (·.substitute env')).or (env'.find? ref)) ∧
    ∀ both : Env, (∀ ref, both.find? ref = ((env.find? ref).map (·.substitute env')).or (env'.find? ref)) →
      (∀ t : Ty, (t.substitute env).substitute env' = t.substitute both) ∧
      ∀ s : Signature, (s.substitute env).substitute env' = s.substitute both := by
  refine ⟨env.find?_andThen env', fun both h => ?_⟩
  have hboth : ∀ ref, both.find? ref = (env.andThen env').find? ref := fun ref => by rw [h, Env.find?_andThen]
  exact ⟨Env.substitute_substitute hboth, Env.signature_substitute_substitute hboth⟩

namespace Sample

/-- The type parameters of some function `zip<X, Y>`. -/
def left : ParamRef := ⟨(ItemId.root "Sample").child (.text "zip") 2, .text "X"⟩

def right : ParamRef := ⟨(ItemId.root "Sample").child (.text "zip") 2, .text "Y"⟩

end Sample

/-- `X` stands for `List<Y>` and then `Y` for `X` and `X` for `int`: at once, `X` stands for `List<X>` and `Y` for `X`. -/
theorem sample_substitution_composes :
    let env : Env := ⟨[(Sample.left, Builtin.list (.param Sample.right))]⟩
    let env' : Env := ⟨[(Sample.right, .param Sample.left), (Sample.left, Builtin.int)]⟩
    let t : Ty := .func (.param Sample.left) [.param Sample.right]
    (t.substitute env).substitute env' = t.substitute (env.andThen env') ∧
      (t.substitute env).substitute env' = .func (Builtin.list (.param Sample.left)) [.param Sample.left] := by
  intro env env' t
  obtain ⟨hand, hboth⟩ := substitution_composes env env'
  exact ⟨(hboth (env.andThen env') hand).1 t, by decide +kernel⟩

end ScriptCheck

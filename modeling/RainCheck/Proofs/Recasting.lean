import RainCheck.Proofs.LocatingExpr
import RainCheck.Proofs.RelocatedModules

/-!
# Other problems on record

A problem is handed on from a record if it would be another one, had another one been on record.  So
two runs of a phase are compared that differ in the problems on record only (`Store.recast`).
* The second run does the same as the first one, and is refused with the same problem or with the
  one that is on record in its place (`Phase.refused_recast`).
* What is known about where problems lie does not depend on which problems are on record (`Store.Fit.mapProblems`).
-/

namespace RainCheck

/-! ### A declaration and itself -/

/-- Everything stands for itself. -/
def Matching.same : Matching where
  span := Eq
  type := Eq
  frame := Eq
  problem d d' := d.span = d'.span ∧ d'.cause = d.cause

theorem Matching.same_exact : Matching.same.Exact where
  span := by
    rintro a _ b _ rfl rfl
    exact Iff.rfl
  type := rfl
  frame := rfl
  problem := Iff.rfl

mutual

private theorem TypeExpr.Matches.same (t : TypeExpr) : t.Matches Eq t := by
  match t with
  | .named .. => exact .named rfl
  | .reference _ inner => exact .reference rfl (TypeExpr.Matches.same inner)
  | .function _ params returns =>
    exact .function rfl (TypeExpr.Matches.sameAll params) (TypeExpr.Matches.sameOption returns)

private theorem TypeExpr.Matches.sameAll (ts : List TypeExpr) : List.Forall₂ (TypeExpr.Matches Eq) ts ts := by
  match ts with
  | [] => exact .nil
  | t :: rest => exact .cons (TypeExpr.Matches.same t) (TypeExpr.Matches.sameAll rest)

private theorem TypeExpr.Matches.sameOption (t : Option TypeExpr) : Option.Rel (TypeExpr.Matches Eq) t t := by
  match t with
  | none => exact .none
  | some t => exact .some (TypeExpr.Matches.same t)

end

private theorem VariableKind.Matches.same (k : VariableKind) : k.Matches Eq k := by
  cases k with
  | bound => exact .bound
  | argument => exact .argument
  | function declared =>
    exact .function ⟨TypeExpr.Matches.sameAll declared.params, TypeExpr.Matches.sameOption declared.returns⟩

private theorem Variable.Matches.same (v : Variable) : v.Matches Matching.same v :=
  ⟨rfl, .same v.kind, rfl, rfl, .refl (fun _ => rfl) v.type⟩

private theorem Info.Matches.same (i : Info) : i.Matches Matching.same i :=
  ⟨rfl, .refl (fun _ => rfl) i.type, rfl, rfl, rfl, rfl⟩

private theorem Header.Matches.same (h : Header) : h.Matches Matching.same h where
  name := rfl
  span := rfl
  exported := rfl
  params := List.forall₂_same.mpr fun p _ => ⟨.same p.binding, .same p.declared⟩
  returns := TypeExpr.Matches.sameOption h.returns

mutual

private theorem Expr.Matches.same (e : Expr) : e.Matches Matching.same e := by
  match e with
  | .integer i _ => exact .integer (.same i)
  | .float i _ => exact .float (.same i)
  | .boolean i _ => exact .boolean (.same i)
  | .identifier i _ v => exact .identifier (.same i) (.refl .same v)
  | .member i base _ _ _ => exact .member (.same i) (Expr.Matches.same base) rfl
  | .call i callee args => exact .call (.same i) (Expr.Matches.same callee) (Expr.Matches.sameAll args)
  | .builtinCall i _ args => exact .builtinCall (.same i) (Expr.Matches.sameAll args)
  | .unary i _ operand => exact .unary (.same i) (Expr.Matches.same operand)
  | .binary i _ lhs rhs => exact .binary (.same i) (Expr.Matches.same lhs) (Expr.Matches.same rhs)
  | .assignment i target source =>
    exact .assignment (.same i) (Expr.Matches.same target) (Expr.Matches.same source)
  | .structLiteral i _ inits => exact .structLiteral (.same i) (Expr.Matches.sameFields inits)
  | .letBinding i v declared init =>
    exact .letBinding (.same i) (.refl .same v) (TypeExpr.Matches.sameOption declared) (Expr.Matches.same init)
  | .block b => exact Expr.Matches.sameBlock b
  | .ifElse i cond body other =>
    exact .ifElse (.same i) (Expr.Matches.same cond) (Expr.Matches.sameBlock body) (Expr.Matches.sameOption other)
  | .whileLoop i cond body => exact .whileLoop (.same i) (Expr.Matches.same cond) (Expr.Matches.sameBlock body)
  | .endlessLoop i body => exact .endlessLoop (.same i) (Expr.Matches.sameBlock body)
  | .leaveLoop i => exact .leaveLoop (.same i)
  | .nextRound i => exact .nextRound (.same i)
  | .leaveFunction i result => exact .leaveFunction (.same i) (Expr.Matches.sameOption result)
  | .function i header body => exact .function (.same i) (.same header) (Expr.Matches.sameBlock body)

private theorem Expr.Matches.sameOption (e : Option Expr) : Option.Rel (Expr.Matches Matching.same) e e := by
  match e with
  | none => exact .none
  | some e => exact .some (Expr.Matches.same e)

private theorem Expr.Matches.sameAll (es : List Expr) : List.Forall₂ (Expr.Matches Matching.same) es es := by
  match es with
  | [] => exact .nil
  | e :: rest => exact .cons (Expr.Matches.same e) (Expr.Matches.sameAll rest)

private theorem Expr.Matches.sameFields (inits : List (FieldInit Expr)) :
    List.Forall₂ (FieldInit.Matches Matching.same (Expr.Matches Matching.same)) inits inits := by
  match inits with
  | [] => exact .nil
  | ⟨_, _, value⟩ :: rest => exact .cons ⟨rfl, Expr.Matches.same value⟩ (Expr.Matches.sameFields rest)

private theorem Expr.Matches.sameBlock (b : Block Expr) : b.Matches Matching.same b := by
  match b with
  | ⟨i, fr, stmts, tail⟩ =>
    exact .block (.same i) (.refl (fun _ => rfl) fr) (Expr.Matches.sameAll stmts) (Expr.Matches.sameOption tail)

end

theorem Decl.Matches.same (d : Decl) : d.Matches Matching.same d := by
  cases d with
  | struct d => exact .struct ⟨rfl, rfl, rfl, List.forall₂_same.mpr fun f _ => ⟨rfl, rfl, .same f.type⟩⟩
  | function f => exact .function ⟨.same f.info, .same f.header, Expr.Matches.sameBlock f.body⟩

/-! ### Other problems -/

/-- The state of a struct, which has failed for another reason if it has failed. -/
def StructState.mapProblem (f : Diagnostic → Diagnostic) : StructState → StructState
  | .failed why => .failed (f why)
  | state => state

/-- A type, where the problem of a struct is another one. -/
def TypeEntry.mapProblem (f : Diagnostic → Diagnostic) : TypeEntry → TypeEntry
  | .struct decl state => .struct decl (state.mapProblem f)
  | e => e

/-- The record of a function, where its problem is another one. -/
def FunctionRecord.mapProblem (f : Diagnostic → Diagnostic) (r : FunctionRecord) : FunctionRecord :=
  { r with failure := r.failure.map f }

namespace Store

/-- A store where the problems of structs and functions are other ones. -/
def mapProblems (f : Diagnostic → Diagnostic) (s : Store) : Store :=
  { s with
    types := { s.types with entries := s.types.entries.map (·.mapProblem f) }
    functions := ⟨s.functions.entries.map fun r => (r.1, r.2.mapProblem f)⟩ }

/-- A store where other problems are on record. -/
def recast (other : Diagnostic → Diagnostic) (s : Store) : Store :=
  s.mapProblems fun d => if d ∈ s.recorded then other d else d

section

variable {s : Store} {f : Diagnostic → Diagnostic} {d : Diagnostic} {id : TypeId} {key : Span} {decl : StructDecl}
  {state : StructState}

theorem typeAt?_mapProblems : (s.mapProblems f).typeAt? id = some (.struct decl state) ↔
    ∃ state₀, s.typeAt? id = some (.struct decl state₀) ∧ state₀.mapProblem f = state := by
  change (s.types.entries.map (·.mapProblem f))[id]? = _ ↔ ∃ state₀, s.types.entries[id]? = _ ∧ _
  rw [List.getElem?_map]
  cases s.types.entries[id]? with
  | none => simp
  | some e =>
    cases e with
    | struct decl' state' => simp [TypeEntry.mapProblem, and_assoc]
    | _ => simp [TypeEntry.mapProblem]

/-- A struct that has not failed stays as it is. -/
theorem typeAt?_mapProblems_of_open (hstate : ∀ why, state ≠ .failed why) :
    (s.mapProblems f).typeAt? id = some (.struct decl state) ↔ s.typeAt? id = some (.struct decl state) := by
  rw [typeAt?_mapProblems]
  constructor
  · rintro ⟨state₀, he, rfl⟩
    cases state₀ with
    | failed why => exact absurd rfl (hstate (f why))
    | _ => exact he
  · intro he
    refine ⟨state, he, ?_⟩
    cases state with
    | failed why => exact absurd rfl (hstate why)
    | _ => rfl

private theorem function_mapProblems : (s.mapProblems f).function key = (s.function key).mapProblem f := by
  change ((s.functions.entries.map fun r => (r.1, r.2.mapProblem f)).lookup key).getD {} =
    ((s.functions.entries.lookup key).getD {}).mapProblem f
  induction s.functions.entries with
  | nil => rfl
  | cons r rest ih =>
    rw [List.map_cons, List.lookup_cons, List.lookup_cons]
    cases key == r.1 with
    | true => rfl
    | false => exact ih

private theorem mem_recorded_mapProblems : d ∈ (s.mapProblems f).recorded ↔ ∃ e ∈ s.recorded, f e = d := by
  rw [mem_recorded]
  constructor
  · rintro (⟨id, decl, he⟩ | ⟨key, hkey⟩)
    · obtain ⟨state, he, hstate⟩ := typeAt?_mapProblems.mp he
      cases state with
      | failed why => exact ⟨why, recorded_of_failed he, by simpa [StructState.mapProblem] using hstate⟩
      | _ => cases hstate
    · rw [function_mapProblems] at hkey
      obtain ⟨why, hwhy, rfl⟩ := Option.map_eq_some_iff.mp hkey
      exact ⟨why, recorded_of_failure hwhy, rfl⟩
  · rintro ⟨why, hwhy, rfl⟩
    rcases mem_recorded.mp hwhy with ⟨id, decl, he⟩ | ⟨key, hkey⟩
    · exact .inl ⟨id, decl, typeAt?_mapProblems.mpr ⟨_, he, rfl⟩⟩
    · refine .inr ⟨key, ?_⟩
      rw [function_mapProblems]
      exact congrArg (Option.map f) hkey

/-- What is on record is replaced. -/
theorem not_mem_recorded_recast {other : Diagnostic → Diagnostic} (hother : ∀ e ∈ s.recorded, other e ∉ s.recorded)
    (hd : d ∈ s.recorded) : d ∉ (s.recast other).recorded := by
  rw [recast, mem_recorded_mapProblems]
  rintro ⟨e, he, heq⟩
  rw [if_pos he] at heq
  exact hother e he (heq ▸ hd)

theorem Linked.mapProblems (h : s.Linked) : (s.mapProblems f).Linked := by
  intro id decl state r he hr
  obtain ⟨state₀, he₀, -⟩ := typeAt?_mapProblems.mp he
  exact h id decl state₀ r he₀ hr

theorem Fit.mapProblems {pending : Span → Prop} (h : s.Fit (· ∈ s.recorded) pending) :
    (s.mapProblems f).Fit (· ∈ (s.mapProblems f).recorded) pending where
  linked := h.linked.mapProblems
  structs id decl he := h.structs id decl ((typeAt?_mapProblems_of_open (by simp)).mp he)
  recorded _ hd := hd
  functions fr frame p hframe hp hkind := by
    rw [function_mapProblems]
    exact (h.functions fr frame p hframe hp hkind).imp_right fun hdecided =>
      hdecided.imp_right fun hfailure => by rwa [FunctionRecord.mapProblem, Option.isSome_map]
  registered key hkey := by
    rw [function_mapProblems] at hkey ⊢
    exact (h.registered key hkey).imp_right fun hdecided =>
      hdecided.imp_right fun hfailure => by rwa [FunctionRecord.mapProblem, Option.isSome_map]

end

end Store

/-! ### Two runs -/

/-- Everything stands for itself, and a problem stands for another one, too. -/
def Matching.mapping (f : Diagnostic → Diagnostic) : Matching where
  span := Eq
  type := Eq
  frame := Eq
  problem d d' := d' = d ∨ d' = f d

private theorem Matching.mapping_rigid {f : Diagnostic → Diagnostic} : (Matching.mapping f).Rigid where
  span := by
    rintro a _ b _ rfl rfl
    exact Iff.rfl
  type := rfl
  frame := rfl
  problem := by
    rintro a _ c rfl
    exact .inl rfl

private theorem Matching.same_finer {f : Diagnostic → Diagnostic} : Matching.same.Finer (Matching.mapping f) where
  span _ _ := id
  type _ _ := id
  frame _ _ := id
  problem d d' := fun ⟨hspan, hcause⟩ => by
    cases d
    cases d'
    cases hspan
    cases hcause
    exact .inl rfl

private theorem TypeEntry.matches_mapProblem (f : Diagnostic → Diagnostic) (e : TypeEntry) :
    e.Matches (Matching.mapping f) (e.mapProblem f) := by
  cases e with
  | primitive name => exact .primitive
  | reference t => exact .reference rfl
  | function ps r => exact .function (List.forall₂_same.mpr fun _ _ => rfl) rfl
  | struct decl state =>
    cases Decl.Matches.same (.struct decl) with
    | struct hdecl =>
      refine .struct hdecl ?_
      cases state with
      | unresolved => exact .unresolved
      | resolving => exact .resolving
      | resolved fields => exact .resolved (List.forall₂_same.mpr fun _ _ => ⟨rfl, rfl⟩)
      | failed why => exact .failed (.inr rfl)

private theorem FunctionRecord.matches_mapProblem (f : Diagnostic → Diagnostic) (r : FunctionRecord) :
    r.Matches (Matching.mapping f) (r.mapProblem f) where
  variableType := rfl
  signature := rfl
  failure := by
    change Option.Rel _ r.failure (r.failure.map f)
    cases r.failure with
    | none => exact .none
    | some why => exact .some (.inr rfl)

/-- A store and the one with other problems are the same but for these. -/
private theorem Store.matches_mapProblems (f : Diagnostic → Diagnostic) (s : Store) :
    s.Matches (Matching.mapping f) (s.mapProblems f) where
  types := ⟨List.forall₂_map_right_iff.mpr (List.forall₂_same.mpr fun e _ => e.matches_mapProblem f), rfl⟩
  frames := List.forall₂_same.mpr fun _ _ =>
    ⟨rfl, List.forall₂_same.mpr fun p _ => ⟨rfl, (Variable.Matches.same p.2).imp Matching.same_finer⟩, rfl⟩
  functions := List.forall₂_map_right_iff.mpr (List.forall₂_same.mpr fun r _ => ⟨rfl, r.2.matches_mapProblem f⟩)
  structs := List.forall₂_same.mpr fun _ _ => ⟨rfl, rfl⟩

/-- A refusal stays one where other problems are on record, with the same problem or the other one. -/
private theorem Phase.refused_mapProblems {phase : Phase} {options : Options} {d : Decl} {s : Store} {why : Diagnostic}
    (f : Diagnostic → Diagnostic) (h : (phase.apply options d s).2.result = .error (.refused why)) :
    ∃ why', (phase.apply options d (s.mapProblems f)).2.result = .error (.refused why') ∧
      (why' = why ∨ why' = f why) := by
  have hself : d.Matches (Matching.mapping f) d := (Decl.Matches.same d).imp Matching.same_finer
  have hstep : phase.InStep (Matching.mapping f) (Decl.Matches (Matching.mapping f)) options :=
    inStep_matches Matching.mapping_rigid phase
  obtain ⟨-, hresult, -⟩ := hstep d d s _ hself (s.matches_mapProblems f)
  rw [h] at hresult
  generalize (phase.apply options d (s.mapProblems f)).2.result = r at hresult
  cases hresult with
  | error hwhy =>
    cases hwhy with
    | refused hwhy => exact ⟨_, rfl, hwhy⟩

/-- Where the problems on record are other ones, a refusal with a problem that was not on record stays the same. -/
theorem Phase.refused_recast {phase : Phase} {options : Options} {d : Decl} {s : Store} {why : Diagnostic}
    {other : Diagnostic → Diagnostic} (h : (phase.apply options d s).2.result = .error (.refused why)) :
    ∃ why', (phase.apply options d (s.recast other)).2.result = .error (.refused why') ∧
      (why' = why ∨ why ∈ s.recorded ∧ why' = other why) := by
  obtain ⟨why', hrefused, hwhy⟩ := refused_mapProblems (fun d => if d ∈ s.recorded then other d else d) h
  refine ⟨why', hrefused, ?_⟩
  by_cases hold : why ∈ s.recorded
  · exact hwhy.imp_right fun heq => ⟨hold, by rwa [if_pos hold] at heq⟩
  · refine .inl (hwhy.elim id fun heq => ?_)
    rwa [if_neg hold] at heq

end RainCheck

import RainCheck.Proofs.Matching
import RainCheck.Proofs.Actions

/-!
# Two runs in step

Two actions, each run on its own store, do the same step by step (`Action.InStep`).  Which stores are alike up to a
matching is left open: a `Simulation` is a relation `S` on stores such that the operations of the store do the same on
stores that are related.
* (rules) Then each rule of the checker says the same about expressions that match.
* What an action adds to the stores may be matched in addition, so a matching grows along a run.
-/

namespace RainCheck

/-- Which stores are alike, for each matching. -/
abbrev StoreRelation := Matching → Store → Store → Prop

namespace Action

variable {α β γ δ : Type}

/-- Two actions do the same to stores that are alike, and end alike: early, or with results such that `Q` holds. -/
def InStep (S : StoreRelation) (m : Matching) (Q : Matching → α → β → Prop) (a : Action α) (b : Action β) : Prop :=
  ∀ s s', S m s s' → ∃ n, m ≤ n ∧ S n (a.run.run s).2 (b.run.run s').2 ∧
    Except.Rel (Stop.Matches n) (Q n) (a.run.run s).1 (b.run.run s').1

variable {S : StoreRelation} {m : Matching} {P : α → β → Prop} {Q : Matching → α → β → Prop}
  {R : Matching → γ → δ → Prop} {a : Action α} {b : Action β} {f : α → Action γ} {g : β → Action δ}

theorem inStep_pure {x : α} {y : β} (h : Q m x y) : InStep S m Q (pure x) (pure y) :=
  fun _ _ hs => ⟨m, le_refl m, hs, .ok h⟩

theorem inStep_throw {why why' : Stop} (h : why.Matches m why') : InStep S m Q (throw why) (throw why') :=
  fun _ _ hs => ⟨m, le_refl m, hs, .error h⟩

theorem inStep_fail {why : Fault} : InStep S m Q (fail why : Action α) (fail why : Action β) :=
  inStep_throw (.fault why)

/-- Actions are in step if they are on all stores that are alike. -/
theorem InStep.intro (h : ∀ s s', S m s s' → InStep S m Q a b) : InStep S m Q a b :=
  fun s s' hs => h s s' hs s s' hs

theorem InStep.bind (h : InStep S m Q a b) (hf : ∀ n x y, m ≤ n → Q n x y → InStep S n R (f x) (g y)) :
    InStep S m R (a >>= f) (b >>= g) := by
  intro s s' hs
  obtain ⟨n, hle, hs', hrel⟩ := h s s' hs
  rw [run_bind, run_bind]
  generalize a.run.run s = x at hs' hrel
  generalize b.run.run s' = y at hs' hrel
  obtain ⟨x, s⟩ := x
  obtain ⟨y, s'⟩ := y
  cases hrel with
  | error he => exact ⟨n, hle, hs', .error he⟩
  | ok hxy =>
    obtain ⟨l, hle', hs', hrel⟩ := hf n _ _ hle hxy s s' hs'
    exact ⟨l, le_trans hle hle', hs', hrel⟩

/-! ### Steps that look at the store -/

theorem inStep_get {f : Store → Action γ} {g : Store → Action δ} (h : ∀ s s', S m s s' → InStep S m R (f s) (g s')) :
    InStep S m R (get >>= f) (get >>= g) :=
  fun s s' hs => h s s' hs s s' hs

theorem inStep_lift {x : Except Fault α} {y : Except Fault β} (h : Except.Rel Eq P x y)
    (hf : ∀ a b, P a b → InStep S m R (f a) (g b)) : InStep S m R (lift x >>= f) (lift y >>= g) := by
  cases h with
  | ok h => exact hf _ _ h
  | error h =>
    subst h
    exact fun _ _ hs => ⟨m, le_refl m, hs, .error (.fault _)⟩

theorem inStep_lifted {x : Except Fault α} {y : Except Fault β} (h : Except.Rel Eq (Q m) x y) :
    InStep S m Q (lift x) (lift y) := by
  cases h with
  | ok h => exact inStep_pure h
  | error h =>
    subst h
    exact inStep_fail

theorem inStep_fromTypes {read : Types → Except Fault α} {read' : Types → Except Fault β}
    (h : ∀ s s', S m s s' → Except.Rel Eq P (read s.types) (read' s'.types))
    (hf : ∀ a b, P a b → InStep S m R (f a) (g b)) : InStep S m R (fromTypes read >>= f) (fromTypes read' >>= g) :=
  fun s s' hs => inStep_lift (h s s' hs) hf s s' hs

theorem inStep_modify {change change' : Store → Store} (h : ∀ s s', S m s s' → S m (change s) (change' s'))
    {Q : Matching → PUnit → PUnit → Prop} (hQ : Q m ⟨⟩ ⟨⟩) :
    InStep S m Q (modify change : Action PUnit) (modify change') :=
  fun s s' hs => ⟨m, le_refl m, h s s' hs, .ok hQ⟩

/-- An action whose end is observed. -/
theorem InStep.outcome (h : InStep S m Q a b) :
    InStep S m (fun n => Except.Rel (Stop.Matches n) (Q n)) a.outcome b.outcome := by
  intro s s' hs
  obtain ⟨n, hle, hs', hrel⟩ := h s s' hs
  exact ⟨n, hle, hs', .ok hrel⟩

end Action

/-! ### Simulations -/

open RainCheck.Action

/-- The results are types that match. -/
def TypesMatch (m : Matching) (t t' : TypeId) : Prop := m.type t t'

/-- The operations on types do the same on stores that are alike. -/
structure TypeSimulation (S : StoreRelation) : Prop where
  /-- A type stands for one type only. -/
  type_iff : ∀ {m s s'}, S m s s' → ∀ {t t' u u'}, m.type t t' → m.type u u' → (t' = u' ↔ t = u)
  primitive : ∀ {m s s'}, S m s s' → ∀ {t : TypeId}, t < Types.primitives.length → m.type t t
  /-- Problems match that are about the same. -/
  problem : ∀ {m s s'}, S m s s' → ∀ {a a'} (c : Cause), m.span a a' → m.problem ⟨a, c⟩ ⟨a', c⟩
  get : ∀ {m s s'}, S m s s' → ∀ {t t'}, m.type t t' →
    Except.Rel Eq (TypeEntry.Matches m) (s.types.get t) (s'.types.get t')
  text : ∀ {m s s'}, S m s s' → ∀ {t t'}, m.type t t' → Except.Rel Eq Eq (s.types.text t) (s'.types.text t')
  lookupType : ∀ {m s s'}, S m s s' → ∀ {fr fr'} (name : String), m.frame fr fr' →
    Except.Rel Eq (Option.Rel m.type) (s.frames.lookupType fr name) (s'.frames.lookupType fr' name)
  reference : ∀ {m t t'}, m.type t t' →
    InStep S m TypesMatch (updateTypes (·.reference t)) (updateTypes (·.reference t'))
  functionOf : ∀ {m ps ps' r r'}, List.Forall₂ m.type ps ps' → m.type r r' →
    InStep S m TypesMatch (updateTypes (·.functionOf ps r)) (updateTypes (·.functionOf ps' r'))

/-- Structs are completed alike, within bounds that are given. -/
def CompletesInStep (S : StoreRelation) (m : Matching) (complete complete' : Span → TypeId → Action TypeId) : Prop :=
  ∀ n a a' t t', m ≤ n → n.span a a' → n.type t t' → InStep S n TypesMatch (complete a t) (complete' a' t')

theorem CompletesInStep.mono {S : StoreRelation} {m n : Matching} {complete complete' : Span → TypeId → Action TypeId}
    (h : CompletesInStep S m complete complete') (hle : m ≤ n) : CompletesInStep S n complete complete' :=
  fun l a a' t t' hl => h l a a' t t' (le_trans hle hl)

/-- The operations of the store do the same on stores that are alike. -/
structure Simulation (S : StoreRelation) : Prop extends TypeSimulation S where
  complete : ∀ {m s s'}, S m s s' →
    CompletesInStep S m (completeWithin (2 * s.types.size + 2)) (completeWithin (2 * s'.types.size + 2))
  module : ∀ {m s s'}, S m s s' → m.frame FrameId.module FrameId.module
  lookup : ∀ {m s s'}, S m s s' → ∀ {fr fr'} (name : String), m.frame fr fr' →
    Except.Rel Eq (Option.Rel (Variable.Matches m)) (s.frames.lookup fr name) (s'.frames.lookup fr' name)
  typeOf : ∀ {m s s'}, S m s s' → ∀ {v v'}, v.Matches m v' → Holder.Rel m.type (s.typeOf v) (s'.typeOf v')
  signature : ∀ {m fr fr' key key' p p'}, m.frame fr fr' → m.span key key' → p.Matches m.span p' →
    InStep S m TypesMatch (resolveSignature fr key p) (resolveSignature fr' key' p')
  register : ∀ {m fr fr' h h'}, m.frame fr fr' → h.Matches m h' →
    InStep S m (fun _ _ _ => True) (registerFunction fr h) (registerFunction fr' h')
  nest : ∀ {m fr fr'}, m.frame fr fr' → InStep S m Matching.frame (Action.nest fr) (Action.nest fr')
  declare : ∀ {m fr fr' v v'}, m.frame fr fr' → v.Matches m v' →
    InStep S m (fun _ _ _ => True) (Action.declare fr v) (Action.declare fr' v')

instance {S : StoreRelation} : CoeOut (Simulation S) (TypeSimulation S) := ⟨Simulation.toTypeSimulation⟩

section

variable {S : StoreRelation} {m : Matching} {α β γ δ : Type} {R : Matching → γ → δ → Prop} {Q : Matching → α → β → Prop}

namespace TypeSimulation

variable (sim : TypeSimulation S) {s s' : Store} {t t' u u' : TypeId}

include sim

private theorem eq_primitive (hs : S m s s') (ht : m.type t t') (hu : u < Types.primitives.length) : t' = u ↔ t = u :=
  sim.type_iff hs ht (sim.primitive hs hu)

/-- A property that only primitive types have. -/
private theorem primitive_only (hs : S m s s') (ht : m.type t t') {p : TypeId → Bool}
    (hp : ∀ t, p t = true → t < Types.primitives.length) : p t' = p t := by
  by_cases h : t < Types.primitives.length
  · rw [(sim.eq_primitive hs ht h).mpr rfl]
  by_cases h' : t' < Types.primitives.length
  · exact absurd ((sim.eq_primitive hs ht h').mp rfl ▸ h') h
  rw [Bool.eq_false_iff.mpr fun hpt => h (hp t hpt), Bool.eq_false_iff.mpr fun hpt => h' (hp t' hpt)]

private theorem load (hs : S m s s') (ht : m.type t t') : Except.Rel Eq m.type (s.types.load t) (s'.types.load t') :=
  (sim.get hs ht).bind fun _ _ he => .ok (he.inner.getD ht)

private theorem isReference (hs : S m s s') (ht : m.type t t') :
    Except.Rel Eq Eq (s.types.isReference t) (s'.types.isReference t') :=
  (sim.get hs ht).bind fun _ _ he => .ok he.inner.isSome.symm

private theorem assignable (hs : S m s s') (ht : m.type t t') (hu : m.type u u') :
    Except.Rel Eq Eq (s.types.assignable t u) (s'.types.assignable t' u') := by
  unfold Types.assignable
  simp only [sim.type_iff hs ht hu, sim.eq_primitive hs ht (show TypeId.never < _ by decide)]
  split
  · exact .ok rfl
  refine (sim.get hs ht).bind fun e e' he => .ok ?_
  simp only [he.inner.eq_some_iff fun _ _ h => sim.type_iff hs h hu]

/-- The feature that a builtin needs is the same for types that match. -/
private theorem feature (hs : S m s s') (ht : m.type t t') {b : Builtin} :
    b.family.feature? t' = b.family.feature? t := by
  have hfloat : TypeId.isFloat t' = TypeId.isFloat t :=
    sim.primitive_only hs ht fun t h => by
      simp only [TypeId.isFloat, Bool.or_eq_true, decide_eq_true_eq] at h
      rcases h with rfl | rfl <;> decide
  cases b <;> simp only [Builtin.family, Builtin.Family.feature?, hfloat]

/-- A builtin has results of types that match for types that match. -/
private theorem result (hs : S m s s') (ht : m.type t t') {b : Builtin} :
    m.type (b.family.result t) (b.family.result t') := by
  cases b with
  | toI32 => exact sim.primitive hs (show TypeId.i32 < _ by decide)
  | toI64 => exact sim.primitive hs (show TypeId.i64 < _ by decide)
  | toF32 => exact sim.primitive hs (show TypeId.f32 < _ by decide)
  | toF64 => exact sim.primitive hs (show TypeId.f64 < _ by decide)
  | sqrt | abs | min | max | clz | ctz | popcnt | extend8 | extend16 => exact ht

end TypeSimulation

namespace Action

section

variable (sim : TypeSimulation S) {f : α → Action γ} {g : β → Action δ} {i i' j j' : Info} {t t' u u' : TypeId}

private theorem inStep_typeOf {f g : TypeId → Action γ} {R : Matching → γ → γ → Prop} (hi : i.Matches m i')
    (hf : ∀ t t', m.type t t' → InStep S m R (f t) (g t')) : InStep S m R (typeOf i >>= f) (typeOf i' >>= g) :=
  inStep_lift (rel_unwrap hi.type) hf

include sim

theorem inStep_refuse {a a' : Span} {c : Cause} (ha : m.span a a') : InStep S m Q (refuse a c) (refuse a' c) :=
  .intro fun _ _ hs => inStep_throw (.refused (sim.problem hs c ha))

/-- What follows a refusal does not matter. -/
theorem inStep_refuse_bind {a a' : Span} {c : Cause} (ha : m.span a a') :
    InStep S m R (refuse a c >>= f) (refuse a' c >>= g) :=
  (inStep_refuse sim (Q := fun _ _ _ => False) ha).bind fun _ _ _ _ h => h.elim

theorem inStep_textOf {f : String → Action γ} {g : String → Action δ} (ht : m.type t t')
    (hf : ∀ text, InStep S m R (f text) (g text)) : InStep S m R (textOf t >>= f) (textOf t' >>= g) :=
  inStep_fromTypes (fun _ _ hs => sim.text hs ht) fun _ _ h => h ▸ hf _

private theorem inStep_load {f g : TypeId → Action γ} {R : Matching → γ → γ → Prop} (ht : m.type t t')
    (hf : ∀ u u', m.type u u' → InStep S m R (f u) (g u')) :
    InStep S m R (Action.load t >>= f) (Action.load t' >>= g) :=
  inStep_fromTypes (fun _ _ hs => sim.load hs ht) hf

private theorem inStep_assignable {f : Bool → Action γ} {g : Bool → Action δ} (ht : m.type t t') (hu : m.type u u')
    (hf : ∀ b, InStep S m R (f b) (g b)) :
    InStep S m R (fromTypes (·.assignable t u) >>= f) (fromTypes (·.assignable t' u') >>= g) :=
  inStep_fromTypes (fun _ _ hs => sim.assignable hs ht hu) fun _ _ h => h ▸ hf _

theorem inStep_entry {f g : TypeEntry → Action γ} {R : Matching → γ → γ → Prop} (ht : m.type t t')
    (hf : ∀ e e', e.Matches m e' → InStep S m R (f e) (g e')) :
    InStep S m R (fromTypes (·.get t) >>= f) (fromTypes (·.get t') >>= g) :=
  inStep_fromTypes (fun _ _ hs => sim.get hs ht) hf

theorem inStep_settle (hi : i.Matches m i') : InStep S m Info.Matches (settle i) (settle i') := by
  refine inStep_typeOf hi fun t t' ht => ?_
  refine inStep_fromTypes (fun _ _ hs => sim.isReference hs ht) fun b _ h => ?_
  exact inStep_pure (h ▸ hi.note b)

private theorem inStep_expectType {a a' : Span} {o o' : Option TypeId} (ha : m.span a a') (ho : Option.Rel m.type o o')
    (hu : m.type u u') : InStep S m (fun _ _ _ => True) (expectType a o u) (expectType a' o' u') := by
  refine inStep_lift (rel_unwrap ho) fun t t' ht => ?_
  refine inStep_assignable sim ht hu fun b => ?_
  split
  · exact inStep_textOf sim hu fun _ => inStep_textOf sim ht fun _ => inStep_refuse sim ha
  · exact inStep_pure trivial

theorem inStep_expectExpr {e e' : Expr} (he : e.Matches m e') (hu : m.type u u') :
    InStep S m (fun _ _ _ => True) (expectExpr e u) (expectExpr e' u') :=
  inStep_expectType sim he.blame he.type hu

theorem inStep_expectBlock {b b' : Block Expr} (hb : b.Matches m b') (hu : m.type u u') :
    InStep S m (fun _ _ _ => True) (expectBlock b u) (expectBlock b' u') :=
  inStep_expectType sim (Expr.Matches.blame_block hb) hb.info.type hu

private theorem inStep_expectAll {es es' : List Expr} {ts ts' : List TypeId} (he : List.Forall₂ (Expr.Matches m) es es')
    (ht : List.Forall₂ m.type ts ts') : InStep S m (fun _ _ _ => True) (expectAll es ts) (expectAll es' ts') := by
  induction es generalizing m es' ts ts' with
  | nil =>
    cases he
    exact inStep_pure trivial
  | cons e es ih =>
    cases he with
    | cons he hes =>
      cases ht with
      | nil => exact inStep_fail
      | cons ht hts =>
        exact (inStep_expectExpr sim he ht).bind fun n _ _ hle _ =>
          ih (hes.imp fun _ _ h => h.mono hle) (hts.imp hle.type)

end

/-! ### Written types -/

section

variable {complete complete' : Span → TypeId → Action TypeId} {fr fr' : FrameId}

mutual

theorem inStep_resolveTypeWith (sim : TypeSimulation S) {m : Matching} {w w' : TypeExpr} (shallow : Bool)
    (hw : w.Matches m.span w') (hcomplete : CompletesInStep S m complete complete') (hfr : m.frame fr fr') :
    InStep S m TypesMatch (resolveTypeWith complete fr shallow w) (resolveTypeWith complete' fr' shallow w') := by
  match w with
  | .named _ name =>
    cases hw with
    | named hs =>
      rw [resolveTypeWith, resolveTypeWith]
      refine inStep_get fun s s' hstore => inStep_lift (sim.lookupType hstore name hfr) fun o o' ho => ?_
      cases ho with
      | none => exact inStep_refuse sim hs
      | some ht =>
        dsimp only
        split
        · exact inStep_pure ht
        · exact hcomplete m _ _ _ _ (le_refl m) hs ht
  | .reference _ inner =>
    cases hw with
    | reference hs hinner =>
      rw [resolveTypeWith, resolveTypeWith]
      exact (inStep_resolveTypeWith sim true hinner hcomplete hfr).bind fun _ _ _ _ ht => sim.reference ht
  | .function _ ps r =>
    cases hw with
    | function hs hps hr =>
      rw [resolveTypeWith, resolveTypeWith]
      refine (inStep_resolveTypesWith sim hps hcomplete hfr).bind fun n ts ts' h₁ hts => ?_
      refine (inStep_resolveReturnsWith sim (h₁.span ▸ hr) (hcomplete.mono h₁) (h₁.frame _ _ hfr)).bind
        fun l t t' h₂ ht => sim.functionOf (hts.imp h₂.type) ht
termination_by structural w

private theorem inStep_resolveTypesWith (sim : TypeSimulation S) {m : Matching} {ws ws' : List TypeExpr}
    (hws : List.Forall₂ (TypeExpr.Matches m.span) ws ws') (hcomplete : CompletesInStep S m complete complete')
    (hfr : m.frame fr fr') :
    InStep S m (fun n => List.Forall₂ n.type) (resolveTypesWith complete fr ws)
      (resolveTypesWith complete' fr' ws') := by
  match ws with
  | [] =>
    cases hws
    rw [resolveTypesWith, resolveTypesWith]
    exact inStep_pure .nil
  | w :: rest =>
    cases hws with
    | cons hw hrest =>
      rw [resolveTypesWith, resolveTypesWith]
      refine (inStep_resolveTypeWith sim false hw hcomplete hfr).bind fun n t t' h₁ ht => ?_
      refine (inStep_resolveTypesWith sim (h₁.span ▸ hrest) (hcomplete.mono h₁) (h₁.frame _ _ hfr)).bind
        fun l ts ts' h₂ hts => inStep_pure (.cons (h₂.type _ _ ht) hts)
termination_by structural ws

private theorem inStep_resolveReturnsWith (sim : TypeSimulation S) {m : Matching} {w w' : Option TypeExpr}
    (hw : Option.Rel (TypeExpr.Matches m.span) w w') (hcomplete : CompletesInStep S m complete complete')
    (hfr : m.frame fr fr') :
    InStep S m TypesMatch (resolveReturnsWith complete fr w) (resolveReturnsWith complete' fr' w') := by
  match w with
  | none =>
    cases hw
    rw [resolveReturnsWith, resolveReturnsWith]
    exact .intro fun s s' hs => inStep_pure (sim.primitive hs (by decide))
  | some w =>
    cases hw with
    | some hw =>
      rw [resolveReturnsWith, resolveReturnsWith]
      exact inStep_resolveTypeWith sim false hw hcomplete hfr
termination_by structural w

end

/-- The types of functions are resolved alike, if structs are. -/
theorem inStep_prototype (sim : TypeSimulation S)
    (hcomplete : ∀ {m s s'}, S m s s' →
      CompletesInStep S m (completeWithin (2 * s.types.size + 2)) (completeWithin (2 * s'.types.size + 2)))
    {m : Matching} {p p' : Prototype} (hfr : m.frame fr fr') (hp : p.Matches m.span p') :
    InStep S m TypesMatch (resolvePrototype fr p) (resolvePrototype fr' p') := by
  have hparams : InStep S m (fun n => List.Forall₂ n.type) (resolveTypes fr p.params) (resolveTypes fr' p'.params) :=
    inStep_get fun s s' hs => inStep_resolveTypesWith sim hp.params (hcomplete hs) hfr
  refine hparams.bind fun n ts ts' h₁ hts => ?_
  have hreturns : InStep S n TypesMatch (resolveReturns fr p.returns) (resolveReturns fr' p'.returns) :=
    inStep_get fun s s' hs => inStep_resolveReturnsWith sim (h₁.span ▸ hp.returns) (hcomplete hs) (h₁.frame _ _ hfr)
  exact hreturns.bind fun l t t' h₂ ht => sim.functionOf (hts.imp h₂.type) ht

end

section

variable (sim : Simulation S) {f : α → Action γ} {g : β → Action δ} {i i' j j' : Info} {t t' u u' : TypeId}

include sim

private theorem inStep_resolveType {fr fr' : FrameId} {w w' : TypeExpr} (hfr : m.frame fr fr')
    (hw : w.Matches m.span w') :
    InStep S m TypesMatch (resolveType fr w) (resolveType fr' w') :=
  inStep_get fun _ _ hs => inStep_resolveTypeWith sim false hw (sim.complete hs) hfr

theorem inStep_complete {a a' : Span} (ha : m.span a a') (ht : m.type t t') :
    InStep S m TypesMatch (Action.complete a t) (Action.complete a' t') :=
  inStep_get fun _ _ hs => sim.complete hs m _ _ _ _ (le_refl m) ha ht

/-! ### Names, members and calls -/

private theorem inStep_resolveVariable {v v' : Variable} (hv : v.Matches m v') :
    InStep S m (fun _ _ _ => True) (resolveVariable v) (resolveVariable v') := by
  refine inStep_get fun s s' hs => ?_
  have hkind := hv.kind
  rw [(sim.typeOf hs hv).isEmpty]
  generalize v.kind = k at hkind
  generalize v'.kind = k' at hkind
  cases hkind with
  | bound | argument => exact inStep_pure trivial
  | function hp =>
    cases (s.typeOf v).isEmpty with
    | true => exact (sim.signature (sim.module hs) hv.span hp).bind fun _ _ _ _ _ => inStep_pure trivial
    | false => exact inStep_pure trivial

/-- A variable and what is known about the identifier that means it. -/
def Named (m : Matching) (p p' : Variable × Info) : Prop := p.1.Matches m p'.1 ∧ p.2.Matches m p'.2

theorem inStep_identifierRule {fr fr' : FrameId} {name : String} (hfr : m.frame fr fr') (hi : i.Matches m i') :
    InStep S m Named (identifierRule fr i name) (identifierRule fr' i' name) := by
  refine inStep_get fun s s' hs => ?_
  refine inStep_lift (sim.lookup hs name hfr) fun o o' ho => ?_
  cases ho with
  | none => exact inStep_refuse sim hi.span
  | some hv =>
    refine (inStep_resolveVariable sim hv).bind fun n _ _ hle _ => ?_
    refine inStep_get fun s s' hs => ?_
    refine inStep_lift (sim.typeOf hs (hv.mono hle)).get fun t t' ht => ?_
    exact inStep_pure ⟨hv.mono hle, (hi.mono hle).resolve ht false false⟩

/-- The name and the fields of a struct. -/
def Described (m : Matching) (p p' : String × List (String × TypeId)) : Prop := p'.1 = p.1 ∧ FieldsMatch m p.2 p'.2

private theorem inStep_fieldsOf (ht : m.type t t') : InStep S m Described (fieldsOf t) (fieldsOf t') := by
  refine inStep_entry sim ht fun e e' he => ?_
  have hstruct := he.struct?
  generalize e.struct? = o at hstruct
  generalize e'.struct? = o' at hstruct
  cases hstruct with
  | none => exact inStep_fail
  | some h => exact inStep_pure ⟨h.1.name, h.2.fields⟩

/-- The position of a field and what is known about the access to it. -/
def Located (m : Matching) (p p' : Nat × Info) : Prop := p'.1 = p.1 ∧ p.2.Matches m p'.2

theorem inStep_memberRule {base base' : Expr} {name : String} {a a' : Span} (hi : i.Matches m i')
    (hbase : base.Matches m base') (ha : m.span a a') :
    InStep S m Located (memberRule i base name a) (memberRule i' base' name a') := by
  refine inStep_typeOf hbase.info fun outer outer' houter => ?_
  refine inStep_load sim houter fun t t' ht => ?_
  refine inStep_entry sim ht fun e e' he => ?_
  have hstruct := he.struct?
  generalize e.struct? = o at hstruct
  generalize e'.struct? = o' at hstruct
  cases hstruct with
  | none => exact inStep_textOf sim houter fun _ => inStep_refuse sim hbase.span
  | some =>
    refine (inStep_complete sim ha ht).bind fun n _ _ hle _ => ?_
    refine (inStep_fieldsOf sim (hle.type _ _ ht)).bind fun l d d' hle' hd => ?_
    obtain ⟨owner, fields⟩ := d
    obtain ⟨owner', fields'⟩ := d'
    obtain ⟨rfl, hfields⟩ : owner' = owner ∧ FieldsMatch l fields fields' := hd
    have hle := le_trans hle hle'
    dsimp only
    rw [findIdx?_rel (fun _ _ h => by rw [h.1]) hfields]
    split
    · rename_i index _
      refine inStep_lift (rel_itemAt hfields index) fun p p' hp => ?_
      exact inStep_pure ⟨rfl, (hi.mono hle).resolve hp.2 false false⟩
    · exact inStep_refuse sim (hle.span ▸ ha)

theorem inStep_callRule {callee callee' : Expr} {args args' : List Expr} (hi : i.Matches m i')
    (hcallee : callee.Matches m callee') (hargs : List.Forall₂ (Expr.Matches m) args args') :
    InStep S m Info.Matches (callRule i callee args) (callRule i' callee' args') := by
  refine inStep_typeOf hcallee.info fun t t' ht => ?_
  refine inStep_entry sim ht fun e e' he => ?_
  have hfunction := he.function?
  generalize e.function? = o at hfunction
  generalize e'.function? = o' at hfunction
  cases hfunction with
  | none => exact inStep_textOf sim ht fun _ => inStep_refuse sim hcallee.span
  | @some p p' h =>
    obtain ⟨params, returns⟩ := p
    obtain ⟨params', returns'⟩ := p'
    obtain ⟨hparams, hreturns⟩ : List.Forall₂ m.type params params' ∧ m.type returns returns' := h
    dsimp only
    rw [← hparams.length_eq, ← hargs.length_eq]
    split
    · exact inStep_refuse_bind sim hi.span
    · refine (inStep_expectAll sim hargs hparams).bind fun n _ _ hle _ => ?_
      exact inStep_pure ((hi.mono hle).resolve (hle.type _ _ hreturns) false false)

/-! ### Operators -/

private theorem inStep_addressRule {e e' : Expr} (hi : i.Matches m i') (he : e.Matches m e') :
    InStep S m Info.Matches (addressRule i e) (addressRule i' e') := by
  unfold addressRule
  refine inStep_typeOf he.info fun t t' ht => ?_
  rw [he.hasLocation]
  refine inStep_lift (P := Eq) (by cases e.hasLocation <;> constructor <;> rfl) fun b _ hb => ?_
  subst hb
  split
  · exact inStep_refuse_bind sim he.span
  · refine (sim.reference ht).bind fun n u u' hle hu => ?_
    exact inStep_pure ((hi.mono hle).resolve hu false false)

omit sim in
private theorem matches_operation {value : Option Value} {compileTime : Bool} (hi : i.Matches m i') (ht : m.type t t') :
    (operationInfo i t value compileTime).Matches m (operationInfo i' t' value compileTime) := by
  cases value with
  | none => exact hi.resolve ht compileTime false
  | some v => exact hi.fold ht v

private theorem inStep_negationRule {op : UnaryOp} {e e' : Expr} {expected : String} {takes : TypeId → Bool}
    (htakes : ∀ t, takes t = true → t < Types.primitives.length) (hi : i.Matches m i') (he : e.Matches m e') :
    InStep S m Info.Matches (negationRule i op e expected takes) (negationRule i' op e' expected takes) := by
  refine .intro fun s s' hs => ?_
  refine inStep_typeOf he.info fun outer outer' houter => ?_
  refine inStep_load sim houter fun t t' ht => ?_
  rw [sim.primitive_only hs ht htakes, he.info.value, he.info.compileTime]
  split
  · exact inStep_textOf sim houter fun _ => inStep_refuse_bind sim he.span
  · exact inStep_pure (matches_operation hi ht)

omit sim in
private theorem isNumeric_primitive (t : TypeId) (h : TypeId.isNumeric t = true) : t < Types.primitives.length := by
  simp only [TypeId.isNumeric, TypeId.isInteger, TypeId.isFloat, Bool.or_eq_true, decide_eq_true_eq] at h
  rcases h with (rfl | rfl) | rfl | rfl <;> decide

omit sim in
private theorem isLogical_primitive (t : TypeId) (h : isLogical t = true) : t < Types.primitives.length := by
  simp only [isLogical, TypeId.isInteger, Bool.or_eq_true, decide_eq_true_eq] at h
  rcases h with rfl | rfl | rfl <;> decide

theorem inStep_unaryRule {op : UnaryOp} {e e' : Expr} (hi : i.Matches m i') (he : e.Matches m e') :
    InStep S m Info.Matches (unaryRule i op e) (unaryRule i' op e') := by
  cases op with
  | negate => exact inStep_negationRule sim isNumeric_primitive hi he
  | invert => exact inStep_negationRule sim isLogical_primitive hi he
  | address => exact inStep_addressRule sim hi he

omit sim in
private theorem operandTypes_primitive (op : BinaryOp) (t : TypeId) (h : (operandTypes op).2 t = true) :
    t < Types.primitives.length := by
  cases op with
  | add | sub | mul | div | lt | le | gt | ge => exact isNumeric_primitive t h
  | rem | shl | shr => exact isNumeric_primitive t (by simp_all [operandTypes, TypeId.isNumeric])
  | and | or | xor => exact isLogical_primitive t h
  | eq | ne =>
    simp only [operandTypes, Bool.or_eq_true, decide_eq_true_eq] at h
    rcases h with rfl | h
    · decide
    · exact isNumeric_primitive t h

theorem inStep_binaryRule {op : BinaryOp} {l l' r r' : Expr} (hi : i.Matches m i') (hl : l.Matches m l')
    (hr : r.Matches m r') : InStep S m Info.Matches (binaryRule i op l r) (binaryRule i' op l' r') := by
  refine .intro fun s s' hs => ?_
  unfold binaryRule
  refine inStep_typeOf hl.info fun outer outer' houter => inStep_load sim houter fun left left' hleft => ?_
  refine inStep_typeOf hr.info fun outer outer' houter => inStep_load sim houter fun right right' hright => ?_
  have htakes := sim.primitive_only hs hleft (operandTypes_primitive op)
  generalize operandTypes op = p at htakes ⊢
  obtain ⟨expected, takes⟩ := p
  dsimp only at htakes ⊢
  rw [htakes]
  split
  · exact inStep_textOf sim hleft fun _ => inStep_refuse_bind sim hl.span
  simp only [ne_eq, sim.type_iff hs hleft hright]
  split
  · exact inStep_textOf sim hleft fun _ => inStep_textOf sim hright fun _ => inStep_refuse_bind sim hr.span
  have htype : m.type (if op.isComparison then TypeId.bool else left)
      (if op.isComparison then TypeId.bool else left') := by
    split
    · exact sim.primitive hs (by decide)
    · exact hleft
  unfold foldOperands
  rw [hl.info.value, hr.info.value, hl.info.compileTime, hr.info.compileTime]
  split
  · refine inStep_lift (P := Eq) (by cases Value.binary? op _ _ <;> constructor <;> rfl) fun v _ hv => ?_
    exact hv ▸ inStep_pure (matches_operation hi htype)
  · exact inStep_pure (matches_operation hi htype)

private theorem inStep_expectMutable {e e' : Expr} (he : e.Matches m e') :
    InStep S m (fun _ _ _ => True) (expectMutable e) (expectMutable e') := by
  refine inStep_lift he.place fun o o' ho => ?_
  cases ho with
  | none => exact inStep_pure trivial
  | some hp =>
    dsimp only
    rw [hp.root.mutable, hp.indirect, hp.root.name]
    split
    · exact inStep_refuse sim he.span
    · exact inStep_pure trivial

theorem inStep_assignmentRule {target target' source source' : Expr} (hi : i.Matches m i')
    (htarget : target.Matches m target') (hsource : source.Matches m source') :
    InStep S m Info.Matches (assignmentRule i target source) (assignmentRule i' target' source') := by
  unfold assignmentRule
  refine (inStep_expectMutable sim htarget).bind fun n _ _ hle _ => ?_
  have htarget := htarget.mono hle
  rw [htarget.hasLocation]
  refine inStep_lift (P := Eq) (by cases target.hasLocation <;> constructor <;> rfl) fun b _ hb => ?_
  subst hb
  split
  · exact inStep_refuse_bind sim htarget.span
  · refine inStep_typeOf htarget.info fun outer outer' houter => inStep_load sim houter fun t t' ht => ?_
    refine (inStep_expectExpr sim (hsource.mono hle) ht).bind fun l _ _ hle' _ => .intro fun s s' hs => ?_
    exact inStep_pure ((hi.mono (le_trans hle hle')).resolve (sim.primitive hs (by decide)) false false)

/-! ### Builtins -/

theorem inStep_findBuiltin {name : String} (hi : i.Matches m i') :
    InStep S m (fun _ b b' => b' = b) (findBuiltin i name) (findBuiltin i' name) := by
  unfold findBuiltin
  split
  · exact inStep_pure rfl
  · exact inStep_refuse sim hi.span

private theorem inStep_matchSecond {es es' : List Expr} (ht : m.type t t') (he : List.Forall₂ (Expr.Matches m) es es') :
    InStep S m (fun _ _ _ => True) (matchSecond t es) (matchSecond t' es') := by
  refine .intro fun s s' hs => ?_
  match es, es', he with
  | [], [], .nil => exact inStep_pure trivial
  | [_], [_], .cons _ .nil => exact inStep_pure trivial
  | [_, _], [_, _], .cons _ (.cons he .nil) =>
    refine inStep_typeOf he.info fun outer outer' houter => inStep_load sim houter fun u u' hu => ?_
    simp only [ne_eq, sim.type_iff hs hu ht]
    split
    · exact inStep_textOf sim ht fun _ => inStep_textOf sim hu fun _ => inStep_refuse sim he.span
    · exact inStep_pure trivial
  | _ :: _ :: _ :: _, _ :: _ :: _ :: _, .cons _ (.cons _ (.cons _ _)) => exact inStep_pure trivial

omit sim in
private theorem valuesOf_matches {es es' : List Expr} (he : List.Forall₂ (Expr.Matches m) es es') :
    valuesOf es' = valuesOf es := by
  induction he with
  | nil => rfl
  | cons he _ ih =>
    unfold valuesOf at ih ⊢
    rw [List.mapM_cons, List.mapM_cons, he.info.value, ih]

omit sim in
private theorem takes_numeric {b : Builtin} {t : TypeId} (h : b.family.takes t = true) : TypeId.isNumeric t = true := by
  cases b <;> simp_all [Builtin.family, Builtin.Family.takes, TypeId.isNumeric]

private theorem inStep_expectFeature {options : Options} {b : Builtin} (hi : i.Matches m i')
    (ht : b.family.feature? t' = b.family.feature? t) :
    InStep S m (fun _ _ _ => True) (expectFeature options i b t) (expectFeature options i' b t') := by
  unfold expectFeature
  rw [ht]
  split
  · split
    · exact inStep_refuse sim hi.span
    · exact inStep_pure trivial
  · exact inStep_pure trivial

theorem inStep_builtinRule {options : Options} {b : Builtin} {args args' : List Expr} (hi : i.Matches m i')
    (hargs : List.Forall₂ (Expr.Matches m) args args') :
    InStep S m Info.Matches (builtinRule options i b args) (builtinRule options i' b args') := by
  unfold builtinRule
  dsimp only
  rw [← hargs.length_eq]
  split
  · exact inStep_refuse_bind sim hi.span
  cases hargs with
  | nil => exact inStep_fail
  | @cons first first' rest rest' hfirst hrest =>
    refine inStep_typeOf hfirst.info fun outer outer' houter => inStep_load sim houter fun t t' ht => ?_
    refine .intro fun s s' hs => ?_
    rw [sim.primitive_only hs ht fun t h => isNumeric_primitive t (takes_numeric h)]
    split
    · exact inStep_textOf sim ht fun _ => inStep_refuse_bind sim hfirst.span
    have hargs := List.Forall₂.cons hfirst hrest
    refine (inStep_matchSecond sim ht hargs).bind fun n _ _ hle _ => ?_
    have hi := hi.mono hle
    have ht := hle.type _ _ ht
    refine .intro fun s s' hs => ?_
    refine (inStep_expectFeature sim hi (sim.feature hs ht)).bind fun l _ _ hle' _ => ?_
    have hargs := Expr.Matches.monoAll hargs (le_trans hle hle')
    unfold foldArguments
    rw [valuesOf_matches hargs, all_rel (fun _ _ h => by rw [h.info.compileTime]) hargs]
    refine .intro fun s s' hs => ?_
    have hresult := sim.result hs (hle'.type _ _ ht) (b := b)
    split
    · refine inStep_lift (P := Eq) (by cases b.value? _ <;> constructor <;> rfl) fun v _ hv => ?_
      exact hv ▸ inStep_pure (matches_operation (hi.mono hle') hresult)
    · exact inStep_pure (matches_operation (hi.mono hle') hresult)

/-! ### Struct literals -/

/-- The struct of a literal. -/
def Literal (m : Matching) (p p' : TypeId × String × List (String × TypeId)) : Prop :=
  m.type p.1 p'.1 ∧ p'.2.1 = p.2.1 ∧ FieldsMatch m p.2.2 p'.2.2

theorem inStep_literalStruct {fr fr' : FrameId} {name : String} (hfr : m.frame fr fr') (hi : i.Matches m i') :
    InStep S m Literal (literalStruct fr i name) (literalStruct fr' i' name) := by
  refine inStep_get fun s s' hs => ?_
  refine inStep_lift (sim.lookupType hs name hfr) fun o o' ho => ?_
  cases ho with
  | none => exact inStep_refuse sim hi.span
  | some ht =>
    refine inStep_entry sim ht fun e e' he => ?_
    have hstruct := he.struct?
    generalize e.struct? = o at hstruct
    generalize e'.struct? = o' at hstruct
    cases hstruct with
    | none => exact inStep_refuse sim hi.span
    | some =>
      refine (inStep_complete sim hi.span ht).bind fun n _ _ hle _ => ?_
      refine (inStep_fieldsOf sim (hle.type _ _ ht)).bind fun l d d' hle' hd => ?_
      exact inStep_pure ⟨hle'.type _ _ (hle.type _ _ ht), hd⟩

theorem inStep_fieldRule {owner name : String} {declared declared' : List (String × TypeId)} {seen : List String}
    {a a' : Span} (hdeclared : FieldsMatch m declared declared') (ha : m.span a a') :
    InStep S m TypesMatch (fieldRule owner declared seen name a) (fieldRule owner declared' seen name a') := by
  unfold fieldRule
  rw [findIdx?_rel (fun _ _ h => by rw [h.1]) hdeclared]
  split
  · exact inStep_refuse sim ha
  · split
    · exact inStep_refuse_bind sim ha
    · refine inStep_lift (rel_itemAt hdeclared _) fun p p' hp => ?_
      exact inStep_pure hp.2

theorem inStep_literalRule {owner : String} {declared declared' : List (String × TypeId)}
    {inits inits' : List (FieldInit Expr)} (hi : i.Matches m i') (ht : m.type t t')
    (hdeclared : FieldsMatch m declared declared')
    (hinits : List.Forall₂ (FieldInit.Matches m (Expr.Matches m)) inits inits') :
    InStep S m Info.Matches (literalRule i t owner declared inits) (literalRule i' t' owner declared' inits') := by
  have hgiven : ∀ a b : String × TypeId, b.1 = a.1 ∧ m.type a.2 b.2 →
      (!inits'.any (·.name = b.1)) = !inits.any (·.name = a.1) := by
    intro a b hab
    rw [any_rel (fun _ _ h => ?_) hinits]
    cases h with
    | mk => rw [hab.1]
  have hmissing := rel_find? hgiven hdeclared
  unfold literalRule
  generalize declared.find? _ = o at hmissing ⊢
  generalize declared'.find? _ = o' at hmissing ⊢
  cases hmissing with
  | some h =>
    dsimp only
    rw [h.1]
    exact inStep_refuse sim hi.span
  | none =>
    dsimp only
    rw [all_rel (fun _ _ h => ?_) hinits, all_rel (fun _ _ h => ?_) hinits]
    · exact inStep_pure (hi.resolve ht _ _)
    · cases h with
      | mk _ he => rw [he.info.constant]
    · cases h with
      | mk _ he => rw [he.info.compileTime]

/-! ### Statements and control flow -/

theorem inStep_letRule {fr fr' : FrameId} {v v' : Holder Variable} {d d' : Option TypeExpr} {e e' : Expr}
    (hfr : m.frame fr fr') (hv : Holder.Rel (Variable.Matches m) v v')
    (hd : Option.Rel (TypeExpr.Matches m.span) d d') (he : e.Matches m e') :
    InStep S m Variable.Matches (letRule fr v d e) (letRule fr' v' d' e') := by
  refine inStep_lift hv.get fun v v' hv => ?_
  cases hd with
  | none => exact inStep_typeOf he.info fun t t' ht => inStep_pure (hv.withType (.owned ht))
  | some hd =>
    refine (inStep_resolveType sim hfr hd).bind fun n t t' hle ht => ?_
    refine (inStep_expectExpr sim (he.mono hle) ht).bind fun l _ _ hle' _ => ?_
    exact inStep_pure ((hv.mono (le_trans hle hle')).withType (.borrowed (hle'.type _ _ ht)))

theorem inStep_blockRule {stmts stmts' : List Expr} {tail tail' : Option Expr} (hi : i.Matches m i')
    (hstmts : List.Forall₂ (Expr.Matches m) stmts stmts') (htail : Option.Rel (Expr.Matches m) tail tail') :
    InStep S m Info.Matches (blockRule i stmts tail) (blockRule i' stmts' tail') := by
  refine .intro fun s s' hs => ?_
  cases htail with
  | some he => exact inStep_typeOf he.info fun t t' ht => inStep_pure (hi.resolve ht false false)
  | none =>
    unfold blockRule
    have hnever := sim.primitive hs (show TypeId.never < _ by decide)
    have hdiverges : (stmts'.any fun e => e.type? = some TypeId.never) =
        stmts.any fun e => e.type? = some TypeId.never :=
      any_rel (fun _ _ h => by simp only [h.type.eq_some_iff fun _ _ ht => sim.type_iff hs ht hnever]) hstmts
    dsimp only
    rw [hdiverges]
    refine inStep_pure (hi.resolve ?_ false false)
    split
    · exact hnever
    · exact sim.primitive hs (by decide)

theorem inStep_ifRule {body body' : Block Expr} {other other' : Option Expr} (hi : i.Matches m i')
    (hbody : body.Matches m body') (hother : Option.Rel (Expr.Matches m) other other') :
    InStep S m Info.Matches (ifRule i body other) (ifRule i' body' other') := by
  refine .intro fun s s' hs => ?_
  have hvoid := sim.primitive hs (show TypeId.void < _ by decide)
  cases hother with
  | none =>
    refine (inStep_expectBlock sim hbody hvoid).bind fun n _ _ hle _ => ?_
    exact inStep_pure ((hi.mono hle).resolve (hle.type _ _ hvoid) false false)
  | some he =>
    refine inStep_typeOf (Expr.Matches.info hbody) fun t t' ht => ?_
    refine inStep_typeOf he.info fun u u' hu => ?_
    refine inStep_assignable sim hu ht fun b => ?_
    split
    · exact inStep_pure (hi.resolve ht false false)
    refine inStep_assignable sim ht hu fun b => ?_
    split
    · exact inStep_pure (hi.resolve hu false false)
    · exact (inStep_expectExpr sim he ht).bind fun n _ _ hle _ => inStep_pure (hi.mono hle)

theorem inStep_jumpRule {keyword : String} {inLoop : Bool} (hi : i.Matches m i') :
    InStep S m Info.Matches (jumpRule i keyword inLoop) (jumpRule i' keyword inLoop) := by
  refine .intro fun s s' hs => ?_
  unfold jumpRule
  split
  · exact inStep_refuse_bind sim hi.span
  · exact inStep_pure (hi.resolve (sim.primitive hs (by decide)) false false)

theorem inStep_returnRule {returns returns' : Option TypeId} {result result' : Option Expr} (hi : i.Matches m i')
    (hreturns : Option.Rel m.type returns returns') (hresult : Option.Rel (Expr.Matches m) result result') :
    InStep S m Info.Matches (returnRule i returns result) (returnRule i' returns' result') := by
  refine .intro fun s s' hs => ?_
  have hvoid := sim.primitive hs (show TypeId.void < _ by decide)
  cases hreturns with
  | none => exact inStep_refuse sim hi.span
  | @some t t' ht =>
    have hfits : InStep S m (fun _ _ _ => True) (expectResult i t result) (expectResult i' t' result') := by
      cases hresult with
      | some he => exact inStep_expectExpr sim he ht
      | none =>
        unfold expectResult
        simp only [ne_eq, sim.type_iff hs ht hvoid]
        split
        · exact inStep_textOf sim ht fun _ => inStep_textOf sim hvoid fun _ => inStep_refuse sim hi.span
        · exact inStep_pure trivial
    refine hfits.bind fun n _ _ hle _ => .intro fun s s' hs => ?_
    exact inStep_pure ((hi.mono hle).resolve (sim.primitive hs (by decide)) false false)

/-! ### Functions -/

theorem inStep_enterNested {fr fr' : FrameId} {h h' : Header} (hfr : m.frame fr fr') (hh : h.Matches m h') :
    InStep S m Matching.frame (enterNested fr h) (enterNested fr' h') := by
  refine (sim.register hfr hh).bind fun n _ _ hle _ => .intro fun s s' hs => ?_
  refine (sim.nest (sim.module hs)).bind fun l own own' hle' hown => ?_
  refine (sim.declare hown (hh.mono (le_trans hle hle')).binding).bind fun k _ _ hle'' _ => ?_
  exact inStep_pure (hle''.frame _ _ hown)

/-- What the bodies of two functions that stand for each other are checked with. -/
structure Entry.Matches (m : Matching) (e e' : Entry) : Prop where
  signature : m.type e.signature e'.signature
  params : List.Forall₂ m.type e.params e'.params
  returns : m.type e.returns e'.returns
  frame : m.frame e.frame e'.frame

theorem inStep_enterFunction {fr fr' : FrameId} {h h' : Header} (hfr : m.frame fr fr') (hh : h.Matches m h') :
    InStep S m Entry.Matches (enterFunction fr h) (enterFunction fr' h') := by
  refine (sim.signature hfr hh.span hh.prototype).bind fun n t t' hle ht => ?_
  refine inStep_entry sim ht fun e e' he => ?_
  have hfunction := he.function?
  generalize e.function? = o at hfunction
  generalize e'.function? = o' at hfunction
  cases hfunction with
  | none => exact inStep_fail
  | some h =>
    refine (sim.nest (hle.frame _ _ hfr)).bind fun l fr fr' hle' hfr => ?_
    exact inStep_pure ⟨hle'.type _ _ ht, h.1.imp hle'.type, hle'.type _ _ h.2, hfr⟩

end

end Action

end

end RainCheck

import RainCheck.Proofs.Faults
import RainCheck.Compile
import Mathlib.Data.List.Forall2
import Mathlib.Order.Defs.PartialOrder

/-!
# Matching two compilations

Two compilations can do the same at different places: spans, types and frames of the one then stand for those of the
other.  A `Matching` says which stand for which.
* `Expr.Matches` and its like relate what is equal up to a matching.  Names, values and operators have to be the same.
* A matching grows while types and frames are added, and what matches still does so (`mono`).
-/

namespace Option.Rel

variable {α β : Type} {P Q : α → β → Prop} {x : Option α} {y : Option β}

theorem imp (h : Option.Rel P x y) (hPQ : ∀ a b, P a b → Q a b) : Option.Rel Q x y := by
  cases h with
  | none => exact .none
  | some h => exact .some (hPQ _ _ h)

protected theorem refl {R : α → α → Prop} (h : ∀ a, R a a) (x : Option α) : Option.Rel R x x := by
  cases x with
  | none => exact .none
  | some a => exact .some (h a)

theorem isSome (h : Option.Rel Q x y) : y.isSome = x.isSome := by
  cases h <;> rfl

theorem getD (h : Option.Rel Q x y) {a : α} {b : β} (hd : Q a b) : Q (x.getD a) (y.getD b) := by
  cases h with
  | none => exact hd
  | some h => exact h

/-- What is there is put in another's place. -/
theorem replace {γ δ : Type} {R : γ → δ → Prop} (h : Option.Rel Q x y) {c : γ} {d : δ} (hR : R c d) :
    Option.Rel R (x.map fun _ => c) (y.map fun _ => d) := by
  cases h with
  | none => exact .none
  | some => exact .some hR

theorem eq_some_iff (h : Option.Rel Q x y) {a : α} {b : β} (hQ : ∀ c d, Q c d → (d = b ↔ c = a)) :
    y = Option.some b ↔ x = Option.some a := by
  cases h with
  | none => simp
  | some h => simpa using hQ _ _ h

end Option.Rel

namespace RainCheck

/-! ### Relations on containers -/

/-- Both computations fail such that `E` holds, or both give a result such that `Q` holds. -/
inductive Except.Rel {ε δ α β : Type} (E : ε → δ → Prop) (Q : α → β → Prop) : Except ε α → Except δ β → Prop where
  | ok {x : α} {y : β} (h : Q x y) : Except.Rel E Q (.ok x) (.ok y)
  | error {e : ε} {d : δ} (h : E e d) : Except.Rel E Q (.error e) (.error d)

/-- Both holders are empty, or own a value, or borrow one, such that `Q` holds of the values. -/
inductive Holder.Rel {α β : Type} (Q : α → β → Prop) : Holder α → Holder β → Prop where
  | empty : Holder.Rel Q .empty .empty
  | owned {x : α} {y : β} (h : Q x y) : Holder.Rel Q (.owned x) (.owned y)
  | borrowed {x : α} {y : β} (h : Q x y) : Holder.Rel Q (.borrowed x) (.borrowed y)

section

variable {α β γ δ : Type} {P Q : α → β → Prop} {R : γ → δ → Prop}

theorem Except.Rel.imp {ε ζ : Type} {E E' : ε → ζ → Prop} {x : Except ε α} {y : Except ζ β} (h : Except.Rel E P x y)
    (herror : ∀ e d, E e d → E' e d) (hok : ∀ a b, P a b → Q a b) : Except.Rel E' Q x y := by
  cases h with
  | ok h => exact .ok (hok _ _ h)
  | error h => exact .error (herror _ _ h)

theorem Except.Rel.bind {ε ζ : Type} {E : ε → ζ → Prop} {x : Except ε α} {y : Except ζ β} {f : α → Except ε γ}
    {g : β → Except ζ δ} (h : Except.Rel E Q x y) (hf : ∀ a b, Q a b → Except.Rel E R (f a) (g b)) :
    Except.Rel E R (x >>= f) (y >>= g) := by
  cases h with
  | ok h => exact hf _ _ h
  | error h => exact .error h

theorem Except.Rel.exists_ok {ε ζ : Type} {E : ε → ζ → Prop} {a : α} {y : Except ζ β} (h : Except.Rel E Q (.ok a) y) :
    ∃ b, y = .ok b ∧ Q a b := by
  cases h with
  | ok h => exact ⟨_, rfl, h⟩

theorem Except.Rel.exists_error {ε ζ : Type} {E : ε → ζ → Prop} {e : ε} {y : Except ζ β}
    (h : Except.Rel E Q (.error e) y) : ∃ d, y = .error d ∧ E e d := by
  cases h with
  | error h => exact ⟨_, rfl, h⟩

theorem rel_unwrap {x : Option α} {y : Option β} (h : Option.Rel Q x y) :
    Except.Rel Eq Q (unwrap x) (unwrap y) := by
  cases h with
  | none => exact .error rfl
  | some h => exact .ok h

namespace Holder.Rel

variable {x : Holder α} {y : Holder β}

theorem imp (h : Holder.Rel P x y) (hPQ : ∀ a b, P a b → Q a b) : Holder.Rel Q x y := by
  cases h with
  | empty => exact .empty
  | owned h => exact .owned (hPQ _ _ h)
  | borrowed h => exact .borrowed (hPQ _ _ h)

protected theorem refl {R : α → α → Prop} (h : ∀ a, R a a) (x : Holder α) : Holder.Rel R x x := by
  cases x with
  | empty => exact .empty
  | owned a => exact .owned (h a)
  | borrowed a => exact .borrowed (h a)

theorem isEmpty (h : Holder.Rel Q x y) : y.isEmpty = x.isEmpty := by
  cases h <;> rfl

theorem get (h : Holder.Rel Q x y) : Except.Rel Eq Q x.get y.get := by
  cases h with
  | empty => exact .error rfl
  | owned h | borrowed h => exact .ok h

theorem take (h : Holder.Rel Q x y) : Except.Rel Eq (fun a b => Q a.1 b.1) x.take y.take := by
  cases h with
  | empty => exact .error rfl
  | borrowed h => exact .error rfl
  | owned h => exact .ok h

/-- A value that is put in the place of another one keeps the ownership. -/
theorem replace (h : Holder.Rel Q x y) {a : γ} {b : δ} (hR : R a b) :
    Holder.Rel R (x.map fun _ => a) (y.map fun _ => b) := by
  cases h with
  | empty => exact .empty
  | owned => exact .owned hR
  | borrowed => exact .borrowed hR

end Holder.Rel

/-! ### Related lists -/

variable {l : List α} {l' : List β}

theorem rel_getElem? (h : List.Forall₂ Q l l') (n : Nat) : Option.Rel Q l[n]? l'[n]? := by
  induction h generalizing n with
  | nil => exact .none
  | cons h _ ih =>
    cases n with
    | zero => exact .some h
    | succ n => exact ih n

theorem rel_itemAt (h : List.Forall₂ Q l l') (n : Nat) : Except.Rel Eq Q (itemAt l n) (itemAt l' n) := by
  have hn := rel_getElem? h n
  unfold itemAt
  generalize l[n]? = x at hn
  generalize l'[n]? = y at hn
  cases hn with
  | none => exact .error rfl
  | some h => exact .ok h

section

variable {p : α → Bool} {p' : β → Bool} (hp : ∀ a b, Q a b → p' b = p a)

include hp

theorem findIdx?_rel (h : List.Forall₂ Q l l') : l'.findIdx? p' = l.findIdx? p := by
  induction h with
  | nil => rfl
  | cons h _ ih => rw [List.findIdx?_cons, List.findIdx?_cons, hp _ _ h, ih]

theorem rel_find? (h : List.Forall₂ Q l l') : Option.Rel Q (l.find? p) (l'.find? p') := by
  induction h with
  | nil => exact .none
  | cons h _ ih =>
    rw [List.find?_cons, List.find?_cons, hp _ _ h]
    split
    · exact .some h
    · exact ih

theorem any_rel (h : List.Forall₂ Q l l') : l'.any p' = l.any p := by
  induction h with
  | nil => rfl
  | cons h _ ih => rw [List.any_cons, List.any_cons, hp _ _ h, ih]

theorem all_rel (h : List.Forall₂ Q l l') : l'.all p' = l.all p := by
  induction h with
  | nil => rfl
  | cons h _ ih => rw [List.all_cons, List.all_cons, hp _ _ h, ih]

end

theorem rel_modify {l l' : List α} {R : α → α → Prop} (h : List.Forall₂ R l l') (n : Nat) {f g : α → α}
    (hf : ∀ a b, R a b → R (f a) (g b)) : List.Forall₂ R (l.modify n f) (l'.modify n g) := by
  induction h generalizing n with
  | nil => simp
  | cons h hrest ih =>
    cases n with
    | zero => simpa using ⟨hf _ _ h, hrest⟩
    | succ n => simpa using ⟨h, ih n⟩

theorem rel_set (h : List.Forall₂ Q l l') (n : Nat) {a : α} {b : β} (hab : Q a b) :
    List.Forall₂ Q (l.set n a) (l'.set n b) := by
  induction h generalizing n with
  | nil => exact .nil
  | cons h hrest ih =>
    cases n with
    | zero => exact .cons hab hrest
    | succ n => exact .cons h (ih n)

/-- Entries with the same name are found at once in both lists. -/
theorem rel_lookup {l : List (String × α)} {l' : List (String × β)}
    (h : List.Forall₂ (fun a b => b.1 = a.1 ∧ Q a.2 b.2) l l') (name : String) :
    Option.Rel Q (l.lookup name) (l'.lookup name) := by
  induction h with
  | nil => exact .none
  | @cons a b _ _ h _ ih =>
    rw [List.lookup_cons, List.lookup_cons, h.1]
    split
    · exact .some h.2
    · exact ih

end

/-! ### Matchings -/

/-- Which spans, types, frames and problems of two compilations stand for each other. -/
structure Matching where
  span : Span → Span → Prop
  type : TypeId → TypeId → Prop
  frame : FrameId → FrameId → Prop
  problem : Diagnostic → Diagnostic → Prop

namespace Matching

/-- A matching of more types and frames; spans and problems are matched once and for all. -/
structure Le (m n : Matching) : Prop where
  span : n.span = m.span
  type : ∀ t t', m.type t t' → n.type t t'
  frame : ∀ f f', m.frame f f' → n.frame f f'
  problem : n.problem = m.problem

/-- What one matching matches, another one does, too. -/
structure Finer (m n : Matching) : Prop where
  span : ∀ a a', m.span a a' → n.span a a'
  type : ∀ t t', m.type t t' → n.type t t'
  frame : ∀ f f', m.frame f f' → n.frame f f'
  problem : ∀ d d', m.problem d d' → n.problem d d'

instance : Preorder Matching where
  le := Le
  le_refl _ := ⟨rfl, fun _ _ => id, fun _ _ => id, rfl⟩
  le_trans _ _ _ h h' := ⟨h'.span.trans h.span, fun _ _ ht => h'.type _ _ (h.type _ _ ht),
    fun _ _ hf => h'.frame _ _ (h.frame _ _ hf), h'.problem.trans h.problem⟩

theorem Le.finer {m n : Matching} (h : m ≤ n) : m.Finer n :=
  ⟨fun a a' => (congrFun (congrFun h.span a) a').mpr, h.type, h.frame,
    fun d d' => (congrFun (congrFun h.problem d) d').mpr⟩

end Matching

/-! ### Written types and declared names -/

/-- One written type at two places. -/
inductive TypeExpr.Matches (R : Span → Span → Prop) : TypeExpr → TypeExpr → Prop where
  | named {s s' : Span} {name : String} (hs : R s s') : Matches R (.named s name) (.named s' name)
  | reference {s s' : Span} {t t' : TypeExpr} (hs : R s s') (ht : Matches R t t') :
      Matches R (.reference s t) (.reference s' t')
  | function {s s' : Span} {ps ps' : List TypeExpr} {r r' : Option TypeExpr} (hs : R s s')
      (hps : List.Forall₂ (Matches R) ps ps') (hr : Option.Rel (Matches R) r r') :
      Matches R (.function s ps r) (.function s' ps' r')

mutual

private theorem TypeExpr.Matches.imp {R S : Span → Span → Prop} {t t' : TypeExpr} (h : t.Matches R t')
    (hRS : ∀ a a', R a a' → S a a') :
    t.Matches S t' := by
  match t with
  | .named .. => cases h with | named hs => exact .named (hRS _ _ hs)
  | .reference _ inner => cases h with | reference hs ht => exact .reference (hRS _ _ hs) (TypeExpr.Matches.imp ht hRS)
  | .function _ params returns =>
    cases h with
    | function hs hps hr =>
      exact .function (hRS _ _ hs) (TypeExpr.Matches.impAll hps hRS) (TypeExpr.Matches.impOption hr hRS)

private theorem TypeExpr.Matches.impAll {R S : Span → Span → Prop} {ts ts' : List TypeExpr}
    (h : List.Forall₂ (TypeExpr.Matches R) ts ts') (hRS : ∀ a a', R a a' → S a a') :
    List.Forall₂ (TypeExpr.Matches S) ts ts' := by
  match ts with
  | [] => cases h with | nil => exact .nil
  | t :: rest =>
    cases h with
    | cons ht hrest => exact .cons (TypeExpr.Matches.imp ht hRS) (TypeExpr.Matches.impAll hrest hRS)

private theorem TypeExpr.Matches.impOption {R S : Span → Span → Prop} {t t' : Option TypeExpr}
    (h : Option.Rel (TypeExpr.Matches R) t t') (hRS : ∀ a a', R a a' → S a a') :
    Option.Rel (TypeExpr.Matches S) t t' := by
  match t with
  | none => cases h with | none => exact .none
  | some t => cases h with | some ht => exact .some (TypeExpr.Matches.imp ht hRS)

end

/-- One prototype at two places. -/
structure Prototype.Matches (R : Span → Span → Prop) (p p' : Prototype) : Prop where
  params : List.Forall₂ (TypeExpr.Matches R) p.params p'.params
  returns : Option.Rel (TypeExpr.Matches R) p.returns p'.returns

/-- Variables of one kind. -/
inductive VariableKind.Matches (R : Span → Span → Prop) : VariableKind → VariableKind → Prop where
  | bound : Matches R .bound .bound
  | argument : Matches R .argument .argument
  | function {p p' : Prototype} (h : p.Matches R p') : Matches R (.function p) (.function p')

theorem VariableKind.Matches.imp {R S : Span → Span → Prop} {k k' : VariableKind} (h : k.Matches R k')
    (hRS : ∀ a a', R a a' → S a a') : k.Matches S k' := by
  cases h with
  | bound => exact .bound
  | argument => exact .argument
  | function h => exact .function ⟨TypeExpr.Matches.impAll h.params hRS, TypeExpr.Matches.impOption h.returns hRS⟩

theorem VariableKind.Matches.isFunction {R : Span → Span → Prop} {k k' : VariableKind} (h : k.Matches R k') :
    k'.isFunction = k.isFunction := by
  cases h <;> rfl

/-- One field declaration at two places. -/
structure FieldDecl.Matches (R : Span → Span → Prop) (f f' : FieldDecl) : Prop where
  name : f'.name = f.name
  span : R f.span f'.span
  type : f.type.Matches R f'.type

/-- One struct declaration at two places. -/
structure StructDecl.Matches (R : Span → Span → Prop) (d d' : StructDecl) : Prop where
  name : d'.name = d.name
  span : R d.span d'.span
  exported : d'.exported = d.exported
  fields : List.Forall₂ (FieldDecl.Matches R) d.fields d'.fields

theorem StructDecl.Matches.imp {R S : Span → Span → Prop} {d d' : StructDecl} (h : d.Matches R d')
    (hRS : ∀ a a', R a a' → S a a') : d.Matches S d' where
  name := h.name
  span := hRS _ _ h.span
  exported := h.exported
  fields := h.fields.imp fun _ _ hf => ⟨hf.name, hRS _ _ hf.span, hf.type.imp hRS⟩

section

variable {m n : Matching}

/-- Variables that stand for each other. -/
structure Variable.Matches (m : Matching) (v v' : Variable) : Prop where
  name : v'.name = v.name
  kind : v.kind.Matches m.span v'.kind
  mutable : v'.mutable = v.mutable
  span : m.span v.span v'.span
  type : Holder.Rel m.type v.type v'.type

theorem Variable.Matches.imp {v v' : Variable} (h : v.Matches m v') (hmn : m.Finer n) : v.Matches n v' where
  name := h.name
  kind := h.kind.imp hmn.span
  mutable := h.mutable
  span := hmn.span _ _ h.span
  type := h.type.imp hmn.type

theorem Variable.Matches.mono {v v' : Variable} (h : v.Matches m v') (hle : m ≤ n) : v.Matches n v' := h.imp hle.finer

/-- A variable that gets its type. -/
theorem Variable.Matches.withType {v v' : Variable} {t t' : Holder TypeId} (h : v.Matches m v')
    (ht : Holder.Rel m.type t t') : Variable.Matches m { v with type := t } { v' with type := t' } :=
  { h with type := ht }

/-- Parameters that stand for each other. -/
structure Param.Matches (m : Matching) (p p' : Param) : Prop where
  binding : p.binding.Matches m p'.binding
  declared : p.declared.Matches m.span p'.declared

private theorem Param.Matches.imp {p p' : Param} (h : p.Matches m p') (hmn : m.Finer n) : p.Matches n p' :=
  ⟨h.binding.imp hmn, h.declared.imp hmn.span⟩

theorem Param.Matches.mono {p p' : Param} (h : p.Matches m p') (hle : m ≤ n) : p.Matches n p' := h.imp hle.finer

/-- Function heads that stand for each other. -/
structure Header.Matches (m : Matching) (h h' : Header) : Prop where
  name : h'.name = h.name
  span : m.span h.span h'.span
  exported : h'.exported = h.exported
  params : List.Forall₂ (Param.Matches m) h.params h'.params
  returns : Option.Rel (TypeExpr.Matches m.span) h.returns h'.returns

namespace Header.Matches

variable {h h' : Header}

theorem imp (hh : h.Matches m h') (hmn : m.Finer n) : h.Matches n h' where
  name := hh.name
  span := hmn.span _ _ hh.span
  exported := hh.exported
  params := hh.params.imp fun _ _ hp => hp.imp hmn
  returns := TypeExpr.Matches.impOption hh.returns hmn.span

theorem mono (hh : h.Matches m h') (hle : m ≤ n) : h.Matches n h' := hh.imp hle.finer

theorem prototype (hh : h.Matches m h') : h.prototype.Matches m.span h'.prototype :=
  ⟨List.rel_map (fun _ _ hp => hp.declared) hh.params, hh.returns⟩

theorem binding (hh : h.Matches m h') : h.binding.Matches m h'.binding :=
  ⟨hh.name, .function hh.prototype, rfl, hh.span, .empty⟩

theorem withParams {ps ps' : List Param} (hh : h.Matches m h') (hps : List.Forall₂ (Param.Matches m) ps ps') :
    Header.Matches m { h with params := ps } { h' with params := ps' } :=
  { hh with params := hps }

end Header.Matches

/-! ### Expressions -/

/-- The same is known about two nodes. -/
structure Info.Matches (m : Matching) (i i' : Info) : Prop where
  span : m.span i.span i'.span
  type : Option.Rel m.type i.type i'.type
  compileTime : i'.compileTime = i.compileTime
  constant : i'.constant = i.constant
  value : i'.value = i.value
  reference : i'.reference = i.reference

namespace Info.Matches

variable {i i' : Info} {t t' : TypeId}

theorem imp (h : i.Matches m i') (hmn : m.Finer n) : i.Matches n i' :=
  { h with span := hmn.span _ _ h.span, type := h.type.imp hmn.type }

theorem mono (h : i.Matches m i') (hle : m ≤ n) : i.Matches n i' := h.imp hle.finer

theorem resolve (h : i.Matches m i') (ht : m.type t t') (compileTime constant : Bool) :
    (i.resolve t compileTime constant).Matches m (i'.resolve t' compileTime constant) :=
  ⟨h.span, .some ht, rfl, rfl, h.value, h.reference⟩

theorem fold (h : i.Matches m i') (ht : m.type t t') (v : Value) : (i.fold t v).Matches m (i'.fold t' v) :=
  ⟨h.span, .some ht, rfl, rfl, rfl, h.reference⟩

theorem note (h : i.Matches m i') (b : Bool) :
    Info.Matches m { i with reference := b } { i' with reference := b } :=
  { h with reference := rfl }

end Info.Matches

/-- One field of a struct literal at two places, with values that are related. -/
inductive FieldInit.Matches (m : Matching) (R : Expr → Expr → Prop) : FieldInit Expr → FieldInit Expr → Prop where
  | mk {name : String} {s s' : Span} {e e' : Expr} (hs : m.span s s') (he : R e e') :
      Matches m R ⟨name, s, e⟩ ⟨name, s', e'⟩

/-- Expressions that stand for each other. -/
inductive Expr.Matches (m : Matching) : Expr → Expr → Prop where
  | integer {i i' : Info} {v : Int32} (hi : i.Matches m i') : Matches m (.integer i v) (.integer i' v)
  | float {i i' : Info} {x : Float} (hi : i.Matches m i') : Matches m (.float i x) (.float i' x)
  | boolean {i i' : Info} {b : Bool} (hi : i.Matches m i') : Matches m (.boolean i b) (.boolean i' b)
  | identifier {i i' : Info} {name : String} {v v' : Option Variable} (hi : i.Matches m i')
      (hv : Option.Rel (Variable.Matches m) v v') : Matches m (.identifier i name v) (.identifier i' name v')
  | member {i i' : Info} {base base' : Expr} {name : String} {s s' : Span} {index : Nat} (hi : i.Matches m i')
      (hbase : Matches m base base') (hs : m.span s s') :
      Matches m (.member i base name s index) (.member i' base' name s' index)
  | call {i i' : Info} {callee callee' : Expr} {args args' : List Expr} (hi : i.Matches m i')
      (hcallee : Matches m callee callee') (hargs : List.Forall₂ (Matches m) args args') :
      Matches m (.call i callee args) (.call i' callee' args')
  | builtinCall {i i' : Info} {name : String} {args args' : List Expr} (hi : i.Matches m i')
      (hargs : List.Forall₂ (Matches m) args args') : Matches m (.builtinCall i name args) (.builtinCall i' name args')
  | unary {i i' : Info} {op : UnaryOp} {e e' : Expr} (hi : i.Matches m i') (he : Matches m e e') :
      Matches m (.unary i op e) (.unary i' op e')
  | binary {i i' : Info} {op : BinaryOp} {lhs lhs' rhs rhs' : Expr} (hi : i.Matches m i') (hlhs : Matches m lhs lhs')
      (hrhs : Matches m rhs rhs') : Matches m (.binary i op lhs rhs) (.binary i' op lhs' rhs')
  | assignment {i i' : Info} {target target' source source' : Expr} (hi : i.Matches m i')
      (htarget : Matches m target target') (hsource : Matches m source source') :
      Matches m (.assignment i target source) (.assignment i' target' source')
  | structLiteral {i i' : Info} {name : String} {inits inits' : List (FieldInit Expr)} (hi : i.Matches m i')
      (hinits : List.Forall₂ (FieldInit.Matches m (Matches m)) inits inits') :
      Matches m (.structLiteral i name inits) (.structLiteral i' name inits')
  | letBinding {i i' : Info} {v v' : Holder Variable} {t t' : Option TypeExpr} {init init' : Expr} (hi : i.Matches m i')
      (hv : Holder.Rel (Variable.Matches m) v v') (ht : Option.Rel (TypeExpr.Matches m.span) t t')
      (hinit : Matches m init init') : Matches m (.letBinding i v t init) (.letBinding i' v' t' init')
  | block {i i' : Info} {fr fr' : Option FrameId} {stmts stmts' : List Expr} {tail tail' : Option Expr}
      (hi : i.Matches m i') (hfr : Option.Rel m.frame fr fr') (hstmts : List.Forall₂ (Matches m) stmts stmts')
      (htail : Option.Rel (Matches m) tail tail') :
      Matches m (.block ⟨i, fr, stmts, tail⟩) (.block ⟨i', fr', stmts', tail'⟩)
  | ifElse {i i' : Info} {cond cond' : Expr} {body body' : Block Expr} {other other' : Option Expr}
      (hi : i.Matches m i') (hcond : Matches m cond cond') (hbody : Matches m (.block body) (.block body'))
      (hother : Option.Rel (Matches m) other other') :
      Matches m (.ifElse i cond body other) (.ifElse i' cond' body' other')
  | whileLoop {i i' : Info} {cond cond' : Expr} {body body' : Block Expr} (hi : i.Matches m i')
      (hcond : Matches m cond cond') (hbody : Matches m (.block body) (.block body')) :
      Matches m (.whileLoop i cond body) (.whileLoop i' cond' body')
  | endlessLoop {i i' : Info} {body body' : Block Expr} (hi : i.Matches m i')
      (hbody : Matches m (.block body) (.block body')) : Matches m (.endlessLoop i body) (.endlessLoop i' body')
  | leaveLoop {i i' : Info} (hi : i.Matches m i') : Matches m (.leaveLoop i) (.leaveLoop i')
  | nextRound {i i' : Info} (hi : i.Matches m i') : Matches m (.nextRound i) (.nextRound i')
  | leaveFunction {i i' : Info} {e e' : Option Expr} (hi : i.Matches m i') (he : Option.Rel (Matches m) e e') :
      Matches m (.leaveFunction i e) (.leaveFunction i' e')
  | function {i i' : Info} {h h' : Header} {body body' : Block Expr} (hi : i.Matches m i') (hh : h.Matches m h')
      (hbody : Matches m (.block body) (.block body')) : Matches m (.function i h body) (.function i' h' body')

/-- Blocks that stand for each other. -/
def Block.Matches (m : Matching) (b b' : Block Expr) : Prop := (Expr.block b).Matches m (.block b')

mutual

private theorem Expr.Matches.imp {e e' : Expr} (h : e.Matches m e') (hmn : m.Finer n) : e.Matches n e' := by
  match e with
  | .integer .. => cases h with | integer hi => exact .integer (hi.imp hmn)
  | .float .. => cases h with | float hi => exact .float (hi.imp hmn)
  | .boolean .. => cases h with | boolean hi => exact .boolean (hi.imp hmn)
  | .leaveLoop .. => cases h with | leaveLoop hi => exact .leaveLoop (hi.imp hmn)
  | .nextRound .. => cases h with | nextRound hi => exact .nextRound (hi.imp hmn)
  | .identifier .. =>
    cases h with
    | identifier hi hv => exact .identifier (hi.imp hmn) (hv.imp fun _ _ h => h.imp hmn)
  | .member _ base .. =>
    cases h with
    | member hi hbase hs => exact .member (hi.imp hmn) (Expr.Matches.imp hbase hmn) (hmn.span _ _ hs)
  | .call _ callee args =>
    cases h with
    | call hi hcallee hargs =>
      exact .call (hi.imp hmn) (Expr.Matches.imp hcallee hmn) (Expr.Matches.impAll hargs hmn)
  | .builtinCall _ _ args =>
    cases h with
    | builtinCall hi hargs => exact .builtinCall (hi.imp hmn) (Expr.Matches.impAll hargs hmn)
  | .unary _ _ operand =>
    cases h with
    | unary hi he => exact .unary (hi.imp hmn) (Expr.Matches.imp he hmn)
  | .binary _ _ lhs rhs =>
    cases h with
    | binary hi hlhs hrhs => exact .binary (hi.imp hmn) (Expr.Matches.imp hlhs hmn) (Expr.Matches.imp hrhs hmn)
  | .assignment _ target source =>
    cases h with
    | assignment hi htarget hsource =>
      exact .assignment (hi.imp hmn) (Expr.Matches.imp htarget hmn) (Expr.Matches.imp hsource hmn)
  | .structLiteral _ _ inits =>
    cases h with
    | structLiteral hi hinits => exact .structLiteral (hi.imp hmn) (Expr.Matches.impFields hinits hmn)
  | .letBinding _ _ _ init =>
    cases h with
    | letBinding hi hv ht hinit =>
      exact .letBinding (hi.imp hmn) (hv.imp fun _ _ h => h.imp hmn) (TypeExpr.Matches.impOption ht hmn.span)
        (Expr.Matches.imp hinit hmn)
  | .block b =>
    obtain ⟨b', rfl⟩ : ∃ b', e' = .block b' := by cases h; exact ⟨_, rfl⟩
    exact Expr.Matches.impBlock h hmn
  | .ifElse _ cond body other =>
    cases h with
    | ifElse hi hcond hbody hother =>
      exact .ifElse (hi.imp hmn) (Expr.Matches.imp hcond hmn) (Expr.Matches.impBlock hbody hmn)
        (Expr.Matches.impOption hother hmn)
  | .whileLoop _ cond body =>
    cases h with
    | whileLoop hi hcond hbody =>
      exact .whileLoop (hi.imp hmn) (Expr.Matches.imp hcond hmn) (Expr.Matches.impBlock hbody hmn)
  | .endlessLoop _ body =>
    cases h with
    | endlessLoop hi hbody => exact .endlessLoop (hi.imp hmn) (Expr.Matches.impBlock hbody hmn)
  | .leaveFunction _ result =>
    cases h with
    | leaveFunction hi he => exact .leaveFunction (hi.imp hmn) (Expr.Matches.impOption he hmn)
  | .function _ _ body =>
    cases h with
    | function hi hh hbody => exact .function (hi.imp hmn) (hh.imp hmn) (Expr.Matches.impBlock hbody hmn)

private theorem Expr.Matches.impOption {e e' : Option Expr} (h : Option.Rel (Expr.Matches m) e e') (hmn : m.Finer n) :
    Option.Rel (Expr.Matches n) e e' := by
  match e with
  | none => cases h with | none => exact .none
  | some e => cases h with | some he => exact .some (Expr.Matches.imp he hmn)

private theorem Expr.Matches.impAll {es es' : List Expr} (h : List.Forall₂ (Expr.Matches m) es es') (hmn : m.Finer n) :
    List.Forall₂ (Expr.Matches n) es es' := by
  match es with
  | [] => cases h with | nil => exact .nil
  | e :: rest => cases h with | cons he hrest => exact .cons (Expr.Matches.imp he hmn) (Expr.Matches.impAll hrest hmn)

private theorem Expr.Matches.impFields {inits inits' : List (FieldInit Expr)}
    (h : List.Forall₂ (FieldInit.Matches m (Expr.Matches m)) inits inits') (hmn : m.Finer n) :
    List.Forall₂ (FieldInit.Matches n (Expr.Matches n)) inits inits' := by
  match inits with
  | [] => cases h with | nil => exact .nil
  | ⟨_, _, value⟩ :: rest =>
    cases h with
    | cons hf hrest =>
      cases hf with
      | mk hs he =>
        exact .cons ⟨hmn.span _ _ hs, Expr.Matches.imp he hmn⟩ (Expr.Matches.impFields hrest hmn)

theorem Expr.Matches.impBlock {b b' : Block Expr} (h : b.Matches m b') (hmn : m.Finer n) : b.Matches n b' := by
  match b with
  | ⟨_, _, stmts, tail⟩ =>
    cases h with
    | block hi hfr hstmts htail =>
      exact .block (hi.imp hmn) (hfr.imp hmn.frame) (Expr.Matches.impAll hstmts hmn)
        (Expr.Matches.impOption htail hmn)

end

theorem Expr.Matches.mono {e e' : Expr} (h : e.Matches m e') (hle : m ≤ n) : e.Matches n e' := h.imp hle.finer

theorem Expr.Matches.monoOption {e e' : Option Expr} (h : Option.Rel (Expr.Matches m) e e') (hle : m ≤ n) :
    Option.Rel (Expr.Matches n) e e' :=
  Expr.Matches.impOption h hle.finer

theorem Expr.Matches.monoAll {es es' : List Expr} (h : List.Forall₂ (Expr.Matches m) es es') (hle : m ≤ n) :
    List.Forall₂ (Expr.Matches n) es es' :=
  Expr.Matches.impAll h hle.finer

theorem Expr.Matches.monoFields {inits inits' : List (FieldInit Expr)}
    (h : List.Forall₂ (FieldInit.Matches m (Expr.Matches m)) inits inits') (hle : m ≤ n) :
    List.Forall₂ (FieldInit.Matches n (Expr.Matches n)) inits inits' :=
  Expr.Matches.impFields h hle.finer

namespace Expr.Matches

variable {e e' : Expr} {b b' : Block Expr}

theorem info (h : e.Matches m e') : e.info.Matches m e'.info := by
  cases h <;> assumption

theorem span (h : e.Matches m e') : m.span e.span e'.span := h.info.span

theorem type (h : e.Matches m e') : Option.Rel m.type e.type? e'.type? := h.info.type

theorem blame_block (h : b.Matches m b') : m.span b.blame b'.blame := by
  cases h with
  | block hi _ _ htail =>
    cases htail with
    | none => exact hi.span
    | some h => exact h.span

theorem blame (h : e.Matches m e') : m.span e.blame e'.blame := by
  cases h with
  | block hi hfr hstmts htail => exact blame_block (.block hi hfr hstmts htail)
  | integer hi | float hi | boolean hi | identifier hi | member hi | call hi | builtinCall hi | unary hi | binary hi
  | assignment hi | structLiteral hi | letBinding hi | ifElse hi | whileLoop hi | endlessLoop hi | leaveLoop hi
  | nextRound hi | leaveFunction hi | function hi => exact hi.span

/-- Whether an expression denotes a location does not depend on where it stands. -/
theorem hasLocation {e e' : Expr} (h : e.Matches m e') : e'.hasLocation = e.hasLocation := by
  match e with
  | .identifier .. =>
    cases h with
    | identifier hi hv =>
      cases hv with
      | none => rfl
      | some hv => simp only [Expr.hasLocation, hv.mutable, hi.reference]
  | .member _ base _ _ _ =>
    cases h with
    | member hi hbase => simp only [Expr.hasLocation, hbase.info.reference, hasLocation hbase]
  | .integer .. | .float .. | .boolean .. | .call .. | .builtinCall .. | .unary .. | .binary .. | .assignment ..
  | .structLiteral .. | .letBinding .. | .block .. | .ifElse .. | .whileLoop .. | .endlessLoop .. | .leaveLoop ..
  | .nextRound .. | .leaveFunction .. | .function .. =>
    cases h
    rfl

end Expr.Matches

/-- Places that stand for each other. -/
structure Place.Matches (m : Matching) (p p' : Place) : Prop where
  root : p.root.Matches m p'.root
  path : p'.path = p.path
  indirect : p'.indirect = p.indirect

theorem Expr.Matches.place {e e' : Expr} (h : e.Matches m e') :
    Except.Rel Eq (Option.Rel (Place.Matches m)) e.place? e'.place? := by
  match e with
  | .identifier .. =>
    cases h with
    | identifier hi hv =>
      cases hv with
      | none => exact .error rfl
      | some hv => exact .ok (.some ⟨hv, rfl, hi.reference⟩)
  | .member _ base _ _ _ =>
    cases h with
    | member hi hbase =>
      simp only [Expr.place?]
      refine (Expr.Matches.place hbase).bind fun o o' ho => ?_
      cases ho with
      | none => exact .ok .none
      | some hp =>
        refine .ok (.some ⟨hp.root, ?_, ?_⟩)
        · rw [hp.path]
        · rw [hp.indirect, hbase.info.reference]
  | .integer .. | .float .. | .boolean .. | .call .. | .builtinCall .. | .unary .. | .binary .. | .assignment ..
  | .structLiteral .. | .letBinding .. | .block .. | .ifElse .. | .whileLoop .. | .endlessLoop .. | .leaveLoop ..
  | .nextRound .. | .leaveFunction .. | .function .. =>
    cases h
    exact .ok .none

/-! ### Declarations and problems -/

/-- Functions that stand for each other. -/
structure FunctionDecl.Matches (m : Matching) (f f' : FunctionDecl) : Prop where
  info : f.info.Matches m f'.info
  header : f.header.Matches m f'.header
  body : f.body.Matches m f'.body

/-- Declarations that stand for each other. -/
inductive Decl.Matches (m : Matching) : Decl → Decl → Prop where
  | struct {d d' : StructDecl} (h : d.Matches m.span d') : Matches m (.struct d) (.struct d')
  | function {f f' : FunctionDecl} (h : f.Matches m f') : Matches m (.function f) (.function f')

/-- Two computations end early for the same reason. -/
inductive Stop.Matches (m : Matching) : Stop → Stop → Prop where
  | refused {d d' : Diagnostic} (h : m.problem d d') : Matches m (.refused d) (.refused d')
  | fault (f : Fault) : Matches m (.fault f) (.fault f)

/-! ### Types -/

/-- Fields of one name with types that stand for each other. -/
def FieldsMatch (m : Matching) : List (String × TypeId) → List (String × TypeId) → Prop :=
  List.Forall₂ fun a b => b.1 = a.1 ∧ m.type a.2 b.2

private theorem FieldsMatch.imp {fs fs' : List (String × TypeId)} (h : FieldsMatch m fs fs') (hmn : m.Finer n) :
    FieldsMatch n fs fs' :=
  List.Forall₂.imp (fun _ _ hf => ⟨hf.1, hmn.type _ _ hf.2⟩) h

theorem FieldsMatch.mono {fs fs' : List (String × TypeId)} (h : FieldsMatch m fs fs') (hle : m ≤ n) :
    FieldsMatch n fs fs' :=
  h.imp hle.finer

/-- Structs of which the same is known. -/
inductive StructState.Matches (m : Matching) : StructState → StructState → Prop where
  | unresolved : Matches m .unresolved .unresolved
  | resolving : Matches m .resolving .resolving
  | resolved {fs fs' : List (String × TypeId)} (h : FieldsMatch m fs fs') : Matches m (.resolved fs) (.resolved fs')
  | failed {d d' : Diagnostic} (h : m.problem d d') : Matches m (.failed d) (.failed d')

theorem StructState.Matches.imp {s s' : StructState} (h : s.Matches m s') (hmn : m.Finer n) : s.Matches n s' := by
  cases h with
  | unresolved => exact .unresolved
  | resolving => exact .resolving
  | resolved h => exact .resolved (h.imp hmn)
  | failed h => exact .failed (hmn.problem _ _ h)

theorem StructState.Matches.fields {s s' : StructState} (h : s.Matches m s') : FieldsMatch m s.fields s'.fields := by
  cases h with
  | resolved h => exact h
  | unresolved | resolving | failed => exact .nil

/-- Types of one form. -/
inductive TypeEntry.Matches (m : Matching) : TypeEntry → TypeEntry → Prop where
  | primitive {name : String} : Matches m (.primitive name) (.primitive name)
  | struct {d d' : StructDecl} {s s' : StructState} (hd : d.Matches m.span d') (hs : s.Matches m s') :
      Matches m (.struct d s) (.struct d' s')
  | reference {t t' : TypeId} (h : m.type t t') : Matches m (.reference t) (.reference t')
  | function {ps ps' : List TypeId} {r r' : TypeId} (hps : List.Forall₂ m.type ps ps') (hr : m.type r r') :
      Matches m (.function ps r) (.function ps' r')

namespace TypeEntry.Matches

variable {e e' : TypeEntry}

theorem imp (h : e.Matches m e') (hmn : m.Finer n) : e.Matches n e' := by
  cases h with
  | primitive => exact .primitive
  | struct hd hs => exact .struct (hd.imp hmn.span) (hs.imp hmn)
  | reference h => exact .reference (hmn.type _ _ h)
  | function hps hr => exact .function (List.Forall₂.imp (fun _ _ => hmn.type _ _) hps) (hmn.type _ _ hr)

theorem inner (h : e.Matches m e') : Option.Rel m.type e.inner? e'.inner? := by
  cases h with
  | reference h => exact .some h
  | primitive | struct | function => exact .none

theorem struct? (h : e.Matches m e') :
    Option.Rel (fun a b => a.1.Matches m.span b.1 ∧ a.2.Matches m b.2) e.struct? e'.struct? := by
  cases h with
  | struct hd hs => exact .some ⟨hd, hs⟩
  | primitive | reference | function => exact .none

theorem function? (h : e.Matches m e') :
    Option.Rel (fun a b => List.Forall₂ m.type a.1 b.1 ∧ m.type a.2 b.2) e.function? e'.function? := by
  cases h with
  | function hps hr => exact .some ⟨hps, hr⟩
  | primitive | reference | struct => exact .none

end TypeEntry.Matches

end

end RainCheck

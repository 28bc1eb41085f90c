import Mathlib.Data.List.Nodup
import RainCheck.Proofs.ParsedTree

/-!
# Places

Where the parts of a declaration stand.
* `Lies` says that all spans of a tree at which a problem can be reported have a property.
* Every such span starts with a token that the tree is written with (`Derives.lies`), and the
  declarations of a module are written with different tokens.
* So each position belongs to one declaration at most (`SourceFile.placed`).
-/

namespace RainCheck

/-! ### The spans of a tree -/

/-- A variable that is no function stands at a span with a property. -/
structure Variable.Lies (P : Span → Prop) (v : Variable) : Prop where
  span : P v.span
  plain : v.kind.isFunction = false

/-- The parts of a written type stand at spans with a property. -/
inductive TypeExpr.Lies (P : Span → Prop) : TypeExpr → Prop where
  | named {s : Span} {name : String} (hs : P s) : Lies P (.named s name)
  | reference {s : Span} {inner : TypeExpr} (hs : P s) (hinner : Lies P inner) : Lies P (.reference s inner)
  | function {s : Span} {params : List TypeExpr} {returns : Option TypeExpr} (hs : P s)
      (hparams : ∀ t ∈ params, Lies P t)
      (hreturns : ∀ t ∈ returns, Lies P t) : Lies P (.function s params returns)

/-- The names in the head of a function and its types stand at spans with a property. -/
structure Header.Lies (P : Span → Prop) (h : Header) : Prop where
  name : P h.span
  params : ∀ p ∈ h.params, p.binding.Lies P ∧ p.declared.Lies P
  returns : ∀ t ∈ h.returns, t.Lies P

/-- The parts of an expression stand at spans with a property.  Nested functions are not exported. -/
inductive Expr.Lies (P : Span → Prop) : Expr → Prop where
  | integer {i : Info} {n : Int32} (hi : P i.span) : Lies P (.integer i n)
  | float {i : Info} {x : Float} (hi : P i.span) : Lies P (.float i x)
  | boolean {i : Info} {b : Bool} (hi : P i.span) : Lies P (.boolean i b)
  | identifier {i : Info} {name : String} {v : Option Variable} (hi : P i.span) : Lies P (.identifier i name v)
  | member {i : Info} {base : Expr} {name : String} {nameSpan : Span} {index : Nat} (hi : P i.span)
      (hbase : Lies P base) (hname : P nameSpan) : Lies P (.member i base name nameSpan index)
  | call {i : Info} {callee : Expr} {args : List Expr} (hi : P i.span) (hcallee : Lies P callee)
      (hargs : ∀ e ∈ args, Lies P e) : Lies P (.call i callee args)
  | builtinCall {i : Info} {name : String} {args : List Expr} (hi : P i.span) (hargs : ∀ e ∈ args, Lies P e) :
      Lies P (.builtinCall i name args)
  | unary {i : Info} {op : UnaryOp} {operand : Expr} (hi : P i.span) (hoperand : Lies P operand) :
      Lies P (.unary i op operand)
  | binary {i : Info} {op : BinaryOp} {lhs rhs : Expr} (hi : P i.span) (hlhs : Lies P lhs) (hrhs : Lies P rhs) :
      Lies P (.binary i op lhs rhs)
  | assignment {i : Info} {target source : Expr} (hi : P i.span) (htarget : Lies P target) (hsource : Lies P source) :
      Lies P (.assignment i target source)
  | structLiteral {i : Info} {name : String} {inits : List (FieldInit Expr)} (hi : P i.span)
      (hnames : ∀ f ∈ inits, P f.span) (hvalues : ∀ f ∈ inits, Lies P f.value) : Lies P (.structLiteral i name inits)
  | letBinding {i : Info} {v : Holder Variable} {declared : Option TypeExpr} {init : Expr} (hi : P i.span)
      (hv : ∀ x, v.value? = some x → x.Lies P) (hdeclared : ∀ t ∈ declared, t.Lies P)
      (hinit : Lies P init) : Lies P (.letBinding i v declared init)
  | block {i : Info} {frame : Option FrameId} {stmts : List Expr} {tail : Option Expr} (hi : P i.span)
      (hstmts : ∀ e ∈ stmts, Lies P e) (htail : ∀ e ∈ tail, Lies P e) : Lies P (.block ⟨i, frame, stmts, tail⟩)
  | ifElse {i : Info} {cond : Expr} {thenBlock : Block Expr} {other : Option Expr} (hi : P i.span) (hcond : Lies P cond)
      (hthen : Lies P (.block thenBlock)) (hother : ∀ e ∈ other, Lies P e) : Lies P (.ifElse i cond thenBlock other)
  | whileLoop {i : Info} {cond : Expr} {body : Block Expr} (hi : P i.span) (hcond : Lies P cond)
      (hbody : Lies P (.block body)) : Lies P (.whileLoop i cond body)
  | endlessLoop {i : Info} {body : Block Expr} (hi : P i.span) (hbody : Lies P (.block body)) :
      Lies P (.endlessLoop i body)
  | leaveLoop {i : Info} (hi : P i.span) : Lies P (.leaveLoop i)
  | nextRound {i : Info} (hi : P i.span) : Lies P (.nextRound i)
  | leaveFunction {i : Info} {result : Option Expr} (hi : P i.span) (hresult : ∀ e ∈ result, Lies P e) :
      Lies P (.leaveFunction i result)
  | function {i : Info} {header : Header} {body : Block Expr} (hi : P i.span) (hexported : header.exported = false)
      (hheader : header.Lies P) (hbody : Lies P (.block body)) : Lies P (.function i header body)

/-- The parts of a struct stand at spans with a property. -/
structure StructDecl.Lies (P : Span → Prop) (d : StructDecl) : Prop where
  name : P d.span
  fields : ∀ f ∈ d.fields, P f.span ∧ f.type.Lies P

/-- The head of a function stands at spans with a property, and its body at spans with another one. -/
structure FunctionDecl.Lies (P Q : Span → Prop) (f : FunctionDecl) : Prop where
  info : P f.info.span
  header : f.header.Lies P
  body : (Expr.block f.body).Lies Q

/-- The parts of a declaration stand at spans with a property, but for the body of a function. -/
def Decl.Lies (P Q : Span → Prop) : Decl → Prop
  | .struct d => d.Lies P
  | .function f => f.Lies P Q

variable {P Q : Span → Prop}

private theorem Variable.Lies.mono {v : Variable} (h : v.Lies P) (himp : ∀ s, P s → Q s) : v.Lies Q :=
  ⟨himp _ h.span, h.plain⟩

namespace TypeExpr.Lies

variable {t : TypeExpr}

private theorem mono (h : t.Lies P) (himp : ∀ s, P s → Q s) : t.Lies Q := by
  induction h with
  | named hs => exact .named (himp _ hs)
  | reference hs _ ih => exact .reference (himp _ hs) ih
  | function hs _ _ ihparams ihreturns => exact .function (himp _ hs) ihparams ihreturns

private theorem mentionsAll_of {ts : List TypeExpr} (h : ∀ t ∈ ts, ∀ m ∈ t.mentions, P m.span) :
    ∀ m ∈ TypeExpr.mentionsAll ts, P m.span := by
  induction ts with
  | nil => simp [TypeExpr.mentionsAll]
  | cons t ts ih =>
    intro m hm
    rw [TypeExpr.mentionsAll, List.mem_append] at hm
    exact hm.elim (h t List.mem_cons_self m) (ih (fun t ht => h t (List.mem_cons_of_mem _ ht)) m)

private theorem optionMentions_of {o : Option TypeExpr} (h : ∀ t ∈ o, ∀ m ∈ t.mentions, P m.span) :
    ∀ m ∈ TypeExpr.optionMentions o, P m.span := by
  cases o with
  | none => simp [TypeExpr.optionMentions]
  | some t => exact h t rfl

theorem mentions (h : t.Lies P) : ∀ m ∈ t.mentions, P m.span := by
  induction h with
  | named hs => simpa [TypeExpr.mentions, Mention.span] using hs
  | reference _ _ ih => exact ih
  | function _ _ _ ihparams ihreturns =>
    intro m hm
    rw [TypeExpr.mentions, List.mem_append] at hm
    exact hm.elim (mentionsAll_of ihparams m) (optionMentions_of ihreturns m)

theorem optionMentions {o : Option TypeExpr} (h : ∀ t ∈ o, t.Lies P) : ∀ m ∈ TypeExpr.optionMentions o, P m.span :=
  optionMentions_of fun t ht => (h t ht).mentions

end TypeExpr.Lies

namespace Header.Lies

variable {h : Header}

private theorem mono (hlies : h.Lies P) (himp : ∀ s, P s → Q s) : h.Lies Q where
  name := himp _ hlies.name
  params p hp := ⟨(hlies.params p hp).1.mono himp, (hlies.params p hp).2.mono himp⟩
  returns t ht := (hlies.returns t ht).mono himp

/-- The names of types in the head of a function. -/
theorem types (hlies : h.Lies P) : ∀ m ∈ h.prototype.mentions, P m.span := by
  intro m hm
  rcases List.mem_append.mp hm with hm | hm
  · refine TypeExpr.Lies.mentionsAll_of (fun t ht => ?_) m hm
    obtain ⟨p, hp, rfl⟩ := List.mem_map.mp ht
    exact (hlies.params p hp).2.mentions
  · exact TypeExpr.Lies.optionMentions hlies.returns m hm

end Header.Lies

namespace Expr.Lies

variable {e : Expr}

theorem span (h : e.Lies P) : P e.span := by
  cases h <;> assumption

/-- The span that is blamed for a type is one of the spans of the expression. -/
theorem blame (h : e.Lies P) : P e.blame := by
  cases h with
  | @block i frame stmts tail hi hstmts htail =>
    cases tail with
    | none => exact hi
    | some e => exact (htail e rfl).span
  | _ => assumption

private theorem mono (h : e.Lies P) (himp : ∀ s, P s → Q s) : e.Lies Q := by
  induction h with
  | integer hi => exact .integer (himp _ hi)
  | float hi => exact .float (himp _ hi)
  | boolean hi => exact .boolean (himp _ hi)
  | identifier hi => exact .identifier (himp _ hi)
  | member hi _ hname ihbase => exact .member (himp _ hi) ihbase (himp _ hname)
  | call hi _ _ ihcallee ihargs => exact .call (himp _ hi) ihcallee ihargs
  | builtinCall hi _ ihargs => exact .builtinCall (himp _ hi) ihargs
  | unary hi _ ih => exact .unary (himp _ hi) ih
  | binary hi _ _ ihlhs ihrhs => exact .binary (himp _ hi) ihlhs ihrhs
  | assignment hi _ _ ihtarget ihsource => exact .assignment (himp _ hi) ihtarget ihsource
  | structLiteral hi hnames _ ih => exact .structLiteral (himp _ hi) (fun f hf => himp _ (hnames f hf)) ih
  | letBinding hi hv hdeclared _ ih =>
    exact .letBinding (himp _ hi) (fun x hx => (hv x hx).mono himp) (fun t ht => (hdeclared t ht).mono himp) ih
  | block hi _ _ ihstmts ihtail => exact .block (himp _ hi) ihstmts ihtail
  | ifElse hi _ _ _ ihcond ihthen ihother => exact .ifElse (himp _ hi) ihcond ihthen ihother
  | whileLoop hi _ _ ihcond ihbody => exact .whileLoop (himp _ hi) ihcond ihbody
  | endlessLoop hi _ ih => exact .endlessLoop (himp _ hi) ih
  | leaveLoop hi => exact .leaveLoop (himp _ hi)
  | nextRound hi => exact .nextRound (himp _ hi)
  | leaveFunction hi _ ih => exact .leaveFunction (himp _ hi) ih
  | function hi hexported hheader _ ih => exact .function (himp _ hi) hexported (hheader.mono himp) ih

/-- The names in an expression stand where it does. -/
theorem mentions (h : e.Lies P) : ∀ m ∈ e.mentions, P m.span := by
  have hall : ∀ {es : List Expr}, (∀ e ∈ es, ∀ m ∈ e.mentions, P m.span) → ∀ m ∈ Expr.mentionsAll es, P m.span := by
    intro es hes
    induction es with
    | nil => simp [Expr.mentionsAll]
    | cons e es ih =>
      rw [Expr.mentionsAll, List.forall_mem_append]
      exact ⟨hes e List.mem_cons_self, ih fun e he => hes e (List.mem_cons_of_mem _ he)⟩
  have hoption :
      ∀ {e : Option Expr}, (∀ x ∈ e, ∀ m ∈ x.mentions, P m.span) → ∀ m ∈ Expr.optionMentions e, P m.span := by
    intro e he
    cases e with
    | none => simp [Expr.optionMentions]
    | some e => exact he e rfl
  have hfields : ∀ {inits : List (FieldInit Expr)}, (∀ f ∈ inits, ∀ m ∈ f.value.mentions, P m.span) →
      ∀ m ∈ Expr.mentionsFields inits, P m.span := by
    intro inits hinits
    induction inits with
    | nil => simp [Expr.mentionsFields]
    | cons f inits ih =>
      rw [Expr.mentionsFields, List.forall_mem_append]
      exact ⟨hinits f List.mem_cons_self, ih fun f hf => hinits f (List.mem_cons_of_mem _ hf)⟩
  induction h with
  | integer | float | boolean | leaveLoop | nextRound => simp [Expr.mentions]
  | identifier hi => simpa [Expr.mentions, Mention.span] using hi
  | member _ _ _ ih | unary _ _ ih => simpa only [Expr.mentions] using ih
  | call _ _ _ ihcallee ihargs =>
    rw [Expr.mentions, List.forall_mem_append]
    exact ⟨ihcallee, hall ihargs⟩
  | builtinCall hi _ ihargs =>
    rw [Expr.mentions, List.forall_mem_cons]
    exact ⟨hi, hall ihargs⟩
  | binary _ _ _ ihlhs ihrhs | assignment _ _ _ ihlhs ihrhs =>
    rw [Expr.mentions, List.forall_mem_append]
    exact ⟨ihlhs, ihrhs⟩
  | structLiteral hi _ _ ih =>
    rw [Expr.mentions, List.forall_mem_cons]
    exact ⟨hi, hfields ih⟩
  | letBinding _ _ hdeclared _ ih =>
    rw [Expr.mentions, List.forall_mem_append]
    exact ⟨TypeExpr.Lies.optionMentions hdeclared, ih⟩
  | block _ _ _ ihstmts ihtail =>
    rw [Expr.mentions, Expr.mentionsBlock, List.forall_mem_append]
    exact ⟨hall ihstmts, hoption ihtail⟩
  | ifElse _ _ _ _ ihcond ihthen ihother =>
    rw [Expr.mentions, List.forall_mem_append, List.forall_mem_append]
    exact ⟨⟨ihcond, ihthen⟩, hoption ihother⟩
  | whileLoop _ _ _ ihcond ihbody =>
    rw [Expr.mentions, List.forall_mem_append]
    exact ⟨ihcond, ihbody⟩
  | endlessLoop _ _ ih => simpa only [Expr.mentions] using ih
  | leaveFunction _ _ ih => simpa only [Expr.mentions] using hoption ih
  | function _ _ hheader _ ih =>
    rw [Expr.mentions, List.forall_mem_append, Header.mentions, List.forall_mem_cons]
    exact ⟨⟨hheader.name, hheader.types⟩, ih⟩

/-- An operation stands where its operands do. -/
private theorem joinLevel (hjoin : ∀ a b, P a → P b → P (a.join b)) {level : Nat} {first : Expr}
    {rest : List (BinaryOp × Expr)}
    (hfirst : first.Lies P) (hrest : ∀ p ∈ rest, p.2.Lies P) :
    (Expr.joinLevel level first rest).1.Lies P ∧ ∀ p ∈ (Expr.joinLevel level first rest).2, p.2.Lies P := by
  induction rest generalizing first with
  | nil => exact ⟨hfirst, hrest⟩
  | cons p rest ih =>
    obtain ⟨op, next⟩ := p
    have hnext : next.Lies P := hrest (op, next) (by simp)
    have hmore : ∀ p ∈ rest, p.2.Lies P := fun p hp => hrest p (by simp [hp])
    unfold Expr.joinLevel
    split
    · exact ih (.binary (hjoin _ _ hfirst.span hnext.span) hfirst hnext) hmore
    · refine ⟨hfirst, fun p hp => ?_⟩
      rcases List.mem_cons.mp hp with rfl | hp
      · exact (ih hnext hmore).1
      · exact (ih hnext hmore).2 p hp

private theorem ofOperands (hjoin : ∀ a b, P a → P b → P (a.join b)) {first : Expr} {rest : List (BinaryOp × Expr)}
    (hfirst : first.Lies P) (hrest : ∀ p ∈ rest, p.2.Lies P) : (Expr.ofOperands first rest).Lies P := by
  unfold Expr.ofOperands
  generalize [7, 6, 5, 4, 3, 2, 1, 0] = levels
  induction levels generalizing first rest with
  | nil => exact hfirst
  | cons level levels ih => exact ih (joinLevel hjoin hfirst hrest).1 (joinLevel hjoin hfirst hrest).2

end Expr.Lies

private theorem StructDecl.Lies.mono {d : StructDecl} (h : d.Lies P) (himp : ∀ s, P s → Q s) : d.Lies Q :=
  ⟨himp _ h.name, fun f hf => ⟨himp _ (h.fields f hf).1, (h.fields f hf).2.mono himp⟩⟩

private theorem FunctionDecl.Lies.mono {P' Q' : Span → Prop} {f : FunctionDecl} (h : f.Lies P Q)
    (hhead : ∀ s, P s → P' s)
    (hbody : ∀ s, Q s → Q' s) : f.Lies P' Q' :=
  ⟨hhead _ h.info, h.header.mono hhead, h.body.mono hbody⟩

theorem Decl.Lies.mono {P' Q' : Span → Prop} {d : Decl} (h : d.Lies P Q) (hhead : ∀ s, P s → P' s)
    (hbody : ∀ s, Q s → Q' s) : d.Lies P' Q' := by
  cases d with
  | struct d => exact StructDecl.Lies.mono h hhead
  | function f => exact FunctionDecl.Lies.mono h hhead hbody

/-- A declaration is named at one of its places. -/
theorem Decl.Lies.name {d : Decl} (h : d.Lies P Q) : P d.span := by
  cases d with
  | struct d => exact StructDecl.Lies.name h
  | function f => exact (FunctionDecl.Lies.header h).name

/-! ### Spans start with tokens -/

/-- A span starts with a token that has a property. -/
def StartsWith (T : Token → Prop) (span : Span) : Prop := ∃ t, T t ∧ span.start = t.span.start

namespace StartsWith

variable {T : Token → Prop} {used : List Token} {t : Token} {s a b : Span}

private theorem token (h : T t) : StartsWith T t.span := ⟨t, h, rfl⟩

private theorem of_covers (h : Covers used s) (hall : ∀ t ∈ used, T t) : StartsWith T s := by
  obtain ⟨first, last, hfirst, -, hstart, -⟩ := h
  exact ⟨first, hall first (List.mem_of_head? hfirst), hstart⟩

private theorem join (ha : StartsWith T a) (hb : StartsWith T b) : StartsWith T (a.join b) := by
  rcases Int.le_total a.start b.start with hle | hle
  · obtain ⟨t, ht, hs⟩ := ha
    exact ⟨t, ht, (Int.min_eq_left hle).trans hs⟩
  · obtain ⟨t, ht, hs⟩ := hb
    exact ⟨t, ht, (Int.min_eq_right hle).trans hs⟩

end StartsWith

/-- The tokens of an item are among those of the list. -/
private theorem Enumerates.sub {close : TokenKind} {trailing first : Bool}
    {items : List (List Token)} {used : List Token}
    (h : Enumerates close trailing first items used) : ∀ item ∈ items, item ⊆ used := by
  induction h with
  | close => simp
  | trailing => simp
  | first _ ih =>
    intro item hitem
    rcases List.mem_cons.mp hitem with rfl | hitem
    · exact List.subset_append_left _ _
    · exact List.subset_append_of_subset_right _ (ih item hitem)
  | next _ _ ih =>
    intro item hitem
    rcases List.mem_cons.mp hitem with rfl | hitem
    · exact List.subset_append_of_subset_left _ (List.subset_cons_self _ _)
    · exact List.subset_append_of_subset_right _ (ih item hitem)

/-- What holds of all items of a list, if it holds of an item that is written with tokens that have a property. -/
private theorem Enumerates.each {α : Type} {close : TokenKind} {trailing first : Bool} {pieces : List (List Token × α)}
    {used : List Token} {T : Token → Prop} {R : α → Prop} (h : Enumerates close trailing first (pieces.map (·.1)) used)
    (hall : ∀ t ∈ used, T t) (hpieces : ∀ p ∈ pieces, (∀ t ∈ p.1, T t) → R p.2) : ∀ a ∈ pieces.map (·.2), R a := by
  intro a ha
  obtain ⟨piece, hpiece, rfl⟩ := List.mem_map.mp ha
  exact hpieces piece hpiece fun t ht => hall t (h.sub _ (List.mem_map_of_mem hpiece) ht)

variable {T : Token → Prop}

/-- The types of a phrase stand at spans with a property. -/
def TypePhrase.Lies (P : Span → Prop) : TypePhrase → Prop
  | .type t => t.Lies P
  | .returns t => ∀ x ∈ t, x.Lies P

private theorem DerivesType.lies {phrase : TypePhrase} {used : List Token} (h : DerivesType phrase used)
    (hall : ∀ t ∈ used, T t) :
    phrase.Lies (StartsWith T) := by
  induction h with
  | named => exact .named (.token (hall _ (by simp)))
  | reference _ _ hspan ih => exact .reference (.of_covers hspan hall) (ih fun t ht => hall t (by simp [ht]))
  | function _ _ hlist _ _ hspan ihparams ihreturns =>
    exact .function (.of_covers hspan hall) (hlist.each (fun t ht => hall t (by simp [ht])) ihparams)
      (ihreturns fun t ht => hall t (by simp [ht]))
  | nothing => exact fun x hx => by cases hx
  | result _ _ ih => exact fun x hx => by cases hx; exact ih fun t ht => hall t (by simp [ht])

private theorem DerivesDeclared.lies {t : Option TypeExpr} {used : List Token} (h : DerivesDeclared t used)
    (hall : ∀ t ∈ used, T t) : ∀ x ∈ t, x.Lies (StartsWith T) := by
  cases h with
  | nothing => exact fun x hx => by cases hx
  | type _ ht => exact fun x hx => by cases hx; exact ht.lies fun t ht => hall t (by simp [ht])

private theorem DerivesHeader.lies {exported : Bool} {header : Header} {used : List Token}
    (h : DerivesHeader exported header used) (hall : ∀ t ∈ used, T t) : header.Lies (StartsWith T) := by
  cases h with
  | @header word name _ _ _ _ _ _ _ _ hlist hpieces hreturns =>
    refine ⟨.token (hall name (by simp)), ?_, hreturns.lies fun t ht => hall t (by simp [ht])⟩
    refine hlist.each (R := fun p => p.binding.Lies (StartsWith T) ∧ p.declared.Lies (StartsWith T))
      (fun t ht => hall t (by simp [ht])) fun p hp hall => ?_
    have hparam := hpieces p hp
    obtain ⟨tokens, p⟩ := p
    cases hparam with
    | @param _ _ name _ _ _ _ _ _ hdeclared =>
      exact ⟨⟨.token (hall name (by simp)), rfl⟩, hdeclared.lies fun t ht => hall t (by simp [ht])⟩

/-- The trees of a phrase stand at spans with a property. -/
def Phrase.Lies (P : Span → Prop) : Phrase → Prop
  | .primary _ e | .accessed _ e | .operand _ e | .operation _ e | .expr _ e | .statement e => e.Lies P
  | .fieldInit field => P field.span ∧ field.value.Lies P
  | .operands _ rest => ∀ p ∈ rest, p.2.Lies P
  | .elseBranch e => ∀ other ∈ e, other.Lies P
  | .statements stmts tail => (∀ e ∈ stmts, e.Lies P) ∧ ∀ e ∈ tail, e.Lies P
  | .block b => (Expr.block b).Lies P

/-- Every span of a tree starts with one of the tokens that the tree is written with. -/
theorem Derives.lies {phrase : Phrase} {used : List Token} (h : Derives phrase used) (hall : ∀ t ∈ used, T t) :
    phrase.Lies (StartsWith T) := by
  induction h with
  | integer => exact .integer (.token (hall _ (by simp)))
  | float => exact .float (.token (hall _ (by simp)))
  | boolean => exact .boolean (.token (hall _ (by simp)))
  | identifier => exact .identifier (.token (hall _ (by simp)))
  | structLiteral _ _ hlist _ hspan ih =>
    have hfields := hlist.each (R := fun f => (Phrase.fieldInit f).Lies (StartsWith T))
      (fun t ht => hall t (by simp [ht])) ih
    exact .structLiteral (.of_covers hspan hall) (fun f hf => (hfields f hf).1) fun f hf => (hfields f hf).2
  | fieldInit _ _ _ ih => exact ⟨.token (hall _ (by simp)), ih fun t ht => hall t (by simp [ht])⟩
  | parenthesised _ _ _ ih => exact ih fun t ht => hall t (by simp [ht])
  | blockExpr _ ih => exact ih hall
  | ifElse _ _ _ _ hspan ihcond ihthen ihother =>
    exact .ifElse (.of_covers hspan hall) (ihcond fun t ht => hall t (by simp [ht]))
      (ihthen fun t ht => hall t (by simp [ht])) (ihother fun t ht => hall t (by simp [ht]))
  | whileLoop _ _ _ hspan ihcond ihbody =>
    exact .whileLoop (.of_covers hspan hall) (ihcond fun t ht => hall t (by simp [ht]))
      (ihbody fun t ht => hall t (by simp [ht]))
  | endlessLoop _ _ hspan ih => exact .endlessLoop (.of_covers hspan hall) (ih fun t ht => hall t (by simp [ht]))
  | leaveLoop => exact .leaveLoop (.token (hall _ (by simp)))
  | nextRound => exact .nextRound (.token (hall _ (by simp)))
  | leaveFunction _ hspan => exact .leaveFunction (.of_covers hspan hall) (by simp)
  | leaveWith _ _ hspan ih =>
    exact .leaveFunction (.of_covers hspan hall) fun e he => by
      cases he
      exact ih fun t ht => hall t (by simp [ht])
  | builtinCall _ _ _ hlist _ hspan ih =>
    exact .builtinCall (.of_covers hspan hall) (hlist.each (fun t ht => hall t (by simp [ht])) ih)
  | accessed _ ih => exact ih hall
  | @member _ _ _ _ name _ _ _ ih =>
    have hbase := ih fun t ht => hall t (by simp [ht])
    have hname : StartsWith T name.span := .token (hall name (by simp))
    exact .member ((Expr.Lies.span hbase).join hname) hbase hname
  | call _ _ hlist _ hspan ihcallee ihargs =>
    exact .call (.of_covers hspan hall) (ihcallee fun t ht => hall t (by simp [ht]))
      (hlist.each (fun t ht => hall t (by simp [ht])) ihargs)
  | operand _ ih => exact ih hall
  | smallestInteger _ _ _ hspan => exact .integer (.of_covers hspan hall)
  | unary _ _ hspan ih => exact .unary (.of_covers hspan hall) (ih fun t ht => hall t (by simp [ht]))
  | noOperands => exact fun p hp => by simp at hp
  | moreOperands _ _ _ ihoperand ihrest =>
    intro p hp
    rcases List.mem_cons.mp hp with rfl | hp
    · exact ihoperand fun t ht => hall t (by simp [ht])
    · exact ihrest (fun t ht => hall t (by simp [ht])) p hp
  | operation _ _ ihfirst ihrest =>
    exact .ofOperands (fun _ _ ha hb => ha.join hb) (ihfirst fun t ht => hall t (by simp [ht]))
      (ihrest fun t ht => hall t (by simp [ht]))
  | expr _ ih => exact ih hall
  | assignment _ _ _ ihtarget ihsource =>
    have htarget := ihtarget fun t ht => hall t (by simp [ht])
    have hsource := ihsource fun t ht => hall t (by simp [ht])
    exact .assignment ((Expr.Lies.span htarget).join (Expr.Lies.span hsource)) htarget hsource
  | noElse => exact fun e he => by cases he
  | elseIf _ _ _ ih => exact fun e he => by cases he; exact ih fun t ht => hall t (by simp [ht])
  | elseBlock _ _ ih => exact fun e he => by cases he; exact ih fun t ht => hall t (by simp [ht])
  | letBinding _ _ _ hdeclared _ _ hspan ih =>
    refine .letBinding (.of_covers hspan hall) (fun x hx => ?_) (hdeclared.lies fun t ht => hall t (by simp [ht]))
      (ih fun t ht => hall t (by simp [ht]))
    cases hx
    exact ⟨.token (hall _ (by simp)), rfl⟩
  | nestedFunction hheader _ ih =>
    have hlies : Header.Lies (StartsWith T) _ := hheader.lies fun t ht => hall t (by simp [ht])
    have hexported :
        ∀ {exported : Bool} {h : Header} {u : List Token}, DerivesHeader exported h u → h.exported = exported :=
      fun h => by cases h; rfl
    exact .function hlies.name (hexported hheader) hlies (ih fun t ht => hall t (by simp [ht]))
  | blockStatement _ ih => exact ih hall
  | exprStatement _ ih => exact ih hall
  | endOfBlock => exact ⟨by simp, by simp⟩
  | lastExpr _ _ _ ih =>
    exact ⟨by simp, fun e he => by cases he; exact ih fun t ht => hall t (by simp [ht])⟩
  | ended _ _ _ ihstmt ihrest =>
    have hrest := ihrest fun t ht => hall t (by simp [ht])
    exact ⟨List.forall_mem_cons.mpr ⟨ihstmt fun t ht => hall t (by simp [ht]), hrest.1⟩, hrest.2⟩
  | unended _ _ _ ihstmt ihrest =>
    have hrest := ihrest fun t ht => hall t (by simp [ht])
    exact ⟨List.forall_mem_cons.mpr ⟨ihstmt fun t ht => hall t (by simp [ht]), hrest.1⟩, hrest.2⟩
  | block _ _ hspan ih =>
    have hstmts := ih fun t ht => hall t (by simp [ht])
    exact .block (.of_covers hspan hall) hstmts.1 hstmts.2

/-- The head of a declaration and its body are written with different tokens. -/
private theorem DerivesDecl.lies {exported : Bool} {d : Decl} {used : List Token} (h : DerivesDecl exported d used) :
    ∃ head body, used = head ++ body ∧ d.Lies (StartsWith (· ∈ head)) (StartsWith (· ∈ body)) := by
  cases h with
  | struct h =>
    refine ⟨used, [], by simp, ?_⟩
    cases h with
    | @struct word name brace pieces used _ _ _ hlist hpieces =>
      have hbehind : ∀ t ∈ used, t ∈ word :: name :: brace :: used := fun t ht => by simp [ht]
      refine ⟨.token (by simp), hlist.each hbehind fun p hp hall => ?_⟩
      have hfield := hpieces p hp
      obtain ⟨tokens, f⟩ := p
      cases hfield with
      | field _ _ htype => exact ⟨.token (hall _ (by simp)), htype.lies fun t ht => hall t (by simp [ht])⟩
  | @function header _ head body hheader hbody =>
    have hlies : header.Lies (StartsWith (· ∈ head)) := hheader.lies fun _ ht => ht
    exact ⟨head, body, rfl, hlies.name, hlies, hbody.lies fun _ ht => ht⟩

/-! ### Declarations stand apart -/

/--
Each position belongs to the head or to the body of one declaration at most: `place` gives twice the number of the
declaration, or one more for a body, for all spans that start there.
-/
def Located (place : Span → Nat) (decls : List Decl) : Prop :=
  ∀ (i : Nat) (d : Decl), decls[i]? = some d → d.Lies (place · = 2 * i) (place · = 2 * i + 1)

/-- Each position belongs to one declaration at most: `owner` gives its number, for all spans that start there. -/
def Placed (owner : Span → Nat) (decls : List Decl) : Prop :=
  ∀ (i : Nat) (d : Decl), decls[i]? = some d → d.Lies (owner · = i) (owner · = i)

theorem Located.placed {place : Span → Nat} {decls : List Decl} (h : Located place decls) :
    Placed (fun s => place s / 2) decls := fun i d hd =>
  (h i d hd).mono (fun s (hs : place s = 2 * i) => by dsimp only; omega) fun s (hs : place s = 2 * i + 1) => by
    dsimp only; omega

/-- The declarations of a module are written with different tokens. -/
private theorem DerivesModule.pieces {decls : List Decl} {used : List Token} (h : DerivesModule decls used) :
    ∃ pieces : List (List Token × List Token),
      List.Forall₂ (fun (d : Decl) p => d.Lies (StartsWith (· ∈ p.1)) (StartsWith (· ∈ p.2))) decls pieces ∧
        (pieces.flatMap fun p => [p.1, p.2]).flatten.Sublist used := by
  induction h with
  | nil => exact ⟨[], .nil, List.Sublist.refl _⟩
  | hidden hdecl _ ih =>
    obtain ⟨pieces, hpieces, hsub⟩ := ih
    obtain ⟨head, body, rfl, hlies⟩ := hdecl.lies
    exact ⟨(head, body) :: pieces, .cons hlies hpieces, by simpa using hsub⟩
  | exported _ hdecl _ ih =>
    obtain ⟨pieces, hpieces, hsub⟩ := ih
    obtain ⟨head, body, rfl, hlies⟩ := hdecl.lies
    refine ⟨(head, body) :: pieces, .cons hlies hpieces, .cons _ ?_⟩
    simpa using hsub

/-- Tokens that start at different places are told apart by where they start. -/
private theorem exists_owner {pieces : List (List Token)} (hnodup : (pieces.flatten.map (·.span.start)).Nodup) :
    ∃ owner : Span → Nat, ∀ i u, pieces[i]? = some u → ∀ s, StartsWith (· ∈ u) s → owner s = i := by
  refine ⟨fun s => pieces.findIdx fun u => decide (s.start ∈ u.map (·.span.start)), fun i u hu s hs => ?_⟩
  obtain ⟨hlt, rfl⟩ := List.getElem?_eq_some_iff.mp hu
  obtain ⟨t, ht, hstart⟩ := hs
  have hfound : s.start ∈ pieces[i].map (·.span.start) := hstart ▸ List.mem_map_of_mem ht
  refine (List.findIdx_eq hlt).mpr ⟨decide_eq_true hfound, fun j hj => ?_⟩
  -- an earlier piece has no token that starts there, too
  rw [decide_eq_false_iff_not]
  intro hearlier
  rw [List.map_flatten, List.nodup_flatten] at hnodup
  have hjlt : j < pieces.length := Nat.lt_trans hj hlt
  have hapart := List.pairwise_iff_getElem.mp hnodup.2 j i (by simpa using hjlt) (by simpa using hlt) hj
  simp only [List.getElem_map] at hapart
  exact hapart hearlier hfound

private theorem getElem?_pairs {α : Type} (pairs : List (α × α)) (i : Nat) :
    (pairs.flatMap fun p => [p.1, p.2])[2 * i]? = pairs[i]?.map (·.1) ∧
      (pairs.flatMap fun p => [p.1, p.2])[2 * i + 1]? = pairs[i]?.map (·.2) := by
  induction pairs generalizing i with
  | nil => simp
  | cons p pairs ih =>
    cases i with
    | zero => simp
    | succ i => simpa [Nat.mul_add] using ih i

/-- The parts of the declarations of a file stand at different places. -/
theorem SourceFile.located (file : SourceFile) {decls : List Decl} (h : file.declarations = .ok decls) :
    ∃ place, Located place decls := by
  rcases file.declarations_cases with ⟨decls', used, last, hdecls, -, hstream, -, hmodule⟩ | ⟨d, hrefused⟩
  · cases h.symm.trans hdecls
    obtain ⟨pieces, hpieces, hsub⟩ := hmodule.pieces
    obtain ⟨place, hplace⟩ := exists_owner ((hsub.map _).nodup hstream.nodup_starts)
    refine ⟨place, fun i d hd => ?_⟩
    obtain ⟨hlt, rfl⟩ := List.getElem?_eq_some_iff.mp hd
    have hlt' : i < pieces.length := hpieces.length_eq ▸ hlt
    have hlies := List.Forall₂.get hpieces hlt hlt'
    simp only [List.get_eq_getElem] at hlies
    obtain ⟨hhead, hbody⟩ := getElem?_pairs pieces i
    rw [List.getElem?_eq_getElem hlt'] at hhead hbody
    exact hlies.mono (fun s => hplace (2 * i) _ hhead s) fun s => hplace (2 * i + 1) _ hbody s
  · rw [h] at hrefused
    cases hrefused

/-- The declarations of a file stand at different places. -/
theorem SourceFile.placed (file : SourceFile) {decls : List Decl} (h : file.declarations = .ok decls) :
    ∃ owner, Placed owner decls :=
  (file.located h).imp' _ fun _ hplace => hplace.placed

end RainCheck

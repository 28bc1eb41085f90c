import RainCheck.Proofs.ReadingExpr

/-!
# Parsed trees

What is known about a tree before it is checked.
* It is `Fresh`: no node has a type, no identifier has a variable, every binding still owns its variable, and names are
  declared by statements only.
* Its `mentions` are the declared structs and functions and the names of types, builtins and values, in the order in
  which they are written.  Each begins with a token of its own, so no two of them begin at the same place.
-/

namespace RainCheck

/-! ### Fresh trees -/

/-- A parameter that has no type yet. -/
def Param.Fresh (p : Param) : Prop := p.binding.kind = .argument ∧ p.binding.type = .empty

/-- A tree without annotations.  Bindings and nested functions are statements, everything else stands everywhere. -/
inductive Expr.Fresh : (statement : Bool) → Expr → Prop where
  | integer {b : Bool} {span : Span} {n : Int32} : Fresh b (.integer { span } n)
  | float {b : Bool} {span : Span} {x : Float} : Fresh b (.float { span } x)
  | boolean {b : Bool} {span : Span} {x : Bool} : Fresh b (.boolean { span } x)
  | identifier {b : Bool} {span : Span} {name : String} : Fresh b (.identifier { span } name none)
  | member {b : Bool} {span nameSpan : Span} {base : Expr} {name : String} {index : Nat} (hbase : Fresh false base) :
      Fresh b (.member { span } base name nameSpan index)
  | call {b : Bool} {span : Span} {callee : Expr} {args : List Expr} (hcallee : Fresh false callee)
      (hargs : ∀ e ∈ args, Fresh false e) : Fresh b (.call { span } callee args)
  | builtinCall {b : Bool} {span : Span} {name : String} {args : List Expr} (hargs : ∀ e ∈ args, Fresh false e) :
      Fresh b (.builtinCall { span } name args)
  | unary {b : Bool} {span : Span} {op : UnaryOp} {operand : Expr} (hoperand : Fresh false operand) :
      Fresh b (.unary { span } op operand)
  | binary {b : Bool} {span : Span} {op : BinaryOp} {lhs rhs : Expr} (hlhs : Fresh false lhs) (hrhs : Fresh false rhs) :
      Fresh b (.binary { span } op lhs rhs)
  | assignment {b : Bool} {span : Span} {target source : Expr} (htarget : Fresh false target)
      (hsource : Fresh false source) : Fresh b (.assignment { span } target source)
  | structLiteral {b : Bool} {span : Span} {name : String} {fields : List (FieldInit Expr)}
      (hfields : ∀ f ∈ fields, Fresh false f.value) : Fresh b (.structLiteral { span } name fields)
  | letBinding {span nameSpan : Span} {name : String} {mutable : Bool} {declared : Option TypeExpr} {init : Expr}
      (hinit : Fresh false init) :
      Fresh true (.letBinding { span } (.owned { name, kind := .bound, mutable, span := nameSpan }) declared init)
  | block {b : Bool} {span : Span} {stmts : List Expr} {tail : Option Expr} (hstmts : ∀ e ∈ stmts, Fresh true e)
      (htail : ∀ e ∈ tail, Fresh false e) : Fresh b (.block ⟨{ span }, none, stmts, tail⟩)
  | ifElse {b : Bool} {span : Span} {cond : Expr} {thenBlock : Block Expr} {other : Option Expr}
      (hcond : Fresh false cond) (hthen : Fresh false (.block thenBlock)) (hother : ∀ e ∈ other, Fresh false e) :
      Fresh b (.ifElse { span } cond thenBlock other)
  | whileLoop {b : Bool} {span : Span} {cond : Expr} {body : Block Expr} (hcond : Fresh false cond)
      (hbody : Fresh false (.block body)) : Fresh b (.whileLoop { span } cond body)
  | endlessLoop {b : Bool} {span : Span} {body : Block Expr} (hbody : Fresh false (.block body)) :
      Fresh b (.endlessLoop { span } body)
  | leaveLoop {b : Bool} {span : Span} : Fresh b (.leaveLoop { span })
  | nextRound {b : Bool} {span : Span} : Fresh b (.nextRound { span })
  | leaveFunction {b : Bool} {span : Span} {result : Option Expr} (hresult : ∀ e ∈ result, Fresh false e) :
      Fresh b (.leaveFunction { span } result)
  | function {span : Span} {header : Header} {body : Block Expr} (hexported : header.exported = false)
      (hparams : ∀ p ∈ header.params, p.Fresh) (hbody : Fresh false (.block body)) :
      Fresh true (.function { span } header body)

namespace Expr.Fresh

variable {e : Expr} {b : Bool}

theorem statement (h : e.Fresh false) : e.Fresh true := by
  cases h <;> constructor <;> assumption

theorem value (h : e.Fresh b) (hvalue : e.isValue = true) : e.Fresh false := by
  cases h
  case letBinding => cases hvalue
  case function => cases hvalue
  all_goals constructor <;> assumption

theorem untyped (h : e.Fresh b) : e.info.type = none := by
  cases h <;> rfl

private theorem joinLevel {level : Nat} {first : Expr} {rest : List (BinaryOp × Expr)} (hfirst : first.Fresh false)
    (hrest : ∀ p ∈ rest, p.2.Fresh false) :
    (Expr.joinLevel level first rest).1.Fresh false ∧ ∀ p ∈ (Expr.joinLevel level first rest).2, p.2.Fresh false := by
  induction rest generalizing first with
  | nil => exact ⟨hfirst, hrest⟩
  | cons p rest ih =>
    obtain ⟨op, next⟩ := p
    have hnext : next.Fresh false := hrest (op, next) (by simp)
    have hmore : ∀ p ∈ rest, p.2.Fresh false := fun p hp => hrest p (by simp [hp])
    unfold Expr.joinLevel
    split
    · exact ih (.binary hfirst hnext) hmore
    · refine ⟨hfirst, fun p hp => ?_⟩
      rcases List.mem_cons.mp hp with rfl | hp
      · exact (ih hnext hmore).1
      · exact (ih hnext hmore).2 p hp

private theorem ofOperands {first : Expr} {rest : List (BinaryOp × Expr)} (hfirst : first.Fresh false)
    (hrest : ∀ p ∈ rest, p.2.Fresh false) : (Expr.ofOperands first rest).Fresh false := by
  unfold Expr.ofOperands
  generalize [7, 6, 5, 4, 3, 2, 1, 0] = levels
  induction levels generalizing first rest with
  | nil => exact hfirst
  | cons level levels ih => exact ih (joinLevel hfirst hrest).1 (joinLevel hfirst hrest).2

end Expr.Fresh

/-- The trees of a phrase are fresh. -/
def Phrase.Fresh : Phrase → Prop
  | .primary _ e | .accessed _ e | .operand _ e | .operation _ e | .expr _ e => e.Fresh false
  | .fieldInit field => field.value.Fresh false
  | .operands _ rest => ∀ p ∈ rest, p.2.Fresh false
  | .elseBranch e => ∀ other ∈ e, other.Fresh false
  | .statement e => e.Fresh true
  | .statements stmts tail => (∀ e ∈ stmts, e.Fresh true) ∧ ∀ e ∈ tail, e.Fresh false
  | .block b => (Expr.block b).Fresh false

private theorem DerivesHeader.fresh {exported : Bool} {header : Header} {used : List Token}
    (h : DerivesHeader exported header used) : header.exported = exported ∧ ∀ p ∈ header.params, p.Fresh := by
  cases h with
  | @header word name paren pieces _ _ _ hword hname hparen hlist hpieces hreturns =>
    refine ⟨rfl, fun p hp => ?_⟩
    obtain ⟨⟨tokens, param⟩, hpiece, rfl⟩ := List.mem_map.mp hp
    cases hpieces _ hpiece with
    | param => exact ⟨rfl, rfl⟩

/-- The grammar makes fresh trees. -/
private theorem Derives.fresh {phrase : Phrase} {used : List Token} (h : Derives phrase used) : phrase.Fresh := by
  have hitems : ∀ {α : Type} {P : α → Prop} {pieces : List (List Token × α)}, (∀ p ∈ pieces, P p.2) →
      ∀ a ∈ pieces.map (·.2), P a := by
    intro α P pieces hpieces a ha
    obtain ⟨piece, hpiece, rfl⟩ := List.mem_map.mp ha
    exact hpieces piece hpiece
  induction h with
  | integer => exact .integer
  | float => exact .float
  | boolean => exact .boolean
  | identifier => exact .identifier
  | structLiteral _ _ _ _ _ ih => exact .structLiteral (hitems ih)
  | fieldInit _ _ _ ih => exact ih
  | parenthesised _ _ _ ih => exact ih
  | blockExpr _ ih => exact ih
  | ifElse _ _ _ _ _ ihcond ihthen ihother => exact .ifElse ihcond ihthen ihother
  | whileLoop _ _ _ _ ihcond ihbody => exact .whileLoop ihcond ihbody
  | endlessLoop _ _ _ ih => exact .endlessLoop ih
  | leaveLoop => exact .leaveLoop
  | nextRound => exact .nextRound
  | leaveFunction => exact .leaveFunction (by simp)
  | leaveWith _ _ _ ih =>
    refine .leaveFunction fun e he => ?_
    cases he
    exact ih
  | builtinCall _ _ _ _ _ _ ih => exact .builtinCall (hitems ih)
  | accessed _ ih => exact ih
  | member _ _ _ ih => exact .member ih
  | call _ _ _ _ _ ihcallee ihargs => exact .call ihcallee (hitems ihargs)
  | operand _ ih => exact ih
  | smallestInteger => exact .integer
  | unary _ _ _ ih => exact .unary ih
  | noOperands => simp [Phrase.Fresh]
  | moreOperands _ _ _ ihoperand ihrest =>
    intro p hp
    rcases List.mem_cons.mp hp with rfl | hp
    · exact ihoperand
    · exact ihrest p hp
  | operation _ _ ihfirst ihrest => exact ihfirst.ofOperands ihrest
  | expr _ ih => exact ih
  | assignment _ _ _ ihtarget ihsource => exact .assignment ihtarget ihsource
  | noElse => simp [Phrase.Fresh]
  | elseIf _ _ _ ih => simpa [Phrase.Fresh] using ih
  | elseBlock _ _ ih => simpa [Phrase.Fresh] using ih
  | letBinding _ _ _ _ _ _ _ ih => exact .letBinding ih
  | nestedFunction hheader _ ih => exact .function hheader.fresh.1 hheader.fresh.2 ih
  | blockStatement _ ih => exact ih.statement
  | exprStatement _ ih => exact ih.statement
  | endOfBlock => simp [Phrase.Fresh]
  | lastExpr _ hvalue _ ih => simpa [Phrase.Fresh] using ih.value hvalue
  | ended _ _ _ ihstmt ihrest => simpa [Phrase.Fresh] using ⟨⟨ihstmt, ihrest.1⟩, ihrest.2⟩
  | unended _ _ _ ihstmt ihrest => simpa [Phrase.Fresh] using ⟨⟨ihstmt, ihrest.1⟩, ihrest.2⟩
  | block _ _ _ ih => exact .block ih.1 ih.2

/-! ### Mentioned names -/

/-- A declaration or a name in a text.  The name in a struct literal and that of a builtin stand for the whole node. -/
inductive Mention where
  | struct (decl : StructDecl)
  | function (header : Header)
  | typeName (span : Span)
  | builtin (span : Span)
  | value (span : Span)

/-- Where the name stands. -/
def Mention.span : Mention → Span
  | .struct decl => decl.span
  | .function header => header.span
  | .typeName span => span
  | .builtin span => span
  | .value span => span

/-- Where the name begins. -/
def Mention.start (m : Mention) : Int := m.span.start

mutual

/-- The names in a type, in the order in which they are written. -/
def TypeExpr.mentions : TypeExpr → List Mention
  | .named span _ => [.typeName span]
  | .reference _ inner => inner.mentions
  | .function _ params returns => TypeExpr.mentionsAll params ++ TypeExpr.optionMentions returns

/-- The names in types. -/
def TypeExpr.mentionsAll : List TypeExpr → List Mention
  | [] => []
  | t :: rest => t.mentions ++ TypeExpr.mentionsAll rest

/-- The names in a type that may be left out. -/
def TypeExpr.optionMentions : Option TypeExpr → List Mention
  | some t => t.mentions
  | none => []

end

/-- The names in the declared types of a function. -/
def Prototype.mentions (p : Prototype) : List Mention :=
  TypeExpr.mentionsAll p.params ++ TypeExpr.optionMentions p.returns

/-- A declared function and the names in its types. -/
def Header.mentions (h : Header) : List Mention := .function h :: h.prototype.mentions

mutual

/-- The declarations and names in an expression, in the order in which they are written. -/
def Expr.mentions : Expr → List Mention
  | .integer _ _ | .float _ _ | .boolean _ _ | .leaveLoop _ | .nextRound _ => []
  | .identifier info _ _ => [.value info.span]
  | .member _ base _ _ _ => base.mentions
  | .call _ callee args => callee.mentions ++ Expr.mentionsAll args
  | .builtinCall info _ args => .builtin info.span :: Expr.mentionsAll args
  | .unary _ _ operand => operand.mentions
  | .binary _ _ lhs rhs => lhs.mentions ++ rhs.mentions
  | .assignment _ target source => target.mentions ++ source.mentions
  | .structLiteral info _ fields => .typeName info.span :: Expr.mentionsFields fields
  | .letBinding _ _ declared init => TypeExpr.optionMentions declared ++ init.mentions
  | .block b => Expr.mentionsBlock b
  | .ifElse _ cond thenBlock other => cond.mentions ++ Expr.mentionsBlock thenBlock ++ Expr.optionMentions other
  | .whileLoop _ cond body => cond.mentions ++ Expr.mentionsBlock body
  | .endlessLoop _ body => Expr.mentionsBlock body
  | .leaveFunction _ result => Expr.optionMentions result
  | .function _ header body => header.mentions ++ Expr.mentionsBlock body

/-- The declarations and names in expressions. -/
def Expr.mentionsAll : List Expr → List Mention
  | [] => []
  | e :: rest => e.mentions ++ Expr.mentionsAll rest

/-- The declarations and names in the fields of a struct literal. -/
def Expr.mentionsFields : List (FieldInit Expr) → List Mention
  | [] => []
  | ⟨_, _, value⟩ :: rest => value.mentions ++ Expr.mentionsFields rest

/-- The declarations and names in a block. -/
def Expr.mentionsBlock : Block Expr → List Mention
  | ⟨_, _, stmts, tail⟩ => Expr.mentionsAll stmts ++ Expr.optionMentions tail

/-- The declarations and names in an expression that may be left out. -/
def Expr.optionMentions : Option Expr → List Mention
  | some e => e.mentions
  | none => []

end

/-- A declared struct and the names in its fields. -/
def StructDecl.mentions (d : StructDecl) : List Mention :=
  .struct d :: d.fields.flatMap (·.type.mentions)

/-- The declarations and names in a declaration of a module. -/
def Decl.mentions : Decl → List Mention
  | .struct d => d.mentions
  | .function d => d.header.mentions ++ Expr.mentionsBlock d.body

private theorem TypeExpr.mentionsAll_eq (ts : List TypeExpr) :
    TypeExpr.mentionsAll ts = ts.flatMap TypeExpr.mentions := by
  induction ts with
  | nil => rfl
  | cons t rest ih => simp [TypeExpr.mentionsAll, ih]

private theorem Header.mentions_eq (h : Header) :
    h.mentions =
      .function h :: h.params.flatMap (·.declared.mentions) ++ TypeExpr.optionMentions h.returns := by
  simp [Header.mentions, Header.prototype, Prototype.mentions, TypeExpr.mentionsAll_eq, List.flatMap_map]

theorem Expr.mentionsAll_eq (es : List Expr) : Expr.mentionsAll es = es.flatMap Expr.mentions := by
  induction es with
  | nil => rfl
  | cons e rest ih => simp [Expr.mentionsAll, ih]

theorem Expr.mentionsFields_eq (fields : List (FieldInit Expr)) :
    Expr.mentionsFields fields = fields.flatMap (·.value.mentions) := by
  induction fields with
  | nil => rfl
  | cons f rest ih => simp [Expr.mentionsFields, ih]

/-! ### Mentions stand at tokens -/

/-- Mentions begin with some of the given tokens, in their order. -/
def Within (ms : List Mention) (used : List Token) : Prop :=
  (ms.map Mention.start).Sublist (used.map (·.span.start))

namespace Within

variable {ms ns : List Mention} {u v : List Token} {t : Token}

private theorem nil : Within [] u := List.nil_sublist _

private theorem skip (h : Within ms u) : Within ms (t :: u) := List.Sublist.cons _ h

private theorem cons {m : Mention} (hm : m.start = t.span.start) (h : Within ms u) : Within (m :: ms) (t :: u) := by
  unfold Within
  rw [List.map_cons, List.map_cons, hm]
  exact List.Sublist.cons_cons _ h

private theorem append (h : Within ms u) (h' : Within ns v) : Within (ms ++ ns) (u ++ v) := by
  unfold Within
  rw [List.map_append, List.map_append]
  exact List.Sublist.append h h'

private theorem right (h : Within ms v) : Within ms (u ++ v) := by
  simpa using nil.append h

private theorem left (h : Within ms u) : Within ms (u ++ v) := by
  simpa using h.append (nil (u := v))

private theorem of_sublist (hms : ms.Sublist ns) (h : Within ns u) : Within ms u := (hms.map _).trans h

/-- The mentions of items between commas. -/
private theorem items {α : Type} {f : α → List Mention} {close : TokenKind} {trailing first : Bool}
    {pieces : List (List Token × α)} (hlist : Enumerates close trailing first (pieces.map (·.1)) u)
    (hpieces : ∀ p ∈ pieces, Within (f p.2) p.1) : Within ((pieces.map (·.2)).flatMap f) u := by
  generalize hitems : pieces.map (·.1) = items at hlist
  induction hlist generalizing pieces with
  | close =>
    rw [List.map_eq_nil_iff] at hitems
    subst hitems
    exact nil
  | trailing =>
    rw [List.map_eq_nil_iff] at hitems
    subst hitems
    exact nil
  | first _ ih =>
    obtain ⟨p, rest, rfl, rfl, hrest⟩ := List.map_eq_cons_iff.mp hitems
    rw [List.map_cons, List.flatMap_cons]
    exact (hpieces p (by simp)).append (ih (fun q hq => hpieces q (by simp [hq])) hrest)
  | next _ _ ih =>
    obtain ⟨p, rest, rfl, rfl, hrest⟩ := List.map_eq_cons_iff.mp hitems
    rw [List.map_cons, List.flatMap_cons]
    exact ((hpieces p (by simp)).append (ih (fun q hq => hpieces q (by simp [hq])) hrest)).skip

end Within

theorem Covers.start_eq {t : Token} {used : List Token} {span : Span} (h : Covers (t :: used) span) :
    span.start = t.span.start := by
  obtain ⟨first, last, hfirst, -, hstart, -⟩ := h
  cases hfirst
  exact hstart

/-- The mentions in a phrase of a type. -/
def TypePhrase.mentions : TypePhrase → List Mention
  | .type t => t.mentions
  | .returns t => TypeExpr.optionMentions t

private theorem DerivesType.within {phrase : TypePhrase} {used : List Token} (h : DerivesType phrase used) :
    Within phrase.mentions used := by
  induction h with
  | named => exact .cons rfl .nil
  | reference _ _ _ ih => exact ih.skip
  | function _ _ hlist _ _ _ ihpieces ihreturns =>
    rw [TypePhrase.mentions, TypeExpr.mentions, TypeExpr.mentionsAll_eq]
    exact ((Within.items hlist ihpieces).skip.skip).append ihreturns
  | nothing => exact .nil
  | result _ _ ih => exact ih.skip

private theorem DerivesParam.within {p : Param} {used : List Token} (h : DerivesParam p used) :
    Within p.declared.mentions used := by
  cases h with
  | param _ _ _ hdeclared => exact hdeclared.within.skip.skip.right

private theorem DerivesHeader.within {exported : Bool} {header : Header} {used : List Token}
    (h : DerivesHeader exported header used) : Within header.mentions used := by
  rw [Header.mentions_eq]
  cases h with
  | header _ _ _ hlist hpieces hreturns =>
    have hparams := Within.items (f := fun p => p.declared.mentions) hlist fun p hp => (hpieces p hp).within
    exact (Within.skip (.cons rfl hparams.skip)).append hreturns.within

private theorem DerivesDeclared.within {declared : Option TypeExpr} {used : List Token}
    (h : DerivesDeclared declared used) :
    Within (TypeExpr.optionMentions declared) used := by
  cases h with
  | nothing => exact .nil
  | type _ ht => exact ht.within.skip

/-- Joining operands keeps the order of what they mention. -/
private theorem Expr.mentions_joinLevel (level : Nat) (first : Expr) (rest : List (BinaryOp × Expr)) :
    (joinLevel level first rest).1.mentions ++ (joinLevel level first rest).2.flatMap (·.2.mentions) =
      first.mentions ++ rest.flatMap (·.2.mentions) := by
  induction rest generalizing first with
  | nil => rfl
  | cons p rest ih =>
    obtain ⟨op, next⟩ := p
    unfold joinLevel
    split
    · rw [ih]
      simp [operation, Expr.mentions]
    · simp only [List.flatMap_cons]
      rw [ih]

private theorem Expr.mentions_ofOperands (first : Expr) (rest : List (BinaryOp × Expr)) :
    (ofOperands first rest).mentions.Sublist (first.mentions ++ rest.flatMap (·.2.mentions)) := by
  unfold ofOperands
  generalize [7, 6, 5, 4, 3, 2, 1, 0] = levels
  induction levels generalizing first rest with
  | nil => exact List.sublist_append_left _ _
  | cons level levels ih =>
    rw [← mentions_joinLevel level]
    exact ih _ _

/-- The mentions in a phrase. -/
def Phrase.mentions : Phrase → List Mention
  | .primary _ e | .accessed _ e | .operand _ e | .operation _ e | .expr _ e | .statement e => e.mentions
  | .fieldInit field => field.value.mentions
  | .operands _ rest => rest.flatMap (·.2.mentions)
  | .elseBranch e => Expr.optionMentions e
  | .statements stmts tail => stmts.flatMap Expr.mentions ++ Expr.optionMentions tail
  | .block b => Expr.mentionsBlock b

/-- What a tree mentions stands at the tokens it is written with. -/
private theorem Derives.within {phrase : Phrase} {used : List Token} (h : Derives phrase used) :
    Within phrase.mentions used := by
  induction h with
  | integer => exact .nil
  | float => exact .nil
  | boolean => exact .nil
  | identifier => exact .cons rfl .nil
  | structLiteral _ _ hlist _ hspan ih =>
    simp only [Phrase.mentions, Expr.mentions, Expr.mentionsFields_eq]
    exact .cons hspan.start_eq (Within.items hlist ih).skip
  | fieldInit _ _ _ ih => exact ih.skip.skip
  | parenthesised _ _ _ ih => exact ih.skip.left
  | blockExpr _ ih => exact ih
  | ifElse _ _ _ _ _ ihcond ihthen ihother =>
    simp only [Phrase.mentions, Expr.mentions]
    exact (ihcond.skip.append ihthen).append ihother
  | whileLoop _ _ _ _ ihcond ihbody => exact ihcond.skip.append ihbody
  | endlessLoop _ _ _ ih => exact ih.skip
  | leaveLoop => exact .nil
  | nextRound => exact .nil
  | leaveFunction => exact .nil
  | leaveWith _ _ _ ih =>
    exact ih.skip
  | builtinCall _ _ _ hlist _ hspan ih =>
    simp only [Phrase.mentions, Expr.mentions, Expr.mentionsAll_eq]
    exact .cons hspan.start_eq (Within.items hlist ih).skip.skip
  | accessed _ ih => exact ih
  | member _ _ _ ih => exact ih.left
  | call _ _ hlist _ _ ihcallee ihargs =>
    simp only [Phrase.mentions, Expr.mentions, Expr.mentionsAll_eq]
    exact ihcallee.append (Within.items hlist ihargs).skip
  | operand _ ih => exact ih
  | smallestInteger => exact .nil
  | unary _ _ _ ih => exact ih.skip
  | noOperands => exact .nil
  | moreOperands _ _ _ ihoperand ihrest => exact ihoperand.skip.append ihrest
  | operation _ _ ihfirst ihrest => exact .of_sublist (Expr.mentions_ofOperands _ _) (ihfirst.append ihrest)
  | expr _ ih => exact ih
  | assignment _ _ _ ihtarget ihsource => exact ihtarget.append ihsource.skip
  | noElse => exact .nil
  | elseIf _ _ _ ih => exact ih.skip
  | elseBlock _ _ ih => exact ih.skip
  | letBinding _ _ _ hdeclared _ _ _ ih =>
    exact ((Within.nil.append hdeclared.within.skip).skip).append ih.skip
  | nestedFunction hheader _ ih => exact hheader.within.append ih
  | blockStatement _ ih => exact ih
  | exprStatement _ ih => exact ih
  | endOfBlock => exact .nil
  | lastExpr _ _ _ ih => exact ih.left
  | ended _ _ _ ihstmt ihrest =>
    simp only [Phrase.mentions, List.flatMap_cons, List.append_assoc]
    exact ihstmt.append ihrest.skip
  | unended _ _ _ ihstmt ihrest =>
    simp only [Phrase.mentions, List.flatMap_cons, List.append_assoc]
    exact ihstmt.append ihrest
  | block _ _ _ ih =>
    rw [Phrase.mentions, Expr.mentionsBlock, Expr.mentionsAll_eq]
    exact ih.skip

private theorem DerivesStruct.within {exported : Bool} {decl : StructDecl} {used : List Token}
    (h : DerivesStruct exported decl used) : Within decl.mentions used := by
  cases h with
  | @struct _ _ _ pieces _ _ _ _ hlist hpieces =>
    have hfields : ∀ p ∈ pieces, Within p.2.type.mentions p.1 := by
      rintro ⟨tokens, field⟩ hp
      cases hpieces _ hp with
      | field _ _ htype => exact htype.within.skip.skip
    exact Within.skip (.cons rfl (Within.items (f := fun field => field.type.mentions) hlist hfields).skip)

private theorem DerivesDecl.within {exported : Bool} {decl : Decl} {used : List Token}
    (h : DerivesDecl exported decl used) :
    Within decl.mentions used := by
  cases h with
  | struct h => exact h.within
  | function hheader hbody => exact hheader.within.append hbody.within

private theorem DerivesModule.within {decls : List Decl} {used : List Token} (h : DerivesModule decls used) :
    Within (decls.flatMap Decl.mentions) used := by
  induction h with
  | nil => exact .nil
  | hidden hdecl _ ih => exact hdecl.within.append ih
  | exported _ hdecl _ ih => exact (hdecl.within.append ih).skip

/-- The tokens of a stream begin at different places. -/
theorem TokenStream.nodup_starts {used rest : List Token} (h : TokenStream (used ++ rest)) :
    (used.map (·.span.start)).Nodup := by
  have hpair : (used ++ rest).Pairwise fun t u => t.span.start ≠ u.span.start := by
    have hends : (used ++ rest).Pairwise fun t _ => t.kind ≠ .endOfInput := by
      obtain ⟨init, last, heq, -, hinit⟩ := h.ended
      rw [heq, List.pairwise_append]
      exact ⟨List.pairwise_of_forall_mem_list fun t ht _ _ => hinit t ht, by simp, fun t ht _ _ => hinit t ht⟩
    refine (h.ordered.and hends).imp_of_mem ?_
    intro t u ht _ hlt heq
    have hfilled := h.filled t ht hlt.2
    have := hlt.1
    omega
  exact List.pairwise_map.mpr (List.pairwise_append.mp hpair).1

/-! ### Parsed modules -/

/-- What is known about the declarations of a file before they are checked. -/
structure Parsed (decls : List Decl) : Prop where
  /-- No two declarations or names begin at the same place. -/
  apart : ((decls.flatMap Decl.mentions).map Mention.start).Nodup
  untyped : ∀ f, .function f ∈ decls → f.info = { span := f.info.span }
  params : ∀ f, .function f ∈ decls → ∀ p ∈ f.header.params, p.Fresh
  body : ∀ f, .function f ∈ decls → (Expr.block f.body).Fresh false

private theorem DerivesDecl.function_fresh {exported : Bool} {f : FunctionDecl} {used : List Token}
    (h : DerivesDecl exported (.function f) used) :
    f.info = { span := f.info.span } ∧ (∀ p ∈ f.header.params, p.Fresh) ∧ (Expr.block f.body).Fresh false := by
  cases h with
  | function hheader hbody => exact ⟨rfl, hheader.fresh.2, hbody.fresh⟩

private theorem DerivesModule.function_fresh {decls : List Decl} {used : List Token} (h : DerivesModule decls used)
    {f : FunctionDecl} (hf : .function f ∈ decls) :
    f.info = { span := f.info.span } ∧ (∀ p ∈ f.header.params, p.Fresh) ∧ (Expr.block f.body).Fresh false := by
  induction h with
  | nil => simp at hf
  | hidden hdecl _ ih =>
    rcases List.mem_cons.mp hf with rfl | hf
    · exact hdecl.function_fresh
    · exact ih hf
  | exported _ hdecl _ ih =>
    rcases List.mem_cons.mp hf with rfl | hf
    · exact hdecl.function_fresh
    · exact ih hf

/-- A file is parsed, or refused; to read it is no misuse. -/
theorem SourceFile.declarations_parsed (file : SourceFile) :
    (∃ decls, file.declarations = .ok decls ∧ Parsed decls) ∨ ∃ d, file.declarations = .error (.refused d) := by
  rcases file.declarations_cases with ⟨decls, used, last, hdecls, -, hstream, -, hmodule⟩ | hrefused
  · refine .inl ⟨decls, hdecls, ?_, ?_, ?_, ?_⟩
    · exact hmodule.within.nodup hstream.nodup_starts
    · exact fun f hf => (hmodule.function_fresh hf).1
    · exact fun f hf => (hmodule.function_fresh hf).2.1
    · exact fun f hf => (hmodule.function_fresh hf).2.2
  · exact .inr hrefused

theorem SourceFile.parsed_of_declarations (file : SourceFile) {decls : List Decl} (h : file.declarations = .ok decls) :
    Parsed decls := by
  rcases file.declarations_parsed with ⟨decls', hdecls, hparsed⟩ | ⟨d, hrefused⟩
  · rw [h] at hdecls
    cases hdecls
    exact hparsed
  · rw [h] at hrefused
    cases hrefused

end RainCheck

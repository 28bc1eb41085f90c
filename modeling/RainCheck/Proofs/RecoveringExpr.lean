import RainCheck.Proofs.AlignedExpr
import RainCheck.Proofs.Writing

/-!
# Reading written trees back

A tree that the grammar can express, written out and read again, is the same tree at other places
(`SourceFile.declarations_of_writes`).
* In parentheses an expression is read as it is written, whatever operation it belongs to (`recovers_parens`).
* `Grammar.Recovers` says this of what is nested one level deeper; by induction on the depth it
  holds of the whole grammar.
-/

namespace RainCheck

/-! ### Trees at other places -/

/-- Places do not count; everything else has to be the same. -/
def anywhere : Matching where
  span _ _ := True
  type := Eq
  frame := Eq
  problem _ _ := True

/-- One expression, wherever it stands. -/
abbrev SameExpr : Expr → Expr → Prop := Expr.Matches anywhere

/-- One block, wherever it stands. -/
abbrev SameBlock : Block Expr → Block Expr → Prop := Block.Matches anywhere

/-- One declaration, wherever it stands. -/
abbrev SameDecl : Decl → Decl → Prop := Decl.Matches anywhere

private theorem sameInfo (span span' : Span) : Info.Matches anywhere { span } { span := span' } :=
  ⟨trivial, .none, rfl, rfl, rfl, rfl⟩

/-! ### Tokens behind expressions -/

/-- Whether a token of this kind stands behind an expression that is complete. -/
def TokenKind.endsExpr : TokenKind → Bool
  | .rightParen | .comma | .semicolon | .leftBrace | .rightBrace => true
  | _ => false

/-- The token behind an expression in its role. -/
def Role.closing : Role → TokenKind
  | .operand => .rightParen
  | .tail => .rightBrace
  | .statement => .semicolon

private theorem Role.endsExpr_closing (r : Role) : r.closing.endsExpr = true := by
  cases r <;> rfl

private theorem Role.closing_ne_leftBrace (r : Role) : r.closing ≠ .leftBrace := by
  cases r <;> decide

namespace TokenKind

variable {kind : TokenKind}

private theorem ne_of_endsExpr (h : kind.endsExpr = true) {other : TokenKind} (hother : other.endsExpr = false) :
    kind ≠ other := by
  rintro rfl
  rw [h] at hother
  cases hother

private theorem ofToken?_of_endsExpr (h : kind.endsExpr = true) : BinaryOp.ofToken? kind = none := by
  cases kind <;> first | rfl | cases h

end TokenKind

/-! ### Symbols of expressions -/

/-- What a statement begins with; only bindings, nested functions and what ends with a block have a
word of their own. -/
private theorem Expr.Expressible.exists_symbol {r : Role} {e : Expr} (h : e.Expressible r) :
    ∃ x xs, e.symbols = x :: xs ∧ x.kind ≠ .rightBrace ∧ x.kind ≠ .semicolon ∧
      (e.isValue = true → e.isBlockLike = false → x.kind ∉ [TokenKind.keyword .letWord, .keyword .ifWord,
        .keyword .whileWord, .keyword .loopWord, .leftBrace, .keyword .fnWord]) := by
  cases h with
  | @integer _ _ n _ =>
    rw [symbols, integerSymbols]
    split <;> exact ⟨_, _, rfl, by simp [Symbol.kind, Symbol.mark]⟩
  | @boolean _ _ b => exact ⟨_, _, rfl, by cases b <;> simp [Symbol.kind, Symbol.keyword]⟩
  | @unary _ _ op => exact ⟨_, _, rfl, by cases op <;> simp [Symbol.kind, Symbol.mark, UnaryOp.token]⟩
  | letBinding => exact ⟨_, _, rfl, by simp [Symbol.kind, Symbol.keyword, isValue, isLet]⟩
  | function => exact ⟨_, _, rfl, by simp [Symbol.kind, Symbol.keyword, isValue, isFunction]⟩
  | block => exact ⟨_, _, rfl, by simp [Symbol.kind, Symbol.mark, isBlockLike]⟩
  | ifElse | whileLoop | endlessLoop => exact ⟨_, _, rfl, by simp [Symbol.kind, Symbol.keyword, isBlockLike]⟩
  | float | identifier | structLiteral => exact ⟨_, _, rfl, by simp [Symbol.kind, Symbol.name]⟩
  | member | call | binary | assignment | builtinCall => exact ⟨_, _, rfl, by simp [Symbol.kind, Symbol.mark]⟩
  | leaveLoop | nextRound | leaveFunction | leaveWith => exact ⟨_, _, rfl, by simp [Symbol.kind, Symbol.keyword]⟩

private theorem Expr.Expressible.isValue {r : Role} {e : Expr} (h : e.Expressible r) (hr : r ≠ .statement) :
    e.isValue = true := by
  cases h <;> first | rfl | exact absurd rfl hr

/-- No statement begins with a semicolon. -/
private theorem exists_symbol_statements {stmts : List Expr} {tail : Option Expr}
    (hstmts : ∀ e ∈ stmts, e.Expressible .statement) (htail : ∀ e ∈ tail, e.Expressible .tail) :
    ∃ x xs, Expr.symbolsStatements stmts ++ Expr.symbolsTail tail ++ [.mark .rightBrace] = x :: xs ∧
      x.kind ≠ .semicolon := by
  cases stmts with
  | nil =>
    cases tail with
    | none => exact ⟨_, _, rfl, by simp [Symbol.kind, Symbol.mark]⟩
    | some e =>
      obtain ⟨x, xs, hx, -, hne, -⟩ := (htail e rfl).exists_symbol
      rw [Expr.symbolsTail, hx]
      exact ⟨x, _, rfl, hne⟩
  | cons e rest =>
    obtain ⟨x, xs, hx, -, hne, -⟩ := (hstmts e (by simp)).exists_symbol
    rw [Expr.symbolsStatements, hx]
    exact ⟨x, _, rfl, hne⟩

private theorem Expr.symbolsBlock_eq (b : Block Expr) : symbolsBlock b =
    .mark .leftBrace :: (symbolsStatements b.stmts ++ symbolsTail b.tail ++ [.mark .rightBrace]) := by
  cases b
  rfl

private theorem Standing.parens_inv {ts : List Token} {k n : Nat} {xs : List Symbol}
    (h : Standing ts k (Symbol.parens xs) n) :
    ∃ m left right, ts[k]? = some left ∧ left.kind = .leftParen ∧ Standing ts (k + 1) xs m ∧ ts[m]? = some right ∧
      right.kind = .rightParen ∧ n = m + 1 := by
  obtain ⟨left, hleft, hleftSays, h⟩ := h.cons_inv
  obtain ⟨m, hxs, h⟩ := h.append_inv
  obtain ⟨right, hright, hrightSays, h⟩ := h.cons_inv
  cases h
  exact ⟨m, left, right, hleft, hleftSays.kind, hxs, hright, hrightSays.kind, rfl⟩

/-! ### The grammar one level deeper -/

namespace Parser

/-- What is nested one level deeper is read as it is written, from a place on. -/
structure Grammar.Recovers (ts : List Token) (k : Nat) (g : Grammar) : Prop where
  expr {r : Role} {e : Expr} {j n : Nat} {t : Token} (hj : k ≤ j) (he : e.Expressible r) (hvalue : e.isValue = true)
    (h : Standing ts j e.symbols n) (ht : ts[n]? = some t) (hkind : t.kind = r.closing) :
    Parser.Recovers ts j n (SameExpr e) (g.expr false)
  parens {b : Bool} {e : Expr} {j n : Nat} {t : Token} (hj : k ≤ j) (he : e.Expressible .operand)
    (h : Standing ts j (Symbol.parens e.symbols) n) (ht : ts[n]? = some t) (hends : t.kind.endsExpr = true) :
    Parser.Recovers ts j n (SameExpr e) (g.expr b)
  unary {b : Bool} {e : Expr} {j n : Nat} {t : Token} (hj : k ≤ j) (he : e.Expressible .operand)
    (h : Standing ts j (Symbol.parens e.symbols) n) (ht : ts[n]? = some t) (hends : t.kind.endsExpr = true) :
    Parser.Recovers ts j n (SameExpr e) (g.unary b)
  primary {r : Role} {e : Expr} {j n : Nat} {t : Token} (hj : k ≤ j) (he : e.Expressible r)
    (hlike : e.isBlockLike = true) (h : Standing ts j e.symbols n) (ht : ts[n]? = some t)
    (hends : t.kind.endsExpr = true) : Parser.Recovers ts j n (SameExpr e) (g.primary false)
  block {r : Role} {b : Block Expr} {j n : Nat} (hj : k ≤ j) (hb : (Expr.block b).Expressible r)
    (h : Standing ts j (Expr.symbolsBlock b) n) : Parser.Recovers ts j n (SameBlock b) g.block

variable {ts : List Token} {k j n : Nat} {g : Grammar} {r : Role} {b : Bool} {e : Expr} {t u : Token} {Q : Expr → Prop}

/-! ### Levels of the grammar -/

private theorem recovers_accesses {first : Token} (bound : Nat) (hu : ts[n]? = some u) (hdot : u.kind ≠ .dot)
    (hparen : u.kind ≠ .leftParen) (he : Q e) : Recovers ts n n Q (accesses g first (bound + 1) e) := by
  rw [accesses]
  refine recovers_decline hu hdot (recovers_follows hu ?_)
  rw [decide_eq_false hparen]
  exact recovers_pure he

private theorem recovers_accessed (ht : ts[j]? = some t) (h : Recovers ts j n Q (primary g b)) (hu : ts[n]? = some u)
    (hdot : u.kind ≠ .dot) (hparen : u.kind ≠ .leftParen) : Recovers ts j n Q (accessed g b) :=
  recovers_peek ht (h.bind fun _ he => recovers_tokensLeft (recovers_accesses _ hu hdot hparen he))

private theorem recovers_unary (ht : ts[j]? = some t) (hsign : t.kind ∉ [TokenKind.minus, .bang, .ampersand])
    (h : Recovers ts j n Q (accessed g b)) : Recovers ts j n Q (unary g b) := by
  refine recovers_peek ht ?_
  simp only [List.mem_cons, List.not_mem_nil, or_false, not_or] at hsign
  split
  · rename_i hkind
    exact absurd hkind hsign.1
  · rename_i hkind
    exact absurd hkind hsign.2.1
  · rename_i hkind
    exact absurd hkind hsign.2.2
  · exact h

private theorem recovers_operands (bound : Nat) (hu : ts[n]? = some u) (hop : BinaryOp.ofToken? u.kind = none) :
    Recovers ts n n (· = []) (operands g b (bound + 1)) := by
  rw [operands]
  refine recovers_peek hu ?_
  rw [hop]
  exact recovers_pure rfl

private theorem recovers_expr (h : Recovers ts j n Q (unary g b)) (hu : ts[n]? = some u)
    (hends : u.kind.endsExpr = true) :
    Recovers ts j n Q (expr g b) := by
  have hbinary : Recovers ts j n Q (binary g b) := by
    refine h.bind fun e he => recovers_tokensLeft ?_
    refine (recovers_operands _ hu (TokenKind.ofToken?_of_endsExpr hends)).bind ?_
    rintro _ rfl
    exact recovers_pure he
  exact hbinary.bind fun e he => recovers_decline hu (TokenKind.ne_of_endsExpr hends rfl) (recovers_pure he)

private theorem recovers_expr_of_primary (ht : ts[j]? = some t) (hsign : t.kind ∉ [TokenKind.minus, .bang, .ampersand])
    (h : Recovers ts j n Q (primary g b)) (hu : ts[n]? = some u) (hends : u.kind.endsExpr = true) :
    Recovers ts j n Q (expr g b) :=
  recovers_expr (recovers_unary ht hsign (recovers_accessed ht h hu (TokenKind.ne_of_endsExpr hends rfl)
    (TokenKind.ne_of_endsExpr hends rfl))) hu hends

/-! ### Parentheses and lists -/

section

variable (hg : g.Recovers ts k) (hj : k ≤ j + 1)

include hg hj

/-- An expression in parentheses. -/
theorem recovers_parens (he : e.Expressible .operand) (h : Standing ts j (Symbol.parens e.symbols) n) :
    Recovers ts j n (SameExpr e) (primary g b) := by
  obtain ⟨m, left, right, hleft, hleftKind, hinner, hright, hrightKind, rfl⟩ := h.parens_inv
  refine recovers_peek hleft ?_
  rw [hleftKind]
  refine recovers_advance hleft ?_
  refine (hg.expr hj he (he.isValue (by decide)) hinner hright hrightKind).bind fun e' he' => ?_
  exact recovers_expect hright hrightKind (recovers_pure he')

/-- An operand in parentheses, in front of anything but a member access or a call. -/
private theorem recovers_operand (he : e.Expressible .operand) (h : Standing ts j (Symbol.parens e.symbols) n)
    (hu : ts[n]? = some u) (hdot : u.kind ≠ .dot) (hparen : u.kind ≠ .leftParen) :
    Recovers ts j n (SameExpr e) (unary g b) := by
  obtain ⟨m, left, right, hleft, hleftKind, -⟩ := h.parens_inv
  exact recovers_unary hleft (by simp [hleftKind]) (recovers_accessed hleft (recovers_parens hg hj he h) hu hdot hparen)

private theorem recovers_arguments {args : List Expr} (hargs : ∀ e ∈ args, e.Expressible .operand)
    (h : Standing ts j (Symbol.parens (Symbol.listed true (Expr.symbolsAll args))) n) :
    Recovers ts j n (List.Forall₂ SameExpr args) (arguments g) := by
  obtain ⟨m, left, right, hleft, hleftKind, hlist, hright, hrightKind, rfl⟩ := h.parens_inv
  rw [Expr.symbolsAll_eq] at hlist
  refine recovers_expect hleft hleftKind (recovers_separated (by decide) ?_ ?_ hlist hright hrightKind)
  · exact fun e _ => ⟨_, _, rfl, by simp [Symbol.kind, Symbol.mark]⟩
  · intro e he j' l v hj' hstanding hv hvkind
    refine hg.parens (by omega) (hargs e he) hstanding hv ?_
    rcases hvkind with hvkind | hvkind <;> rw [hvkind] <;> rfl

private theorem recovers_fields {fields : List (FieldInit Expr)} (hvalues : ∀ f ∈ fields, f.value.Expressible .operand)
    (h : Standing ts (j + 1) (Symbol.listed true (Expr.symbolsFields fields)) n) (hu : ts[n]? = some u)
    (hkind : u.kind = .rightBrace) :
    Recovers ts (j + 1) (n + 1) (List.Forall₂ (FieldInit.Matches anywhere SameExpr) fields)
      (separated .rightBrace true (fieldInit g)) := by
  rw [Expr.symbolsFields_eq] at h
  refine recovers_separated (by decide) (fun f _ => ⟨_, _, rfl, by simp [Symbol.kind, Symbol.name]⟩) ?_ h hu hkind
  rintro ⟨text, span, value⟩ hf j' l v hj' hstanding hv hvkind
  obtain ⟨name, hname, hnameSays, hstanding⟩ := hstanding.cons_inv
  obtain ⟨colon, hcolon, hcolonSays, hstanding⟩ := hstanding.cons_inv
  refine recovers_expect hname hnameSays.kind (recovers_expect hcolon hcolonSays.kind ?_)
  have hends : v.kind.endsExpr = true := by rcases hvkind with hvkind | hvkind <;> rw [hvkind] <;> rfl
  refine (hg.parens (by omega) (hvalues _ hf) hstanding hv hends).bind fun value' hvalue => ?_
  rw [hnameSays.text]
  exact recovers_pure (.mk trivial hvalue)

private theorem recovers_elseBranch {other : Option Expr} (hbranch : ∀ e ∈ other, e.isBranch = true)
    (hother : ∀ e ∈ other, e.Expressible .operand) (h : Standing ts j (Expr.symbolsElse other) n) (hu : ts[n]? = some u)
    (hends : u.kind.endsExpr = true) : Recovers ts j n (Option.Rel SameExpr other) (elseBranch g) := by
  cases other with
  | none =>
    cases h
    exact recovers_decline hu (TokenKind.ne_of_endsExpr hends rfl) (recovers_pure .none)
  | some e =>
    have he := hother e rfl
    obtain ⟨word, hword, hwordSays, h⟩ := h.cons_inv
    refine recovers_accept hword hwordSays.kind ?_
    have hform := hbranch e rfl
    cases he with
    | block hstmts htail =>
      obtain ⟨first, hfirst, hfirstSays, -⟩ := (show Standing ts (j + 1) (_ :: _) n from h).cons_inv
      refine recovers_follows hfirst ?_
      rw [hfirstSays.kind]
      exact (hg.block hj (.block (r := .operand) hstmts htail) h).bind fun b hb => recovers_pure (.some hb)
    | ifElse hcond hthen hbranch' hother' =>
      obtain ⟨first, hfirst, hfirstSays, -⟩ := (show Standing ts (j + 1) (_ :: _) n from h).cons_inv
      refine recovers_follows hfirst ?_
      rw [hfirstSays.kind]
      exact (hg.primary hj (.ifElse (r := .operand) hcond hthen hbranch' hother') rfl h hu hends).bind fun e' he' =>
        recovers_pure (.some he')
    | _ => cases hform

end

/-! ### Heads of functions -/

section

variable (hts : TokenStream ts)

include hts

private theorem recovers_param {p : Param} (hp : p.Expressible) (h : Standing ts j p.symbols n) (hu : ts[n]? = some u)
    (hkind : u.kind = .comma ∨ u.kind = .rightParen) : Recovers ts j n (Param.Matches anywhere p) param := by
  obtain ⟨⟨name, kind, mutable, span, type⟩, declared⟩ := p
  obtain ⟨rfl, rfl⟩ : kind = .argument ∧ type = .empty := hp.fresh
  have harrow : u.kind ≠ .arrow := by rcases hkind with hkind | hkind <;> rw [hkind] <;> decide
  have hrest {j : Nat} (h : Standing ts j (.name name :: .mark .colon :: declared.symbols) n) (first : Bool) :
      Recovers ts j n (Param.Matches anywhere ⟨{ name, kind := .argument, mutable := first, span }, declared⟩) (do
        let t ← expect .identifier
        let _ ← expect .colon
        let declared ← Parser.type
        return ⟨{ name := t.text, kind := .argument, mutable := first, span := t.span }, declared⟩) := by
    obtain ⟨t, ht, hsaid, h⟩ := h.cons_inv
    obtain ⟨colon, hcolon, hcolonSays, h⟩ := h.cons_inv
    refine recovers_expect ht hsaid.kind (recovers_expect hcolon hcolonSays.kind ?_)
    refine (recovers_type hts declared h hu harrow).bind fun declared' hdeclared => recovers_pure ?_
    exact ⟨⟨hsaid.text, .argument, rfl, trivial, .empty⟩, hdeclared⟩
  cases mutable with
  | false =>
    obtain ⟨t, ht, hsaid, -⟩ := h.cons_inv
    exact recovers_decline ht (by rw [hsaid.kind]; simp [Symbol.kind, Symbol.name]) (hrest h false)
  | true =>
    obtain ⟨t, ht, hsaid, h⟩ := h.cons_inv
    exact recovers_accept ht hsaid.kind (hrest h true)

private theorem recovers_header {header : Header} {exported : Bool} (hheader : header.Expressible)
    (hexported : header.exported = exported) (h : Standing ts j header.symbols n) (hu : ts[n]? = some u)
    (hkind : u.kind = .leftBrace) : Recovers ts j n (Header.Matches anywhere header) (Parser.header exported) := by
  obtain ⟨name, span, _, params, returns⟩ := header
  subst hexported
  obtain ⟨word, hword, hwordSays, h⟩ := h.cons_inv
  obtain ⟨t, ht, hsaid, h⟩ := h.cons_inv
  obtain ⟨left, hleft, hleftSays, h⟩ := h.cons_inv
  obtain ⟨m, hparams, h⟩ := h.append_inv
  obtain ⟨right, hright, hrightSays, hreturns⟩ := h.cons_inv
  refine recovers_expect hword hwordSays.kind (recovers_expect ht hsaid.kind (recovers_expect hleft hleftSays.kind ?_))
  have hfirst : ∀ p ∈ params, ∃ x xs, p.symbols = x :: xs ∧ x.kind ≠ .rightParen := by
    rintro ⟨⟨_, _, mutable, _, _⟩, _⟩ _
    cases mutable <;> exact ⟨_, _, rfl, by simp [Symbol.kind, Symbol.name, Symbol.keyword]⟩
  refine (recovers_separated (by decide) hfirst
    (fun p hp j' l v _ hstanding hv hvkind => recovers_param hts (hheader.params p hp) hstanding hv hvkind)
    hparams hright
    hrightSays.kind).bind fun params' hparams' => ?_
  have harrow : u.kind ≠ .arrow := by rw [hkind]; decide
  refine (recovers_returnType (fun e _ j' _ he => recovers_type hts e he hu harrow) hreturns hu harrow).bind
    fun returns' hreturns' => recovers_pure ?_
  exact ⟨hsaid.text, trivial, rfl, hparams', hreturns'⟩

private theorem recovers_declaredType {declared : Option TypeExpr} (h : Standing ts j (declaredSymbols declared) n)
    (hu : ts[n]? = some u) (hkind : u.kind = .assign) :
    Recovers ts j n (Option.Rel SameType declared) declaredType := by
  cases declared with
  | none =>
    cases h
    exact recovers_decline hu (by rw [hkind]; decide) (recovers_pure .none)
  | some t =>
    obtain ⟨colon, hcolon, hsaid, h⟩ := h.cons_inv
    refine recovers_accept hcolon hsaid.kind ?_
    exact (recovers_type hts t h hu (by rw [hkind]; decide)).bind fun t' ht => recovers_pure (.some ht)

end

/-! ### Statements and blocks -/

section

variable (hts : TokenStream ts) (hg : g.Recovers ts k) (hj : k ≤ j + 1)

include hts hg hj

private theorem recovers_letBinding {span nameSpan : Span} {name : String} {mutable : Bool} {declared : Option TypeExpr}
    {init : Expr} (hinit : init.Expressible .operand)
    (h : Standing ts j (Expr.letBinding { span } (.owned { name, kind := .bound, mutable, span := nameSpan })
      declared init).symbols n) (hu : ts[n]? = some u) (hkind : u.kind = .semicolon) :
    Recovers ts j n (SameExpr (.letBinding { span } (.owned { name, kind := .bound, mutable, span := nameSpan })
      declared init)) (letBinding g) := by
  obtain ⟨word, hword, hwordSays, h⟩ := h.cons_inv
  have hafter {l : Nat} (hl : j < l) (first : Bool)
      (h : Standing ts l (.name name :: declaredSymbols declared ++ .mark .assign :: Symbol.parens init.symbols) n) :
      Recovers ts l n
        (SameExpr (.letBinding { span } (.owned { name, kind := .bound, mutable := first, span := nameSpan })
        declared init)) (do
          let t ← expect .identifier
          let declared ← declaredType
          let _ ← expect .assign
          let init ← g.expr false
          let behind ← peek
          if behind.kind ≠ .semicolon then refuse behind .expectedSemicolon
          let binding : Variable := { name := t.text, kind := .bound, mutable := first, span := t.span }
          return .letBinding { span := ← spanFrom word } (.owned binding) declared init) := by
    obtain ⟨t, ht, hsaid, h⟩ := h.cons_inv
    obtain ⟨m, hdeclared, h⟩ := h.append_inv
    obtain ⟨equal, hequal, hequalSays, h⟩ := h.cons_inv
    have hm := hdeclared.le
    have hn := h.le
    refine recovers_expect ht hsaid.kind ?_
    refine (recovers_declaredType hts hdeclared hequal hequalSays.kind).bind fun declared' hdeclared' => ?_
    refine recovers_expect hequal hequalSays.kind ?_
    refine (hg.parens (by omega) hinit h hu (by rw [hkind]; rfl)).bind fun init' hinit' => recovers_peek hu ?_
    rw [if_neg (by simp [hkind])]
    refine recovers_spanFrom hts hword (by omega) fun span' => recovers_pure ?_
    exact .letBinding (sameInfo _ _) (.owned ⟨hsaid.text, .bound, rfl, trivial, .empty⟩) hdeclared' hinit'
  refine recovers_expect hword hwordSays.kind ?_
  cases mutable with
  | false =>
    obtain ⟨t, ht, hsaid, -⟩ := h.cons_inv
    exact recovers_decline ht (by rw [hsaid.kind]; simp [Symbol.kind, Symbol.name]) (hafter (by omega) false h)
  | true =>
    obtain ⟨t, ht, hsaid, h⟩ := h.cons_inv
    exact recovers_accept ht hsaid.kind (hafter (by omega) true h)

private theorem recovers_nestedFunction {span : Span} {header : Header} {body : Block Expr}
    (hheader : header.Expressible)
    (hexported : header.exported = false) (hbody : (Expr.block body).Expressible r)
    (h : Standing ts j (Expr.function { span } header body).symbols n) :
    Recovers ts j n (SameExpr (.function { span } header body)) (nestedFunction g) := by
  obtain ⟨m, hhead, hblock⟩ := h.append_inv
  obtain ⟨brace, hbrace, hbraceSays, -⟩ := (Expr.symbolsBlock_eq body ▸ hblock).cons_inv
  obtain ⟨-, -, -, hinner⟩ := hhead.cons_inv
  have hm := hinner.le
  refine (recovers_header hts hheader hexported hhead hbrace hbraceSays.kind).bind fun header' hheader' => ?_
  exact (hg.block (by omega) hbody hblock).bind fun body' hbody' =>
    recovers_pure (.function (sameInfo _ _) hheader' hbody')

end

section

variable (hts : TokenStream ts) (hg : g.Recovers ts k) (hj : k ≤ j)

include hts hg hj

private theorem recovers_statement (he : e.Expressible r) (hr : r ≠ .operand) (h : Standing ts j e.symbols n)
    (hu : ts[n]? = some u) (hkind : e.isFunction = false → u.kind = r.closing) :
    Recovers ts j n (SameExpr e) (statement g) := by
  have hj' : k ≤ j + 1 := by omega
  obtain ⟨x, xs, hsymbols, -, -, hvalue⟩ := he.exists_symbol
  obtain ⟨t, ht, hsaid, -⟩ := (hsymbols ▸ h).cons_inv
  have hends (hkind : u.kind = r.closing) : u.kind.endsExpr = true := hkind ▸ r.endsExpr_closing
  refine recovers_peek ht ?_
  by_cases hform : e.isValue = true ∧ e.isBlockLike = false
  · have hothers := hvalue hform.1 hform.2
    rw [← hsaid.kind] at hothers
    simp only [List.mem_cons, List.not_mem_nil, or_false, not_or] at hothers
    have hexpr : Recovers ts j n (SameExpr e) (g.expr false) :=
      hg.expr hj he hform.1 h hu (hkind (by simpa [Expr.isValue] using (Bool.and_eq_true_iff.mp hform.1).2))
    split <;> first | exact hexpr | simp_all
  · cases he with
    | letBinding _ _ hinit =>
      cases hsymbols
      rw [hsaid.kind]
      exact recovers_letBinding hts hg hj' hinit h hu (hkind rfl)
    | function hheader hexported hbody =>
      cases hsymbols
      rw [hsaid.kind]
      exact recovers_nestedFunction hts hg hj' hheader hexported hbody h
    | block hstmts htail =>
      cases hsymbols
      rw [hsaid.kind]
      exact hg.primary hj (.block (r := r) hstmts htail) rfl h hu (hends (hkind rfl))
    | ifElse hcond hthen hbranch hother =>
      cases hsymbols
      rw [hsaid.kind]
      exact hg.primary hj (.ifElse (r := r) hcond hthen hbranch hother) rfl h hu (hends (hkind rfl))
    | whileLoop hcond hbody =>
      cases hsymbols
      rw [hsaid.kind]
      exact hg.primary hj (.whileLoop (r := r) hcond hbody) rfl h hu (hends (hkind rfl))
    | endlessLoop hbody =>
      cases hsymbols
      rw [hsaid.kind]
      exact hg.primary hj (.endlessLoop (r := r) hbody) rfl h hu (hends (hkind rfl))
    | _ => exact absurd ⟨rfl, rfl⟩ hform

/-- The statements and the last expression of a block, up to its closing brace. -/
private theorem recovers_statements {stmts : List Expr} {tail : Option Expr} (bound : Nat)
    (hstmts : ∀ e ∈ stmts, e.Expressible .statement) (htail : ∀ e ∈ tail, e.Expressible .tail)
    (hbound : ts.length < j + bound)
    (h : Standing ts j (Expr.symbolsStatements stmts ++ Expr.symbolsTail tail ++ [.mark .rightBrace]) n) :
    Recovers ts j n (fun r => List.Forall₂ SameExpr stmts r.1 ∧ Option.Rel SameExpr tail r.2) (statements g bound) := by
  induction stmts generalizing j bound with
  | nil =>
    obtain ⟨m, hlast, h⟩ := h.append_inv
    obtain ⟨brace, hbrace, hbraceSays, h⟩ := h.cons_inv
    cases h
    have hm := (List.getElem?_eq_some_iff.mp hbrace).1
    have hlastLe := hlast.le
    obtain ⟨bound, rfl⟩ : ∃ c, bound = c + 1 := ⟨bound - 1, by omega⟩
    rw [statements]
    cases tail with
    | none =>
      cases hlast
      exact recovers_accept hbrace hbraceSays.kind (recovers_pure ⟨.nil, .none⟩)
    | some e =>
      have he := htail e rfl
      obtain ⟨x, xs, hsymbols, hx, -⟩ := he.exists_symbol
      obtain ⟨t, ht, hsaid, -⟩ :=
        ((show e.symbols = x :: xs from hsymbols) ▸ (show Standing ts j e.symbols m from hlast)).cons_inv
      refine recovers_decline ht (by rw [hsaid.kind]; exact hx) ?_
      refine (recovers_statement hts hg hj he (by decide) hlast hbrace fun _ => hbraceSays.kind).bind fun e' he' => ?_
      -- the last expression stands in front of the brace, with no semicolon
      refine recovers_decline hbrace (by rw [hbraceSays.kind]; decide) ?_
      have hfunction : e'.isFunction = false := by
        rw [isFunction_matches he']
        cases he <;> rfl
      rw [hfunction]
      exact recovers_accept hbrace hbraceSays.kind (recovers_pure ⟨.nil, .some he'⟩)
  | cons e rest ih =>
    have he := hstmts e (by simp)
    simp only [Expr.symbolsStatements, List.append_assoc] at h
    obtain ⟨m, hstmt, h⟩ := h.append_inv
    obtain ⟨x, xs, hsymbols, hx, -⟩ := he.exists_symbol
    obtain ⟨t, ht, hsaid, hstep⟩ := (hsymbols ▸ hstmt).cons_inv
    have hm := hstep.le
    have hlt := (List.getElem?_eq_some_iff.mp ht).1
    obtain ⟨bound, rfl⟩ : ∃ c, bound = c + 1 := ⟨bound - 1, by omega⟩
    rw [statements]
    refine recovers_decline ht (by rw [hsaid.kind]; exact hx) ?_
    have hrest {l : Nat} (hl : j < l)
        (h : Standing ts l (Expr.symbolsStatements rest ++ Expr.symbolsTail tail ++ [.mark .rightBrace]) n) :=
      ih (by omega) bound (fun e he => hstmts e (by simp [he])) (by omega) h
    by_cases hfunction : e.isFunction = true
    · -- a nested function needs no semicolon
      rw [if_pos hfunction, List.nil_append, ← List.append_assoc] at h
      obtain ⟨v, hv, hvkind⟩ : ∃ v, ts[m]? = some v ∧ v.kind ≠ .semicolon := by
        have hbehind : ∀ e ∈ rest, e.Expressible .statement := fun e he => hstmts e (by simp [he])
        obtain ⟨y, ys, hy, hne⟩ := exists_symbol_statements hbehind htail
        obtain ⟨v, hv, hvSays, -⟩ := (hy ▸ h).cons_inv
        exact ⟨v, hv, by rw [hvSays.kind]; exact hne⟩
      refine (recovers_statement hts hg hj he (by decide) hstmt hv fun hnot => by simp [hfunction] at hnot).bind
        fun e' he' => ?_
      refine recovers_decline hv hvkind ?_
      rw [isFunction_matches he', hfunction]
      exact (hrest (by omega) h).bind fun r hr => recovers_pure ⟨.cons he' hr.1, hr.2⟩
    · rw [Bool.not_eq_true] at hfunction
      simp only [hfunction, Bool.false_eq_true, if_false, List.cons_append, List.nil_append, ← List.append_assoc] at h
      obtain ⟨v, hv, hvSays, h⟩ := h.cons_inv
      refine (recovers_statement hts hg hj he (by decide) hstmt hv fun _ => hvSays.kind).bind fun e' he' => ?_
      refine recovers_accept hv hvSays.kind ?_
      exact (hrest (by omega) h).bind fun r hr => recovers_pure ⟨.cons he' hr.1, hr.2⟩

end

section

variable (hts : TokenStream ts) (hg : g.Recovers ts k) (hj : k ≤ j + 1)

include hts hg hj

private theorem recovers_block {block' : Block Expr} (hb : (Expr.block block').Expressible r)
    (h : Standing ts j (Expr.symbolsBlock block') n) : Recovers ts j n (SameBlock block') (block g) := by
  cases hb with
  | @block _ span stmts tail hstmts htail =>
    rw [Expr.symbolsBlock_eq] at h
    obtain ⟨brace, hbrace, hbraceSays, h⟩ := h.cons_inv
    have hlt := (List.getElem?_eq_some_iff.mp hbrace).1
    have hn := h.le
    refine recovers_expect hbrace hbraceSays.kind (recovers_tokensLeft ?_)
    refine (recovers_statements hts hg hj _ hstmts htail (by omega) h).bind fun r hr => ?_
    refine recovers_spanFrom hts hbrace (by omega) fun span' => recovers_pure ?_
    exact .block (sameInfo _ _) .none hr.1 hr.2

/-- What ends with a block is read as it is written. -/
private theorem recovers_blockLike (he : e.Expressible r) (hlike : e.isBlockLike = true) (h : Standing ts j e.symbols n)
    (hu : ts[n]? = some u) (hends : u.kind.endsExpr = true) : Recovers ts j n (SameExpr e) (primary g b) := by
  cases he with
  | @block _ span stmts tail hstmts htail =>
    obtain ⟨first, hfirst, hfirstSays, -⟩ := (show Standing ts j (_ :: _) n from h).cons_inv
    refine recovers_peek hfirst ?_
    rw [hfirstSays.kind]
    exact (recovers_block hts hg hj (.block (r := r) hstmts htail) h).bind fun b hb => recovers_pure hb
  | @ifElse _ span cond thenBlock other hcond hthen hbranch hother =>
    obtain ⟨first, hfirst, hfirstSays, h⟩ := (show Standing ts j (_ :: _) n from h).cons_inv
    refine recovers_peek hfirst ?_
    rw [hfirstSays.kind]
    refine recovers_advance hfirst ?_
    obtain ⟨m, h, helse⟩ := h.append_inv
    obtain ⟨l, hcondition, hblock⟩ := h.append_inv
    have hl := hcondition.le
    have hm := hblock.le
    have hn := helse.le
    obtain ⟨brace, hbrace, hbraceSays, -⟩ := (Expr.symbolsBlock_eq _ ▸ hblock).cons_inv
    refine (hg.parens hj hcond hcondition hbrace (by rw [hbraceSays.kind]; rfl)).bind fun cond' hcond' => ?_
    refine (hg.block (by omega) hthen hblock).bind fun thenBlock' hthen' => ?_
    refine (recovers_elseBranch hg (by omega) hbranch hother helse hu hends).bind fun other' hother' => ?_
    exact recovers_spanFrom hts hfirst (by omega) fun _ => recovers_pure (.ifElse (sameInfo _ _) hcond' hthen' hother')
  | @whileLoop _ span cond body hcond hbody =>
    obtain ⟨first, hfirst, hfirstSays, h⟩ := (show Standing ts j (_ :: _) n from h).cons_inv
    refine recovers_peek hfirst ?_
    rw [hfirstSays.kind]
    refine recovers_advance hfirst ?_
    obtain ⟨l, hcondition, hblock⟩ := h.append_inv
    have hl := hcondition.le
    have hn := hblock.le
    obtain ⟨brace, hbrace, hbraceSays, -⟩ := (Expr.symbolsBlock_eq _ ▸ hblock).cons_inv
    refine (hg.parens hj hcond hcondition hbrace (by rw [hbraceSays.kind]; rfl)).bind fun cond' hcond' => ?_
    refine (hg.block (by omega) hbody hblock).bind fun body' hbody' => ?_
    exact recovers_spanFrom hts hfirst (by omega) fun _ => recovers_pure (.whileLoop (sameInfo _ _) hcond' hbody')
  | @endlessLoop _ span body hbody =>
    obtain ⟨first, hfirst, hfirstSays, hblock⟩ := (show Standing ts j (_ :: _) n from h).cons_inv
    refine recovers_peek hfirst ?_
    rw [hfirstSays.kind]
    refine recovers_advance hfirst ?_
    have hn := hblock.le
    refine (hg.block hj hbody hblock).bind fun body' hbody' => ?_
    exact recovers_spanFrom hts hfirst (by omega) fun _ => recovers_pure (.endlessLoop (sameInfo _ _) hbody')
  | _ => cases hlike

end

/-! ### Expressions -/

private theorem recovers_integerLiteral {span : Span} {v : Int32} (hv : 0 ≤ v.toInt)
    (h : Standing ts j [.integer v.toInt.toNat] n) :
    Recovers ts j n (SameExpr (.integer { span } v)) integerLiteral := by
  obtain ⟨t, ht, hsaid, h⟩ := h.cons_inv
  cases h
  cases hsaid with
  | integer _ hn =>
    rw [Int.toNat_of_nonneg hv] at hn
    refine recovers_advance ht ?_
    rw [Literal.int32?_eq_some.mpr hn]
    exact recovers_pure (.integer (sameInfo _ _))

private theorem recovers_floatLiteral {span : Span} {x : Float} (h : Standing ts j [.float span x] n) :
    Recovers ts j n (SameExpr (.float { span } x)) floatLiteral := by
  obtain ⟨t, ht, hsaid, h⟩ := h.cons_inv
  cases h
  cases hsaid with
  | float _ hx =>
    refine recovers_advance ht ?_
    simp only [hx]
    exact recovers_pure (.float (sameInfo _ _))

/-- The smallest integer is written with its sign. -/
private theorem recovers_smallestInteger {span : Span} (hts : TokenStream ts)
    (h : Standing ts j (integerSymbols Int32.minValue) n) (hu : ts[n]? = some u) (hends : u.kind.endsExpr = true) :
    Recovers ts j n (SameExpr (.integer { span } Int32.minValue)) (unary g b) := by
  obtain ⟨sign, hsign, hsignSays, h⟩ := (show Standing ts j (_ :: _) n from h).cons_inv
  obtain ⟨number, hnumber, hnumberSays, h⟩ := h.cons_inv
  cases h
  have hvalue : Literal.integer? number.text.toList = some (integerLimit : Int) := by
    generalize integerLimit = m at hnumberSays ⊢
    cases hnumberSays with
    | integer _ hn => exact hn
  have hdot : u.kind ≠ .dot := TokenKind.ne_of_endsExpr hends rfl
  have hparen : u.kind ≠ .leftParen := TokenKind.ne_of_endsExpr hends rfl
  have hread :
      Recovers ts j (j + 1 + 1) (Option.Rel SameExpr (some (.integer { span } Int32.minValue))) smallestInteger? := by
    refine recovers_peek hsign (recovers_peekAt 1 hnumber ?_)
    rw [if_neg (by simp [hnumberSays.kind, Symbol.kind])]
    refine recovers_peekAt 2 hu ?_
    rw [if_neg (by simp [hdot, hparen]), if_neg (by simp [hvalue])]
    refine recovers_advance hsign (recovers_advance hnumber ?_)
    exact recovers_spanFrom hts hsign (by omega) fun _ => recovers_pure (.some (.integer (sameInfo _ _)))
  refine recovers_peek hsign ?_
  rw [hsignSays.kind]
  refine hread.bind fun e he => ?_
  cases he with
  | some he => exact recovers_pure he

section

variable (hts : TokenStream ts) (hg : g.Recovers ts k) (hj : k ≤ j + 1)

include hg hj

private theorem recovers_member {base : Expr} {name : String} {span nameSpan : Span} (hbase : base.Expressible .operand)
    (h : Standing ts j (Symbol.parens base.symbols ++ [.mark .dot, .name name]) n) (hu : ts[n]? = some u)
    (hends : u.kind.endsExpr = true) :
    Recovers ts j n (SameExpr (.member { span } base name nameSpan 0)) (unary g b) := by
  obtain ⟨m, hinner, h⟩ := h.append_inv
  obtain ⟨dot, hdot, hdotSays, h⟩ := h.cons_inv
  obtain ⟨t, ht, hsaid, h⟩ := h.cons_inv
  cases h
  obtain ⟨l, left, right, hleft, hleftKind, -⟩ := hinner.parens_inv
  have hm := (List.getElem?_eq_some_iff.mp ht).1
  refine recovers_unary hleft (by simp [hleftKind]) (recovers_peek hleft ?_)
  refine (recovers_parens hg hj hbase hinner).bind fun base' hbase' => recovers_tokensLeft ?_
  obtain ⟨bound, hbound⟩ : ∃ c, ts.length - m = c + 1 := ⟨ts.length - m - 1, by omega⟩
  rw [hbound, accesses]
  refine recovers_accept hdot hdotSays.kind (recovers_expect ht hsaid.kind ?_)
  refine recovers_accesses bound hu (TokenKind.ne_of_endsExpr hends rfl) (TokenKind.ne_of_endsExpr hends rfl) ?_
  rw [hsaid.text]
  exact .member (sameInfo _ _) hbase' trivial

private theorem recovers_assignment {target source : Expr} {span : Span} (htarget : target.Expressible .operand)
    (hsource : source.Expressible .operand)
    (h : Standing ts j (Symbol.parens target.symbols ++ .mark .assign :: Symbol.parens source.symbols) n)
    (hu : ts[n]? = some u) (hends : u.kind.endsExpr = true) :
    Recovers ts j n (SameExpr (.assignment { span } target source)) (expr g b) := by
  obtain ⟨m, hleft, h⟩ := h.append_inv
  obtain ⟨equal, hequal, hequalSays, hright⟩ := h.cons_inv
  have hm := hleft.le
  have hbinary : Recovers ts j m (SameExpr target) (binary g b) := by
    refine (recovers_operand hg hj htarget hleft hequal (by rw [hequalSays.kind]; simp [Symbol.kind, Symbol.mark])
      (by rw [hequalSays.kind]; simp [Symbol.kind, Symbol.mark])).bind fun target' htarget' => recovers_tokensLeft ?_
    refine (recovers_operands _ hequal (by rw [hequalSays.kind]; rfl)).bind ?_
    rintro _ rfl
    exact recovers_pure htarget'
  refine hbinary.bind fun target' htarget' => recovers_accept hequal hequalSays.kind ?_
  exact (hg.parens (by omega) hsource hright hu hends).bind fun source' hsource' =>
    recovers_pure (.assignment (sameInfo _ _) htarget' hsource')

private theorem recovers_binary {op : BinaryOp} {lhs rhs : Expr} {span : Span} (hlhs : lhs.Expressible .operand)
    (hrhs : rhs.Expressible .operand)
    (h : Standing ts j (Symbol.parens lhs.symbols ++ .mark op.token :: Symbol.parens rhs.symbols) n)
    (hu : ts[n]? = some u) (hends : u.kind.endsExpr = true) :
    Recovers ts j n (SameExpr (.binary { span } op lhs rhs)) (binary g b) := by
  obtain ⟨m, hleft, h⟩ := h.append_inv
  obtain ⟨sign, hsign, hsignSays, hright⟩ := h.cons_inv
  have hm := hleft.le
  have hm' := (List.getElem?_eq_some_iff.mp hsign).1
  have htoken : BinaryOp.ofToken? sign.kind = some op ∧ sign.kind ≠ .dot ∧ sign.kind ≠ .leftParen := by
    rw [hsignSays.kind]
    cases op <;> exact ⟨rfl, by decide, by decide⟩
  refine (recovers_operand hg hj hlhs hleft hsign htoken.2.1 htoken.2.2).bind fun lhs' hlhs' => recovers_tokensLeft ?_
  obtain ⟨bound, hbound⟩ : ∃ c, ts.length - m = c + 1 := ⟨ts.length - m - 1, by omega⟩
  have hrest : Recovers ts m n (fun rest => ∃ rhs', SameExpr rhs rhs' ∧ rest = [(op, rhs')])
      (operands g b (ts.length - m + 1)) := by
    rw [hbound, operands]
    refine recovers_peek hsign ?_
    rw [htoken.1]
    refine recovers_advance hsign ?_
    refine (recovers_operand hg (by omega) hrhs hright hu (TokenKind.ne_of_endsExpr hends rfl)
      (TokenKind.ne_of_endsExpr hends rfl)).bind fun rhs' hrhs' => ?_
    refine (recovers_operands bound hu (TokenKind.ofToken?_of_endsExpr hends)).bind ?_
    rintro _ rfl
    exact recovers_pure ⟨rhs', hrhs', rfl⟩
  refine hrest.bind ?_
  rintro _ ⟨rhs', hrhs', rfl⟩
  have hjoined : Expr.ofOperands lhs' [(op, rhs')] = Expr.operation lhs' op rhs' := by cases op <;> rfl
  rw [hjoined]
  exact recovers_pure (.binary (sameInfo _ _) hlhs' hrhs')

include hts

private theorem recovers_call {callee : Expr} {args : List Expr} {span : Span} (hcallee : callee.Expressible .operand)
    (hargs : ∀ e ∈ args, e.Expressible .operand)
    (h : Standing ts j (Symbol.parens callee.symbols ++ Symbol.parens (Symbol.listed true (Expr.symbolsAll args))) n)
    (hu : ts[n]? = some u) (hends : u.kind.endsExpr = true) :
    Recovers ts j n (SameExpr (.call { span } callee args)) (unary g b) := by
  obtain ⟨m, hinner, h⟩ := h.append_inv
  obtain ⟨l, left, right, hleft, hleftKind, hcalleeLe, -, -, rfl⟩ := hinner.parens_inv
  obtain ⟨m, paren, -, hparen, hparenKind, hlist, -, -, rfl⟩ := h.parens_inv
  have hl := hcalleeLe.le
  have hm := hlist.le
  have hlt := (List.getElem?_eq_some_iff.mp hu).1
  refine recovers_unary hleft (by simp [hleftKind]) (recovers_peek hleft ?_)
  refine (recovers_parens hg hj hcallee hinner).bind fun callee' hcallee' => recovers_tokensLeft ?_
  obtain ⟨bound, hbound⟩ : ∃ c, ts.length - (l + 1) = c + 1 := ⟨ts.length - (l + 1) - 1, by omega⟩
  rw [hbound, accesses]
  refine recovers_decline hparen (by rw [hparenKind]; decide) (recovers_follows hparen ?_)
  rw [decide_eq_true hparenKind]
  refine (recovers_arguments hg (by omega) hargs h).bind fun args' hargs' => ?_
  refine recovers_spanFrom hts hleft (by omega) fun span' => ?_
  refine recovers_accesses bound hu (TokenKind.ne_of_endsExpr hends rfl) (TokenKind.ne_of_endsExpr hends rfl) ?_
  exact .call (sameInfo _ _) hcallee' hargs'

private theorem recovers_builtinCall {name : String} {args : List Expr} {span : Span}
    (hargs : ∀ e ∈ args, e.Expressible .operand)
    (h : Standing ts j (.mark .at :: .name name :: Symbol.parens (Symbol.listed true (Expr.symbolsAll args))) n) :
    Recovers ts j n (SameExpr (.builtinCall { span } name args)) (builtinCall g) := by
  obtain ⟨mark, hmark, hmarkSays, h⟩ := h.cons_inv
  obtain ⟨t, ht, hsaid, h⟩ := h.cons_inv
  have hn := h.le
  refine recovers_advance hmark (recovers_expect ht hsaid.kind ?_)
  refine (recovers_arguments hg (by omega) hargs h).bind fun args' hargs' => ?_
  refine recovers_spanFrom hts hmark (by omega) fun span' => recovers_pure ?_
  rw [hsaid.text]
  exact .builtinCall (sameInfo _ _) hargs'

private theorem recovers_structLiteral {name : String} {fields : List (FieldInit Expr)} {span : Span}
    (hvalues : ∀ f ∈ fields, f.value.Expressible .operand)
    (h : Standing ts j (Expr.structLiteral { span } name fields).symbols n) :
    Recovers ts j n (SameExpr (.structLiteral { span } name fields)) (named g false) := by
  obtain ⟨t, ht, hsaid, h⟩ := (show Standing ts j (_ :: _) n from h).cons_inv
  obtain ⟨brace, hbrace, hbraceSays, h⟩ := h.cons_inv
  obtain ⟨m, hlist, h⟩ := h.append_inv
  obtain ⟨right, hright, hrightSays, h⟩ := h.cons_inv
  cases h
  have hm := hlist.le
  refine recovers_advance ht (recovers_follows hbrace ?_)
  rw [decide_eq_true (show brace.kind = .leftBrace from hbraceSays.kind)]
  refine recovers_advance hbrace ?_
  refine (recovers_fields hg (by omega) hvalues hlist hright hrightSays.kind).bind fun fields' hfields' => ?_
  refine recovers_spanFrom hts ht (by omega) fun span' => recovers_pure ?_
  rw [hsaid.text]
  exact .structLiteral (sameInfo _ _) hfields'

private theorem recovers_unaryOperation {op : UnaryOp} {operand : Expr} {span : Span}
    (hoperand : operand.Expressible .operand)
    (h : Standing ts j (.mark op.token :: Symbol.parens operand.symbols) n) (hu : ts[n]? = some u)
    (hends : u.kind.endsExpr = true) : Recovers ts j n (SameExpr (.unary { span } op operand)) (unary g b) := by
  obtain ⟨sign, hsign, hsignSays, h⟩ := h.cons_inv
  obtain ⟨-, left, -, hleft, hleftKind, -⟩ := h.parens_inv
  have hn := h.le
  have hoperation : Recovers ts j n (SameExpr (.unary { span } op operand)) (unaryOperation g b op) := by
    refine recovers_advance hsign ((hg.unary hj hoperand h hu hends).bind fun operand' hoperand' => ?_)
    exact recovers_spanFrom hts hsign (by omega) fun _ => recovers_pure (.unary (sameInfo _ _) hoperand')
  refine recovers_peek hsign ?_
  rw [hsignSays.kind]
  cases op with
  | negate =>
    -- a parenthesis behind the sign: this is not the smallest integer
    have hnone : Recovers ts j j (· = none) smallestInteger? := by
      refine recovers_peek hsign (recovers_peekAt 1 hleft ?_)
      rw [if_pos (by simp [hleftKind])]
      exact recovers_pure rfl
    refine hnone.bind ?_
    rintro _ rfl
    exact hoperation
  | invert => exact hoperation
  | address => exact hoperation

omit hg hj in
private theorem recovers_leaveFunction {span : Span} (h : Standing ts j [.keyword .returnWord] n) (hu : ts[n]? = some u)
    (hkind : u.kind = .semicolon ∨ u.kind = .rightBrace) :
    Recovers ts j n (SameExpr (.leaveFunction { span } none)) (leaveFunction g) := by
  obtain ⟨t, ht, hsaid, h⟩ := h.cons_inv
  cases h
  have hreturned : Recovers ts (j + 1) (j + 1) (· = none) (returned g) := by
    refine recovers_peek hu ?_
    rw [if_pos (by simpa using hkind)]
    exact recovers_pure rfl
  refine recovers_advance ht (hreturned.bind ?_)
  rintro _ rfl
  exact recovers_spanFrom hts ht (by omega) fun _ => recovers_pure (.leaveFunction (sameInfo _ _) .none)

private theorem recovers_leaveWith {span : Span} {result : Expr} (hresult : result.Expressible .operand)
    (h : Standing ts j (.keyword .returnWord :: Symbol.parens result.symbols) n) (hu : ts[n]? = some u)
    (hends : u.kind.endsExpr = true) :
    Recovers ts j n (SameExpr (.leaveFunction { span } (some result))) (leaveFunction g) := by
  obtain ⟨t, ht, hsaid, h⟩ := h.cons_inv
  obtain ⟨-, left, -, hleft, hleftKind, -⟩ := h.parens_inv
  have hn := h.le
  have hreturned : Recovers ts (j + 1) n (Option.Rel SameExpr (some result)) (returned g) := by
    refine recovers_peek hleft ?_
    rw [if_neg (by simp [hleftKind])]
    exact (hg.parens hj hresult h hu hends).bind fun result' hresult' => recovers_pure (.some hresult')
  refine recovers_advance ht (hreturned.bind fun result' hresult' => ?_)
  exact recovers_spanFrom hts ht (by omega) fun _ => recovers_pure (.leaveFunction (sameInfo _ _) hresult')

/-- An expression is read as it is written, up to the token that closes it. -/
private theorem recovers_value (he : e.Expressible r) (hvalue : e.isValue = true) (h : Standing ts j e.symbols n)
    (hu : ts[n]? = some u) (hkind : u.kind = r.closing) : Recovers ts j n (SameExpr e) (expr g false) := by
  have hends : u.kind.endsExpr = true := hkind ▸ r.endsExpr_closing
  have hprimary {t : Token} (ht : ts[j]? = some t) (hsign : t.kind ∉ [TokenKind.minus, .bang, .ampersand])
      (h : Recovers ts j n (SameExpr e) (primary g false)) : Recovers ts j n (SameExpr e) (expr g false) :=
    recovers_expr_of_primary ht hsign h hu hends
  have hlike (hlike : e.isBlockLike = true) {x : Symbol} {xs : List Symbol} (hsymbols : e.symbols = x :: xs)
      (hx : x.kind ∉ [TokenKind.minus, .bang, .ampersand]) : Recovers ts j n (SameExpr e) (expr g false) := by
    obtain ⟨t, ht, hsaid, -⟩ := (hsymbols ▸ h).cons_inv
    exact hprimary ht (hsaid.kind ▸ hx) (recovers_blockLike hts hg hj he hlike h hu hends)
  cases he with
  | @integer _ span v hv =>
    by_cases hsmallest : v = Int32.minValue
    · subst hsmallest
      exact recovers_expr (recovers_smallestInteger hts h hu hends) hu hends
    · rw [Expr.symbols, integerSymbols, if_neg hsmallest] at h
      obtain ⟨t, ht, hsaid, -⟩ := h.cons_inv
      refine hprimary ht (by simp [hsaid.kind, Symbol.kind]) (recovers_peek ht ?_)
      rw [hsaid.kind]
      exact recovers_integerLiteral (hv.resolve_right hsmallest) h
  | float =>
    rw [Expr.symbols] at h
    obtain ⟨t, ht, hsaid, -⟩ := h.cons_inv
    refine hprimary ht (by simp [hsaid.kind, Symbol.kind]) (recovers_peek ht ?_)
    rw [hsaid.kind]
    exact recovers_floatLiteral h
  | @boolean _ _ value =>
    rw [Expr.symbols] at h
    obtain ⟨t, ht, hsaid, h⟩ := h.cons_inv
    cases h
    cases value with
    | false =>
      refine hprimary ht (by simp [hsaid.kind, Symbol.kind, Symbol.keyword]) (recovers_peek ht ?_)
      rw [hsaid.kind]
      exact recovers_advance ht (recovers_pure (.boolean (sameInfo _ _)))
    | true =>
      refine hprimary ht (by simp [hsaid.kind, Symbol.kind, Symbol.keyword]) (recovers_peek ht ?_)
      rw [hsaid.kind]
      exact recovers_advance ht (recovers_pure (.boolean (sameInfo _ _)))
  | identifier =>
    rw [Expr.symbols] at h
    obtain ⟨t, ht, hsaid, h⟩ := h.cons_inv
    cases h
    refine hprimary ht (by simp [hsaid.kind, Symbol.kind, Symbol.name]) (recovers_peek ht ?_)
    rw [hsaid.kind]
    refine recovers_advance ht (recovers_follows hu ?_)
    rw [decide_eq_false (by rw [hkind]; exact r.closing_ne_leftBrace)]
    rw [hsaid.text]
    exact recovers_pure (.identifier (sameInfo _ _) .none)
  | member hbase => exact recovers_expr (recovers_member hg hj hbase h hu hends) hu hends
  | call hcallee hargs => exact recovers_expr (recovers_call hts hg hj hcallee hargs h hu hends) hu hends
  | builtinCall _ hargs =>
    obtain ⟨t, ht, hsaid, -⟩ := (show Standing ts j (_ :: _) n from h).cons_inv
    refine hprimary ht (by simp [hsaid.kind, Symbol.kind, Symbol.mark]) (recovers_peek ht ?_)
    rw [hsaid.kind]
    exact recovers_builtinCall hts hg hj hargs h
  | unary hoperand => exact recovers_expr (recovers_unaryOperation hts hg hj hoperand h hu hends) hu hends
  | binary hlhs hrhs =>
    exact (recovers_binary hg hj hlhs hrhs h hu hends).bind fun e' he' =>
      recovers_decline hu (TokenKind.ne_of_endsExpr hends rfl) (recovers_pure he')
  | assignment htarget hsource => exact recovers_assignment hg hj htarget hsource h hu hends
  | structLiteral _ _ hvalues =>
    obtain ⟨t, ht, hsaid, -⟩ := (show Standing ts j (_ :: _) n from h).cons_inv
    refine hprimary ht (by simp [hsaid.kind, Symbol.kind, Symbol.name]) (recovers_peek ht ?_)
    rw [hsaid.kind]
    exact recovers_structLiteral hts hg hj hvalues h
  | letBinding => cases hvalue
  | function => cases hvalue
  | block => exact hlike rfl rfl (by simp [Symbol.kind, Symbol.mark])
  | ifElse => exact hlike rfl rfl (by simp [Symbol.kind, Symbol.keyword])
  | whileLoop => exact hlike rfl rfl (by simp [Symbol.kind, Symbol.keyword])
  | endlessLoop => exact hlike rfl rfl (by simp [Symbol.kind, Symbol.keyword])
  | leaveLoop =>
    obtain ⟨t, ht, hsaid, h⟩ := (show Standing ts j [_] n from h).cons_inv
    cases h
    refine hprimary ht (by simp [hsaid.kind, Symbol.kind, Symbol.keyword]) (recovers_peek ht ?_)
    rw [hsaid.kind]
    exact recovers_advance ht (recovers_pure (.leaveLoop (sameInfo _ _)))
  | nextRound =>
    obtain ⟨t, ht, hsaid, h⟩ := (show Standing ts j [_] n from h).cons_inv
    cases h
    refine hprimary ht (by simp [hsaid.kind, Symbol.kind, Symbol.keyword]) (recovers_peek ht ?_)
    rw [hsaid.kind]
    exact recovers_advance ht (recovers_pure (.nextRound (sameInfo _ _)))
  | leaveFunction hr =>
    obtain ⟨t, ht, hsaid, -⟩ := (show Standing ts j (_ :: _) n from h).cons_inv
    refine hprimary ht (by simp [hsaid.kind, Symbol.kind, Symbol.keyword]) (recovers_peek ht ?_)
    rw [hsaid.kind]
    refine recovers_leaveFunction hts h hu ?_
    cases r with
    | operand => exact absurd rfl hr
    | tail => exact .inr hkind
    | statement => exact .inl hkind
  | leaveWith hresult =>
    obtain ⟨t, ht, hsaid, -⟩ := (show Standing ts j (_ :: _) n from h).cons_inv
    refine hprimary ht (by simp [hsaid.kind, Symbol.kind, Symbol.keyword]) (recovers_peek ht ?_)
    rw [hsaid.kind]
    exact recovers_leaveWith hts hg hj hresult h hu hends

end

private theorem grammar_recovers (hts : TokenStream ts) (depth : Nat) (hdepth : ts.length ≤ k + depth) :
    (grammar depth).Recovers ts k := by
  induction depth generalizing k with
  | zero =>
    have absurd {j n : Nat} {t : Token} {xs : List Symbol} (hj : k ≤ j) (h : Standing ts j xs n)
        (ht : ts[n]? = some t) :
        False := by
      have hn := (List.getElem?_eq_some_iff.mp ht).1
      have hle := h.le
      omega
    refine ⟨fun hj _ _ h ht _ => (absurd hj h ht).elim, fun hj _ h ht _ => (absurd hj h ht).elim,
      fun hj _ h ht _ => (absurd hj h ht).elim, fun hj _ _ h ht _ => (absurd hj h ht).elim, fun {r b j n} hj _ h => ?_⟩
    obtain ⟨t, ht, -, -⟩ := (Expr.symbolsBlock_eq b ▸ h).cons_inv
    exact (absurd hj (.nil j) ht).elim
  | succ depth ih =>
    have hg : (grammar depth).Recovers ts (k + 1) := ih (by omega)
    exact {
      expr := fun hj he hvalue h ht hkind => recovers_value hts hg (by omega) he hvalue h ht hkind
      parens := fun {_ e j n t} hj he h ht hends => by
        obtain ⟨-, left, -, hleft, hleftKind, -⟩ := h.parens_inv
        exact recovers_expr_of_primary hleft (by simp [hleftKind]) (recovers_parens hg (by omega) he h) ht hends
      unary := fun hj he h ht hends => recovers_operand hg (by omega) he h ht (TokenKind.ne_of_endsExpr hends rfl)
        (TokenKind.ne_of_endsExpr hends rfl)
      primary := fun hj he hlike h ht hends => recovers_blockLike hts hg (by omega) he hlike h ht hends
      block := fun hj hb h => recovers_block hts hg (by omega) hb h }

/-! ### Modules -/

/-- A declaration that may be exported, from its first word on. -/
private theorem recovers_export {β : Type} {R : β → Prop} {f : Bool → Parser β} {exported : Bool} {word : Keyword}
    {xs : List Symbol} (hword : word ≠ .exportWord)
    (h : Standing ts j (exportSymbols exported ++ .keyword word :: xs) n)
    (hf : ∀ l, Standing ts l (.keyword word :: xs) n → Recovers ts l n R (f exported)) :
    Recovers ts j n R (accept (.keyword .exportWord) >>= f) := by
  cases exported with
  | false =>
    obtain ⟨t, ht, hsaid, -⟩ := (show Standing ts j (_ :: _) n from h).cons_inv
    exact recovers_decline ht (by rw [hsaid.kind]; simpa [Symbol.kind, Symbol.keyword] using hword) (hf j h)
  | true =>
    obtain ⟨t, ht, hsaid, h⟩ := (show Standing ts j (_ :: _) n from h).cons_inv
    exact recovers_accept ht hsaid.kind (hf (j + 1) h)

/-- No declaration begins with the end of the input. -/
private theorem exists_symbol_decl (d : Decl) : ∃ x xs, d.symbols = x :: xs ∧ x.kind ≠ .endOfInput := by
  cases d with
  | struct d =>
    obtain ⟨name, span, exported, fields⟩ := d
    cases exported <;> exact ⟨_, _, rfl, by simp [Symbol.kind, Symbol.keyword]⟩
  | function f =>
    obtain ⟨info, ⟨name, span, exported, params, returns⟩, body⟩ := f
    cases exported <;> exact ⟨_, _, rfl, by simp [Symbol.kind, Symbol.keyword]⟩

section

variable (hts : TokenStream ts)

include hts

private theorem recovers_fieldDecl {f : FieldDecl} (h : Standing ts j f.symbols n) (hu : ts[n]? = some u)
    (hkind : u.kind = .comma ∨ u.kind = .rightBrace) :
    Recovers ts j n (FieldDecl.Matches (fun _ _ => True) f) fieldDecl := by
  obtain ⟨t, ht, hsaid, h⟩ := (show Standing ts j (_ :: _) n from h).cons_inv
  obtain ⟨colon, hcolon, hcolonSays, h⟩ := h.cons_inv
  have harrow : u.kind ≠ .arrow := by rcases hkind with hkind | hkind <;> rw [hkind] <;> decide
  refine recovers_expect ht hsaid.kind (recovers_expect hcolon hcolonSays.kind ?_)
  exact (recovers_type hts _ h hu harrow).bind fun type' htype => recovers_pure ⟨hsaid.text, trivial, htype⟩

private theorem recovers_structDecl {d : StructDecl}
    (h : Standing ts j (.keyword .structWord :: .name d.name :: .mark .leftBrace ::
    (Symbol.listed true (d.fields.map FieldDecl.symbols) ++ [.mark .rightBrace])) n) :
    Recovers ts j n (StructDecl.Matches (fun _ _ => True) d) (structDecl d.exported) := by
  obtain ⟨word, hword, hwordSays, h⟩ := h.cons_inv
  obtain ⟨t, ht, hsaid, h⟩ := h.cons_inv
  obtain ⟨brace, hbrace, hbraceSays, h⟩ := h.cons_inv
  obtain ⟨m, hlist, h⟩ := h.append_inv
  obtain ⟨right, hright, hrightSays, h⟩ := h.cons_inv
  cases h
  refine recovers_expect hword hwordSays.kind
    (recovers_expect ht hsaid.kind (recovers_expect hbrace hbraceSays.kind ?_))
  refine (recovers_separated (by decide) (fun f _ => ⟨_, _, rfl, by simp [Symbol.kind, Symbol.name]⟩)
    (fun f _ j' l v _ hstanding hv hvkind => recovers_fieldDecl hts hstanding hv hvkind) hlist hright
    hrightSays.kind).bind fun fields' hfields' => ?_
  exact recovers_pure ⟨hsaid.text, trivial, rfl, hfields'⟩

private theorem recovers_functionDecl {span : Span} {header : Header} {body : Block Expr} (hheader : header.Expressible)
    (hbody : (Expr.block body).Expressible r) (h : Standing ts j (header.symbols ++ Expr.symbolsBlock body) n) :
    Recovers ts j n (FunctionDecl.Matches anywhere ⟨{ span }, header, body⟩) (functionDecl header.exported) := by
  obtain ⟨m, hhead, hblock⟩ := h.append_inv
  obtain ⟨brace, hbrace, hbraceSays, -⟩ := (Expr.symbolsBlock_eq body ▸ hblock).cons_inv
  refine (recovers_header hts hheader rfl hhead hbrace hbraceSays.kind).bind fun header' hheader' => ?_
  refine recovers_tokensLeft ?_
  exact ((grammar_recovers hts _ (by omega)).block (Nat.le_refl m) hbody hblock).bind fun body' hbody' =>
    recovers_pure ⟨sameInfo _ _, hheader', hbody'⟩

private theorem recovers_decl {d : Decl} (hd : d.Expressible) (h : Standing ts j d.symbols n) :
    Recovers ts j n (SameDecl d) decl := by
  cases hd with
  | @struct d _ =>
    rw [Decl.symbols, List.append_assoc] at h
    refine recovers_export (by decide) h fun l h => ?_
    obtain ⟨word, hword, hwordSays, -⟩ := h.cons_inv
    refine recovers_peek hword ?_
    rw [hwordSays.kind]
    exact (recovers_structDecl hts h).bind fun d' hd' => recovers_pure (.struct hd')
  | @function span header body hheader hbody =>
    rw [Decl.symbols, List.append_assoc] at h
    refine recovers_export (by decide) h fun l h => ?_
    obtain ⟨word, hword, hwordSays, -⟩ := h.cons_inv
    refine recovers_peek hword ?_
    rw [hwordSays.kind]
    exact (recovers_functionDecl hts hheader hbody h).bind fun f' hf' => recovers_pure (.function hf')

private theorem recovers_decls {ds : List Decl} (bound : Nat) (hds : ∀ d ∈ ds, d.Expressible)
    (hbound : ts.length < j + bound)
    (h : Standing ts j (ds.flatMap Decl.symbols) n) (hu : ts[n]? = some u) (hkind : u.kind = .endOfInput) :
    Recovers ts j n (List.Forall₂ SameDecl ds) (decls bound) := by
  have hn := (List.getElem?_eq_some_iff.mp hu).1
  induction ds generalizing j bound with
  | nil =>
    cases h
    obtain ⟨bound, rfl⟩ : ∃ c, bound = c + 1 := ⟨bound - 1, by omega⟩
    rw [decls]
    refine recovers_follows hu ?_
    rw [decide_eq_true hkind]
    exact recovers_pure .nil
  | cons d ds ih =>
    rw [List.flatMap_cons] at h
    obtain ⟨m, hd, h⟩ := h.append_inv
    obtain ⟨x, xs, hsymbols, hx⟩ := exists_symbol_decl d
    obtain ⟨t, ht, hsaid, hstep⟩ := (hsymbols ▸ hd).cons_inv
    have hjm := hstep.le
    have hmn := h.le
    obtain ⟨bound, rfl⟩ : ∃ c, bound = c + 1 := ⟨bound - 1, by omega⟩
    rw [decls]
    refine recovers_follows ht ?_
    rw [decide_eq_false (by rw [hsaid.kind]; exact hx)]
    refine (recovers_decl hts (hds d (by simp)) hd).bind fun d' hd' => ?_
    exact (ih bound (fun d hd => hds d (by simp [hd])) (by omega) h).bind fun ds' hds' => recovers_pure (.cons hd' hds')

end

end Parser

/-! ### Files -/

/-- Declarations that are written out in tokens are read from them. -/
private theorem Decl.ofTokens_of_says {ts : List Token} (hts : TokenStream ts) {ds : List Decl}
    (hds : ∀ d ∈ ds, d.Expressible)
    (h : List.Forall₂ Symbol.Says (ds.flatMap Decl.symbols ++ [.word ⟨.endOfInput, ""⟩]) ts) :
    ∃ ds', Decl.ofTokens ts = .ok ds' ∧ List.Forall₂ SameDecl ds ds' := by
  have hstanding : Standing ts 0 (ds.flatMap Decl.symbols ++ [.word ⟨.endOfInput, ""⟩]) (0 + _) := Standing.of_says h
  obtain ⟨n, hstanding, hlast⟩ := hstanding.append_inv
  obtain ⟨last, hlast, hlastSays, -⟩ := hlast.cons_inv
  have hinput : Input.At ts 0 { tokens := ts } := ⟨rfl, fun h => absurd h (by omega)⟩
  obtain ⟨ds', i, hrun, -, hsame⟩ := Parser.recovers_decls hts (ts.length + 1) hds (by omega) hstanding hlast
    hlastSays.kind _ hinput
  refine ⟨ds', ?_, hsame⟩
  rw [Decl.ofTokens, StateT.run'_eq, hrun]
  rfl

/--
Reading undoes writing.  Declarations that the grammar can express can be written, with every operand in parentheses and
a semicolon behind every statement that is no function; and whatever writes them is read as the same declarations.
-/
theorem SourceFile.declarations_of_writes {ds : List Decl} (hds : ∀ d ∈ ds, d.Expressible) :
    (∃ contents, Writes (ds.flatMap Decl.symbols) contents) ∧
      ∀ name contents, Writes (ds.flatMap Decl.symbols) contents →
        ∃ ds', (⟨name, contents⟩ : SourceFile).declarations = .ok ds' ∧ List.Forall₂ SameDecl ds ds' := by
  have hwritable : Writable (ds.flatMap Decl.symbols) := by
    intro x hx
    obtain ⟨d, hd, hx⟩ := List.mem_flatMap.mp hx
    exact (hds d hd).writable x hx
  refine ⟨exists_writes hwritable, fun name contents h => ?_⟩
  obtain ⟨ts, htokens, hsaid⟩ := h.tokens name
  have hstream : TokenStream ts := by
    rcases SourceFile.tokens_cases ⟨name, contents⟩ with ⟨ts', hts', hstream⟩ | ⟨d, hd⟩
    · rw [htokens] at hts'
      cases hts'
      exact hstream
    · rw [htokens] at hd
      cases hd
  obtain ⟨ds', hds', hsame⟩ := Decl.ofTokens_of_says hstream hds hsaid
  exact ⟨ds', by rw [SourceFile.declarations, htokens, ok_bind, hds'], hsame⟩

/--
The declaration
`fn f(mut x: &i32) -> fn() { let y: f64 = (1.5); fn g() { } if (x) { return; } else if (true) { } else { };
S { a: (-2147483648) } }`, at no place in particular.
-/
def nestedDecl : Decl :=
  let here : Info := { span := default }
  let ending : Block Expr := ⟨here, none, [.leaveFunction here none], none⟩
  let empty : Block Expr := ⟨here, none, [], none⟩
  let y : Variable := { name := "y", kind := .bound, mutable := false, span := default }
  .function ⟨here,
    ⟨"f", default, false, [⟨{ name := "x", kind := .argument, mutable := true, span := default },
      .reference default (.named default "i32")⟩], some (.function default [] none)⟩,
    ⟨here, none,
      [.letBinding here (.owned y) (some (.named default "f64")) (.float here 1.5),
        .function here ⟨"g", default, false, [], none⟩ empty,
        .ifElse here (.identifier here "x" none) ending
          (some (.ifElse here (.boolean here true) empty (some (.block empty))))],
      some (.structLiteral here "S" [⟨"a", default, .integer here Int32.minValue⟩])⟩⟩

/-- A function with a binding, a nested function, a chain of conditions and the smallest integer in a struct literal. -/
theorem SourceFile.declarations_of_writes_nested : (∀ d ∈ [nestedDecl], d.Expressible) ∧
    (∃ contents, Writes ([nestedDecl].flatMap Decl.symbols) contents) ∧
      ∀ name contents, Writes ([nestedDecl].flatMap Decl.symbols) contents →
        ∃ ds', (⟨name, contents⟩ : SourceFile).declarations = .ok ds' ∧ List.Forall₂ SameDecl [nestedDecl] ds' := by
  have named (name : String) (hname : IsName name) : (TypeExpr.named default name).Named := by
    intro n hn
    rw [TypeExpr.occurrences, List.mem_singleton] at hn
    exact hn ▸ hname
  have href : (TypeExpr.reference default (.named default "i32")).Named := by
    intro n hn
    rw [TypeExpr.occurrences, TypeExpr.occurrences, List.mem_singleton] at hn
    exact hn ▸ ⟨by decide, by decide⟩
  have hfunction : (TypeExpr.function default [] none).Named := by
    intro n hn
    cases hn
  have hempty {r : Role} : Expr.Expressible r (.block ⟨{ span := default }, none, [], none⟩) :=
    .block (by simp) (by simp)
  have hending {r : Role} : Expr.Expressible r
      (.block ⟨{ span := default }, none, [.leaveFunction { span := default } none], none⟩) :=
    .block (by simpa using .leaveFunction (by decide)) (by simp)
  have hfloat : IsFloat "1.5".toList 1.5 := ⟨by decide +kernel, by decide, by decide +kernel⟩
  have hheader : Header.Expressible ⟨"g", default, false, [], none⟩ :=
    ⟨⟨by decide, by decide⟩, by simp, by simp⟩
  have hx : IsName "x" := ⟨by decide, by decide⟩
  have hdecl : ∀ d ∈ [nestedDecl], d.Expressible := by
    refine List.forall_mem_singleton.mpr (.function ⟨⟨by decide, by decide⟩, ?_, ?_⟩ (.block ?_ ?_))
    · exact List.forall_mem_singleton.mpr ⟨⟨rfl, rfl⟩, hx, href⟩
    · simpa using hfunction
    · refine List.forall_mem_cons.mpr ⟨.letBinding ⟨by decide, by decide⟩ ?_ (.float hfloat), ?_⟩
      · simpa using named "f64" ⟨by decide, by decide⟩
      refine List.forall_mem_cons.mpr ⟨.function hheader rfl hempty, List.forall_mem_singleton.mpr ?_⟩
      refine .ifElse (.identifier hx) hending (by simp [Expr.isBranch]) ?_
      simpa using .ifElse .boolean hempty (by simp [Expr.isBranch]) (by simpa using hempty)
    · have ha : IsName "a" := ⟨by decide, by decide⟩
      simpa using .structLiteral ⟨by decide, by decide⟩ (List.forall_mem_singleton.mpr ha)
        (List.forall_mem_singleton.mpr (.integer (.inr rfl)))
  exact ⟨hdecl, SourceFile.declarations_of_writes hdecl⟩

end RainCheck

import RainCheck.Proofs.Parts

/-!
# The ends of statements

How the statements of a block are told apart.  The tokens of a block are those of its statements one behind the other,
each with the semicolon behind it, if there is one (`Body`).
* A statement without a semicolon is a nested function or an expression that ends with a block, or the last expression.
* Which of these it is depends on the tree, which does not show parentheses.  So an expression in parentheses needs no
  semicolon either, if it is a block, a conditional or a loop (`statements_of_block`).
-/

namespace RainCheck

/-- A statement with its tokens and the semicolon behind it. -/
structure Statement where
  used : List Token
  stmt : Expr
  semicolon : Option Token

/-- The tokens of a statement with its semicolon. -/
def Statement.tokens (s : Statement) : List Token := s.used ++ s.semicolon.toList

/-- Whether a token starts a statement that needs no semicolon: a nested function, a conditional, a loop or a block. -/
def Token.opensBlock (t : Token) : Bool :=
  t.kind = .keyword .fnWord || t.kind = .keyword .ifWord || t.kind = .keyword .whileWord ||
    t.kind = .keyword .loopWord || t.kind = .leftBrace

/-- Tokens of an expression in parentheses. -/
def Parenthesised (used : List Token) (e : Expr) : Prop :=
  ∃ left inner right, used = left :: inner ++ [right] ∧ left.kind = .leftParen ∧ right.kind = .rightParen ∧
    Derives (.expr false e) inner

/-- A statement ends with a semicolon, starts as one that needs none, or is a block, conditional or
loop in parentheses. -/
structure Statement.Ends (s : Statement) : Prop where
  derives : Derives (.statement s.stmt) s.used
  ends : (∃ t, s.semicolon = some t ∧ t.kind = .semicolon) ∨ (∃ t, s.used.head? = some t ∧ t.opensBlock = true) ∨
    s.stmt.isBlockLike = true ∧ Parenthesised s.used s.stmt

/-- The tokens of the statements and of the last expression of a block, up to the closing brace. -/
structure Body (b : Block Expr) (used : List Token) (statements : List Statement) (last : List Token) (close : Token) :
    Prop where
  used : used = statements.flatMap Statement.tokens ++ last ++ [close]
  stmts : statements.map Statement.stmt = b.stmts
  ends : ∀ s ∈ statements, s.Ends
  tail : b.tail = none ∧ last = [] ∨ ∃ e, b.tail = some e ∧ Derives (.statement e) last
  close : close.kind = .rightBrace

variable {used : List Token} {e : Expr}

/-- The expression of a phrase that may stand as a statement. -/
def Phrase.stmt? : Phrase → Option Expr
  | .statement e => some e
  | phrase => phrase.value?

/-- A block, a conditional or a loop starts with its own token, or it stands in parentheses. -/
private theorem Derives.opens {phrase : Phrase} (h : Derives phrase used) (he : phrase.stmt? = some e)
    (hform : e.isBlockLike = true) : (∃ t, used.head? = some t ∧ t.opensBlock = true) ∨ Parenthesised used e := by
  induction h generalizing e with
  | parenthesised hleft he' hright =>
    cases he
    exact .inr ⟨_, _, _, rfl, hleft, hright, he'⟩
  | blockExpr hb =>
    cases hb with
    | block hbrace => exact .inl ⟨_, rfl, by simp [Token.opensBlock, hbrace]⟩
  | ifElse hword | whileLoop hword | endlessLoop hword => exact .inl ⟨_, rfl, by simp [Token.opensBlock, hword]⟩
  | accessed _ ih | operand _ ih | expr _ ih | blockStatement _ ih | exprStatement _ ih =>
    cases he
    exact ih rfl hform
  | @operation noStruct first rest u₁ u₂ _ hrest ih =>
    cases he
    obtain ⟨G, htree, hoperands, hoperators, -⟩ := Expr.exists_grouping first rest
    -- an operation does not end with a block, so there is one operand only
    cases G with
    | operand e =>
      cases rest with
      | nil =>
        cases hrest
        rw [List.append_nil]
        cases hoperands
        rw [htree] at hform ⊢
        exact ih rfl hform
      | cons p rest => cases hoperators
    | operation op lhs rhs =>
      rw [htree] at hform
      cases hform
  | _ => cases he <;> cases hform

/-- A nested function starts with its own word. -/
private theorem Derives.opens_function (h : Derives (.statement e) used) (hform : e.isFunction = true) :
    ∃ t, used.head? = some t ∧ t.opensBlock = true := by
  have hvalue : ∀ {phrase : Phrase}, Derives phrase used → phrase.value? ≠ some e := by
    intro phrase h he
    have := h.isValue he
    simp [Expr.isValue, hform] at this
  cases h with
  | letBinding => cases hform
  | nestedFunction hheader =>
    cases hheader with
    | header hword => exact ⟨_, rfl, by simp [Token.opensBlock, hword]⟩
  | blockStatement he => exact absurd rfl (hvalue he)
  | exprStatement he => exact absurd rfl (hvalue he)

/-- The tokens of a block are split into those of its statements. -/
private theorem Derives.body {stmts : List Expr} {tail : Option Expr} {i : Info} {frame : Option FrameId}
    (h : Derives (.statements stmts tail) used) :
    ∃ statements last close, Body ⟨i, frame, stmts, tail⟩ used statements last close := by
  generalize hphrase : Phrase.statements stmts tail = phrase at h
  induction h generalizing stmts tail with
  | endOfBlock hbrace =>
    cases hphrase
    exact ⟨[], [], _, rfl, rfl, by simp, .inl ⟨rfl, rfl⟩, hbrace⟩
  | lastExpr he hvalue hbrace =>
    cases hphrase
    exact ⟨[], _, _, by simp, rfl, by simp, .inr ⟨_, rfl, he⟩, hbrace⟩
  | @ended e semicolon stmts tail u₁ u₂ he hsemicolon _ _ ih =>
    cases hphrase
    obtain ⟨statements, last, close, hbody⟩ := ih rfl
    have hends : Statement.Ends ⟨u₁, e, some semicolon⟩ := ⟨he, .inl ⟨semicolon, rfl, hsemicolon⟩⟩
    exact ⟨⟨u₁, e, some semicolon⟩ :: statements, last, close,
      by simp [hbody.used, Statement.tokens], by simp [hbody.stmts],
      List.forall_mem_cons.mpr ⟨hends, hbody.ends⟩, hbody.tail, hbody.close⟩
  | @unended e stmts tail u₁ u₂ he hform _ _ ih =>
    cases hphrase
    obtain ⟨statements, last, close, hbody⟩ := ih rfl
    have hends : Statement.Ends ⟨u₁, e, none⟩ := by
      refine ⟨he, .inr ?_⟩
      rcases hform with hfunction | hblock
      · exact .inl (he.opens_function hfunction)
      · exact (he.opens rfl hblock).imp_right fun h => ⟨hblock, h⟩
    exact ⟨⟨u₁, e, none⟩ :: statements, last, close,
      by simp [hbody.used, Statement.tokens], by simp [hbody.stmts],
      List.forall_mem_cons.mpr ⟨hends, hbody.ends⟩, hbody.tail, hbody.close⟩
  | _ => cases hphrase

/--
The tokens of a block are its opening brace, its statements, its last expression and its closing brace.  Every statement
is ended by a semicolon, starts with a token that opens a nested function, a conditional, a loop or a block, or is such
an expression in parentheses.
-/
theorem statements_of_block {tokens : List Token} {decls : List Decl} {d : Decl} {b : Block Expr}
    (htokens : TokenSequence tokens) (hread : Decl.ofTokens tokens = .ok decls) (hd : d ∈ decls)
    (hb : .block b ∈ d.nodes) :
    ∃ before brace used behind statements last close, tokens = before ++ (brace :: used) ++ behind ∧
      brace.kind = .leftBrace ∧ Covers (brace :: used) b.info.span ∧ Body b used statements last close := by
  obtain ⟨before, part, behind, htokens, hpart⟩ := Decl.built_of_tokens htokens hread hd hb rfl
  cases hpart with
  | conditional hcond => cases hcond
  | block hb =>
    cases hb with
    | block hbrace hstmts hspan =>
      obtain ⟨statements, last, close, hbody⟩ := hstmts.body
      exact ⟨before, _, _, behind, statements, last, close, htokens, hbrace, hspan, hbody⟩

/-- The tokens of `fn f() {({}) 1}`. -/
def groupedBlock : List Token :=
  [⟨.keyword .fnWord, .ofLength 0 2, "fn"⟩, ⟨.identifier, .ofLength 3 1, "f"⟩, ⟨.leftParen, .ofLength 4 1, "("⟩,
    ⟨.rightParen, .ofLength 5 1, ")"⟩, ⟨.leftBrace, .ofLength 7 1, .ofList ['{']⟩, ⟨.leftParen, .ofLength 8 1, "("⟩,
    ⟨.leftBrace, .ofLength 9 1, .ofList ['{']⟩, ⟨.rightBrace, .ofLength 10 1, .ofList ['}']⟩,
    ⟨.rightParen, .ofLength 11 1, ")"⟩,
    ⟨.integer, .ofLength 13 1, "1"⟩, ⟨.rightBrace, .ofLength 14 1, .ofList ['}']⟩, ⟨.endOfInput, .ofLength 15 0, ""⟩]

private theorem groupedBlock_stream : TokenStream groupedBlock :=
  ⟨by decide, by decide, groupedBlock.dropLast, _, rfl, rfl, by decide⟩

/-- A statement that starts with a parenthesis and is not the last expression, where no token is a semicolon. -/
theorem statement_grouped : ∃ decls d b stmt last before brace paren behind, TokenStream groupedBlock ∧
    Decl.ofTokens groupedBlock = .ok decls ∧ d ∈ decls ∧ .block b ∈ d.nodes ∧ b.stmts = [stmt] ∧ b.tail = some last ∧
      groupedBlock = before ++ brace :: paren :: behind ∧ b.info.span.start = brace.span.start ∧
      brace.kind = .leftBrace ∧ paren.kind = .leftParen ∧ ∀ t ∈ groupedBlock, t.kind ≠ .semicolon :=
  ⟨_, _, _, _, _, groupedBlock.take 4, _, _, _, groupedBlock_stream, rfl, .head _, .head _, rfl, rfl, rfl, rfl, rfl,
    rfl, by decide⟩

theorem statements_of_block_groupedBlock : ∃ decls d b, TokenSequence groupedBlock ∧
    Decl.ofTokens groupedBlock = .ok decls ∧ d ∈ decls ∧ .block b ∈ d.nodes ∧ b.stmts.length = 1 ∧
    ∃ before brace used behind statements last close, groupedBlock = before ++ (brace :: used) ++ behind ∧
      brace.kind = .leftBrace ∧ Covers (brace :: used) b.info.span ∧ Body b used statements last close := by
  obtain ⟨decls, d, b, hread, hd, hb, hlen⟩ : ∃ decls d b, Decl.ofTokens groupedBlock = .ok decls ∧ d ∈ decls ∧
      .block b ∈ d.nodes ∧ b.stmts.length = 1 := ⟨_, _, _, rfl, .head _, .head _, rfl⟩
  exact ⟨decls, d, b, groupedBlock_stream.sequence, hread, hd, hb, hlen,
    statements_of_block groupedBlock_stream.sequence hread hd hb⟩

end RainCheck

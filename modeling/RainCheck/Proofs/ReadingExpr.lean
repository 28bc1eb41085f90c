import RainCheck.Proofs.Reading

/-!
# Reading expressions and modules

The parsers of expressions, statements and declarations follow the grammar.  `Grammar.Reads` says this about the
parsers for what is nested one level deeper; each parser of a level follows from it (`reads_block`, `reads_expr`, ...),
and `grammar_reads` ties the knot.  At the end, reading whole inputs ends (`Decl.ofTokens_cases`), and reading a file
raises no fault (`SourceFile.declarations_cases`).
-/

namespace RainCheck

namespace Parser

variable {i : Input}

/-! ### Statements -/

/-- The parsers for nested phrases follow the grammar on inputs of at most `size` tokens. -/
structure Grammar.Reads (g : Grammar) (size : Nat) : Prop where
  expr : ∀ noStruct (i : Input), TokenSequence i.tokens → i.tokens.length ≤ size →
    (g.expr noStruct).Reads i fun used e _ => used ≠ [] ∧ Derives (.expr noStruct e) used
  unary : ∀ noStruct (i : Input), TokenSequence i.tokens → i.tokens.length ≤ size →
    (g.unary noStruct).Reads i fun used e _ => used ≠ [] ∧ Derives (.operand noStruct e) used
  primary : ∀ noStruct (i : Input), TokenSequence i.tokens → i.tokens.length ≤ size →
    (g.primary noStruct).Reads i fun used e _ => used ≠ [] ∧ Derives (.primary noStruct e) used
  block : ∀ i : Input, TokenSequence i.tokens → i.tokens.length ≤ size →
    g.block.Reads i fun used b _ => used ≠ [] ∧ Derives (.block b) used

section

variable {g : Grammar} {size : Nat}

private theorem reads_declared (hi : TokenSequence i.tokens) :
    Reads declaredType i fun used declared _ => DerivesDeclared declared used := by
  obtain ⟨t, rest, htokens⟩ := hi.exists_cons
  refine reads_accept hi htokens (by simp) (fun ht => ?_) (fun _ => reads_pure hi .nothing)
  have h₁ := Input.Passed.token htokens hi (by simp [ht])
  refine (reads_type h₁.sequence).bind ?_
  rintro used declared i' h₂ ⟨-, hdeclared⟩
  refine reads_pure h₂.sequence ?_
  rw [List.append_nil]
  exact .type ht hdeclared

private theorem reads_letBinding (hg : g.Reads size) (hi : TokenSequence i.tokens) (hsize : i.tokens.length ≤ size) :
    Reads (letBinding g) i fun used e rest => used ≠ [] ∧ Derives (.statement e) used ∧
      ∃ t more, rest = t :: more ∧ t.kind = .semicolon := by
  obtain ⟨word, rest, htokens⟩ := hi.exists_cons
  refine reads_expect hi htokens (by simp) fun hword => ?_
  have h₁ := Input.Passed.token htokens hi (by simp [hword])
  refine (reads_mutable h₁.sequence).bind ?_
  intro mark mutable i₂ h₂ hmark
  obtain ⟨name, rest₂, htokens₂⟩ := h₂.sequence.exists_cons
  refine reads_expect h₂.sequence htokens₂ (by simp) fun hname => ?_
  have h₃ := Input.Passed.token htokens₂ h₂.sequence (by simp [hname])
  refine (reads_declared h₃.sequence).bind ?_
  intro annotation declared i₄ h₄ hdeclared
  obtain ⟨equal, rest₄, htokens₄⟩ := h₄.sequence.exists_cons
  refine reads_expect h₄.sequence htokens₄ (by simp) fun hequal => ?_
  have h₅ := Input.Passed.token htokens₄ h₄.sequence (by simp [hequal])
  have hpassed := (((h₁.trans h₂).trans h₃).trans h₄).trans h₅
  have hlen := hpassed.length_eq
  refine (hg.expr false _ h₅.sequence (by omega)).bind ?_
  rintro used init i₆ h₆ ⟨-, hinit⟩
  obtain ⟨behind, rest₆, htokens₆⟩ := h₆.sequence.exists_cons
  refine reads_peek htokens₆ ?_
  by_cases hbehind : behind.kind = .semicolon
  · simp only [hbehind, ne_eq, not_true_eq_false, if_false]
    refine reads_spanFrom hi (hpassed.trans h₆) rfl fun span hspan => ?_
    refine reads_pure h₆.sequence ⟨by simp, ?_, behind, rest₆, htokens₆, hbehind⟩
    have hshape : [word] ++ mark ++ [name] ++ annotation ++ [equal] ++ used =
        word :: mark ++ name :: annotation ++ equal :: used := by simp
    rw [hshape] at hspan
    simpa using Derives.letBinding hword hmark hname hdeclared hequal hinit hspan
  · simp only [hbehind, ne_eq, not_false_eq_true, if_true]
    exact reads_refuse_bind (by simp [htokens₆])

private theorem reads_nestedFunction (hg : g.Reads size) (hi : TokenSequence i.tokens)
    (hsize : i.tokens.length ≤ size) :
    Reads (nestedFunction g) i fun used e _ => used ≠ [] ∧ Derives (.statement e) used ∧ e.isLet = false := by
  refine (reads_header false hi).bind ?_
  rintro u₁ header i₁ h₁ ⟨hu₁, hheader⟩
  have hlen := h₁.length_eq
  refine (hg.block i₁ h₁.sequence (by omega)).bind ?_
  rintro u₂ body i₂ h₂ ⟨-, hbody⟩
  refine reads_pure h₂.sequence ⟨by simp [hu₁], ?_, rfl⟩
  rw [List.append_nil]
  exact .nestedFunction hheader hbody

/-- A statement is read; behind a binding there is a semicolon. -/
private theorem reads_statement (hg : g.Reads size) (hi : TokenSequence i.tokens) (hsize : i.tokens.length ≤ size) :
    Reads (statement g) i fun used e rest => used ≠ [] ∧ Derives (.statement e) used ∧
      (e.isLet = true → ∃ t more, rest = t :: more ∧ t.kind = .semicolon) := by
  have hprimary : Reads (g.primary false) i fun used e rest => used ≠ [] ∧ Derives (.statement e) used ∧
      (e.isLet = true → ∃ t more, rest = t :: more ∧ t.kind = .semicolon) := by
    refine (hg.primary false i hi hsize).mono ?_
    rintro used e rest ⟨hused, he⟩
    refine ⟨hused, .blockStatement he, fun hlet => ?_⟩
    have := he.isValue rfl
    simp [Expr.isValue, hlet] at this
  obtain ⟨t, rest, htokens⟩ := hi.exists_cons
  refine reads_peek htokens ?_
  split
  · exact (reads_letBinding hg hi hsize).mono fun used e rest h => ⟨h.1, h.2.1, fun _ => h.2.2⟩
  · exact hprimary
  · exact hprimary
  · exact hprimary
  · exact hprimary
  · exact (reads_nestedFunction hg hi hsize).mono fun used e rest h => ⟨h.1, h.2.1, by simp [h.2.2]⟩
  · refine (hg.expr false i hi hsize).mono ?_
    rintro used e rest ⟨hused, he⟩
    refine ⟨hused, .exprStatement he, fun hlet => ?_⟩
    have := he.isValue rfl
    simp [Expr.isValue, hlet] at this

private theorem reads_statements (hg : g.Reads size) (bound : Nat) (i : Input) (hi : TokenSequence i.tokens)
    (hsize : i.tokens.length ≤ size) (hbound : i.tokens.length < bound) :
    Reads (statements g bound) i fun used r _ => Derives (.statements r.1 r.2) used := by
  induction bound generalizing i with
  | zero => omega
  | succ bound ih =>
    obtain ⟨t, rest, htokens⟩ := hi.exists_cons
    rw [statements]
    refine reads_accept hi htokens (by simp) (fun ht => ?_) (fun _ => ?_)
    · exact reads_pure ((htokens ▸ hi).tail (ht ▸ by simp)) (.endOfBlock ht)
    refine (reads_statement hg hi hsize).bind ?_
    rintro u₁ e i₁ h₁ ⟨hu₁, he, hlet⟩
    have hlen := h₁.length_eq
    have hpos := List.length_pos_iff.mpr hu₁
    obtain ⟨u, rest₁, htokens₁⟩ := h₁.sequence.exists_cons
    refine reads_accept h₁.sequence htokens₁ (by simp) (fun hu => ?_) (fun hu => ?_)
    · -- a statement that is ended by a semicolon
      have h₂ := Input.Passed.token htokens₁ h₁.sequence (by simp [hu])
      have hlen₂ := h₂.length_eq
      simp only [Bool.true_or, if_true]
      refine (ih _ h₂.sequence (by omega) (by omega)).bind ?_
      rintro u₂ ⟨stmts, tail⟩ i₃ h₃ hrest
      refine reads_pure h₃.sequence ?_
      simpa using Derives.ended he hu hrest
    -- a binding is always ended by a semicolon, so this statement is none
    · have hnolet : e.isLet = false := by
        by_contra h
        obtain ⟨v, more, hv, hkind⟩ := hlet (by simpa using h)
        rw [htokens₁] at hv
        cases hv
        exact hu hkind
      -- a statement in front of others, with nothing between them
      have hmore : ∀ f : List Expr × Option Expr → Parser (List Expr × Option Expr),
          (∀ stmts tail, f (stmts, tail) = pure (e :: stmts, tail)) → e.isFunction = true ∨ e.isBlockLike = true →
          Reads (statements g bound >>= f) i₁ fun more r _ => Derives (.statements r.1 r.2) (u₁ ++ more) := by
        intro f hf hform
        refine (ih i₁ h₁.sequence (by omega) (by omega)).bind ?_
        rintro u₂ ⟨stmts, tail⟩ i₃ h₃ hrest
        rw [hf]
        refine reads_pure h₃.sequence ?_
        rw [List.append_nil]
        exact .unended he hform hrest
      by_cases hfunction : e.isFunction = true
      · simp only [hfunction, Bool.false_or, if_true]
        exact hmore _ (fun _ _ => rfl) (.inl hfunction)
      · simp only [hfunction, Bool.false_or, Bool.false_eq_true, if_false]
        refine reads_accept h₁.sequence htokens₁ (by simp) (fun hu => ?_) (fun _ => ?_)
        · refine reads_pure ((htokens₁ ▸ h₁.sequence).tail (hu ▸ by simp)) ?_
          exact .lastExpr he (by simp [Expr.isValue, hnolet, hfunction]) hu
        · by_cases hblock : e.isBlockLike = true
          · simp only [hblock, Bool.false_eq_true, if_true, if_false]
            exact hmore _ (fun _ _ => rfl) (.inr hblock)
          · simp only [hblock, Bool.false_eq_true, if_false]
            exact reads_peek htokens₁ (reads_refuse (by simp [htokens₁]))

theorem reads_block (hg : g.Reads size) (hi : TokenSequence i.tokens) (hsize : i.tokens.length ≤ size + 1) :
    Reads (block g) i fun used b _ => used ≠ [] ∧ Derives (.block b) used := by
  obtain ⟨t, rest, htokens⟩ := hi.exists_cons
  refine reads_expect hi htokens (by simp) fun ht => ?_
  have h₁ := Input.Passed.token htokens hi (by simp [ht])
  have hlen : i.tokens.length = rest.length + 1 := by simp [htokens]
  refine reads_tokensLeft ?_
  refine (reads_statements hg _ _ h₁.sequence (by simp only; omega) (Nat.lt_succ_self _)).bind ?_
  rintro used ⟨stmts, tail⟩ i₂ h₂ hstmts
  refine reads_spanFrom hi (h₁.trans h₂) rfl fun span hspan => ?_
  refine reads_pure h₂.sequence ⟨by simp, ?_⟩
  rw [List.append_nil]
  exact .block ht hstmts hspan

/-! ### Primary expressions -/

private theorem reads_arguments (hg : g.Reads size) (hi : TokenSequence i.tokens) (hsize : i.tokens.length ≤ size + 1) :
    Reads (arguments g) i fun used args _ => ∃ paren behind, used = paren :: behind ∧ paren.kind = .leftParen ∧
      EnumeratedBy .rightParen false true (fun u e => Derives (.expr false e) u) behind args := by
  obtain ⟨paren, rest, htokens⟩ := hi.exists_cons
  have hlen : i.tokens.length = rest.length + 1 := by simp [htokens]
  refine reads_expect hi htokens (by simp) fun hparen => ?_
  have h₁ := Input.Passed.token htokens hi (by simp [hparen])
  refine (reads_separated (by simp) h₁.sequence fun j hj hjlen => hg.expr false j hj ?_).mono ?_
  · simp only at hjlen
    omega
  · intro used args _ hargs
    exact ⟨paren, used, rfl, hparen, hargs⟩

private theorem reads_fieldInit (hg : g.Reads size) (hi : TokenSequence i.tokens) (hsize : i.tokens.length ≤ size) :
    Reads (fieldInit g) i fun used field _ => used ≠ [] ∧ Derives (.fieldInit field) used := by
  obtain ⟨name, rest, htokens⟩ := hi.exists_cons
  refine reads_expect hi htokens (by simp) fun hname => ?_
  have h₁ := Input.Passed.token htokens hi (by simp [hname])
  obtain ⟨colon, rest', htokens'⟩ := h₁.sequence.exists_cons
  refine reads_expect h₁.sequence htokens' (by simp) fun hcolon => ?_
  have h₂ := Input.Passed.token htokens' h₁.sequence (by simp [hcolon])
  have hlen := (h₁.trans h₂).length_eq
  refine (hg.expr false _ h₂.sequence (by omega)).bind ?_
  rintro used value i₃ h₃ ⟨-, hvalue⟩
  refine reads_pure h₃.sequence ⟨by simp, ?_⟩
  rw [List.append_nil]
  exact .fieldInit hname hcolon hvalue

private theorem reads_named (hg : g.Reads size) (noStruct : Bool) {name : Token} {rest : List Token}
    (hi : TokenSequence i.tokens) (hsize : i.tokens.length ≤ size + 1) (htokens : i.tokens = name :: rest)
    (hname : name.kind = .identifier) :
    Reads (named g noStruct) i fun used e _ => used ≠ [] ∧ Derives (.primary noStruct e) used := by
  have hlen : i.tokens.length = rest.length + 1 := by simp [htokens]
  have h₁ := Input.Passed.token htokens hi (by simp [hname])
  refine reads_advance hi htokens (by simp [hname]) ?_
  obtain ⟨brace, rest', htokens'⟩ := h₁.sequence.exists_cons
  refine reads_follows htokens' ?_
  by_cases hliteral : (decide (brace.kind = .leftBrace) && !noStruct) = true
  · simp only [hliteral, if_true]
    simp only [Bool.and_eq_true, decide_eq_true_eq, Bool.not_eq_true'] at hliteral
    obtain ⟨hbrace, rfl⟩ := hliteral
    have h₂ := Input.Passed.token htokens' h₁.sequence (by simp [hbrace])
    have hlen₂ := (h₁.trans h₂).length_eq
    refine reads_advance h₁.sequence htokens' (by simp [hbrace]) ?_
    refine (reads_separated (by simp) h₂.sequence fun j hj hjlen => reads_fieldInit hg hj ?_).bind ?_
    · simp only [List.length_append, List.length_singleton] at hlen₂ hjlen
      omega
    rintro used fields i₃ h₃ ⟨pieces, rfl, hlist, hpieces⟩
    refine reads_spanFrom hi ((h₁.trans h₂).trans h₃) rfl fun span hspan => ?_
    refine reads_pure h₃.sequence ⟨by simp, ?_⟩
    rw [List.append_nil]
    exact .structLiteral hname hbrace hlist hpieces hspan
  · simp only [hliteral, Bool.false_eq_true, if_false]
    exact reads_pure h₁.sequence ⟨by simp, .identifier hname⟩

private theorem reads_parenthesised (hg : g.Reads size) (noStruct : Bool) {left : Token} {rest : List Token}
    (hi : TokenSequence i.tokens) (hsize : i.tokens.length ≤ size + 1) (htokens : i.tokens = left :: rest)
    (hleft : left.kind = .leftParen) :
    Reads (parenthesised g) i fun used e _ => used ≠ [] ∧ Derives (.primary noStruct e) used := by
  have hlen : i.tokens.length = rest.length + 1 := by simp [htokens]
  have h₁ := Input.Passed.token htokens hi (by simp [hleft])
  refine reads_advance hi htokens (by simp [hleft]) ?_
  refine (hg.expr false _ h₁.sequence (by simp only; omega)).bind ?_
  rintro used e i₂ h₂ ⟨-, he⟩
  obtain ⟨right, rest', htokens'⟩ := h₂.sequence.exists_cons
  refine reads_expect h₂.sequence htokens' (by simp) fun hright => ?_
  refine reads_pure ((htokens' ▸ h₂.sequence).tail (by simp [hright])) ⟨by simp, ?_⟩
  exact .parenthesised hleft he hright

private theorem reads_elseBranch (hg : g.Reads size) (hi : TokenSequence i.tokens) (hsize : i.tokens.length ≤ size) :
    Reads (elseBranch g) i fun used e _ => Derives (.elseBranch e) used := by
  obtain ⟨word, rest, htokens⟩ := hi.exists_cons
  have hlen : i.tokens.length = rest.length + 1 := by simp [htokens]
  refine reads_accept hi htokens (by simp) (fun hword => ?_) (fun _ => reads_pure hi .noElse)
  have h₁ := Input.Passed.token htokens hi (by simp [hword])
  obtain ⟨t, rest', htokens'⟩ := h₁.sequence.exists_cons
  simp only [if_true]
  refine reads_follows htokens' ?_
  by_cases hif : t.kind = .keyword .ifWord
  · simp only [hif, decide_true, if_true]
    refine (hg.primary false _ h₁.sequence (by simp only; omega)).bind ?_
    rintro used e i₂ h₂ ⟨hused, he⟩
    refine reads_pure h₂.sequence ?_
    rw [List.append_nil]
    obtain ⟨first, more, rfl⟩ := List.exists_cons_of_ne_nil hused
    have hfirst : first = t := by
      have := h₂.tokens
      simp_all
    exact .elseIf hword (hfirst ▸ hif) he
  · simp only [hif, decide_false, Bool.false_eq_true, if_false]
    refine (hg.block _ h₁.sequence (by simp only; omega)).bind ?_
    rintro used b i₂ h₂ ⟨-, hb⟩
    refine reads_pure h₂.sequence ?_
    rw [List.append_nil]
    exact .elseBlock hword hb

private theorem reads_ifElse (hg : g.Reads size) (noStruct : Bool) {word : Token} {rest : List Token}
    (hi : TokenSequence i.tokens) (hsize : i.tokens.length ≤ size + 1) (htokens : i.tokens = word :: rest)
    (hword : word.kind = .keyword .ifWord) :
    Reads (ifElse g) i fun used e _ => used ≠ [] ∧ Derives (.primary noStruct e) used := by
  have hlen : i.tokens.length = rest.length + 1 := by simp [htokens]
  have h₁ := Input.Passed.token htokens hi (by simp [hword])
  refine reads_advance hi htokens (by simp [hword]) ?_
  refine (hg.expr true _ h₁.sequence (by simp only; omega)).bind ?_
  rintro u₁ cond i₂ h₂ ⟨-, hcond⟩
  have hlen₂ := h₂.length_eq
  refine (hg.block _ h₂.sequence (by simp only at hlen₂; omega)).bind ?_
  rintro u₂ thenBlock i₃ h₃ ⟨-, hthen⟩
  have hlen₃ := h₃.length_eq
  refine (reads_elseBranch hg h₃.sequence (by simp only at hlen₂; omega)).bind ?_
  intro u₃ other i₄ h₄ hother
  refine reads_spanFrom hi (((h₁.trans h₂).trans h₃).trans h₄) rfl fun span hspan => ?_
  refine reads_pure h₄.sequence ⟨by simp, ?_⟩
  have h := @Derives.ifElse noStruct _ _ _ _ _ _ _ _ hword hcond hthen hother hspan
  simpa using h

private theorem reads_whileLoop (hg : g.Reads size) (noStruct : Bool) {word : Token} {rest : List Token}
    (hi : TokenSequence i.tokens) (hsize : i.tokens.length ≤ size + 1) (htokens : i.tokens = word :: rest)
    (hword : word.kind = .keyword .whileWord) :
    Reads (whileLoop g) i fun used e _ => used ≠ [] ∧ Derives (.primary noStruct e) used := by
  have hlen : i.tokens.length = rest.length + 1 := by simp [htokens]
  have h₁ := Input.Passed.token htokens hi (by simp [hword])
  refine reads_advance hi htokens (by simp [hword]) ?_
  refine (hg.expr true _ h₁.sequence (by simp only; omega)).bind ?_
  rintro u₁ cond i₂ h₂ ⟨-, hcond⟩
  have hlen₂ := h₂.length_eq
  refine (hg.block _ h₂.sequence (by simp only at hlen₂; omega)).bind ?_
  rintro u₂ body i₃ h₃ ⟨-, hbody⟩
  refine reads_spanFrom hi ((h₁.trans h₂).trans h₃) rfl fun span hspan => ?_
  refine reads_pure h₃.sequence ⟨by simp, ?_⟩
  have h := @Derives.whileLoop noStruct _ _ _ _ _ _ hword hcond hbody hspan
  simpa using h

private theorem reads_endlessLoop (hg : g.Reads size) (noStruct : Bool) {word : Token} {rest : List Token}
    (hi : TokenSequence i.tokens) (hsize : i.tokens.length ≤ size + 1) (htokens : i.tokens = word :: rest)
    (hword : word.kind = .keyword .loopWord) :
    Reads (endlessLoop g) i fun used e _ => used ≠ [] ∧ Derives (.primary noStruct e) used := by
  have hlen : i.tokens.length = rest.length + 1 := by simp [htokens]
  have h₁ := Input.Passed.token htokens hi (by simp [hword])
  refine reads_advance hi htokens (by simp [hword]) ?_
  refine (hg.block _ h₁.sequence (by simp only; omega)).bind ?_
  rintro used body i₂ h₂ ⟨-, hbody⟩
  refine reads_spanFrom hi (h₁.trans h₂) rfl fun span hspan => ?_
  refine reads_pure h₂.sequence ⟨by simp, ?_⟩
  rw [List.append_nil]
  exact .endlessLoop hword hbody hspan

private theorem reads_leaveFunction (hg : g.Reads size) (noStruct : Bool) {word : Token} {rest : List Token}
    (hi : TokenSequence i.tokens) (hsize : i.tokens.length ≤ size + 1) (htokens : i.tokens = word :: rest)
    (hword : word.kind = .keyword .returnWord) :
    Reads (leaveFunction g) i fun used e _ => used ≠ [] ∧ Derives (.primary noStruct e) used := by
  have hlen : i.tokens.length = rest.length + 1 := by simp [htokens]
  have h₁ := Input.Passed.token htokens hi (by simp [hword])
  refine reads_advance hi htokens (by simp [hword]) ?_
  have hresult : Reads (returned g) ⟨rest, word.span⟩ fun used result _ =>
      (used = [] ∧ result = none) ∨ ∃ e, result = some e ∧ Derives (.expr false e) used := by
    obtain ⟨t, rest', htokens'⟩ := h₁.sequence.exists_cons
    refine reads_peek htokens' ?_
    split
    · exact reads_pure h₁.sequence (.inl ⟨rfl, rfl⟩)
    · refine (hg.expr false _ h₁.sequence (by simp only; omega)).bind ?_
      rintro used e i₂ h₂ ⟨-, he⟩
      refine reads_pure h₂.sequence (.inr ⟨e, rfl, ?_⟩)
      rwa [List.append_nil]
  refine hresult.bind ?_
  intro used result i₂ h₂ hcases
  refine reads_spanFrom hi (h₁.trans h₂) rfl fun span hspan => ?_
  refine reads_pure h₂.sequence ⟨by simp, ?_⟩
  rw [List.append_nil]
  rcases hcases with ⟨rfl, rfl⟩ | ⟨e, rfl, he⟩
  · exact .leaveFunction hword hspan
  · exact .leaveWith hword he hspan

private theorem reads_builtinCall (hg : g.Reads size) (noStruct : Bool) {mark : Token} {rest : List Token}
    (hi : TokenSequence i.tokens) (hsize : i.tokens.length ≤ size + 1) (htokens : i.tokens = mark :: rest)
    (hmark : mark.kind = .at) :
    Reads (builtinCall g) i fun used e _ => used ≠ [] ∧ Derives (.primary noStruct e) used := by
  have h₁ := Input.Passed.token htokens hi (by simp [hmark])
  refine reads_advance hi htokens (by simp [hmark]) ?_
  obtain ⟨name, rest', htokens'⟩ := h₁.sequence.exists_cons
  refine reads_expect h₁.sequence htokens' (by simp) fun hname => ?_
  have h₂ := Input.Passed.token htokens' h₁.sequence (by simp [hname])
  have hlen := (h₁.trans h₂).length_eq
  refine (reads_arguments hg h₂.sequence (by omega)).bind ?_
  rintro _ args i₃ h₃ ⟨paren, used, rfl, hparen, pieces, rfl, hlist, hpieces⟩
  refine reads_spanFrom hi ((h₁.trans h₂).trans h₃) rfl fun span hspan => ?_
  refine reads_pure h₃.sequence ⟨by simp, ?_⟩
  rw [List.append_nil]
  exact .builtinCall hmark hname hparen hlist hpieces hspan

private theorem reads_integerLiteral (noStruct : Bool) {t : Token} {rest : List Token} (hi : TokenSequence i.tokens)
    (htokens : i.tokens = t :: rest) (ht : t.kind = .integer) :
    Reads integerLiteral i fun used e _ => used ≠ [] ∧ Derives (.primary noStruct e) used := by
  cases hv : Literal.int32? t.text.toList with
  | some v =>
    refine reads_advance hi htokens (by simp [ht]) ?_
    simp only [hv]
    exact reads_pure ((htokens ▸ hi).tail (by simp [ht])) ⟨by simp, .integer ht hv⟩
  | none =>
    have hrun : integerLiteral.run i = .error (.refused ⟨t.span, .integerOutOfRange⟩) := by
      simp only [integerLiteral, StateT.run_bind, run_advance htokens, hv, ok_bind]
      rfl
    unfold Reads
    rw [hrun]
    exact ⟨t, by simp [htokens], rfl⟩

private theorem reads_floatLiteral (noStruct : Bool) {t : Token} {rest : List Token} (hi : TokenSequence i.tokens)
    (htokens : i.tokens = t :: rest) (ht : t.kind = .float) :
    Reads floatLiteral i fun used e _ => used ≠ [] ∧ Derives (.primary noStruct e) used := by
  cases hx : Literal.float? t.text.toList with
  | some x =>
    refine reads_advance hi htokens (by simp [ht]) ?_
    simp only [hx]
    exact reads_pure ((htokens ▸ hi).tail (by simp [ht])) ⟨by simp, .float ht hx⟩
  | none =>
    have hrun : floatLiteral.run i = .error (.refused ⟨t.span, .invalidFloat⟩) := by
      simp only [floatLiteral, StateT.run_bind, run_advance htokens, hx, ok_bind]
      rfl
    unfold Reads
    rw [hrun]
    exact ⟨t, by simp [htokens], rfl⟩

private theorem reads_primary (hg : g.Reads size) (noStruct : Bool) (hi : TokenSequence i.tokens)
    (hsize : i.tokens.length ≤ size + 1) :
    Reads (primary g noStruct) i fun used e _ => used ≠ [] ∧ Derives (.primary noStruct e) used := by
  obtain ⟨t, rest, htokens⟩ := hi.exists_cons
  -- a word that is an expression by itself
  have hword : ∀ e : Expr, t.kind ≠ .endOfInput → Derives (.primary noStruct e) [t] →
      Reads (do let _ ← advance; return e) i fun used e _ => used ≠ [] ∧ Derives (.primary noStruct e) used := by
    intro e ht he
    exact reads_advance hi htokens ht (reads_pure ((htokens ▸ hi).tail ht) ⟨by simp, he⟩)
  refine reads_peek htokens ?_
  split
  · exact reads_integerLiteral noStruct hi htokens ‹_›
  · exact reads_floatLiteral noStruct hi htokens ‹_›
  · rename_i ht
    exact hword _ (by simp [ht]) (.boolean (b := true) ht)
  · rename_i ht
    exact hword _ (by simp [ht]) (.boolean (b := false) ht)
  · exact reads_named hg noStruct hi hsize htokens ‹_›
  · exact reads_parenthesised hg noStruct hi hsize htokens ‹_›
  · refine (reads_block hg hi hsize).bind ?_
    rintro used b i₁ h₁ ⟨hused, hb⟩
    refine reads_pure h₁.sequence ?_
    rw [List.append_nil]
    exact ⟨hused, .blockExpr hb⟩
  · exact reads_ifElse hg noStruct hi hsize htokens ‹_›
  · exact reads_whileLoop hg noStruct hi hsize htokens ‹_›
  · exact reads_endlessLoop hg noStruct hi hsize htokens ‹_›
  · rename_i ht
    exact hword _ (by simp [ht]) (.leaveLoop ht)
  · rename_i ht
    exact hword _ (by simp [ht]) (.nextRound ht)
  · exact reads_leaveFunction hg noStruct hi hsize htokens ‹_›
  · exact reads_builtinCall hg noStruct hi hsize htokens ‹_›
  · exact reads_refuse (by simp [htokens])

/-! ### Operations -/

/-- Member accesses and calls are read behind an expression that was read from the tokens `used`. -/
private theorem reads_accesses (hg : g.Reads size) (noStruct : Bool) {first : Token} {i₀ : Input}
    (h₀ : TokenSequence i₀.tokens) (hsize : i₀.tokens.length ≤ size + 1) (bound : Nat) {used : List Token} {e : Expr}
    (i : Input) (hused : i₀.Passed used i) (hfirst : used.head? = some first)
    (he : Derives (.accessed noStruct e) used) (hbound : i.tokens.length < bound) :
    Reads (accesses g first bound e) i fun more e _ => Derives (.accessed noStruct e) (used ++ more) := by
  induction bound generalizing used e i with
  | zero => omega
  | succ bound ih =>
    have hpos : 0 < used.length := by
      cases used with
      | nil => simp at hfirst
      | cons t used => simp
    have hlen := hused.length_eq
    have hhead : ∀ more : List Token, (used ++ more).head? = some first := by
      intro more
      simp [List.head?_append, hfirst]
    obtain ⟨t, rest, htokens⟩ := hused.sequence.exists_cons
    rw [accesses]
    refine reads_accept hused.sequence htokens (by simp) (fun hdot => ?_) (fun _ => ?_)
    · have h₁ := Input.Passed.token htokens hused.sequence (by simp [hdot])
      obtain ⟨name, rest', htokens'⟩ := h₁.sequence.exists_cons
      refine reads_expect h₁.sequence htokens' (by simp) fun hname => ?_
      have h₂ := h₁.trans (Input.Passed.token htokens' h₁.sequence (by simp [hname]))
      have hlen₂ := h₂.length_eq
      refine (ih _ (hused.trans h₂) (hhead _) (.member he hdot hname) ?_).mono ?_
      · simp only [List.length_append, List.length_singleton] at hlen₂ ⊢
        omega
      · intro more e' _ h
        simpa using h
    · simp only [Bool.false_eq_true, if_false]
      refine reads_follows htokens ?_
      by_cases hparen : t.kind = .leftParen
      · simp only [hparen, decide_true, if_true]
        refine (reads_arguments hg hused.sequence (by omega)).bind ?_
        rintro _ args i₁ h₁ ⟨paren, behind, rfl, hparen, pieces, rfl, hlist, hpieces⟩
        have hlen₁ := h₁.length_eq
        refine reads_spanFrom h₀ (hused.trans h₁) (hhead _) fun span hspan => ?_
        refine (ih i₁ (hused.trans h₁) (hhead _) (.call he hparen hlist hpieces hspan) ?_).mono ?_
        · simp only [List.length_cons] at hlen₁
          omega
        · intro more e' _ h
          simpa using h
      · simp only [hparen, decide_false, Bool.false_eq_true, if_false]
        refine reads_pure hused.sequence ?_
        rwa [List.append_nil]

private theorem reads_accessed (hg : g.Reads size) (noStruct : Bool) (hi : TokenSequence i.tokens)
    (hsize : i.tokens.length ≤ size + 1) :
    Reads (accessed g noStruct) i fun used e _ => used ≠ [] ∧ Derives (.accessed noStruct e) used := by
  obtain ⟨t, rest, htokens⟩ := hi.exists_cons
  refine reads_peek htokens ?_
  refine (reads_primary hg noStruct hi hsize).bind ?_
  rintro used e i₁ h₁ ⟨hused, he⟩
  have hfirst : used.head? = some t := by
    cases used with
    | nil => exact absurd rfl hused
    | cons u used =>
      have := h₁.tokens
      rw [htokens] at this
      simp only [List.cons_append, List.cons.injEq] at this
      simp [this.1]
  refine reads_tokensLeft ?_
  refine (reads_accesses hg noStruct hi hsize _ i₁ h₁ hfirst (.accessed he) (Nat.lt_succ_self _)).mono ?_
  intro more e' _ h
  exact ⟨by simp [hused], h⟩

/-- The smallest integer is read if it follows; otherwise nothing is consumed. -/
private theorem reads_smallestInteger (noStruct : Bool) {sign : Token} {rest : List Token} (hi : TokenSequence i.tokens)
    (htokens : i.tokens = sign :: rest) (hsign : sign.kind = .minus) :
    Reads smallestInteger? i fun used e? _ => (used = [] ∧ e? = none) ∨
      ∃ e, e? = some e ∧ used ≠ [] ∧ Derives (.operand noStruct e) used := by
  have h₁ := Input.Passed.token htokens hi (by simp [hsign])
  obtain ⟨number, rest', htokens'⟩ := h₁.sequence.exists_cons
  simp only at htokens'
  subst htokens'
  refine reads_peek htokens (reads_of_run (run_peekAt (t := number) (by simp [htokens])) ?_)
  by_cases hnumber : number.kind = .integer
  swap
  · simp only [hnumber, ne_eq, not_false_eq_true, if_true]
    exact reads_pure hi (.inl ⟨rfl, rfl⟩)
  have h₂ := h₁.trans (Input.Passed.token rfl h₁.sequence (by simp [hnumber]))
  obtain ⟨behind, rest'', htokens''⟩ := h₂.sequence.exists_cons
  simp only at htokens''
  subst htokens''
  simp only [hnumber, ne_eq, not_true_eq_false, if_false]
  refine reads_of_run (run_peekAt (t := behind) (by simp [htokens])) ?_
  split
  · exact reads_pure hi (.inl ⟨rfl, rfl⟩)
  by_cases hn : Literal.integer? number.text.toList = some (integerLimit : Int)
  swap
  · simp only [hn, not_false_eq_true, if_true]
    exact reads_pure hi (.inl ⟨rfl, rfl⟩)
  simp only [hn, not_true_eq_false, if_false]
  refine reads_advance hi htokens (by simp [hsign]) ?_
  refine reads_advance h₁.sequence rfl (by simp [hnumber]) ?_
  refine reads_spanFrom hi h₂ rfl fun span hspan => ?_
  exact reads_pure h₂.sequence (.inr ⟨_, rfl, by simp, .smallestInteger hsign hnumber hn hspan⟩)

private theorem reads_unaryOperation (hg : g.Reads size) (noStruct : Bool) {op : UnaryOp}
    {t : Token} {rest : List Token}
    (hi : TokenSequence i.tokens) (hsize : i.tokens.length ≤ size + 1) (htokens : i.tokens = t :: rest)
    (ht : t.kind = op.token) :
    Reads (unaryOperation g noStruct op) i fun used e _ => used ≠ [] ∧ Derives (.operand noStruct e) used := by
  have hlen : i.tokens.length = rest.length + 1 := by simp [htokens]
  have hend : t.kind ≠ .endOfInput := by cases op <;> simp [ht, UnaryOp.token]
  have h₁ := Input.Passed.token htokens hi hend
  refine reads_advance hi htokens hend ?_
  refine (hg.unary noStruct _ h₁.sequence (by simp only; omega)).bind ?_
  rintro used e i₂ h₂ ⟨-, he⟩
  refine reads_spanFrom hi (h₁.trans h₂) rfl fun span hspan => ?_
  refine reads_pure h₂.sequence ⟨by simp, ?_⟩
  rw [List.append_nil]
  exact .unary ht he hspan

theorem reads_unary (hg : g.Reads size) (noStruct : Bool) (hi : TokenSequence i.tokens)
    (hsize : i.tokens.length ≤ size + 1) :
    Reads (unary g noStruct) i fun used e _ => used ≠ [] ∧ Derives (.operand noStruct e) used := by
  obtain ⟨t, rest, htokens⟩ := hi.exists_cons
  refine reads_peek htokens ?_
  split
  · rename_i ht
    refine (reads_smallestInteger noStruct hi htokens ht).bind ?_
    rintro used e? i₁ h₁ (⟨rfl, rfl⟩ | ⟨e, rfl, hused, he⟩)
    · have heq : i₁ = i := by
        obtain ⟨tokens, last⟩ := i₁
        obtain ⟨tokens', last'⟩ := i
        have := h₁.tokens
        have := h₁.last
        simp_all
      subst heq
      exact reads_unaryOperation hg noStruct hi hsize htokens ht
    · refine reads_pure h₁.sequence ?_
      rw [List.append_nil]
      exact ⟨hused, he⟩
  · exact reads_unaryOperation hg noStruct hi hsize htokens ‹_›
  · exact reads_unaryOperation hg noStruct hi hsize htokens ‹_›
  · exact (reads_accessed hg noStruct hi hsize).mono fun used e _ h => ⟨h.1, .operand h.2⟩

private theorem reads_operands (hg : g.Reads size) (noStruct : Bool) (bound : Nat) (i : Input)
    (hi : TokenSequence i.tokens)
    (hsize : i.tokens.length ≤ size + 1) (hbound : i.tokens.length < bound) :
    Reads (operands g noStruct bound) i fun used rest _ => Derives (.operands noStruct rest) used := by
  induction bound generalizing i with
  | zero => omega
  | succ bound ih =>
    obtain ⟨t, rest, htokens⟩ := hi.exists_cons
    have hlen : i.tokens.length = rest.length + 1 := by simp [htokens]
    rw [operands]
    refine reads_peek htokens ?_
    cases hop : BinaryOp.ofToken? t.kind with
    | none => exact reads_pure hi .noOperands
    | some op =>
      have hend : t.kind ≠ .endOfInput := by
        intro h
        simp [h, BinaryOp.ofToken?] at hop
      have h₁ := Input.Passed.token htokens hi hend
      refine reads_advance hi htokens hend ?_
      refine (reads_unary hg noStruct h₁.sequence (by simp only; omega)).bind ?_
      rintro u₁ e i₂ h₂ ⟨-, he⟩
      have hlen₂ := h₂.length_eq
      simp only at hlen₂
      refine (ih i₂ h₂.sequence (by omega) (by omega)).bind ?_
      intro u₂ more i₃ h₃ hmore
      refine reads_pure h₃.sequence ?_
      rw [List.append_nil]
      exact .moreOperands hop he hmore

private theorem reads_binary (hg : g.Reads size) (noStruct : Bool) (hi : TokenSequence i.tokens)
    (hsize : i.tokens.length ≤ size + 1) :
    Reads (binary g noStruct) i fun used e _ => used ≠ [] ∧ Derives (.operation noStruct e) used := by
  refine (reads_unary hg noStruct hi hsize).bind ?_
  rintro u₁ first i₁ h₁ ⟨hu₁, hfirst⟩
  have hlen₁ := h₁.length_eq
  refine reads_tokensLeft ?_
  refine (reads_operands hg noStruct _ i₁ h₁.sequence (by omega) (Nat.lt_succ_self _)).bind ?_
  intro u₂ rest i₂ h₂ hrest
  refine reads_pure h₂.sequence ⟨by simp [hu₁], ?_⟩
  rw [List.append_nil]
  exact .operation hfirst hrest

theorem reads_expr (hg : g.Reads size) (noStruct : Bool) (hi : TokenSequence i.tokens)
    (hsize : i.tokens.length ≤ size + 1) :
    Reads (expr g noStruct) i fun used e _ => used ≠ [] ∧ Derives (.expr noStruct e) used := by
  refine (reads_binary hg noStruct hi hsize).bind ?_
  rintro u₁ target i₁ h₁ ⟨hu₁, htarget⟩
  have hpos := List.length_pos_iff.mpr hu₁
  have hlen₁ := h₁.length_eq
  obtain ⟨t, left, htokens⟩ := h₁.sequence.exists_cons
  refine reads_accept h₁.sequence htokens (by simp) (fun ht => ?_) (fun _ => ?_)
  · have h₂ := Input.Passed.token htokens h₁.sequence (by simp [ht])
    have hlen₂ := h₂.length_eq
    refine (hg.expr noStruct _ h₂.sequence (by omega)).bind ?_
    rintro u₂ source i₃ h₃ ⟨-, hsource⟩
    refine reads_pure h₃.sequence ⟨by simp [hu₁], ?_⟩
    have h := Derives.assignment htarget ht hsource
    simpa using h
  · refine reads_pure h₁.sequence ⟨by simp [hu₁], ?_⟩
    rw [List.append_nil]
    exact .expr htarget

end

/-- The knot is tied: with as many levels as there are tokens, nesting is never too deep. -/
theorem grammar_reads (depth : Nat) : (grammar depth).Reads depth := by
  induction depth with
  | zero =>
    have hempty : ∀ i : Input, TokenSequence i.tokens → ¬i.tokens.length ≤ 0 := by
      intro i hi hlen
      obtain ⟨t, rest, htokens⟩ := hi.exists_cons
      simp [htokens] at hlen
    exact ⟨fun _ i hi hlen => absurd hlen (hempty i hi), fun _ i hi hlen => absurd hlen (hempty i hi),
      fun _ i hi hlen => absurd hlen (hempty i hi), fun i hi hlen => absurd hlen (hempty i hi)⟩
  | succ depth ih =>
    exact ⟨fun noStruct i hi hsize => reads_expr ih noStruct hi hsize,
      fun noStruct i hi hsize => reads_unary ih noStruct hi hsize,
      fun noStruct i hi hsize => reads_primary ih noStruct hi hsize, fun i hi hsize => reads_block ih hi hsize⟩

/-! ### Declarations -/

private theorem reads_fieldDecl (hi : TokenSequence i.tokens) :
    Reads fieldDecl i fun used field _ => used ≠ [] ∧ DerivesField field used := by
  obtain ⟨name, rest, htokens⟩ := hi.exists_cons
  refine reads_expect hi htokens (by simp) fun hname => ?_
  have h₁ := Input.Passed.token htokens hi (by simp [hname])
  obtain ⟨colon, rest', htokens'⟩ := h₁.sequence.exists_cons
  refine reads_expect h₁.sequence htokens' (by simp) fun hcolon => ?_
  have h₂ := Input.Passed.token htokens' h₁.sequence (by simp [hcolon])
  refine (reads_type h₂.sequence).bind ?_
  rintro used type i₃ h₃ ⟨-, htype⟩
  refine reads_pure h₃.sequence ⟨by simp, ?_⟩
  rw [List.append_nil]
  exact .field hname hcolon htype

private theorem reads_structDecl (exported : Bool) (hi : TokenSequence i.tokens) :
    Reads (structDecl exported) i fun used d _ => used ≠ [] ∧ DerivesStruct exported d used := by
  obtain ⟨word, rest, htokens⟩ := hi.exists_cons
  refine reads_expect hi htokens (by simp) fun hword => ?_
  have h₁ := Input.Passed.token htokens hi (by simp [hword])
  obtain ⟨name, rest₁, htokens₁⟩ := h₁.sequence.exists_cons
  refine reads_expect h₁.sequence htokens₁ (by simp) fun hname => ?_
  have h₂ := Input.Passed.token htokens₁ h₁.sequence (by simp [hname])
  obtain ⟨brace, rest₂, htokens₂⟩ := h₂.sequence.exists_cons
  refine reads_expect h₂.sequence htokens₂ (by simp) fun hbrace => ?_
  have h₃ := Input.Passed.token htokens₂ h₂.sequence (by simp [hbrace])
  refine (reads_separated (by simp) h₃.sequence fun j hj _ => reads_fieldDecl hj).bind ?_
  rintro used fields i₄ h₄ ⟨pieces, rfl, hlist, hpieces⟩
  refine reads_pure h₄.sequence ⟨by simp, ?_⟩
  rw [List.append_nil]
  exact .struct hword hname hbrace hlist hpieces

private theorem reads_functionDecl (exported : Bool) (hi : TokenSequence i.tokens) :
    Reads (functionDecl exported) i fun used d _ => used ≠ [] ∧ DerivesDecl exported (.function d) used := by
  refine (reads_header exported hi).bind ?_
  rintro u₁ header i₁ h₁ ⟨hu₁, hheader⟩
  refine reads_tokensLeft ?_
  refine ((grammar_reads _).block i₁ h₁.sequence (Nat.le_succ _)).bind ?_
  rintro u₂ body i₂ h₂ ⟨-, hbody⟩
  refine reads_pure h₂.sequence ⟨by simp [hu₁], ?_⟩
  rw [List.append_nil]
  exact .function hheader hbody

/-- A declaration may be marked as exported. -/
private theorem reads_exported (hi : TokenSequence i.tokens) :
    Reads (accept (.keyword .exportWord)) i fun used exported _ =>
      exported = false ∧ used = [] ∨ exported = true ∧ ∃ word, used = [word] ∧ word.kind = .keyword .exportWord := by
  obtain ⟨t, rest, htokens⟩ := hi.exists_cons
  rw [← bind_pure (accept _)]
  exact reads_accept hi htokens (by simp)
    (fun ht => reads_pure ((htokens ▸ hi).tail (ht ▸ by simp)) (.inr ⟨rfl, t, rfl, ht⟩))
    (fun _ => reads_pure hi (.inl ⟨rfl, rfl⟩))

/-- A declaration is read, behind `export` or not. -/
private theorem reads_decl (hi : TokenSequence i.tokens) :
    Reads decl i fun used d _ => used ≠ [] ∧
      (DerivesDecl false d used ∨ ∃ word behind, used = word :: behind ∧ word.kind = .keyword .exportWord ∧
        DerivesDecl true d behind) := by
  refine (reads_exported hi).bind ?_
  intro mark exported i₁ h₁ hmark
  have hmarked : ∀ used d, used ≠ [] → DerivesDecl exported d used → mark ++ used ≠ [] ∧
      (DerivesDecl false d (mark ++ used) ∨ ∃ word behind, mark ++ used = word :: behind ∧
        word.kind = .keyword .exportWord ∧ DerivesDecl true d behind) := by
    intro used d hused hd
    rcases hmark with ⟨rfl, rfl⟩ | ⟨rfl, word, rfl, hword⟩
    · exact ⟨hused, .inl hd⟩
    · exact ⟨by simp, .inr ⟨word, used, rfl, hword, hd⟩⟩
  obtain ⟨t, rest, htokens⟩ := h₁.sequence.exists_cons
  refine reads_peek htokens ?_
  split
  · refine (reads_functionDecl exported h₁.sequence).bind ?_
    rintro used d i₂ h₂ ⟨hused, hd⟩
    refine reads_pure h₂.sequence ?_
    rw [List.append_nil]
    exact hmarked used _ hused hd
  · refine (reads_structDecl exported h₁.sequence).bind ?_
    rintro used d i₂ h₂ ⟨hused, hd⟩
    refine reads_pure h₂.sequence ?_
    rw [List.append_nil]
    exact hmarked used _ hused (.struct hd)
  · exact reads_refuse (by simp [htokens])

private theorem reads_decls (bound : Nat) (i : Input) (hi : TokenSequence i.tokens) (hbound : i.tokens.length < bound) :
    Reads (decls bound) i fun used ds rest =>
      DerivesModule ds used ∧ ∃ last, rest = [last] ∧ last.kind = .endOfInput := by
  induction bound generalizing i with
  | zero => omega
  | succ bound ih =>
    obtain ⟨t, rest, htokens⟩ := hi.exists_cons
    rw [decls]
    refine reads_follows htokens ?_
    by_cases hend : t.kind = .endOfInput
    · simp only [hend, decide_true, if_true]
      exact reads_pure hi ⟨.nil, t, hi.eq_singleton htokens hend, hend⟩
    · simp only [hend, decide_false, Bool.false_eq_true, if_false]
      refine (reads_decl hi).bind ?_
      rintro u₁ d i₁ h₁ ⟨hu₁, hd⟩
      have hpos := List.length_pos_iff.mpr hu₁
      have hlen := h₁.length_eq
      refine (ih i₁ h₁.sequence (by omega)).bind ?_
      rintro u₂ ds i₂ h₂ ⟨hds, hlast⟩
      refine reads_pure h₂.sequence ⟨?_, hlast⟩
      rw [List.append_nil]
      rcases hd with hd | ⟨word, behind, rfl, hword, hd⟩
      · exact .hidden hd hds
      · exact .exported hword hd hds

/-- A larger bound on the number of declarations changes nothing if it exceeds the number of tokens. -/
private theorem run_decls_eq {bound bound' : Nat} (hi : TokenSequence i.tokens) (hbound : i.tokens.length < bound)
    (hbound' : i.tokens.length < bound') : (decls bound).run i = (decls bound').run i := by
  induction bound generalizing bound' i with
  | zero => omega
  | succ bound ih =>
    obtain ⟨bound', rfl⟩ := Nat.exists_eq_add_of_lt (Nat.zero_lt_of_lt hbound')
    obtain ⟨t, rest, htokens⟩ := hi.exists_cons
    rw [Nat.zero_add] at hbound' ⊢
    rw [decls, decls]
    simp only [StateT.run_bind, run_follows htokens, ok_bind]
    by_cases hend : t.kind = .endOfInput
    · simp only [hend, decide_true, if_true]
    simp only [hend, decide_false, Bool.false_eq_true, if_false, StateT.run_bind]
    have hdecl := reads_decl hi
    unfold Reads at hdecl
    split at hdecl
    · -- the declaration consumes a token, so both bounds are left with enough
      rename_i d i₁ hrun
      obtain ⟨used, hpassed, hused, -⟩ := hdecl
      have hlen := hpassed.length_eq
      have hpos := List.length_pos_iff.mpr hused
      simp only [hrun, ok_bind, ih hpassed.sequence (by omega) (show i₁.tokens.length < bound' by omega)]
    · rename_i d hrun
      simp only [hrun, error_bind]
    · exact hdecl.elim

end Parser

/-! ### Whole inputs -/

/-- A sequence of tokens is read up to the end of the input, or refused at one of its tokens. -/
theorem Decl.ofTokens_cases {tokens : List Token} (h : TokenSequence tokens) :
    (∃ decls used last i, (Parser.decls (tokens.length + 1)).run { tokens } = .ok (decls, i) ∧
        tokens = used ++ i.tokens ∧ i.tokens = [last] ∧ last.kind = .endOfInput ∧
        ofTokens tokens = .ok decls ∧ DerivesModule decls used) ∨
      ∃ d, ofTokens tokens = .error (.refused d) ∧ ∃ t ∈ tokens, d.span = t.span := by
  have hreads := Parser.reads_decls (tokens.length + 1) { tokens } h (Nat.lt_succ_self _)
  unfold Parser.Reads at hreads
  split at hreads
  · rename_i decls i hrun
    obtain ⟨used, hpassed, hmodule, last, hrest, hlast⟩ := hreads
    refine .inl ⟨decls, used, last, i, hrun, hpassed.tokens, hrest, hlast, ?_, hmodule⟩
    rw [ofTokens, StateT.run'_eq, hrun, Except.map_ok]
  · rename_i d hrun
    refine .inr ⟨d, ?_, hreads⟩
    rw [ofTokens, StateT.run'_eq, hrun, Except.map_error]
  · exact hreads.elim

/--
Reading tokens in any order ends.  As many rounds as there are tokens suffice, and more change
nothing.  The declarations are derived from all tokens in front of the end of the input, or there is
one problem, which is at one of the tokens.
-/
theorem Decl.ofTokens_ends (tokens : List Token) (h : TokenSequence tokens) :
    (∀ bound, tokens.length < bound → (Parser.decls bound).run' { tokens } = ofTokens tokens) ∧
      ((∃ decls used last i, (Parser.decls (tokens.length + 1)).run { tokens } = .ok (decls, i) ∧
          tokens = used ++ i.tokens ∧ i.tokens = [last] ∧ last.kind = .endOfInput ∧
          ofTokens tokens = .ok decls ∧ DerivesModule decls used) ∨
        ∃ d, ofTokens tokens = .error (.refused d) ∧ ∃ t ∈ tokens, d.span = t.span) := by
  refine ⟨fun bound hbound => ?_, ofTokens_cases h⟩
  rw [ofTokens, StateT.run'_eq, StateT.run'_eq, Parser.run_decls_eq h hbound (Nat.lt_succ_self _)]

/-- The tokens of a function that is cut off behind its name, two of them at one place. -/
def cutHeader : List Token :=
  [⟨.keyword .fnWord, .ofLength 0 2, "fn"⟩, ⟨.identifier, .ofLength 0 1, "f"⟩, ⟨.endOfInput, .ofLength 2 0, ""⟩]

theorem Decl.ofTokens_ends_cutHeader : TokenSequence cutHeader ∧
    ∃ d, ofTokens cutHeader = .error (.refused d) ∧ ∃ t ∈ cutHeader, d.span = t.span := by
  have hsequence : TokenSequence cutHeader := ⟨by decide, cutHeader.take 2, _, rfl, rfl, by decide⟩
  refine ⟨hsequence, (ofTokens_ends cutHeader hsequence).2.resolve_left ?_⟩
  rintro ⟨decls, -, -, -, -, -, -, -, hread, -⟩
  have hrefused : (ofTokens cutHeader).isOk = false := by decide
  rw [hread] at hrefused
  cases hrefused

/--
Reading a file raises no fault: its declarations are derived from all its tokens but the end of the
input, or the file is refused.
-/
theorem SourceFile.declarations_cases (file : SourceFile) :
    (∃ decls used last, file.declarations = .ok decls ∧ file.tokens = .ok (used ++ [last]) ∧
        TokenStream (used ++ [last]) ∧ last.kind = .endOfInput ∧ DerivesModule decls used) ∨
      ∃ d, file.declarations = .error (.refused d) := by
  rcases file.tokens_cases with ⟨tokens, htokens, hstream⟩ | ⟨d, hd⟩
  · rcases Decl.ofTokens_cases hstream.sequence with
      ⟨decls, used, last, i, -, hused, hlast, hkind, hread, hmodule⟩ | ⟨d, hrefused, -⟩
    · rw [hlast] at hused
      subst hused
      refine .inl ⟨decls, used, last, ?_, htokens, hstream, hkind, hmodule⟩
      rw [declarations, htokens, ok_bind, hread]
    · refine .inr ⟨d, ?_⟩
      rw [declarations, htokens, ok_bind, hrefused]
  · refine .inr ⟨d, ?_⟩
    simp [declarations, hd]

end RainCheck

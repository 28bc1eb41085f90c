import RainCheck.Proofs.Alignment

/-!
# Reading expressions at other places

Expressions, statements and declarations are read alike from lists of tokens with the same kinds and texts, and what is
read matches (`Decl.ofTokens_aligned`).  Each production is shown for a grammar whose nested readers are in step.
-/

namespace RainCheck

/-- What is known about a node that was read. -/
private theorem Info.Matches.fresh {ts ts' : List Token} {s s' : Span} (hs : Aligned ts ts' s s') :
    Info.Matches (layout ts ts') { span := s } { span := s' } :=
  ⟨hs, .none, rfl, rfl, rfl, rfl⟩

namespace Parser

/-- Expressions that match are read. -/
abbrev ExprAligned (ts ts' : List Token) (_ : Nat) : Expr → Expr → Prop := Expr.Matches (layout ts ts')

/-- Blocks that match are read. -/
abbrev BlockAligned (ts ts' : List Token) (_ : Nat) : Block Expr → Block Expr → Prop := Block.Matches (layout ts ts')

/-- The readers of what is nested are in step. -/
structure Grammar.InStep (ts ts' : List Token) (g : Grammar) : Prop where
  expr : ∀ b {k}, k < ts.length → Parser.InStep ts ts' k (ExprAligned ts ts') (g.expr b) (g.expr b)
  unary : ∀ b {k}, k < ts.length → Parser.InStep ts ts' k (ExprAligned ts ts') (g.unary b) (g.unary b)
  primary : ∀ b {k}, k < ts.length → Parser.InStep ts ts' k (ExprAligned ts ts') (g.primary b) (g.primary b)
  block : ∀ {k}, k < ts.length → Parser.InStep ts ts' k (BlockAligned ts ts') g.block g.block

variable {ts ts' : List Token} (hts : SameWords ts ts') {k : Nat} {t t' : Token} {g : Grammar}

include hts

/-! ### Literals -/

private theorem inStep_integerLiteral (ht : Counterparts ts ts' k t t') (hkind : t.kind = .integer) :
    InStep ts ts' k (ExprAligned ts ts') integerLiteral integerLiteral := by
  refine inStep_advance hts ht (by simp [hkind]) fun hk => ?_
  rw [ht.text hts]
  split
  · exact inStep_pure hk (.integer (.fresh (ht.span hk)))
  · exact inStep_refuse ht

private theorem inStep_floatLiteral (ht : Counterparts ts ts' k t t') (hkind : t.kind = .float) :
    InStep ts ts' k (ExprAligned ts ts') floatLiteral floatLiteral := by
  refine inStep_advance hts ht (by simp [hkind]) fun hk => ?_
  rw [ht.text hts]
  split
  · exact inStep_pure hk (.float (.fresh (ht.span hk)))
  · exact inStep_refuse ht

private theorem inStep_smallestInteger? (ht : Counterparts ts ts' k t t')
    (hkind : t.kind = .minus) (hk : k < ts.length) :
    InStep ts ts' k (fun n o o' => Option.Rel (ExprAligned ts ts' n) o o' ∧ (o = none → n = k)) smallestInteger?
      smallestInteger? := by
  have hnone : InStep ts ts' k (fun n o o' => Option.Rel (ExprAligned ts ts' n) o o' ∧ (o = none → n = k)) (pure none)
      (pure none) :=
    inStep_pure hk ⟨.none, fun _ => rfl⟩
  refine inStep_peek hts fun u u' hu => ?_
  obtain rfl : u = t := by simpa [hu.left] using ht.left
  obtain rfl : u' = t' := by simpa [hu.right] using ht.right
  refine inStep_peekAt hts 1 fun number number' hnumber => ?_
  rw [hnumber.kind hts]
  split
  · exact hnone
  refine inStep_peekAt hts 2 fun behind behind' hbehind => ?_
  rw [hbehind.kind hts, hnumber.text hts]
  split
  · exact hnone
  split
  · exact hnone
  refine inStep_advance hts ht (by simp [hkind]) fun hk => ?_
  refine inStep_advance hts hnumber (by simp_all) fun hk => ?_
  exact inStep_spanFrom hts ht (by omega) hk fun s s' hs => inStep_pure hk ⟨.some (.integer (.fresh hs)), by simp⟩

/-! ### Statements -/

private theorem inStep_declaredType (hk : k < ts.length) :
    InStep ts ts' k (fun n => Option.Rel (TypesAligned ts ts' n)) declaredType declaredType := by
  refine inStep_accept hts (by decide) (fun hk => ?_) (inStep_pure hk .none)
  exact (inStep_type hts hk).bind fun n w w' _ hn hw => inStep_pure hn (.some hw)

private theorem inStep_letBinding (hg : g.InStep ts ts') :
    InStep ts ts' k (ExprAligned ts ts') (letBinding g) (letBinding g) := by
  refine inStep_expect hts (by decide) fun first first' hfirst hk => ?_
  refine inStep_accepted hts (by decide) hk fun mutable n₁ h₁ hk => ?_
  refine inStep_expect hts (by decide) fun name name' hname hk => ?_
  refine (inStep_declaredType hts hk).bind fun n₂ w w' h₂ hk hw => ?_
  refine inStep_expect hts (by decide) fun _ _ _ hk => ?_
  refine (hg.expr false hk).bind fun n₃ init init' h₃ hk hinit => ?_
  refine inStep_peek hts fun behind behind' hbehind => ?_
  rw [hbehind.kind hts, hname.text hts]
  split
  · exact inStep_refuse_bind hbehind
  refine inStep_spanFrom hts hfirst (by omega) hk fun s s' hs => inStep_pure hk ?_
  exact .letBinding (.fresh hs) (.owned ⟨rfl, .bound, rfl, hname.span (by omega), .empty⟩) hw hinit

/-- Parameters that match are read. -/
abbrev ParamAligned (ts ts' : List Token) (_ : Nat) : Param → Param → Prop := Param.Matches (layout ts ts')

private theorem inStep_param (hk : k < ts.length) : InStep ts ts' k (ParamAligned ts ts') param param := by
  refine inStep_accepted hts (by decide) hk fun mutable n₁ h₁ hk => ?_
  refine inStep_expect hts (by decide) fun name name' hname hk => ?_
  refine inStep_expect hts (by decide) fun _ _ _ hk => ?_
  refine (inStep_type hts hk).bind fun n₂ w w' h₂ hk hw => inStep_pure hk ?_
  exact ⟨⟨hname.text hts, .argument, rfl, hname.span (by omega), .empty⟩, hw⟩

/-- Heads of functions that match are read. -/
abbrev HeaderAligned (ts ts' : List Token) (_ : Nat) : Header → Header → Prop := Header.Matches (layout ts ts')

private theorem inStep_header (exported : Bool) :
    InStep ts ts' k (HeaderAligned ts ts') (header exported) (header exported) := by
  refine inStep_expect hts (by decide) fun _ _ _ hk => ?_
  refine inStep_expect hts (by decide) fun name name' hname hk => ?_
  refine inStep_expect hts (by decide) fun _ _ _ hk => ?_
  refine (inStep_separated hts (by decide) (fun k hk => inStep_param hts hk) hk).bind fun n₁ ps ps' h₁ hk hps => ?_
  refine (inStep_returnType hts (fun k hk => inStep_type hts hk) hk).bind fun n₂ r r' h₂ hk hr => inStep_pure hk ?_
  exact ⟨hname.text hts, hname.span (by omega), rfl, hps, hr⟩

private theorem inStep_nestedFunction (hg : g.InStep ts ts') :
    InStep ts ts' k (ExprAligned ts ts') (nestedFunction g) (nestedFunction g) := by
  refine (inStep_header hts false).bind fun n₁ h h' h₁ hk hh => ?_
  refine (hg.block hk).bind fun n₂ b b' h₂ hk hb => inStep_pure hk ?_
  exact .function (.fresh hh.span) hh hb

private theorem inStep_statement (hg : g.InStep ts ts') (hk : k < ts.length) :
    InStep ts ts' k (ExprAligned ts ts') (statement g) (statement g) := by
  refine inStep_peek hts fun t t' ht => ?_
  rw [ht.kind hts]
  split
  · exact inStep_letBinding hts hg
  · exact hg.primary false hk
  · exact hg.primary false hk
  · exact hg.primary false hk
  · exact hg.primary false hk
  · exact inStep_nestedFunction hts hg
  · exact hg.expr false hk

omit hts in
private theorem isBlockLike_matches {m : Matching} {e e' : Expr} (h : e.Matches m e') :
    e'.isBlockLike = e.isBlockLike := by
  cases h <;> rfl

omit hts in
theorem isFunction_matches {m : Matching} {e e' : Expr} (h : e.Matches m e') : e'.isFunction = e.isFunction := by
  cases h <;> rfl

/-- Statements that match are read. -/
abbrev StatementsAligned (ts ts' : List Token) (_ : Nat) (r r' : List Expr × Option Expr) : Prop :=
  List.Forall₂ (Expr.Matches (layout ts ts')) r.1 r'.1 ∧ Option.Rel (Expr.Matches (layout ts ts')) r.2 r'.2

private theorem inStep_statements (hg : g.InStep ts ts') (bound : Nat) (hk : k < ts.length) :
    InStep ts ts' k (StatementsAligned ts ts') (statements g bound) (statements g bound) := by
  induction bound generalizing k with
  | zero => exact inStep_fail
  | succ bound ih =>
    rw [statements]
    refine inStep_accept hts (by decide) (fun hk => inStep_pure hk ⟨.nil, .none⟩) ?_
    refine (inStep_statement hts hg hk).bind fun n₁ e e' h₁ hk he => ?_
    refine inStep_accepted hts (by decide) hk fun ended n₂ h₂ hk => ?_
    have hmore : InStep ts ts' n₂ (StatementsAligned ts ts')
        (do
          let r ← statements g bound
          return (e :: r.1, r.2))
        (do
          let r ← statements g bound
          return (e' :: r.1, r.2)) :=
      (ih hk).bind fun n₃ r r' _ hk hr => inStep_pure hk ⟨.cons he hr.1, hr.2⟩
    rw [isFunction_matches he, isBlockLike_matches he]
    split
    · exact hmore
    refine inStep_accept hts (by decide) (fun hk => inStep_pure hk ⟨.nil, .some he⟩) ?_
    simp only [Bool.false_eq_true, if_false]
    split
    · exact hmore
    · exact inStep_peek hts fun t t' ht => inStep_refuse ht

private theorem inStep_block (hg : g.InStep ts ts') : InStep ts ts' k (BlockAligned ts ts') (block g) (block g) := by
  refine inStep_expect hts (by decide) fun first first' hfirst hk => inStep_tokensLeft hts fun bound => ?_
  refine (inStep_statements hts hg (bound + 1) hk).bind fun n r r' h₁ hk hr => ?_
  obtain ⟨stmts, tail⟩ := r
  obtain ⟨stmts', tail'⟩ := r'
  refine inStep_spanFrom hts hfirst (by omega) hk fun s s' hs => inStep_pure hk ?_
  exact .block (.fresh hs) .none hr.1 hr.2

/-! ### Primary expressions -/

private theorem inStep_arguments (hg : g.InStep ts ts') :
    InStep ts ts' k (fun n es es' => k < n ∧ List.Forall₂ (Expr.Matches (layout ts ts')) es es') (arguments g)
      (arguments g) := by
  refine inStep_expect hts (by decide) fun _ _ _ hk => ?_
  refine (inStep_separated hts (by decide) (fun k hk => hg.expr false hk) hk).imp fun n es es' h₁ hes => ?_
  exact ⟨by omega, hes⟩

private theorem inStep_fieldInit (hg : g.InStep ts ts') :
    InStep ts ts' k (fun _ => FieldInit.Matches (layout ts ts') (Expr.Matches (layout ts ts'))) (fieldInit g)
      (fieldInit g) := by
  refine inStep_expect hts (by decide) fun name name' hname hk => ?_
  refine inStep_expect hts (by decide) fun _ _ _ hk => ?_
  refine (hg.expr false hk).bind fun n e e' h₁ hk he => ?_
  rw [hname.text hts]
  exact inStep_pure hk ⟨hname.span (by omega), he⟩

private theorem inStep_named (hg : g.InStep ts ts') {noStruct : Bool} (ht : Counterparts ts ts' k t t')
    (hkind : t.kind = .identifier) : InStep ts ts' k (ExprAligned ts ts') (named g noStruct) (named g noStruct) := by
  refine inStep_advance hts ht (by simp [hkind]) fun hk => ?_
  refine inStep_follows hts fun u u' hu => ?_
  rw [ht.text hts]
  split
  · rename_i hbrace
    refine inStep_advance hts hu (by simp_all) fun hk => ?_
    refine (inStep_separated hts (by decide) (fun _ _ => inStep_fieldInit hts hg) hk).bind fun n fs fs' h₁ hk hfs => ?_
    exact inStep_spanFrom hts ht (by omega) hk fun s s' hs => inStep_pure hk (.structLiteral (.fresh hs) hfs)
  · exact inStep_pure hk (.identifier (.fresh (ht.span hk)) .none)

private theorem inStep_parenthesised (hg : g.InStep ts ts') (ht : Counterparts ts ts' k t t')
    (hkind : t.kind = .leftParen) :
    InStep ts ts' k (ExprAligned ts ts') (parenthesised g) (parenthesised g) := by
  refine inStep_advance hts ht (by simp [hkind]) fun hk => ?_
  refine (hg.expr false hk).bind fun n e e' h₁ hk he => ?_
  exact inStep_expect hts (by decide) fun _ _ _ hk => inStep_pure hk he

private theorem inStep_elseBranch (hg : g.InStep ts ts') (hk : k < ts.length) :
    InStep ts ts' k (fun n => Option.Rel (ExprAligned ts ts' n)) (elseBranch g) (elseBranch g) := by
  refine inStep_accept hts (by decide) (fun hk => ?_) (inStep_pure hk .none)
  refine inStep_follows hts fun u u' hu => ?_
  split
  · exact (hg.primary false hk).bind fun n e e' h₁ hk he => inStep_pure hk (.some he)
  · exact (hg.block hk).bind fun n b b' h₁ hk hb => inStep_pure hk (.some hb)

private theorem inStep_ifElse (hg : g.InStep ts ts') (ht : Counterparts ts ts' k t t') (hkind : t.kind ≠ .endOfInput) :
    InStep ts ts' k (ExprAligned ts ts') (ifElse g) (ifElse g) := by
  refine inStep_advance hts ht hkind fun hk => ?_
  refine (hg.expr true hk).bind fun n₁ cond cond' h₁ hk hcond => ?_
  refine (hg.block hk).bind fun n₂ body body' h₂ hk hbody => ?_
  refine (inStep_elseBranch hts hg hk).bind fun n₃ other other' h₃ hk hother => ?_
  exact inStep_spanFrom hts ht (by omega) hk fun s s' hs => inStep_pure hk (.ifElse (.fresh hs) hcond hbody hother)

private theorem inStep_whileLoop (hg : g.InStep ts ts') (ht : Counterparts ts ts' k t t')
    (hkind : t.kind ≠ .endOfInput) :
    InStep ts ts' k (ExprAligned ts ts') (whileLoop g) (whileLoop g) := by
  refine inStep_advance hts ht hkind fun hk => ?_
  refine (hg.expr true hk).bind fun n₁ cond cond' h₁ hk hcond => ?_
  refine (hg.block hk).bind fun n₂ body body' h₂ hk hbody => ?_
  exact inStep_spanFrom hts ht (by omega) hk fun s s' hs => inStep_pure hk (.whileLoop (.fresh hs) hcond hbody)

private theorem inStep_endlessLoop (hg : g.InStep ts ts') (ht : Counterparts ts ts' k t t')
    (hkind : t.kind ≠ .endOfInput) :
    InStep ts ts' k (ExprAligned ts ts') (endlessLoop g) (endlessLoop g) := by
  refine inStep_advance hts ht hkind fun hk => ?_
  refine (hg.block hk).bind fun n body body' h₁ hk hbody => ?_
  exact inStep_spanFrom hts ht (by omega) hk fun s s' hs => inStep_pure hk (.endlessLoop (.fresh hs) hbody)

private theorem inStep_leaveFunction (hg : g.InStep ts ts') (ht : Counterparts ts ts' k t t')
    (hkind : t.kind ≠ .endOfInput) :
    InStep ts ts' k (ExprAligned ts ts') (leaveFunction g) (leaveFunction g) := by
  refine inStep_advance hts ht hkind fun hk => ?_
  have hresult : InStep ts ts' (k + 1) (fun n => Option.Rel (ExprAligned ts ts' n)) (returned g) (returned g) := by
    refine inStep_peek hts fun behind behind' hbehind => ?_
    rw [hbehind.kind hts]
    split
    · exact inStep_pure hk .none
    · exact (hg.expr false hk).bind fun n e e' h₁ hk he => inStep_pure hk (.some he)
  refine hresult.bind fun n e e' h₁ hk he => ?_
  exact inStep_spanFrom hts ht (by omega) hk fun s s' hs => inStep_pure hk (.leaveFunction (.fresh hs) he)

private theorem inStep_builtinCall (hg : g.InStep ts ts') (ht : Counterparts ts ts' k t t')
    (hkind : t.kind ≠ .endOfInput) :
    InStep ts ts' k (ExprAligned ts ts') (builtinCall g) (builtinCall g) := by
  refine inStep_advance hts ht hkind fun hk => ?_
  refine inStep_expect hts (by decide) fun name name' hname hk => ?_
  refine (inStep_arguments hts hg).bind fun n es es' _ hk hes => ?_
  rw [hname.text hts]
  exact inStep_spanFrom hts ht (by omega) hk fun s s' hs => inStep_pure hk (.builtinCall (.fresh hs) hes.2)

private theorem inStep_primary (hg : g.InStep ts ts') (noStruct : Bool) :
    InStep ts ts' k (ExprAligned ts ts') (primary g noStruct) (primary g noStruct) := by
  refine inStep_peek hts fun t t' ht => ?_
  rw [ht.kind hts]
  split
  · exact inStep_integerLiteral hts ht ‹_›
  · exact inStep_floatLiteral hts ht ‹_›
  · exact inStep_advance hts ht (by simp_all) fun hk => inStep_pure hk (.boolean (.fresh (ht.span hk)))
  · exact inStep_advance hts ht (by simp_all) fun hk => inStep_pure hk (.boolean (.fresh (ht.span hk)))
  · exact inStep_named hts hg ht ‹_›
  · exact inStep_parenthesised hts hg ht ‹_›
  · exact (inStep_block hts hg).bind fun n b b' h₁ hk hb => inStep_pure hk hb
  · exact inStep_ifElse hts hg ht (by simp_all)
  · exact inStep_whileLoop hts hg ht (by simp_all)
  · exact inStep_endlessLoop hts hg ht (by simp_all)
  · exact inStep_advance hts ht (by simp_all) fun hk => inStep_pure hk (.leaveLoop (.fresh (ht.span hk)))
  · exact inStep_advance hts ht (by simp_all) fun hk => inStep_pure hk (.nextRound (.fresh (ht.span hk)))
  · exact inStep_leaveFunction hts hg ht (by simp_all)
  · exact inStep_builtinCall hts hg ht (by simp_all)
  · exact inStep_refuse ht

/-! ### Operations -/

private theorem inStep_accesses (hg : g.InStep ts ts') {n : Nat} (ht : Counterparts ts ts' n t t')
    (bound : Nat) {e e' : Expr}
    (he : e.Matches (layout ts ts') e') (hn : n ≤ k) (hk : k < ts.length) :
    InStep ts ts' k (ExprAligned ts ts') (accesses g t bound e) (accesses g t' bound e') := by
  induction bound generalizing k e e' with
  | zero => exact inStep_fail
  | succ bound ih =>
    rw [accesses, accesses]
    refine inStep_accept hts (by decide) (fun hk => ?_) ?_
    · refine inStep_expect hts (by decide) fun name name' hname hk => ?_
      rw [hname.text hts]
      have hs := hname.span (by omega)
      exact ih (.member (.fresh (hts.join he.span hs)) he hs) (by omega) hk
    · refine inStep_follows hts fun u u' hu => ?_
      split
      · refine (inStep_arguments hts hg).bind fun l es es' h₁ hk hes => ?_
        refine inStep_spanFrom hts ht (by omega) hk fun s s' hs => ?_
        exact ih (.call (.fresh hs) he hes.2) (by omega) hk
      · exact inStep_pure hk he

private theorem inStep_accessed (hg : g.InStep ts ts') (noStruct : Bool) :
    InStep ts ts' k (ExprAligned ts ts') (accessed g noStruct) (accessed g noStruct) := by
  refine inStep_peek hts fun t t' ht => ?_
  refine (inStep_primary hts hg noStruct).bind fun n e e' h₁ hn he => inStep_tokensLeft hts fun bound => ?_
  exact inStep_accesses hts hg ht (bound + 1) he h₁ hn

private theorem inStep_unaryOperation (hg : g.InStep ts ts') {noStruct : Bool} {op : UnaryOp}
    (ht : Counterparts ts ts' k t t')
    (hkind : t.kind ≠ .endOfInput) :
    InStep ts ts' k (ExprAligned ts ts') (unaryOperation g noStruct op) (unaryOperation g noStruct op) := by
  refine inStep_advance hts ht hkind fun hk => ?_
  refine (hg.unary noStruct hk).bind fun n e e' h₁ hk he => ?_
  exact inStep_spanFrom hts ht (by omega) hk fun s s' hs => inStep_pure hk (.unary (.fresh hs) he)

private theorem inStep_unary (hg : g.InStep ts ts') (noStruct : Bool) (hk : k < ts.length) :
    InStep ts ts' k (ExprAligned ts ts') (unary g noStruct) (unary g noStruct) := by
  refine inStep_peek hts fun t t' ht => ?_
  rw [ht.kind hts]
  split
  · refine (inStep_smallestInteger? hts ht ‹_› hk).bind fun n o o' h₁ hk ho => ?_
    obtain ⟨ho, hstay⟩ := ho
    cases ho with
    | some he => exact inStep_pure hk he
    | none =>
      obtain rfl := hstay rfl
      exact inStep_unaryOperation hts hg ht (by simp_all)
  · exact inStep_unaryOperation hts hg ht (by simp_all)
  · exact inStep_unaryOperation hts hg ht (by simp_all)
  · exact inStep_accessed hts hg noStruct

/-- Operators with operands that match are read. -/
abbrev OperandsAligned (ts ts' : List Token) : List (BinaryOp × Expr) → List (BinaryOp × Expr) → Prop :=
  List.Forall₂ fun r r' => r'.1 = r.1 ∧ r.2.Matches (layout ts ts') r'.2

private theorem inStep_operands (hg : g.InStep ts ts') (noStruct : Bool) (bound : Nat) (hk : k < ts.length) :
    InStep ts ts' k (fun _ => OperandsAligned ts ts') (operands g noStruct bound) (operands g noStruct bound) := by
  induction bound generalizing k with
  | zero => exact inStep_fail
  | succ bound ih =>
    rw [operands]
    refine inStep_peek hts fun t t' ht => ?_
    rw [ht.kind hts]
    split
    · exact inStep_pure hk .nil
    · rename_i op hop
      refine inStep_advance hts ht (fun hend => by rw [hend] at hop; cases hop) fun hk => ?_
      refine (inStep_unary hts hg noStruct hk).bind fun n e e' h₁ hk he => ?_
      exact (ih hk).bind fun l rest rest' h₂ hk hrest => inStep_pure hk (.cons ⟨rfl, he⟩ hrest)

private theorem joinLevel_aligned (level : Nat) {e e' : Expr} {rest rest' : List (BinaryOp × Expr)}
    (he : e.Matches (layout ts ts') e') (hrest : OperandsAligned ts ts' rest rest') :
    (Expr.joinLevel level e rest).1.Matches (layout ts ts') (Expr.joinLevel level e' rest').1 ∧
      OperandsAligned ts ts' (Expr.joinLevel level e rest).2 (Expr.joinLevel level e' rest').2 := by
  induction hrest generalizing e e' with
  | nil => exact ⟨he, .nil⟩
  | @cons r r' rest rest' hr hrest ih =>
    obtain ⟨op, next⟩ := r
    obtain ⟨op', next'⟩ := r'
    obtain ⟨rfl, hnext⟩ : op' = op ∧ next.Matches (layout ts ts') next' := hr
    rw [Expr.joinLevel, Expr.joinLevel]
    split
    · exact ih (.binary (.fresh (hts.join he.span hnext.span)) he hnext)
    · obtain ⟨hfirst, hbehind⟩ := ih hnext
      exact ⟨he, .cons ⟨rfl, hfirst⟩ hbehind⟩

private theorem ofOperands_aligned {e e' : Expr} {rest rest' : List (BinaryOp × Expr)}
    (he : e.Matches (layout ts ts') e')
    (hrest : OperandsAligned ts ts' rest rest') :
    (Expr.ofOperands e rest).Matches (layout ts ts') (Expr.ofOperands e' rest') := by
  unfold Expr.ofOperands
  generalize [7, 6, 5, 4, 3, 2, 1, 0] = levels
  induction levels generalizing e e' rest rest' with
  | nil => exact he
  | cons level levels ih =>
    obtain ⟨hfirst, hbehind⟩ := joinLevel_aligned hts level he hrest
    exact ih hfirst hbehind

private theorem inStep_binary (hg : g.InStep ts ts') (noStruct : Bool) (hk : k < ts.length) :
    InStep ts ts' k (ExprAligned ts ts') (binary g noStruct) (binary g noStruct) := by
  refine (inStep_unary hts hg noStruct hk).bind fun n₁ e e' h₁ hk he => inStep_tokensLeft hts fun bound => ?_
  refine (inStep_operands hts hg noStruct (bound + 1) hk).bind fun n₂ rest rest' h₂ hk hrest => ?_
  exact inStep_pure hk (ofOperands_aligned hts he hrest)

private theorem inStep_expr (hg : g.InStep ts ts') (noStruct : Bool) (hk : k < ts.length) :
    InStep ts ts' k (ExprAligned ts ts') (expr g noStruct) (expr g noStruct) := by
  refine (inStep_binary hts hg noStruct hk).bind fun n₁ target target' h₁ hk htarget => ?_
  refine inStep_accept hts (by decide) (fun hk => ?_) (inStep_pure hk htarget)
  refine (hg.expr noStruct hk).bind fun n₃ source source' h₃ hk hsource => inStep_pure hk ?_
  exact .assignment (.fresh (hts.join htarget.span hsource.span)) htarget hsource

private theorem inStep_grammar (depth : Nat) : (grammar depth).InStep ts ts' := by
  induction depth with
  | zero => exact ⟨fun _ _ _ => inStep_fail, fun _ _ _ => inStep_fail, fun _ _ _ => inStep_fail, fun _ => inStep_fail⟩
  | succ depth ih =>
    exact ⟨fun b _ hk => inStep_expr hts ih b hk, fun b _ hk => inStep_unary hts ih b hk,
      fun b _ _ => inStep_primary hts ih b, fun _ => inStep_block hts ih⟩

/-! ### Declarations -/

private theorem inStep_fieldDecl :
    InStep ts ts' k (fun _ => FieldDecl.Matches (Aligned ts ts')) fieldDecl fieldDecl := by
  refine inStep_expect hts (by decide) fun name name' hname hk => ?_
  refine inStep_expect hts (by decide) fun _ _ _ hk => ?_
  refine (inStep_type hts hk).bind fun n w w' h₁ hk hw => inStep_pure hk ?_
  exact ⟨hname.text hts, hname.span (by omega), hw⟩

private theorem inStep_structDecl (exported : Bool) :
    InStep ts ts' k (fun _ => StructDecl.Matches (Aligned ts ts')) (structDecl exported) (structDecl exported) := by
  refine inStep_expect hts (by decide) fun _ _ _ hk => ?_
  refine inStep_expect hts (by decide) fun name name' hname hk => ?_
  refine inStep_expect hts (by decide) fun _ _ _ hk => ?_
  refine (inStep_separated hts (by decide) (fun _ _ => inStep_fieldDecl hts) hk).bind fun n fs fs' h₁ hk hfs =>
    inStep_pure hk ?_
  exact ⟨hname.text hts, hname.span (by omega), rfl, hfs⟩

private theorem inStep_functionDecl (exported : Bool) :
    InStep ts ts' k (fun _ => FunctionDecl.Matches (layout ts ts')) (functionDecl exported)
      (functionDecl exported) := by
  refine (inStep_header hts exported).bind fun n₁ h h' h₁ hk hh => inStep_tokensLeft hts fun depth => ?_
  refine ((inStep_grammar hts (depth + 1)).block hk).bind fun n₂ b b' h₂ hk hb => inStep_pure hk ?_
  exact ⟨.fresh hh.span, hh, hb⟩

private theorem inStep_decl (hk : k < ts.length) :
    InStep ts ts' k (fun _ => Decl.Matches (layout ts ts')) decl decl := by
  refine inStep_accepted hts (by decide) hk fun exported n₁ h₁ hk => inStep_peek hts fun t t' ht => ?_
  rw [ht.kind hts]
  split
  · exact (inStep_functionDecl hts exported).bind fun n f f' h₂ hk hf => inStep_pure hk (.function hf)
  · exact (inStep_structDecl hts exported).bind fun n d d' h₂ hk hd => inStep_pure hk (.struct hd)
  · exact inStep_refuse ht

private theorem inStep_decls (bound : Nat) (hk : k < ts.length) :
    InStep ts ts' k (fun _ => List.Forall₂ (Decl.Matches (layout ts ts'))) (decls bound) (decls bound) := by
  induction bound generalizing k with
  | zero => exact inStep_fail
  | succ bound ih =>
    rw [decls]
    refine inStep_follows hts fun t t' ht => ?_
    split
    · exact inStep_pure hk .nil
    refine (inStep_decl hts hk).bind fun n d d' h₁ hk hd => ?_
    exact (ih hk).bind fun l ds ds' h₂ hk hds => inStep_pure hk (.cons hd hds)

end Parser

/-- From tokens with the same kinds and texts declarations are read that match, or the same token is refused. -/
theorem Decl.ofTokens_aligned {ts ts' : List Token} (hts : SameWords ts ts') :
    Except.Rel (Stop.Aligned ts ts') (List.Forall₂ (Decl.Matches (layout ts ts'))) (Decl.ofTokens ts)
      (Decl.ofTokens ts') := by
  have hstart : ∀ ts : List Token, Input.At ts 0 { tokens := ts } :=
    fun ts => ⟨rfl, fun h => absurd h (Nat.lt_irrefl 0)⟩
  obtain ⟨t, rest, hcons⟩ := hts.left.sequence.exists_cons
  have hsome : 0 < ts.length := by
    rw [hcons]
    exact Nat.zero_lt_succ _
  have hread := Parser.inStep_decls hts (ts.length + 1) hsome _ _ (hstart ts) (hstart ts')
  unfold Decl.ofTokens
  rw [hts.length]
  exact hread.bind fun r r' ⟨_, _, _, _, _, hds⟩ => .ok hds

end RainCheck

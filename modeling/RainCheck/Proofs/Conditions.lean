import RainCheck.Proofs.Parts

/-!
# Struct literals in conditions

In the condition of an `if` or a `while` a name in front of a brace is not meant to start a struct literal, unless a
bracket is open.  What is read in the result of a `return` is not restricted any more, so there a literal gets through.
-/

namespace RainCheck

/--
A struct literal in the condition of a conditional or of a loop stands behind a bracket that is opened in the condition,
or in the result of a `return` whose word stands in the condition behind no open bracket.
-/
theorem literal_of_condition {tokens : List Token} {decls : List Decl} {d : Decl} {n cond literal : Expr}
    (htokens : TokenSequence tokens) (hread : Decl.ofTokens tokens = .ok decls) (hd : d ∈ decls) (hn : n ∈ d.nodes)
    (hcond : n.condition? = some cond) (hmem : literal ∈ cond.nodes) (hliteral : literal.isStructLiteral = true) :
    ∃ before word between name rest behind, tokens = before ++ (word :: (between ++ name :: rest)) ++ behind ∧
      n.span.start = word.span.start ∧ literal.span.start = name.span.start ∧
      Derives (.expr true cond) (between ++ name :: rest) ∧
      (0 < depth between ∨ BehindReturn cond.nodes literal between) := by
  have hmark : n.isLandmark = true := by cases n <;> first | rfl | cases hcond
  obtain ⟨before, part, behind, htokens, hpart⟩ := Decl.built_of_tokens htokens hread hd hn hmark
  cases hpart with
  | block | structLiteral | endlessLoop => cases hcond
  | @conditional _ cond' word used rest hcond' hword hstart hused =>
    cases hcond.symm.trans hcond'
    have hlandmark : literal.isLandmark = true := by simp [Expr.isLandmark, hliteral]
    obtain ⟨between, inner, after, rfl, hinner, hdepth⟩ := hused.parts literal hmem hlandmark
    cases hinner with
    | block | endlessLoop => cases hliteral
    | conditional hform =>
      cases literal with
      | structLiteral => cases hform
      | _ => cases hliteral
    | @structLiteral name inner _ _ _ _ hname =>
      exact ⟨before, word, between, name, inner ++ after, rest ++ behind, by simpa using htokens, hstart, hname,
        by simpa using hused, (hdepth hliteral).2 rfl⟩

/-- The tokens of `fn f() {if return S{x:1} {}}`. -/
def returnedLiteral : List Token :=
  [⟨.keyword .fnWord, .ofLength 0 2, "fn"⟩, ⟨.identifier, .ofLength 3 1, "f"⟩, ⟨.leftParen, .ofLength 4 1, "("⟩,
    ⟨.rightParen, .ofLength 5 1, ")"⟩, ⟨.leftBrace, .ofLength 7 1, .ofList ['{']⟩,
    ⟨.keyword .ifWord, .ofLength 8 2, "if"⟩,
    ⟨.keyword .returnWord, .ofLength 11 6, "return"⟩, ⟨.identifier, .ofLength 18 1, "S"⟩,
    ⟨.leftBrace, .ofLength 19 1, .ofList ['{']⟩, ⟨.identifier, .ofLength 20 1, "x"⟩, ⟨.colon, .ofLength 21 1, ":"⟩,
    ⟨.integer, .ofLength 22 1, "1"⟩, ⟨.rightBrace, .ofLength 23 1, .ofList ['}']⟩,
    ⟨.leftBrace, .ofLength 25 1, .ofList ['{']⟩,
    ⟨.rightBrace, .ofLength 26 1, .ofList ['}']⟩, ⟨.rightBrace, .ofLength 27 1, .ofList ['}']⟩,
    ⟨.endOfInput, .ofLength 28 0, ""⟩]

private theorem returnedLiteral_stream : TokenStream returnedLiteral :=
  ⟨by decide, by decide, returnedLiteral.dropLast, _, rfl, rfl, by decide⟩

/-- The literal that is returned stands behind no bracket of its condition. -/
theorem literal_returned : ∃ decls d n cond literal before word between name behind, TokenStream returnedLiteral ∧
    Decl.ofTokens returnedLiteral = .ok decls ∧ d ∈ decls ∧ n ∈ d.nodes ∧ n.condition? = some cond ∧
      literal ∈ cond.nodes ∧ literal.isStructLiteral = true ∧
      returnedLiteral = before ++ word :: (between ++ name :: behind) ∧ n.span.start = word.span.start ∧
      literal.span.start = name.span.start ∧ depth between = 0 :=
  ⟨_, _, _, _, _, returnedLiteral.take 5, _, [returnedLiteral[6]], _, _, returnedLiteral_stream, rfl, .head _,
    .tail _ (.head _), rfl, .tail _ (.head _), rfl, rfl, rfl, rfl, rfl⟩

/-- The tokens of `fn f() {while g(S{}) {}}`. -/
def passedLiteral : List Token :=
  [⟨.keyword .fnWord, .ofLength 0 2, "fn"⟩, ⟨.identifier, .ofLength 3 1, "f"⟩, ⟨.leftParen, .ofLength 4 1, "("⟩,
    ⟨.rightParen, .ofLength 5 1, ")"⟩, ⟨.leftBrace, .ofLength 7 1, .ofList ['{']⟩,
    ⟨.keyword .whileWord, .ofLength 8 5, "while"⟩, ⟨.identifier, .ofLength 14 1, "g"⟩,
    ⟨.leftParen, .ofLength 15 1, "("⟩, ⟨.identifier, .ofLength 16 1, "S"⟩, ⟨.leftBrace, .ofLength 17 1, .ofList ['{']⟩,
    ⟨.rightBrace, .ofLength 18 1, .ofList ['}']⟩, ⟨.rightParen, .ofLength 19 1, ")"⟩,
    ⟨.leftBrace, .ofLength 21 1, .ofList ['{']⟩,
    ⟨.rightBrace, .ofLength 22 1, .ofList ['}']⟩, ⟨.rightBrace, .ofLength 23 1, .ofList ['}']⟩,
    ⟨.endOfInput, .ofLength 24 0, ""⟩]

theorem literal_of_condition_passedLiteral : ∃ decls d n cond literal, TokenSequence passedLiteral ∧
    Decl.ofTokens passedLiteral = .ok decls ∧ d ∈ decls ∧ n ∈ d.nodes ∧ n.condition? = some cond ∧
    literal ∈ cond.nodes ∧ literal.isStructLiteral = true ∧
    ∃ before word between name rest behind, passedLiteral = before ++ (word :: (between ++ name :: rest)) ++ behind ∧
      n.span.start = word.span.start ∧ literal.span.start = name.span.start ∧
      Derives (.expr true cond) (between ++ name :: rest) ∧
      (0 < depth between ∨ BehindReturn cond.nodes literal between) := by
  have hsequence : TokenSequence passedLiteral := ⟨by decide, passedLiteral.dropLast, _, rfl, rfl, by decide⟩
  obtain ⟨decls, d, n, cond, literal, hread, hd, hn, hcond, hmem, hliteral⟩ :
      ∃ decls d n cond literal, Decl.ofTokens passedLiteral = .ok decls ∧ d ∈ decls ∧ n ∈ d.nodes ∧
        n.condition? = some cond ∧ literal ∈ cond.nodes ∧ literal.isStructLiteral = true :=
    ⟨_, _, _, _, _, rfl, .head _, .tail _ (.head _), rfl, .tail _ (.tail _ (.head _)), rfl⟩
  exact ⟨decls, d, n, cond, literal, hsequence, hread, hd, hn, hcond, hmem, hliteral,
    literal_of_condition hsequence hread hd hn hcond hmem hliteral⟩

end RainCheck

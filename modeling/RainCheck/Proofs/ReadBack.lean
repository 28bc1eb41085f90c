import Mathlib.Data.List.Forall2
import RainCheck.Proofs.Literals
import RainCheck.Proofs.ReadingExpr
import RainCheck.Proofs.Symbols

/-!
# Reading a tree back

What is read is all there is: the symbols of a tree are the tokens it was read from, in their order.
* Parentheses, commas and semicolons leave no trace in a tree, so they are left out on both sides (`ReadsAs`).
* A token is `Spelled` if its kind tells its text: marks and reserved words are written in one way.
  Names count by their text and numbers by their value (`Symbol.Says`).
* Operators that are joined level by level keep their order, and none of them gets lost (`Expr.readsAs_ofOperands`).
-/

namespace RainCheck

/-- Whether tokens of this kind only group or separate others. -/
def TokenKind.isGrouping : TokenKind → Bool
  | .leftParen | .rightParen | .comma | .semicolon => true
  | _ => false

/-- A symbol says what a token says: the same word, or the value of a number. -/
inductive Symbol.Says : Symbol → Token → Prop where
  | word {t : Token} : Says (.word t.toWord) t
  | integer {t : Token} {n : Nat} (ht : t.kind = .integer) (hn : Literal.integer? t.text.toList = some (n : Int)) :
      Says (.integer n) t
  | float {t : Token} {span : Span} {x : Float} (ht : t.kind = .float) (hx : Literal.float? t.text.toList = some x) :
      Says (.float span x) t

/-- The symbols that do not only group or separate others. -/
def Symbol.ungrouped (symbols : List Symbol) : List Symbol := symbols.filter fun x => !x.kind.isGrouping

private theorem Symbol.ungrouped_append (xs ys : List Symbol) : ungrouped (xs ++ ys) = ungrouped xs ++ ungrouped ys :=
  List.filter_append ..

private theorem Symbol.ungrouped_parens (xs : List Symbol) : ungrouped (parens xs) = ungrouped xs := by
  rw [parens, List.cons_append, ungrouped, List.filter_cons_of_neg (by decide), List.filter_append,
    List.filter_cons_of_neg (by decide), List.filter_nil, List.append_nil, ungrouped]

/-- Symbols that say the same as tokens, up to grouping. -/
def ReadsAs (symbols : List Symbol) (tokens : List Token) : Prop :=
  List.Forall₂ Symbol.Says (Symbol.ungrouped symbols) (tokens.filter fun t => !t.kind.isGrouping)

theorem Expr.symbolsAll_eq (es : List Expr) : symbolsAll es = es.map fun e => Symbol.parens e.symbols := by
  induction es with
  | nil => rfl
  | cons e rest ih => rw [symbolsAll, ih, List.map_cons]

/-- The tokens of an item are among those of the enumeration. -/
private theorem Enumerates.mem_of_piece {α : Type} {close : TokenKind} {trailing first : Bool} {u : List Token}
    {pieces : List (List Token × α)} (hlist : Enumerates close trailing first (pieces.map (·.1)) u)
    {p : List Token × α} (hp : p ∈ pieces) {t : Token} (ht : t ∈ p.1) : t ∈ u := by
  have hitem : p.1 ∈ pieces.map (·.1) := List.mem_map_of_mem hp
  generalize pieces.map (·.1) = items at hlist hitem
  induction hlist with
  | close | trailing => cases hitem
  | first _ ih =>
    rcases List.mem_cons.mp hitem with heq | hitem
    · exact List.mem_append_left _ (heq ▸ ht)
    · exact List.mem_append_right _ (ih hitem)
  | next _ _ ih =>
    rcases List.mem_cons.mp hitem with heq | hitem
    · exact List.mem_cons_of_mem _ (List.mem_append_left _ (heq ▸ ht))
    · exact List.mem_cons_of_mem _ (List.mem_append_right _ (ih hitem))

namespace ReadsAs

variable {xs ys : List Symbol} {u v : List Token} {x : Symbol} {t : Token}

private theorem nil : ReadsAs [] [] := List.Forall₂.nil

private theorem append (h : ReadsAs xs u) (h' : ReadsAs ys v) : ReadsAs (xs ++ ys) (u ++ v) := by
  unfold ReadsAs
  rw [Symbol.ungrouped_append, List.filter_append]
  exact List.rel_append h h'

/-- A symbol and the token that says the same. -/
private theorem cons (hx : x.Says t) (h : ReadsAs xs u) : ReadsAs (x :: xs) (t :: u) := by
  have hkind : x.kind = t.kind := by
    cases hx with
    | word => rfl
    | integer ht => exact ht.symm
    | float ht => exact ht.symm
  unfold ReadsAs Symbol.ungrouped
  rw [List.filter_cons, List.filter_cons, hkind]
  split
  · exact .cons hx h
  · exact h

private theorem symbol (hx : x.kind.isGrouping = true) (h : ReadsAs xs u) : ReadsAs (x :: xs) u := by
  unfold ReadsAs Symbol.ungrouped
  rw [List.filter_cons_of_neg (by simp [hx])]
  exact h

private theorem token (ht : t.kind.isGrouping = true) (h : ReadsAs xs u) : ReadsAs xs (t :: u) := by
  unfold ReadsAs
  rw [List.filter_cons_of_neg (by simp [ht])]
  exact h

private theorem parens (h : ReadsAs xs u) : ReadsAs (Symbol.parens xs) u := by
  unfold ReadsAs
  rw [Symbol.ungrouped_parens]
  exact h

/-- Items between commas, up to a closing token. -/
private theorem items {α : Type} {f : α → List Symbol} {close : TokenKind} {trailing first : Bool}
    {pieces : List (List Token × α)} (hlist : Enumerates close trailing first (pieces.map (·.1)) u)
    (hpieces : ∀ p ∈ pieces, ReadsAs (f p.2) p.1) (hclose : ∀ t ∈ u, t.kind = close → ReadsAs xs [t]) :
    ReadsAs (Symbol.listed first ((pieces.map (·.2)).map f) ++ xs) u := by
  generalize hitems : pieces.map (·.1) = items at hlist
  induction hlist generalizing pieces with
  | close ht =>
    rw [List.map_eq_nil_iff] at hitems
    subst hitems
    rw [List.map_nil, List.map_nil, Symbol.listed]
    exact hclose _ (by simp) ht
  | trailing _ hcomma ht =>
    rw [List.map_eq_nil_iff] at hitems
    subst hitems
    rw [List.map_nil, List.map_nil, Symbol.listed]
    exact .token (by simp [hcomma, TokenKind.isGrouping]) (hclose _ (by simp) ht)
  | first _ ih =>
    obtain ⟨p, rest, rfl, rfl, hrest⟩ := List.map_eq_cons_iff.mp hitems
    rw [List.map_cons, List.map_cons, Symbol.listed, List.append_assoc]
    exact (hpieces p (by simp)).append
      (ih (fun q hq => hpieces q (by simp [hq])) (fun t ht => hclose t (by simp [ht])) hrest)
  | next hcomma _ ih =>
    obtain ⟨p, rest, rfl, rfl, hrest⟩ := List.map_eq_cons_iff.mp hitems
    rw [List.map_cons, List.map_cons, Symbol.listed, List.cons_append, List.cons_append, List.append_assoc,
      List.cons_append]
    refine .symbol rfl (.token (by simp [hcomma, TokenKind.isGrouping]) ?_)
    exact (hpieces p (by simp)).append
      (ih (fun q hq => hpieces q (by simp [hq])) (fun t ht => hclose t (by simp [ht])) hrest)

/-- Arguments in parentheses. -/
private theorem arguments {pieces : List (List Token × Expr)} (ht : t.kind = .leftParen)
    (hlist : Enumerates .rightParen false true (pieces.map (·.1)) u) (hpieces : ∀ p ∈ pieces, ReadsAs p.2.symbols p.1) :
    ReadsAs (Symbol.parens (Symbol.listed true (Expr.symbolsAll (pieces.map (·.2))))) (t :: u) := by
  rw [Expr.symbolsAll_eq]
  have hitems : ReadsAs (Symbol.listed true ((pieces.map (·.2)).map fun e => Symbol.parens e.symbols) ++ []) u :=
    items (f := fun e => Symbol.parens e.symbols) hlist (fun p hp => (hpieces p hp).parens) fun t _ hkind =>
      .token (by rw [hkind, TokenKind.isGrouping]) .nil
  rw [List.append_nil] at hitems
  exact .token (by rw [ht, TokenKind.isGrouping]) hitems.parens

/-- A statement in front of others. -/
private theorem statement {e : Expr} {stmts : List Expr} {tail : Option Expr} (he : ReadsAs e.symbols u)
    (hrest : ReadsAs (Expr.symbolsStatements stmts ++ Expr.symbolsTail tail ++ [.mark .rightBrace]) v) :
    ReadsAs (Expr.symbolsStatements (e :: stmts) ++ Expr.symbolsTail tail ++ [.mark .rightBrace]) (u ++ v) := by
  have hbehind : ReadsAs (if e.isFunction then [] else [.mark .semicolon]) [] := by
    split
    · exact nil
    · exact symbol rfl nil
  have hall := (he.append hbehind).append hrest
  rw [List.append_nil] at hall
  simpa only [Expr.symbolsStatements, List.append_assoc] using hall

end ReadsAs

/-! ### How tokens are spelled -/

/-- The kind of a token tells its text, if it is a mark or a reserved word, and that an integer has no sign. -/
structure Token.Spelled (t : Token) : Prop where
  keyword : ∀ word, t.kind = .keyword word → t.text = word.text
  mark : ∀ text, Token.marks.lookup t.kind = some text → t.text = text
  integer : t.kind = .integer → Token.isInteger t.text.toList = true

namespace Token.Spelled

variable {t : Token} {kind : TokenKind} {word : Keyword}

private theorem says_keyword (h : t.Spelled) (ht : t.kind = .keyword word) : (Symbol.keyword word).Says t := by
  have heq : Symbol.keyword word = .word t.toWord := by rw [Symbol.keyword, Token.toWord, h.keyword word ht, ht]
  rw [heq]
  exact .word

private theorem says_mark (h : t.Spelled) (ht : t.kind = kind) (hkind : (Token.marks.lookup kind).isSome = true) :
    (Symbol.mark kind).Says t := by
  obtain ⟨text, htext⟩ := Option.isSome_iff_exists.mp hkind
  have heq : Symbol.mark kind = .word t.toWord := by
    rw [Symbol.mark, Token.toWord, htext, h.mark text (by rw [ht, htext]), ht, Option.getD_some]
  rw [heq]
  exact .word

end Token.Spelled

private theorem says_name {t : Token} (ht : t.kind = .identifier) : (Symbol.name t.text).Says t := by
  have heq : Symbol.name t.text = .word t.toWord := by rw [Symbol.name, Token.toWord, ht]
  rw [heq]
  exact .word

/-- A lexeme is the match of one of the rules. -/
def Lexeme.Matched (l : Lexeme TokenKind) : Prop :=
  ∃ r ∈ Token.rules, r.kind = l.kind ∧ ∃ text n, r.scanner.run text = .ok n ∧ 0 < n ∧ l.text = text.take n

namespace Lexer

variable {l l' : Lexer TokenKind}

private theorem find_matched {lexeme : Lexeme TokenKind} (hrules : l.rules = Token.rules)
    (hfind : l.find = .ok (some lexeme)) :
    lexeme.Matched := by
  have hrun : ∀ r ∈ l.rules, ∃ n, r.scanner.run l.rest = .ok n := by
    intro r hr
    rw [hrules] at hr
    exact Token.rules_run hr l.rest
  obtain ⟨⟨n, kind⟩, hfound, -, -, hcases⟩ := longest_cases hrun (0, none)
  unfold find at hfind
  split at hfind
  · cases hfind
  · rw [hfound, ok_bind] at hfind
    rcases hcases with heq | ⟨r, hr, hn, hpos, hkind⟩
    · cases heq
      cases hfind
    · simp only at hkind
      subst hkind
      cases hfind
      exact ⟨r, hrules ▸ hr, rfl, l.rest, n, hn, hpos, rfl⟩

private theorem collectAtMost_matched {bound : Nat} {lexemes : List (Lexeme TokenKind)} (hrules : l.rules = Token.rules)
    (hnone : l.lookahead = none) (hcollect : l.collectAtMost bound = .ok (lexemes, l')) : ∀ x ∈ lexemes, x.Matched := by
  induction bound generalizing l lexemes with
  | zero =>
    cases hcollect
    simp
  | succ bound ih =>
    cases hfind : l.find with
    | error f => simp [collectAtMost, hasNext, hnone, hfind] at hcollect
    | ok found =>
      cases found with
      | none =>
        rw [collectAtMost_none hnone hfind] at hcollect
        cases hcollect
        simp
      | some lexeme =>
        rw [collectAtMost_found hnone hfind] at hcollect
        cases hrest : (l.skip lexeme).collectAtMost bound with
        | error f =>
          rw [hrest] at hcollect
          cases hcollect
        | ok found =>
          obtain ⟨rest, l''⟩ := found
          rw [hrest] at hcollect
          cases hcollect
          -- a lexer that was run to its end keeps its rules too
          have hskip : (l.skip lexeme).rules = Token.rules ∧ (l.skip lexeme).lookahead = none := by
            unfold skip
            split <;> exact ⟨hrules, rfl⟩
          rw [List.forall_mem_cons]
          exact ⟨find_matched hrules hfind, ih hskip.1 hskip.2 hrest⟩

end Lexer

/-- The rule of a mark matches exactly its spelling. -/
private theorem Token.rules_mark {r : Rule TokenKind} {text : String} (hr : r ∈ rules)
    (htext : marks.lookup r.kind = some text) :
    r.scanner = .exactly text.toList := by
  have hmarks : ∀ m ∈ marks, marks.lookup m.1 = some m.2 := by decide
  have hinner :
      ∀ k ∈ [TokenKind.blank, .comment, .float, .integer, .identifier, .endOfInput], marks.lookup k = none := by
    decide
  simp only [rules, List.mem_append, List.mem_cons, List.not_mem_nil, or_false, List.mem_map] at hr
  rcases hr with ((rfl | rfl | rfl | rfl | rfl) | ⟨m, hm, rfl⟩) | rfl
  case inl.inr =>
    rw [hmarks m hm] at htext
    cases htext
    rfl
  all_goals
    rw [hinner _ (by simp)] at htext
    cases htext

private theorem Token.rules_integer {r : Rule TokenKind} (hr : r ∈ rules) (hkind : r.kind = .integer) :
    r.scanner = integer := by
  have hmarks : ∀ m ∈ marks, m.1 ≠ .integer := by decide
  simp only [rules, List.mem_append, List.mem_cons, List.not_mem_nil, or_false, List.mem_map] at hr
  rcases hr with ((rfl | rfl | rfl | rfl | rfl) | ⟨m, hm, rfl⟩) | rfl
  case inl.inr => exact absurd hkind (hmarks m hm)
  case inl.inl.inr.inr.inr.inl => rfl
  all_goals cases hkind

private theorem Lexeme.Matched.spelled {l : Lexeme TokenKind} (h : l.Matched) : (Token.ofLexeme l).Spelled := by
  obtain ⟨r, hr, hkind, text, n, hrun, hpos, htext⟩ := h
  have hwords : ∀ r ∈ Token.rules, ∀ word, r.kind ≠ .keyword word := by
    intro r hr word hword
    have hall : Token.rules.all (fun r => (Keyword.all.all fun w => r.kind != .keyword w)) = true := by decide
    have hmem : word ∈ Keyword.all := by cases word <;> decide
    have := List.all_eq_true.mp (List.all_eq_true.mp hall r hr) word hmem
    simp [hword] at this
  unfold Token.ofLexeme
  dsimp only
  split
  · rename_i word _ hword
    constructor
    · intro word' hword'
      cases hword'
      unfold Keyword.ofText? at hword
      have htold := List.find?_some hword
      exact (of_decide_eq_true htold).symm
    · intro mark hmark
      have hall : ∀ w ∈ Keyword.all, Token.marks.lookup (.keyword w) = none := by decide
      rw [hall word (by cases word <;> decide)] at hmark
      cases hmark
    · rintro ⟨⟩
  · constructor
    · intro word hword
      exact absurd (hkind.trans hword) (hwords r hr word)
    · intro mark hmark
      rw [Token.rules_mark hr (hkind ▸ hmark), Scanner.run] at hrun
      split at hrun
      · rename_i hprefix
        cases hrun
        rw [htext, ← List.prefix_iff_eq_take.mp (List.isPrefixOf_iff_prefix.mp hprefix)]
        simp
      · cases hrun
        omega
    · intro hinteger
      rw [Token.rules_integer hr (hkind.trans hinteger)] at hrun
      simpa [htext] using Token.isInteger_of_run hrun hpos

/-- The tokens of a file are made from lexemes that are neither blanks nor comments. -/
theorem SourceFile.tokens_matched {file : SourceFile} {tokens : List Token} (h : file.tokens = .ok tokens) :
    ∃ lexemes : List (Lexeme TokenKind), tokens = lexemes.map Token.ofLexeme ∧
      ∀ l ∈ lexemes, l.Matched ∧ Token.isLayout l.kind = false := by
  unfold SourceFile.tokens at h
  cases hcollect : Lexer.collect { rules := Token.rules, rest := file.contents : Lexer TokenKind } with
  | error f => simp [hcollect, Stop.lift] at h
  | ok found =>
    obtain ⟨lexemes, l'⟩ := found
    simp only [hcollect, Stop.lift, ok_bind] at h
    split at h
    · cases h
      refine ⟨_, rfl, fun l hl => ?_⟩
      obtain ⟨hl, hlayout⟩ := List.mem_filter.mp hl
      exact ⟨Lexer.collectAtMost_matched rfl rfl hcollect l hl, by simpa using hlayout⟩
    · cases h

private theorem SourceFile.tokens_spelled {file : SourceFile} {tokens : List Token} (h : file.tokens = .ok tokens) :
    ∀ t ∈ tokens, t.Spelled := by
  obtain ⟨lexemes, rfl, hlexemes⟩ := tokens_matched h
  intro t ht
  obtain ⟨l, hl, rfl⟩ := List.mem_map.mp ht
  exact (hlexemes l hl).1.spelled

/-! ### Types and heads of functions -/

theorem TypeExpr.symbolsAll_eq (ts : List TypeExpr) : symbolsAll ts = ts.map symbols := by
  induction ts with
  | nil => rfl
  | cons t rest ih => rw [symbolsAll, ih, List.map_cons]

/-- The symbols of a phrase of a type. -/
def TypePhrase.symbols : TypePhrase → List Symbol
  | .type t => t.symbols
  | .returns t => TypeExpr.symbolsReturns t

section

variable {used : List Token}

private theorem DerivesType.readsAs {phrase : TypePhrase} (h : DerivesType phrase used)
    (hspelled : ∀ t ∈ used, t.Spelled) :
    ReadsAs phrase.symbols used := by
  induction h with
  | named ht => exact .cons (says_name ht) .nil
  | reference ht _ _ ih =>
    rw [List.forall_mem_cons] at hspelled
    exact .cons (hspelled.1.says_mark ht rfl) (ih hspelled.2)
  | @function word paren pieces used behind _ _ hword hparen hlist _ _ _ ihpieces ihreturns =>
    simp only [List.forall_mem_append, List.forall_mem_cons] at hspelled
    obtain ⟨⟨hw, -, hused⟩, hbehind⟩ := hspelled
    rw [TypePhrase.symbols, TypeExpr.symbols, TypeExpr.symbolsAll_eq]
    have hparams : ReadsAs (Symbol.listed true ((pieces.map (·.2)).map TypeExpr.symbols) ++ [.mark .rightParen]) used :=
      .items hlist (fun p hp => ihpieces p hp (fun t ht => hused t (hlist.mem_of_piece hp ht))) fun t ht hkind =>
        .cons ((hused t ht).says_mark hkind rfl) .nil
    have htail := hparams.append (ihreturns hbehind)
    rw [List.append_assoc] at htail
    exact .cons (hw.says_keyword hword) (.symbol rfl (.token (by simp [hparen, TokenKind.isGrouping]) htail))
  | nothing => exact .nil
  | result harrow _ ih =>
    rw [List.forall_mem_cons] at hspelled
    exact .cons (hspelled.1.says_mark harrow rfl) (ih hspelled.2)

private theorem DerivesMutable.readsAs {mutable : Bool} (h : DerivesMutable mutable used)
    (hspelled : ∀ t ∈ used, t.Spelled) :
    ReadsAs (mutableSymbols mutable) used := by
  cases h with
  | no => exact .nil
  | yes ht => exact .cons ((hspelled _ (by simp)).says_keyword ht) .nil

private theorem DerivesParam.readsAs {p : Param} (h : DerivesParam p used) (hspelled : ∀ t ∈ used, t.Spelled) :
    ReadsAs p.symbols used := by
  cases h with
  | param hmark hname hcolon hdeclared =>
    simp only [List.forall_mem_append, List.forall_mem_cons] at hspelled
    obtain ⟨hm, -, hc, hd⟩ := hspelled
    exact (hmark.readsAs hm).append (.cons (says_name hname) (.cons (hc.says_mark hcolon rfl) (hdeclared.readsAs hd)))

private theorem DerivesHeader.readsAs {exported : Bool} {header : Header} (h : DerivesHeader exported header used)
    (hspelled : ∀ t ∈ used, t.Spelled) : ReadsAs header.symbols used := by
  cases h with
  | @header word name paren pieces used behind _ hword hname hparen hlist hpieces hreturns =>
    simp only [List.forall_mem_append, List.forall_mem_cons] at hspelled
    obtain ⟨⟨hw, -, -, hused⟩, hbehind⟩ := hspelled
    have hparams : ReadsAs (Symbol.listed true ((pieces.map (·.2)).map Param.symbols) ++ [.mark .rightParen]) used :=
      .items hlist (fun p hp => (hpieces p hp).readsAs fun t ht => hused t (hlist.mem_of_piece hp ht)) fun t ht hkind =>
        .cons ((hused t ht).says_mark hkind rfl) .nil
    have htail := hparams.append (hreturns.readsAs hbehind)
    rw [List.append_assoc] at htail
    exact .cons (hw.says_keyword hword)
      (.cons (says_name hname) (.symbol rfl (.token (by simp [hparen, TokenKind.isGrouping]) htail)))

private theorem DerivesDeclared.readsAs {declared : Option TypeExpr} (h : DerivesDeclared declared used)
    (hspelled : ∀ t ∈ used, t.Spelled) : ReadsAs (declaredSymbols declared) used := by
  cases h with
  | nothing => exact .nil
  | type hcolon ht =>
    rw [List.forall_mem_cons] at hspelled
    exact .cons (hspelled.1.says_mark hcolon rfl) (ht.readsAs hspelled.2)

end

/-! ### Operators -/

/-- The symbols of operands, each one behind its operator. -/
def operandSymbols (rest : List (BinaryOp × Expr)) : List Symbol :=
  rest.flatMap fun p => .mark p.1.token :: p.2.symbols

theorem operandSymbols_cons (op : BinaryOp) (e : Expr) (rest : List (BinaryOp × Expr)) :
    operandSymbols ((op, e) :: rest) = [.mark op.token] ++ (e.symbols ++ operandSymbols rest) := rfl

namespace Expr

private theorem ungrouped_operation (lhs rhs : Expr) (op : BinaryOp) :
    Symbol.ungrouped (operation lhs op rhs).symbols =
      Symbol.ungrouped (lhs.symbols ++ .mark op.token :: rhs.symbols) := by
  rw [operation, symbols, ← List.singleton_append, ← List.singleton_append (l := rhs.symbols)]
  simp only [Symbol.ungrouped_append, Symbol.ungrouped_parens]

/-- Joining the operands of one level keeps them and their operators in order. -/
private theorem ungrouped_joinLevel (level : Nat) (first : Expr) (rest : List (BinaryOp × Expr)) :
    Symbol.ungrouped ((joinLevel level first rest).1.symbols ++ operandSymbols (joinLevel level first rest).2) =
      Symbol.ungrouped (first.symbols ++ operandSymbols rest) := by
  induction rest generalizing first with
  | nil => rfl
  | cons p rest ih =>
    obtain ⟨op, next⟩ := p
    unfold joinLevel
    split
    · rw [ih, Symbol.ungrouped_append, ungrouped_operation, ← Symbol.ungrouped_append, operandSymbols, operandSymbols,
        List.flatMap_cons, List.append_assoc]
    · simp only [operandSymbols_cons, Symbol.ungrouped_append first.symbols, Symbol.ungrouped_append [_], ih]

/-- The operators that are left behind a level are those of other levels. -/
private theorem joinLevel_level {level : Nat} {first : Expr} {rest : List (BinaryOp × Expr)} :
    ∀ p ∈ (joinLevel level first rest).2, p.1.level ≠ level ∧ ∃ q ∈ rest, q.1 = p.1 := by
  induction rest generalizing first with
  | nil => simp [joinLevel]
  | cons q rest ih =>
    obtain ⟨op, next⟩ := q
    unfold joinLevel
    split
    · intro p hp
      obtain ⟨hlevel, q, hq, heq⟩ := ih p hp
      exact ⟨hlevel, q, List.mem_cons_of_mem _ hq, heq⟩
    · rename_i hop
      intro p hp
      rcases List.mem_cons.mp hp with rfl | hp
      · exact ⟨hop, (op, next), by simp, rfl⟩
      · obtain ⟨hlevel, q, hq, heq⟩ := ih p hp
        exact ⟨hlevel, q, List.mem_cons_of_mem _ hq, heq⟩

private theorem ungrouped_joinLevels {levels : List Nat} {first : Expr} {rest : List (BinaryOp × Expr)}
    (hlevels : ∀ p ∈ rest, p.1.level ∈ levels) :
    Symbol.ungrouped (joinLevels levels first rest).symbols =
      Symbol.ungrouped (first.symbols ++ operandSymbols rest) := by
  induction levels generalizing first rest with
  | nil =>
    have hrest : rest = [] := List.eq_nil_iff_forall_not_mem.mpr fun p hp => absurd (hlevels p hp) List.not_mem_nil
    rw [hrest, joinLevels, operandSymbols, List.flatMap_nil, List.append_nil]
  | cons level levels ih =>
    rw [joinLevels, ← ungrouped_joinLevel level]
    refine ih fun p hp => ?_
    obtain ⟨hlevel, q, hq, heq⟩ := joinLevel_level p hp
    exact (List.mem_cons.mp (heq ▸ hlevels q hq)).resolve_left hlevel

/-- Every operator has one of the levels that are joined, so none is lost. -/
private theorem ungrouped_ofOperands (first : Expr) (rest : List (BinaryOp × Expr)) :
    Symbol.ungrouped (ofOperands first rest).symbols = Symbol.ungrouped (first.symbols ++ operandSymbols rest) := by
  refine ungrouped_joinLevels fun p _ => ?_
  cases p.1 <;> decide

end Expr

/-! ### Expressions and statements -/

/-- The symbols of a field of a struct literal. -/
def FieldInit.symbols (f : FieldInit Expr) : List Symbol :=
  .name f.name :: .mark .colon :: Symbol.parens f.value.symbols

theorem Expr.symbolsFields_eq (fields : List (FieldInit Expr)) :
    symbolsFields fields = fields.map FieldInit.symbols := by
  induction fields with
  | nil => rfl
  | cons f rest ih => rw [symbolsFields, ih, List.map_cons, FieldInit.symbols]

/-- The symbols of a phrase. -/
def Phrase.symbols : Phrase → List Symbol
  | .primary _ e | .accessed _ e | .operand _ e | .operation _ e | .expr _ e | .statement e => e.symbols
  | .fieldInit field => field.symbols
  | .operands _ rest => operandSymbols rest
  | .elseBranch e => Expr.symbolsElse e
  | .statements stmts tail => Expr.symbolsStatements stmts ++ Expr.symbolsTail tail ++ [.mark .rightBrace]
  | .block b => Expr.symbolsBlock b

/-- An integer literal stands for its number. -/
private theorem integerSymbols_of_toInt {v : Int32} {n : Nat} (hv : v.toInt = n) : integerSymbols v = [.integer n] := by
  have hmin : v ≠ Int32.minValue := by
    rintro rfl
    have : Int32.minValue.toInt = -2147483648 := rfl
    omega
  rw [integerSymbols, if_neg hmin, hv, Int.toNat_natCast]

/-- What a tree is written with says what the tree says. -/
private theorem Derives.readsAs {phrase : Phrase} {used : List Token} (h : Derives phrase used)
    (hspelled : ∀ t ∈ used, t.Spelled) : ReadsAs phrase.symbols used := by
  induction h with
  | integer ht hv =>
    have hn := Literal.integer?_of_isInteger ((hspelled _ (by simp)).integer ht)
    have hvalue := Option.some.inj ((Literal.int32?_eq_some.mp hv).symm.trans hn)
    rw [Phrase.symbols, Expr.symbols, integerSymbols_of_toInt hvalue]
    exact .cons (.integer ht hn) .nil
  | float ht hx => exact .cons (.float ht hx) .nil
  | boolean ht => exact .cons ((hspelled _ (by simp)).says_keyword ht) .nil
  | identifier ht => exact .cons (says_name ht) .nil
  | @structLiteral _ _ pieces used _ hname hbrace hlist _ _ ih =>
    simp only [List.forall_mem_cons] at hspelled
    obtain ⟨-, hb, hused⟩ := hspelled
    rw [Phrase.symbols, Expr.symbols, Expr.symbolsFields_eq]
    have hfields :
        ReadsAs (Symbol.listed true ((pieces.map (·.2)).map FieldInit.symbols) ++ [.mark .rightBrace]) used :=
      .items hlist (fun p hp => ih p hp fun t ht => hused t (hlist.mem_of_piece hp ht)) fun t ht hkind =>
        .cons ((hused t ht).says_mark hkind rfl) .nil
    exact .cons (says_name hname) (.cons (hb.says_mark hbrace rfl) hfields)
  | fieldInit hname hcolon _ ih =>
    simp only [List.forall_mem_cons] at hspelled
    exact .cons (says_name hname) (.cons (hspelled.2.1.says_mark hcolon rfl) (ih hspelled.2.2).parens)
  | parenthesised hleft _ hright ih =>
    simp only [List.cons_append, List.forall_mem_cons, List.forall_mem_append] at hspelled
    have hinner := (ih hspelled.2.1).append (v := [_]) (ReadsAs.token (by rw [hright, TokenKind.isGrouping]) .nil)
    rw [List.append_nil] at hinner
    exact .token (by rw [hleft, TokenKind.isGrouping]) hinner
  | blockExpr _ ih => exact ih hspelled
  | ifElse hword _ _ _ _ ihcond ihthen ihother =>
    simp only [List.cons_append, List.forall_mem_cons, List.forall_mem_append] at hspelled
    obtain ⟨hw, ⟨hc, ht⟩, ho⟩ := hspelled
    exact .cons (hw.says_keyword hword) (((ihcond hc).parens.append (ihthen ht)).append (ihother ho))
  | whileLoop hword _ _ _ ihcond ihbody =>
    simp only [List.cons_append, List.forall_mem_cons, List.forall_mem_append] at hspelled
    obtain ⟨hw, hc, hb⟩ := hspelled
    exact .cons (hw.says_keyword hword) ((ihcond hc).parens.append (ihbody hb))
  | endlessLoop hword _ _ ih =>
    rw [List.forall_mem_cons] at hspelled
    exact .cons (hspelled.1.says_keyword hword) (ih hspelled.2)
  | leaveLoop ht => exact .cons ((hspelled _ (by simp)).says_keyword ht) .nil
  | nextRound ht => exact .cons ((hspelled _ (by simp)).says_keyword ht) .nil
  | leaveFunction hword => exact .cons ((hspelled _ (by simp)).says_keyword hword) .nil
  | leaveWith hword _ _ ih =>
    rw [List.forall_mem_cons] at hspelled
    exact .cons (hspelled.1.says_keyword hword) (ih hspelled.2).parens
  | @builtinCall _ _ _ _ pieces used _ hmark hname hparen hlist _ _ ih =>
    simp only [List.forall_mem_cons] at hspelled
    obtain ⟨hm, -, -, hused⟩ := hspelled
    exact .cons (hm.says_mark hmark rfl)
      (.cons (says_name hname)
        (.arguments hparen hlist fun p hp => ih p hp fun t ht => hused t (hlist.mem_of_piece hp ht)))
  | accessed _ ih => exact ih hspelled
  | member _ hdot hname ih =>
    simp only [List.forall_mem_append, List.forall_mem_cons] at hspelled
    exact (ih hspelled.1).parens.append (.cons (hspelled.2.1.says_mark hdot rfl) (.cons (says_name hname) .nil))
  | call _ hparen hlist _ _ ihcallee ihargs =>
    simp only [List.forall_mem_append, List.forall_mem_cons] at hspelled
    obtain ⟨hc, -, hused⟩ := hspelled
    exact (ihcallee hc).parens.append
      (.arguments hparen hlist fun p hp => ihargs p hp fun t ht => hused t (hlist.mem_of_piece hp ht))
  | operand _ ih => exact ih hspelled
  | smallestInteger hsign hnumber hn =>
    exact .cons ((hspelled _ (by simp)).says_mark hsign rfl) (.cons (.integer hnumber hn) .nil)
  | @unary _ _ op _ _ _ ht _ _ ih =>
    rw [List.forall_mem_cons] at hspelled
    exact .cons (hspelled.1.says_mark ht (by cases op <;> rfl)) (ih hspelled.2).parens
  | noOperands => exact .nil
  | @moreOperands _ _ op _ _ _ _ hop _ _ ihoperand ihrest =>
    simp only [List.cons_append, List.forall_mem_cons, List.forall_mem_append] at hspelled
    obtain ⟨ht, hoperand, hrest⟩ := hspelled
    exact .cons (ht.says_mark (BinaryOp.token_of_ofToken hop) (by cases op <;> rfl))
      ((ihoperand hoperand).append (ihrest hrest))
  | operation _ _ ihfirst ihrest =>
    rw [List.forall_mem_append] at hspelled
    unfold ReadsAs
    rw [Phrase.symbols, Expr.ungrouped_ofOperands]
    exact (ihfirst hspelled.1).append (ihrest hspelled.2)
  | expr _ ih => exact ih hspelled
  | assignment _ ht _ ihtarget ihsource =>
    simp only [List.forall_mem_append, List.forall_mem_cons] at hspelled
    obtain ⟨htarget, hassign, hsource⟩ := hspelled
    exact (ihtarget htarget).parens.append (.cons (hassign.says_mark ht rfl) (ihsource hsource).parens)
  | noElse => exact .nil
  | elseIf hword _ _ ih =>
    rw [List.forall_mem_cons] at hspelled
    exact .cons (hspelled.1.says_keyword hword) (ih hspelled.2)
  | elseBlock hword _ ih =>
    rw [List.forall_mem_cons] at hspelled
    exact .cons (hspelled.1.says_keyword hword) (ih hspelled.2)
  | @letBinding word name equal mutable mark annotation used declared init _ hword hmark hname
      hdeclared hequal _ _ ih =>
    simp only [List.cons_append, List.append_assoc, List.forall_mem_cons, List.forall_mem_append] at hspelled
    obtain ⟨hw, hm, -, hd, he, hi⟩ := hspelled
    have hbinding : ReadsAs (mutableSymbols mutable ++ [.name name.text]) (mark ++ [name]) :=
      (hmark.readsAs hm).append (.cons (says_name hname) .nil)
    have hall := (hbinding.append (hdeclared.readsAs hd)).append (.cons (he.says_mark hequal rfl) (ih hi).parens)
    simp only [Phrase.symbols, Expr.symbols, Holder.value?, Option.elim, List.cons_append, List.append_assoc,
      List.nil_append] at hall ⊢
    exact .cons (hw.says_keyword hword) hall
  | nestedFunction hheader _ ih =>
    rw [List.forall_mem_append] at hspelled
    exact (hheader.readsAs hspelled.1).append (ih hspelled.2)
  | blockStatement _ ih => exact ih hspelled
  | exprStatement _ ih => exact ih hspelled
  | endOfBlock hbrace => exact .cons ((hspelled _ (by simp)).says_mark hbrace rfl) .nil
  | lastExpr _ _ hbrace ih =>
    rw [List.forall_mem_append] at hspelled
    exact (ih hspelled.1).append (.cons ((hspelled.2 _ (by simp)).says_mark hbrace rfl) .nil)
  | ended _ hsemicolon _ ihstmt ihrest =>
    simp only [List.forall_mem_append, List.forall_mem_cons] at hspelled
    exact .statement (ihstmt hspelled.1) (.token (by rw [hsemicolon, TokenKind.isGrouping]) (ihrest hspelled.2.2))
  | unended _ _ _ ihstmt ihrest =>
    rw [List.forall_mem_append] at hspelled
    exact .statement (ihstmt hspelled.1) (ihrest hspelled.2)
  | block hbrace _ _ ih =>
    rw [List.forall_mem_cons] at hspelled
    exact .cons (hspelled.1.says_mark hbrace rfl) (ih hspelled.2)

/-! ### Declarations -/

section

variable {used : List Token}

private theorem DerivesField.readsAs {f : FieldDecl} (h : DerivesField f used) (hspelled : ∀ t ∈ used, t.Spelled) :
    ReadsAs f.symbols used := by
  cases h with
  | field hname hcolon htype =>
    simp only [List.forall_mem_cons] at hspelled
    exact .cons (says_name hname) (.cons (hspelled.2.1.says_mark hcolon rfl) (htype.readsAs hspelled.2.2))

/-- The symbols of a declaration behind the one that exports it. -/
def Decl.hiddenSymbols : Decl → List Symbol
  | .struct d =>
    .keyword .structWord :: .name d.name :: .mark .leftBrace ::
      Symbol.listed true (d.fields.map FieldDecl.symbols) ++ [.mark .rightBrace]
  | .function f => f.header.symbols ++ Expr.symbolsBlock f.body

private theorem DerivesDecl.readsAs {exported : Bool} {decl : Decl} (h : DerivesDecl exported decl used)
    (hspelled : ∀ t ∈ used, t.Spelled) :
    decl.symbols = exportSymbols exported ++ decl.hiddenSymbols ∧ ReadsAs decl.hiddenSymbols used := by
  cases h with
  | struct h =>
    cases h with
    | @struct _ _ _ pieces used hword hname hbrace hlist hpieces =>
      simp only [List.forall_mem_cons] at hspelled
      obtain ⟨hw, -, hb, hused⟩ := hspelled
      have hfields :
          ReadsAs (Symbol.listed true ((pieces.map (·.2)).map FieldDecl.symbols) ++ [.mark .rightBrace]) used :=
        .items hlist (fun p hp => (hpieces p hp).readsAs fun t ht => hused t (hlist.mem_of_piece hp ht))
            fun t ht hkind =>
          .cons ((hused t ht).says_mark hkind rfl) .nil
      refine ⟨?_, .cons (hw.says_keyword hword) (.cons (says_name hname) (.cons (hb.says_mark hbrace rfl) hfields))⟩
      rw [Decl.symbols, Decl.hiddenSymbols, List.append_assoc]
  | function hheader hbody =>
    rw [List.forall_mem_append] at hspelled
    refine ⟨?_, (hheader.readsAs hspelled.1).append (hbody.readsAs hspelled.2)⟩
    cases hheader
    rw [Decl.symbols, Decl.hiddenSymbols, List.append_assoc]

private theorem DerivesModule.readsAs {decls : List Decl} (h : DerivesModule decls used)
    (hspelled : ∀ t ∈ used, t.Spelled) :
    ReadsAs (decls.flatMap Decl.symbols) used := by
  induction h with
  | nil => exact .nil
  | hidden hdecl _ ih =>
    rw [List.forall_mem_append] at hspelled
    obtain ⟨hsymbols, hreads⟩ := hdecl.readsAs hspelled.1
    rw [List.flatMap_cons, hsymbols]
    exact hreads.append (ih hspelled.2)
  | exported hword hdecl _ ih =>
    simp only [List.cons_append, List.forall_mem_cons, List.forall_mem_append] at hspelled
    obtain ⟨hsymbols, hreads⟩ := hdecl.readsAs hspelled.2.1
    rw [List.flatMap_cons, hsymbols]
    exact .cons (hspelled.1.says_keyword hword) (hreads.append (ih hspelled.2.2))

end

private theorem TokenStream.ne_endOfInput {used : List Token} {last t : Token}
    (h : TokenStream (used ++ [last])) (ht : t ∈ used) :
    t.kind ≠ .endOfInput := by
  obtain ⟨init, end', heq, -, hinit⟩ := h.ended
  obtain ⟨rfl, -⟩ := List.append_inj' heq rfl
  exact hinit t ht

/--
The parser loses, repeats and reorders nothing.  A tree that is read back gives the tokens it was read from, except for
those that only group or separate others and for the end of the input.
-/
theorem says_of_declarations (file : SourceFile) (decls : List Decl) (h : file.declarations = .ok decls) :
    ∃ tokens, file.tokens = .ok tokens ∧
      List.Forall₂ Symbol.Says ((decls.flatMap Decl.symbols).filter fun x => !x.kind.isGrouping)
        (tokens.filter fun t => !t.kind.isGrouping && t.kind != .endOfInput) := by
  rcases file.declarations_cases with ⟨decls', used, last, hdecls, htokens, hstream, hlast, hmodule⟩ | ⟨d, hrefused⟩
  · rw [h] at hdecls
    cases hdecls
    refine ⟨_, htokens, ?_⟩
    have hspelled := file.tokens_spelled htokens
    rw [List.forall_mem_append] at hspelled
    have hreads : ReadsAs (decls.flatMap Decl.symbols) used := hmodule.readsAs hspelled.1
    have hused : (used ++ [last]).filter (fun t => !t.kind.isGrouping && t.kind != .endOfInput) =
        used.filter fun t => !t.kind.isGrouping := by
      rw [List.filter_append, List.filter_cons_of_neg (by simp [hlast]), List.filter_nil, List.append_nil]
      refine List.filter_congr fun t ht => ?_
      simp [hstream.ne_endOfInput ht]
    rw [hused]
    exact hreads
  · rw [h] at hrefused
    cases hrefused

/-- A file with parentheses and a comma that are not needed. -/
def redundantGrouping : SourceFile :=
  ⟨"redundant", "struct P{x:i32,} fn f(mut a:i32)->i32{((a))*2+(-2147483648)}".toList⟩

theorem says_redundantGrouping : ∃ decls tokens, redundantGrouping.declarations = .ok decls ∧ decls.length = 2 ∧
    redundantGrouping.tokens = .ok tokens ∧
      List.Forall₂ Symbol.Says ((decls.flatMap Decl.symbols).filter fun x => !x.kind.isGrouping)
        (tokens.filter fun t => !t.kind.isGrouping && t.kind != .endOfInput) := by
  have hrun : redundantGrouping.declarations.toOption.any (fun decls => decls.length == 2) = true := by decide +kernel
  cases hdecls : redundantGrouping.declarations with
  | error stop =>
    rw [hdecls] at hrun
    cases hrun
  | ok decls =>
    rw [hdecls] at hrun
    obtain ⟨tokens, htokens, hsays⟩ := says_of_declarations redundantGrouping decls hdecls
    exact ⟨decls, tokens, rfl, beq_iff_eq.mp hrun, htokens, hsays⟩

end RainCheck

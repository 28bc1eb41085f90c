import RainCheck.Proofs.Relexing
import RainCheck.Proofs.TypeText

/-!
# Writing a tree

A tree is written by its symbols (`Decl.symbols`), each of which has texts of its own, with any separators between them
(`Writes`).
* A tree that the grammar can express is `Expressible`: names are spelled like names, numbers have a literal, only
  statements declare names, and nothing is annotated yet.
* Such a tree can be written (`exists_writes`).
* What is written is split into tokens that say the symbols (`Writes.tokens`).
-/

namespace RainCheck

/-! ### Literals -/

/-- A floating point number with a given value: what the rule for such numbers matches. -/
structure IsFloat (text : List Char) (x : Float) : Prop where
  lexes : Token.float.run text = .ok text.length
  nonempty : text ≠ []
  value : Literal.float? text = some x

/-! ### Texts of symbols -/

/-- The texts that a symbol is written with. -/
inductive Symbol.IsWritten : Symbol → List Char → Prop where
  | mark {kind : TokenKind} {text : String} (h : (kind, text) ∈ Token.marks) : IsWritten (.mark kind) text.toList
  | keyword (word : Keyword) : IsWritten (.keyword word) word.text.toList
  | name {text : String} (h : IsName text) : IsWritten (.name text) text.toList
  | integer {text : List Char} (h : Token.isInteger text = true) : IsWritten (.integer (Literal.numberOf text)) text
  | float {text : List Char} {span : Span} {x : Float} (h : IsFloat text x) : IsWritten (.float span x) text

/-- A text that writes symbols, with any separators between them. -/
def Writes (symbols : List Symbol) (contents : List Char) : Prop :=
  ∃ texts, List.Forall₂ Symbol.IsWritten symbols texts ∧ Separated texts contents

/-- The text of a symbol is a lexeme, and its token says the symbol. -/
private theorem Symbol.IsWritten.exists_lexeme {x : Symbol} {text : List Char} (h : x.IsWritten text) :
    ∃ l : Lexeme TokenKind, l.text = text ∧ (l.Matched ∧ Token.isLayout l.kind = false ∧ l.kind ≠ .endOfInput) ∧
      x.Says (Token.ofLexeme l) := by
  have matched {r : Rule TokenKind} (hr : r ∈ Token.rules) (hrun : r.scanner.run text = .ok text.length)
      (hpos : 0 < text.length) : Lexeme.Matched ⟨r.kind, 0, text⟩ :=
    ⟨r, hr, rfl, text, text.length, hrun, hpos, (List.take_length).symm⟩
  have word (hword : Token.isWord text = true) : Lexeme.Matched ⟨.identifier, 0, text⟩ := by
    refine matched (r := ⟨.identifier, Token.word⟩) (by simp [Token.rules]) ?_ ?_
    · simpa using Token.run_word hword Token.wordCharacter.endsBefore_nil
    · cases text with
      | nil => cases hword
      | cons c cs => exact Nat.succ_pos _
  cases h with
  | @mark kind text h =>
    have hlayout : ∀ m ∈ Token.marks, Token.isLayout m.1 = false ∧ m.1 ≠ .endOfInput ∧ 0 < m.2.toList.length := by
      decide
    refine ⟨⟨kind, 0, text.toList⟩, rfl, ⟨?_, (hlayout _ h).1, (hlayout _ h).2.1⟩, says_mark h⟩
    refine matched (r := ⟨kind, .exactly text.toList⟩) ?_ (by simp [Scanner.run]) (hlayout _ h).2.2
    simp only [Token.rules, List.mem_append, List.mem_map]
    exact .inl (.inr ⟨_, h, rfl⟩)
  | keyword word' =>
    have hword : (Token.ofLexeme ⟨.identifier, 0, word'.text.toList⟩).toWord = ⟨.keyword word', word'.text⟩ := by
      cases word' <;> decide
    refine ⟨⟨.identifier, 0, word'.text.toList⟩, rfl, ⟨word (by cases word' <;> decide), rfl, by simp⟩, ?_⟩
    rw [Symbol.keyword, ← hword]
    exact .word
  | @name text h => exact ⟨⟨.identifier, 0, text.toList⟩, rfl, ⟨word h.word, rfl, by simp⟩, h.token 0⟩
  | integer h =>
    refine ⟨⟨.integer, 0, text⟩, rfl, ⟨?_, rfl, by simp⟩, ?_⟩
    · refine matched (r := ⟨.integer, Token.integer⟩) (by simp [Token.rules]) ?_ (Token.length_pos_of_isInteger h)
      simpa using Token.run_integer h Token.numberCharacter.endsBefore_nil
    · refine .integer rfl ?_
      rw [Token.ofLexeme, String.toList_ofList]
      exact Literal.integer?_of_isInteger h
  | float h =>
    refine ⟨⟨.float, 0, text⟩, rfl, ⟨?_, rfl, by simp⟩, .float rfl ?_⟩
    · exact matched (r := ⟨.float, Token.float⟩) (by simp [Token.rules]) h.lexes (List.length_pos_iff.mpr h.nonempty)
    · rw [Token.ofLexeme, String.toList_ofList]
      exact h.value

/-- A text that writes symbols is split into tokens that say them. -/
theorem Writes.tokens {symbols : List Symbol} {contents : List Char} (h : Writes symbols contents) (name : String) :
    ∃ ts, (⟨name, contents⟩ : SourceFile).tokens = .ok ts ∧
      List.Forall₂ Symbol.Says (symbols ++ [.word ⟨.endOfInput, ""⟩]) ts := by
  obtain ⟨texts, htexts, hseparated⟩ := h
  obtain ⟨lexemes, rfl, hlexemes, hsaid⟩ : ∃ lexemes : List (Lexeme TokenKind), lexemes.map (·.text) = texts ∧
      (∀ l ∈ lexemes, l.Matched ∧ Token.isLayout l.kind = false ∧ l.kind ≠ .endOfInput) ∧
      List.Forall₂ (fun x l => Symbol.Says x (Token.ofLexeme l)) symbols lexemes := by
    clear hseparated
    induction htexts with
    | nil => exact ⟨[], rfl, by simp, .nil⟩
    | cons hx _ ih =>
      obtain ⟨l, rfl, hl, htoken⟩ := hx.exists_lexeme
      obtain ⟨lexemes, rfl, hlexemes, hsaid⟩ := ih
      exact ⟨l :: lexemes, rfl, List.forall_mem_cons.mpr ⟨hl, hlexemes⟩, .cons htoken hsaid⟩
  obtain ⟨ts, hts, hwords⟩ :=
    SourceFile.tokens_of_spells (show Spells (⟨name, contents⟩ : SourceFile).contents _ from hseparated.spells hlexemes)
  refine ⟨ts, hts, ?_⟩
  clear hseparated htexts hlexemes hts
  have congr {x : Symbol} {w : Word} {t u : Token} (hx : x.Says t) (hw : t.toWord = w) (hu : (Symbol.word w).Says u) :
      x.Says u := by
    cases hu
    exact hx.congr hw.symm
  induction hsaid generalizing ts with
  | nil => exact hwords
  | cons hx _ ih =>
    cases hwords with
    | cons hword hwords => exact .cons (congr hx rfl hword) (ih _ hwords)

/-! ### Trees that the grammar can express -/

/-- Where an expression stands in a tree. -/
inductive Role where
  /-- In another expression. -/
  | operand
  /-- At the end of a block. -/
  | tail
  /-- In front of a semicolon. -/
  | statement
  deriving DecidableEq

/-- Names are spelled like names, and nothing is known about the parameter. -/
structure Param.Expressible (p : Param) : Prop where
  fresh : p.Fresh
  name : IsName p.binding.name
  declared : p.declared.Named

/-- Names are spelled like names, and nothing is known about the parameters. -/
structure Header.Expressible (h : Header) : Prop where
  name : IsName h.name
  params : ∀ p ∈ h.params, p.Expressible
  returns : ∀ t ∈ h.returns, t.Named

/-- Whether an expression may stand behind `else`. -/
def Expr.isBranch : Expr → Bool
  | .block _ => true
  | .ifElse _ _ _ _ => true
  | _ => false

/--
An unchecked tree that the grammar can express.  Bindings and nested functions are statements; a return without a result
is a statement or the last expression of a block; everything else stands everywhere.
-/
inductive Expr.Expressible : Role → Expr → Prop where
  | integer {r : Role} {span : Span} {n : Int32} (hn : 0 ≤ n.toInt ∨ n = Int32.minValue) :
      Expressible r (.integer { span } n)
  | float {r : Role} {span : Span} {x : Float} {text : List Char} (hx : IsFloat text x) :
      Expressible r (.float { span } x)
  | boolean {r : Role} {span : Span} {b : Bool} : Expressible r (.boolean { span } b)
  | identifier {r : Role} {span : Span} {name : String} (hname : IsName name) :
      Expressible r (.identifier { span } name none)
  | member {r : Role} {span nameSpan : Span} {base : Expr} {name : String} (hbase : Expressible .operand base)
      (hname : IsName name) : Expressible r (.member { span } base name nameSpan 0)
  | call {r : Role} {span : Span} {callee : Expr} {args : List Expr} (hcallee : Expressible .operand callee)
      (hargs : ∀ e ∈ args, Expressible .operand e) : Expressible r (.call { span } callee args)
  | builtinCall {r : Role} {span : Span} {name : String} {args : List Expr} (hname : IsName name)
      (hargs : ∀ e ∈ args, Expressible .operand e) : Expressible r (.builtinCall { span } name args)
  | unary {r : Role} {span : Span} {op : UnaryOp} {operand : Expr} (hoperand : Expressible .operand operand) :
      Expressible r (.unary { span } op operand)
  | binary {r : Role} {span : Span} {op : BinaryOp} {lhs rhs : Expr} (hlhs : Expressible .operand lhs)
      (hrhs : Expressible .operand rhs) : Expressible r (.binary { span } op lhs rhs)
  | assignment {r : Role} {span : Span} {target source : Expr} (htarget : Expressible .operand target)
      (hsource : Expressible .operand source) : Expressible r (.assignment { span } target source)
  | structLiteral {r : Role} {span : Span} {name : String} {fields : List (FieldInit Expr)} (hname : IsName name)
      (hnames : ∀ f ∈ fields, IsName f.name) (hvalues : ∀ f ∈ fields, Expressible .operand f.value) :
      Expressible r (.structLiteral { span } name fields)
  | letBinding {span nameSpan : Span} {name : String} {mutable : Bool} {declared : Option TypeExpr} {init : Expr}
      (hname : IsName name) (hdeclared : ∀ t ∈ declared, t.Named) (hinit : Expressible .operand init) :
      Expressible .statement
        (.letBinding { span } (.owned { name, kind := .bound, mutable, span := nameSpan }) declared init)
  | block {r : Role} {span : Span} {stmts : List Expr} {tail : Option Expr}
      (hstmts : ∀ e ∈ stmts, Expressible .statement e) (htail : ∀ e ∈ tail, Expressible .tail e) :
      Expressible r (.block ⟨{ span }, none, stmts, tail⟩)
  | ifElse {r : Role} {span : Span} {cond : Expr} {thenBlock : Block Expr} {other : Option Expr}
      (hcond : Expressible .operand cond) (hthen : Expressible .operand (.block thenBlock))
      (hbranch : ∀ e ∈ other, e.isBranch = true) (hother : ∀ e ∈ other, Expressible .operand e) :
      Expressible r (.ifElse { span } cond thenBlock other)
  | whileLoop {r : Role} {span : Span} {cond : Expr} {body : Block Expr} (hcond : Expressible .operand cond)
      (hbody : Expressible .operand (.block body)) : Expressible r (.whileLoop { span } cond body)
  | endlessLoop {r : Role} {span : Span} {body : Block Expr} (hbody : Expressible .operand (.block body)) :
      Expressible r (.endlessLoop { span } body)
  | leaveLoop {r : Role} {span : Span} : Expressible r (.leaveLoop { span })
  | nextRound {r : Role} {span : Span} : Expressible r (.nextRound { span })
  | leaveFunction {r : Role} {span : Span} (hr : r ≠ .operand) : Expressible r (.leaveFunction { span } none)
  | leaveWith {r : Role} {span : Span} {result : Expr} (hresult : Expressible .operand result) :
      Expressible r (.leaveFunction { span } (some result))
  | function {span : Span} {header : Header} {body : Block Expr} (hheader : header.Expressible)
      (hexported : header.exported = false) (hbody : Expressible .operand (.block body)) :
      Expressible .statement (.function { span } header body)

/-- Names are spelled like names. -/
structure StructDecl.Expressible (d : StructDecl) : Prop where
  name : IsName d.name
  fields : ∀ f ∈ d.fields, IsName f.name ∧ f.type.Named

/-- An unchecked declaration that the grammar can express. -/
inductive Decl.Expressible : Decl → Prop where
  | struct {d : StructDecl} (h : d.Expressible) : Expressible (.struct d)
  | function {span : Span} {header : Header} {body : Block Expr} (hheader : header.Expressible)
      (hbody : Expr.Expressible .operand (.block body)) : Expressible (.function ⟨{ span }, header, body⟩)

/-! ### Expressible trees can be written -/

/-- Each symbol has a text. -/
def Writable (symbols : List Symbol) : Prop := ∀ x ∈ symbols, ∃ text, x.IsWritten text

namespace Writable

variable {xs ys : List Symbol} {x : Symbol}

private theorem nil : Writable [] := fun _ h => absurd h (by simp)

private theorem cons (hx : ∃ text, x.IsWritten text) (h : Writable xs) : Writable (x :: xs) :=
  List.forall_mem_cons.mpr ⟨hx, h⟩

private theorem append (h : Writable xs) (h' : Writable ys) : Writable (xs ++ ys) := List.forall_mem_append.mpr ⟨h, h'⟩

private theorem mark {kind : TokenKind} (hkind : kind ∈ Token.marks.map (·.1)) (h : Writable xs) :
    Writable (.mark kind :: xs) := by
  obtain ⟨⟨_, text⟩, hm, rfl⟩ := List.mem_map.mp hkind
  exact .cons ⟨_, .mark hm⟩ h

private theorem keyword (word : Keyword) (h : Writable xs) : Writable (.keyword word :: xs) :=
  .cons ⟨_, .keyword word⟩ h

private theorem name {text : String} (htext : IsName text) (h : Writable xs) : Writable (.name text :: xs) :=
  .cons ⟨_, .name htext⟩ h

private theorem integer (n : Nat) : Writable [.integer n] := by
  obtain ⟨text, htext, rfl⟩ := Token.exists_isInteger n
  exact .cons ⟨_, .integer htext⟩ .nil

private theorem parens (h : Writable xs) : Writable (Symbol.parens xs) :=
  .mark (by decide) (h.append (.mark (by decide) .nil))

private theorem listed {items : List (List Symbol)} (h : ∀ item ∈ items, Writable item) (first : Bool) :
    Writable (Symbol.listed first items) := by
  induction items generalizing first with
  | nil => cases first <;> exact .nil
  | cons item items ih =>
    have hitems := ih (fun xs hxs => h xs (by simp [hxs])) false
    cases first with
    | true => exact (h item (by simp)).append hitems
    | false => exact .mark (by decide) ((h item (by simp)).append hitems)

private theorem arguments {args : List Expr} (h : ∀ e ∈ args, Writable e.symbols) :
    Writable (Symbol.parens (Symbol.listed true (Expr.symbolsAll args))) := by
  refine .parens (.listed (fun item hitem => ?_) true)
  rw [Expr.symbolsAll_eq] at hitem
  obtain ⟨e, he, rfl⟩ := List.mem_map.mp hitem
  exact (h e he).parens

private theorem mutable (b : Bool) : Writable (mutableSymbols b) := by
  cases b with
  | false => exact .nil
  | true => exact .keyword .mutWord .nil

end Writable

mutual

private theorem TypeExpr.writable (t : TypeExpr) (behind : Bool) (h : ∀ n ∈ t.occurrences behind, IsName n.2) :
    Writable t.symbols := by
  match t with
  | .named _ name => exact .name (h (behind, name) (by simp [occurrences])) .nil
  | .reference _ inner => exact .mark (by decide) (inner.writable true h)
  | .function _ params returns =>
    have hparams : ∀ item ∈ symbolsAll params, Writable item :=
      TypeExpr.writable_all fun n hn => h n (by simp [occurrences, hn])
    have hreturns : Writable (symbolsReturns returns) :=
      TypeExpr.writable_returns fun n hn => h n (by simp [occurrences, hn])
    exact .keyword .fnWord (.mark (by decide) ((Writable.listed hparams true).append (.mark (by decide) hreturns)))

private theorem TypeExpr.writable_all {ts : List TypeExpr} (h : ∀ n ∈ occurrencesAll ts, IsName n.2) :
    ∀ item ∈ symbolsAll ts, Writable item := by
  match ts with
  | [] => simp [symbolsAll]
  | t :: rest =>
    have ht : Writable t.symbols := t.writable false fun n hn => h n (by simp [occurrencesAll, hn])
    have hrest : ∀ item ∈ symbolsAll rest, Writable item :=
      TypeExpr.writable_all fun n hn => h n (by simp [occurrencesAll, hn])
    exact List.forall_mem_cons.mpr ⟨ht, hrest⟩

private theorem TypeExpr.writable_returns {t : Option TypeExpr} (h : ∀ n ∈ optionOccurrences t, IsName n.2) :
    Writable (symbolsReturns t) := by
  match t with
  | none => exact .nil
  | some t => exact .mark (by decide) (t.writable false h)

end

private theorem TypeExpr.Named.writable {t : TypeExpr} (h : t.Named) : Writable t.symbols := t.writable false h

private theorem Header.Expressible.writable {h : Header} (hh : h.Expressible) : Writable h.symbols := by
  have hparams : Writable (Symbol.listed true (h.params.map Param.symbols)) := by
    refine .listed (fun item hitem => ?_) true
    obtain ⟨p, hp, rfl⟩ := List.mem_map.mp hitem
    have hp := hh.params p hp
    exact (Writable.mutable _).append (.name hp.name (.mark (by decide) hp.declared.writable))
  have hreturns : Writable (TypeExpr.symbolsReturns h.returns) := by
    cases hr : h.returns with
    | none => exact .nil
    | some t => exact .mark (by decide) (hh.returns t hr).writable
  exact .keyword .fnWord (.name hh.name (.mark (by decide) (hparams.append (.mark (by decide) hreturns))))

private theorem Expr.Expressible.writable {r : Role} {e : Expr} (h : e.Expressible r) : Writable e.symbols := by
  induction h with
  | @integer _ _ n _ =>
    rw [Expr.symbols, integerSymbols]
    split
    · exact .mark (by decide) (.integer _)
    · exact .integer _
  | float hx => exact .cons ⟨_, .float hx⟩ .nil
  | @boolean _ _ b => exact .keyword _ .nil
  | identifier hname => exact .name hname .nil
  | member _ hname ih => exact ih.parens.append (.mark (by decide) (.name hname .nil))
  | call _ _ ih ihargs => exact ih.parens.append (.arguments ihargs)
  | builtinCall hname _ ihargs => exact .mark (by decide) (.name hname (.arguments ihargs))
  | @unary _ _ op _ _ ih => exact .mark (by cases op <;> decide) ih.parens
  | @binary _ _ op _ _ _ _ ih ih' => exact ih.parens.append (.mark (by cases op <;> decide) ih'.parens)
  | assignment _ _ ih ih' => exact ih.parens.append (.mark (by decide) ih'.parens)
  | @structLiteral _ _ _ fields hname hnames _ ih =>
    have hfields : Writable (Symbol.listed true (Expr.symbolsFields fields)) := by
      refine .listed (fun item hitem => ?_) true
      rw [Expr.symbolsFields_eq] at hitem
      obtain ⟨f, hf, rfl⟩ := List.mem_map.mp hitem
      exact .name (hnames f hf) (.mark (by decide) (ih f hf).parens)
    exact .name hname (.mark (by decide) (hfields.append (.mark (by decide) .nil)))
  | @letBinding _ _ _ mutable declared _ hname hdeclared _ ih =>
    have hname : Writable (mutableSymbols mutable ++ [.name _]) := (Writable.mutable mutable).append (.name hname .nil)
    have hdeclared : Writable (declaredSymbols declared) := by
      cases declared with
      | none => exact .nil
      | some t => exact .mark (by decide) (hdeclared t rfl).writable
    exact .keyword .letWord ((hname.append hdeclared).append (.mark (by decide) ih.parens))
  | @block _ _ stmts tail _ _ ihstmts ihtail =>
    have hstmts : Writable (Expr.symbolsStatements stmts) := by
      clear ihtail
      induction stmts with
      | nil => exact .nil
      | cons e rest ih =>
        have hend : Writable (if e.isFunction then [] else [.mark .semicolon]) := by
          split
          · exact .nil
          · exact .mark (by decide) .nil
        exact ((ihstmts e (by simp)).append hend).append
          (ih (fun e he => by simp_all) fun e he => ihstmts e (by simp [he]))
    have htail : Writable (Expr.symbolsTail tail) := by
      cases tail with
      | none => exact .nil
      | some e => exact ihtail e rfl
    exact .mark (by decide) ((hstmts.append htail).append (.mark (by decide) .nil))
  | @ifElse _ _ _ _ other _ _ _ _ ihcond ihthen ihother =>
    have hother : Writable (Expr.symbolsElse other) := by
      cases other with
      | none => exact .nil
      | some e => exact .keyword .elseWord (ihother e rfl)
    exact .keyword .ifWord ((ihcond.parens.append ihthen).append hother)
  | whileLoop _ _ ihcond ihbody => exact .keyword .whileWord (ihcond.parens.append ihbody)
  | endlessLoop _ ih => exact .keyword .loopWord ih
  | leaveLoop => exact .keyword .breakWord .nil
  | nextRound => exact .keyword .continueWord .nil
  | leaveFunction => exact .keyword .returnWord .nil
  | leaveWith _ ih => exact .keyword .returnWord ih.parens
  | function hheader _ _ ih => exact hheader.writable.append ih

theorem Decl.Expressible.writable {d : Decl} (h : d.Expressible) : Writable d.symbols := by
  have hexport (exported : Bool) : Writable (exportSymbols exported) := by
    cases exported with
    | false => exact .nil
    | true => exact .keyword .exportWord .nil
  cases h with
  | @struct d h =>
    have hfields : Writable (Symbol.listed true (d.fields.map FieldDecl.symbols)) := by
      refine .listed (fun item hitem => ?_) true
      obtain ⟨f, hf, rfl⟩ := List.mem_map.mp hitem
      exact .name (h.fields f hf).1 (.mark (by decide) (h.fields f hf).2.writable)
    have hhead : Writable (.keyword .structWord :: .name d.name :: .mark .leftBrace ::
        Symbol.listed true (d.fields.map FieldDecl.symbols)) :=
      .keyword .structWord (.name h.name (.mark (by decide) hfields))
    exact ((hexport _).append hhead).append (.mark (by decide) .nil)
  | function hheader hbody => exact ((hexport _).append hheader.writable).append hbody.writable

/-- A tree that the grammar can express has a text. -/
theorem exists_writes {symbols : List Symbol} (h : Writable symbols) : ∃ contents, Writes symbols contents := by
  obtain ⟨texts, htexts⟩ : ∃ texts, List.Forall₂ Symbol.IsWritten symbols texts := by
    induction symbols with
    | nil => exact ⟨[], .nil⟩
    | cons x xs ih =>
      obtain ⟨text, hx⟩ := h x (by simp)
      obtain ⟨texts, hxs⟩ := ih fun y hy => h y (by simp [hy])
      exact ⟨text :: texts, .cons hx hxs⟩
  have hseparated (texts : List (List Char)) : ∃ contents, Separated texts contents := by
    induction texts with
    | nil => exact ⟨[], .nil⟩
    | cons text texts ih =>
      obtain ⟨contents, hcontents⟩ := ih
      cases texts with
      | nil => exact ⟨text, .last text⟩
      | cons next rest => exact ⟨_, .cons text ⟨.blank rfl .nil, ' ', [], rfl, rfl⟩ hcontents⟩
  obtain ⟨contents, hcontents⟩ := hseparated texts
  exact ⟨contents, texts, htexts, hcontents⟩

end RainCheck

import Mathlib.Algebra.Order.Ring.Int
import RainCheck.Proofs.Nodes
import RainCheck.Proofs.Precedence
import RainCheck.Proofs.Symbols

/-!
# Where parts of a tree are written

The blocks, conditionals, loops and struct literals of a derived tree stand in its tokens one inside of the other.
* Every phrase closes the brackets that it opens (`Derives.depth_eq`).
* A part is built from tokens of its own (`Built`), which lie in those of the whole (`Occurs`).
* A struct literal of a condition stands behind a bracket that the condition opens, or in the result of a `return` that
  stands behind none (`Derives.parts`).
-/

namespace RainCheck

/-! ### Depth of brackets -/

/-- What a token adds to the number of open brackets. -/
def Token.weight (t : Token) : Int :=
  match t.kind with
  | .leftParen | .leftBrace => 1
  | .rightParen | .rightBrace => -1
  | _ => 0

/-- The number of brackets that are open behind some tokens. -/
def depth (ts : List Token) : Int := (ts.map Token.weight).sum

@[simp] theorem depth_nil : depth [] = 0 := rfl

@[simp] theorem depth_cons (t : Token) (ts : List Token) : depth (t :: ts) = t.weight + depth ts := by
  simp [depth]

@[simp] theorem depth_append (u v : List Token) : depth (u ++ v) = depth u + depth v := by
  simp [depth]

variable {t : Token} {u v w used : List Token}

/-- The tokens of an enumeration close the bracket in front of it and no other. -/
private theorem Enumerates.depth_eq {close : TokenKind} {trailing first : Bool} {items : List (List Token)}
    (h : Enumerates close trailing first items used) (hclose : ∀ t : Token, t.kind = close → t.weight = -1)
    (hitems : ∀ item ∈ items, depth item = 0) : depth used = -1 := by
  have hcomma : ∀ t : Token, t.kind = .comma → t.weight = 0 := fun t ht => by rw [Token.weight, ht]
  induction h with
  | close ht => simp [hclose _ ht]
  | trailing _ hc ht => simp [hcomma _ hc, hclose _ ht]
  | first _ ih =>
    rw [depth_append, hitems _ (by simp), ih fun item hitem => hitems item (by simp [hitem])]
    rfl
  | next hc _ ih =>
    rw [List.cons_append, depth_cons, depth_append, hcomma _ hc, hitems _ (by simp),
      ih fun item hitem => hitems item (by simp [hitem])]
    rfl

private theorem weight_rightParen (ht : t.kind = .rightParen) : t.weight = -1 := by rw [Token.weight, ht]

private theorem weight_rightBrace (ht : t.kind = .rightBrace) : t.weight = -1 := by rw [Token.weight, ht]

/-- The pieces of an enumeration, none of which leaves a bracket open. -/
private theorem depth_pieces {α : Type} {pieces : List (List Token × α)} (h : ∀ p ∈ pieces, depth p.1 = 0) :
    ∀ item ∈ pieces.map (·.1), depth item = 0 := by
  intro item hitem
  obtain ⟨p, hp, rfl⟩ := List.mem_map.mp hitem
  exact h p hp

private theorem DerivesType.depth_eq {phrase : TypePhrase} (h : DerivesType phrase used) : depth used = 0 := by
  induction h with
  | named ht => simp [Token.weight, ht]
  | reference ht _ _ ih => simp [Token.weight, ht, ih]
  | function hword hparen hlist _ _ _ ihparams ihreturns =>
    have hparams := hlist.depth_eq (fun _ => weight_rightParen) (depth_pieces ihparams)
    simp [Token.weight, hword, hparen, hparams, ihreturns]
  | nothing => rfl
  | result harrow _ ih => simp [Token.weight, harrow, ih]

private theorem DerivesMutable.depth_eq {mutable : Bool} (h : DerivesMutable mutable used) : depth used = 0 := by
  cases h with
  | no => rfl
  | yes ht => simp [Token.weight, ht]

private theorem DerivesParam.depth_eq {p : Param} (h : DerivesParam p used) : depth used = 0 := by
  cases h with
  | param hmark hname hcolon hdeclared =>
    simp [Token.weight, hmark.depth_eq, hname, hcolon, hdeclared.depth_eq]

private theorem DerivesHeader.depth_eq {exported : Bool} {header : Header} (h : DerivesHeader exported header used) :
    depth used = 0 := by
  cases h with
  | header hword hname hparen hlist hpieces hreturns =>
    have hparams := hlist.depth_eq (fun _ => weight_rightParen) (depth_pieces fun p hp => (hpieces p hp).depth_eq)
    simp [Token.weight, hword, hname, hparen, hparams, hreturns.depth_eq]

private theorem DerivesDeclared.depth_eq {declared : Option TypeExpr} (h : DerivesDeclared declared used) :
    depth used = 0 := by
  cases h with
  | nothing => rfl
  | type hcolon ht => simp [Token.weight, hcolon, ht.depth_eq]

/-- The number of brackets that a phrase closes without opening them: statements run up to the end of their block. -/
def Phrase.closes : Phrase → Int
  | .statements _ _ => 1
  | _ => 0

/-- A phrase opens and closes the same brackets. -/
theorem Derives.depth_eq {phrase : Phrase} (h : Derives phrase used) : depth used = -phrase.closes := by
  induction h with
  | integer ht | float ht | identifier ht | leaveLoop ht | nextRound ht | leaveFunction ht =>
    simp [Phrase.closes, Token.weight, ht]
  | @boolean _ _ b ht => cases b <;> simp [Phrase.closes, Token.weight, ht]
  | structLiteral hname hbrace hlist _ _ ih =>
    have hfields := hlist.depth_eq (fun _ => weight_rightBrace) (depth_pieces ih)
    simp [Phrase.closes, Token.weight, hname, hbrace, hfields]
  | fieldInit hname hcolon _ ih => simpa [Phrase.closes, Token.weight, hname, hcolon] using ih
  | parenthesised hleft _ hright ih =>
    have hinner : depth _ = 0 := ih
    simp [Phrase.closes, Token.weight, hleft, hright, hinner]
  | blockExpr _ ih | accessed _ ih | operand _ ih | expr _ ih | blockStatement _ ih | exprStatement _ ih => exact ih
  | ifElse hword _ _ _ _ ihcond ihthen ihother =>
    simp only [Phrase.closes, Int.neg_zero] at ihcond ihthen ihother
    simp [Phrase.closes, Token.weight, hword, ihcond, ihthen, ihother]
  | whileLoop hword _ _ _ ihcond ihbody =>
    simp only [Phrase.closes, Int.neg_zero] at ihcond ihbody
    simp [Phrase.closes, Token.weight, hword, ihcond, ihbody]
  | endlessLoop hword _ _ ih | leaveWith hword _ _ ih => simpa [Phrase.closes, Token.weight, hword] using ih
  | builtinCall hmark hname hparen hlist _ _ ih =>
    have hargs := hlist.depth_eq (fun _ => weight_rightParen) (depth_pieces ih)
    simp [Phrase.closes, Token.weight, hmark, hname, hparen, hargs]
  | member _ hdot hname ih => simpa [Phrase.closes, Token.weight, hdot, hname] using ih
  | call _ hparen hlist _ _ ihcallee ihargs =>
    have hargs := hlist.depth_eq (fun _ => weight_rightParen) (depth_pieces ihargs)
    simp only [Phrase.closes, Int.neg_zero] at ihcallee
    simp [Phrase.closes, Token.weight, hparen, hargs, ihcallee]
  | smallestInteger hsign hnumber => simp [Phrase.closes, Token.weight, hsign, hnumber]
  | @unary _ _ op _ _ _ ht _ _ ih => cases op <;> simpa [Phrase.closes, Token.weight, ht, UnaryOp.token] using ih
  | noOperands | noElse => rfl
  | @moreOperands _ t op _ _ _ _ hop _ _ ihoperand ihrest =>
    have ht : t.weight = 0 := by
      rw [Token.weight, BinaryOp.token_of_ofToken hop]
      cases op <;> rfl
    simp only [Phrase.closes, Int.neg_zero] at ihoperand ihrest
    simp [Phrase.closes, ht, ihoperand, ihrest]
  | operation _ _ ihfirst ihrest =>
    simp only [Phrase.closes, Int.neg_zero] at ihfirst ihrest
    simp [Phrase.closes, ihfirst, ihrest]
  | assignment _ ht _ ihtarget ihsource =>
    simp only [Phrase.closes, Int.neg_zero] at ihtarget ihsource
    simp [Phrase.closes, Token.weight, ht, ihtarget, ihsource]
  | elseIf hword _ _ ih | elseBlock hword _ ih => simpa [Phrase.closes, Token.weight, hword] using ih
  | letBinding hword hmark hname hdeclared hequal _ _ ih =>
    simpa [Phrase.closes, Token.weight, hword, hmark.depth_eq, hname, hdeclared.depth_eq, hequal] using ih
  | nestedFunction hheader _ ih => simpa [Phrase.closes, hheader.depth_eq] using ih
  | endOfBlock hbrace => simp [Phrase.closes, Token.weight, hbrace]
  | lastExpr _ _ hbrace ih =>
    have hstmt : depth _ = 0 := ih
    simp [Phrase.closes, Token.weight, hbrace, hstmt]
  | ended _ hsemicolon _ ihstmt ihrest =>
    have hstmt : depth _ = 0 := ihstmt
    have hrest : depth _ = -1 := ihrest
    simp [Phrase.closes, Token.weight, hsemicolon, hstmt, hrest]
  | unended _ _ _ ihstmt ihrest =>
    have hstmt : depth _ = 0 := ihstmt
    have hrest : depth _ = -1 := ihrest
    simp [Phrase.closes, hstmt, hrest]
  | block hbrace _ _ ih =>
    have hstmts : depth _ = -1 := ih
    simp [Phrase.closes, Token.weight, hbrace, hstmts]

/-! ### Nodes of operations -/

/-- The nodes of a grouping are those of its operands, apart from its operations. -/
private theorem Grouping.mem_nodes {G : Grouping} {n : Expr} :
    (∀ e ∈ G.operands, n ∈ e.nodes → n ∈ G.tree.nodes) ∧
      (n ∈ G.tree.nodes → (∀ i op lhs rhs, n ≠ .binary i op lhs rhs) → ∃ e ∈ G.operands, n ∈ e.nodes) := by
  induction G with
  | operand e =>
    simp only [tree, operands, List.mem_singleton, forall_eq, exists_eq_left]
    exact ⟨fun hn => hn, fun hn _ => hn⟩
  | operation op lhs rhs ihl ihr =>
    simp only [tree, operands, Expr.operation, Expr.nodes, List.mem_cons, List.mem_append]
    refine ⟨?_, ?_⟩
    · rintro e (he | he) hn
      · exact .inr (.inl (ihl.1 e he hn))
      · exact .inr (.inr (ihr.1 e he hn))
    · rintro (hn | hn | hn) hbinary
      · exact absurd hn (hbinary _ _ _ _)
      · obtain ⟨e, he, hn⟩ := ihl.2 hn hbinary
        exact ⟨e, .inl he, hn⟩
      · obtain ⟨e, he, hn⟩ := ihr.2 hn hbinary
        exact ⟨e, .inr he, hn⟩

namespace Expr

variable {first n : Expr} {rest : List (BinaryOp × Expr)}

private theorem mem_nodes_ofOperands (h : n ∈ first.nodes ∨ ∃ p ∈ rest, n ∈ p.2.nodes) :
    n ∈ (ofOperands first rest).nodes := by
  obtain ⟨G, htree, hoperands, -, -⟩ := exists_grouping first rest
  rw [htree]
  rcases h with hn | ⟨p, hp, hn⟩
  · exact Grouping.mem_nodes.1 first (by simp [hoperands]) hn
  · exact Grouping.mem_nodes.1 p.2 (hoperands ▸ List.mem_cons_of_mem _ (List.mem_map_of_mem hp)) hn

private theorem nodes_ofOperands_inv (hn : n ∈ (ofOperands first rest).nodes)
    (hbinary : ∀ i op lhs rhs, n ≠ .binary i op lhs rhs) :
    n ∈ first.nodes ∨ ∃ p ∈ rest, n ∈ p.2.nodes := by
  obtain ⟨G, htree, hoperands, -, -⟩ := exists_grouping first rest
  rw [htree] at hn
  obtain ⟨e, he, hn⟩ := Grouping.mem_nodes.2 hn hbinary
  rw [hoperands] at he
  rcases List.mem_cons.mp he with rfl | he
  · exact .inl hn
  · obtain ⟨p, hp, rfl⟩ := List.mem_map.mp he
    exact .inr ⟨p, hp, hn⟩

end Expr

/-! ### Parts with tokens of their own -/

/-- Whether an expression is a struct literal. -/
def Expr.isStructLiteral : Expr → Bool
  | .structLiteral _ _ _ => true
  | _ => false

/-- The condition of a conditional or of a loop. -/
def Expr.condition? : Expr → Option Expr
  | .ifElse _ cond _ _ => some cond
  | .whileLoop _ cond _ => some cond
  | _ => none

/-- The tokens that a part of a tree is built from, as far as they matter below. -/
inductive Built : Expr → List Token → Prop where
  | block {b : Block Expr} {used : List Token} (hb : Derives (.block b) used) : Built (.block b) used
  | structLiteral {name : Token} {rest : List Token} {i : Info} {text : String} {fields : List (FieldInit Expr)}
      (hname : name.kind = .identifier) (hstart : i.span.start = name.span.start) :
      Built (.structLiteral i text fields) (name :: rest)
  | conditional {n cond : Expr} {word : Token} {used rest : List Token} (hcond : n.condition? = some cond)
      (hword : word.kind = .keyword .ifWord ∨ word.kind = .keyword .whileWord)
      (hstart : n.span.start = word.span.start) (hused : Derives (.expr true cond) used) :
      Built n (word :: used ++ rest)
  | endlessLoop {i : Info} {body : Block Expr} {used : List Token} : Built (.endlessLoop i body) used

/-- Behind some tokens, a node stands in the result of a `return` among `ns` whose word stands
behind no open bracket. -/
def BehindReturn (ns : List Expr) (n : Expr) (before : List Token) : Prop :=
  ∃ i result, .leaveFunction i (some result) ∈ ns ∧ n ∈ result.nodes ∧ ∃ u word v, before = u ++ word :: v ∧
    word.kind = .keyword .returnWord ∧ i.span.start = word.span.start ∧ depth u = 0

/--
A part of a tree with the nodes `ns` is built from some of the tokens of the tree.  If the tree is `guarded`, a struct
literal stands behind an open bracket or in the result of a `return`.
-/
def Occurs (guarded : Bool) (ns : List Expr) (used : List Token) (n : Expr) : Prop :=
  ∃ before part behind, used = before ++ part ++ behind ∧ Built n part ∧
    (n.isStructLiteral = true → 0 ≤ depth before ∧ (guarded = true → 0 < depth before ∨ BehindReturn ns n before))

namespace Occurs

variable {guarded : Bool} {ns ns' : List Expr} {n : Expr}

/-- A part of what stands in front of other tokens. -/
private theorem left (h : Occurs guarded ns u n) (hns : ∀ r ∈ ns, r ∈ ns') : Occurs guarded ns' (u ++ v) n := by
  obtain ⟨before, part, behind, rfl, hpart, hdepth⟩ := h
  refine ⟨before, part, behind ++ v, by simp, hpart, fun hn => ⟨(hdepth hn).1, fun hg => ?_⟩⟩
  refine ((hdepth hn).2 hg).imp_right ?_
  rintro ⟨i, result, hr, hmem⟩
  exact ⟨i, result, hns _ hr, hmem⟩

/-- A part of what stands behind tokens that leave no bracket open. -/
private theorem right (h : Occurs guarded ns v n) (hns : ∀ r ∈ ns, r ∈ ns') (hu : depth u = 0) :
    Occurs guarded ns' (u ++ v) n := by
  obtain ⟨before, part, behind, rfl, hpart, hdepth⟩ := h
  refine ⟨u ++ before, part, behind, by simp, hpart, fun hn => ?_⟩
  rw [depth_append, hu, Int.zero_add]
  refine ⟨(hdepth hn).1, fun hg => ((hdepth hn).2 hg).imp_right ?_⟩
  rintro ⟨i, result, hr, hmem, w, word, x, rfl, hword, hstart, hw⟩
  exact ⟨i, result, hns _ hr, hmem, u ++ w, word, x, by simp, hword, hstart, by simp [hu, hw]⟩

/-- A part of what stands between other tokens, of which those in front leave no bracket open. -/
private theorem within (h : Occurs guarded ns v n) (hns : ∀ r ∈ ns, r ∈ ns') (hu : depth u = 0)
    (hused : u ++ (v ++ w) = used) :
    Occurs guarded ns' used n :=
  hused ▸ (h.left fun _ hr => hr).right hns hu

/-- A part of what stands behind an open bracket is guarded. -/
private theorem bracket (h : Occurs guarded ns v n) (hu : depth u = 1) : Occurs true ns' (u ++ v) n := by
  obtain ⟨before, part, behind, rfl, hpart, hdepth⟩ := h
  refine ⟨u ++ before, part, behind, by simp, hpart, fun hn => ?_⟩
  have := (hdepth hn).1
  rw [depth_append, hu]
  exact ⟨by omega, fun _ => .inl (by omega)⟩

private theorem weaken (h : Occurs true ns u n) : Occurs guarded ns u n := by
  obtain ⟨before, part, behind, hused, hpart, hdepth⟩ := h
  exact ⟨before, part, behind, hused, hpart, fun hn => ⟨(hdepth hn).1, fun _ => (hdepth hn).2 rfl⟩⟩

/-- A struct literal may always stand in the open where nothing forbids it. -/
private theorem unguarded (h : Occurs guarded ns u n) : Occurs false ns u n := by
  obtain ⟨before, part, behind, hused, hpart, hdepth⟩ := h
  exact ⟨before, part, behind, hused, hpart, fun hn => ⟨(hdepth hn).1, fun hg => by cases hg⟩⟩

/-- A part of what is returned. -/
private theorem returned {i : Info} {e : Expr} (h : Occurs false e.nodes u n) (hn : n ∈ e.nodes)
    (ht : t.kind = .keyword .returnWord) (hstart : i.span.start = t.span.start)
    (hr : .leaveFunction i (some e) ∈ ns) : Occurs guarded ns (t :: u) n := by
  obtain ⟨before, part, behind, rfl, hpart, hdepth⟩ := h
  refine ⟨t :: before, part, behind, by simp, hpart, fun hliteral => ?_⟩
  have hweight : t.weight = 0 := by rw [Token.weight, ht]
  rw [depth_cons, hweight, Int.zero_add]
  exact ⟨(hdepth hliteral).1, fun _ => .inr ⟨i, e, hr, hn, [], t, before, rfl, ht, hstart, rfl⟩⟩

/-- What is built from all tokens of a phrase occurs in it, unless it is a struct literal that should be guarded. -/
private theorem self (h : Built n u) (hn : n.isStructLiteral = true → guarded = false) : Occurs guarded ns u n :=
  ⟨[], u, [], by simp, h, fun hliteral => ⟨Int.le_refl 0, fun hg => by simp [hn hliteral] at hg⟩⟩

end Occurs

/-- The items of an enumeration stand in it one behind the other, each behind no open bracket. -/
private theorem Enumerates.occurs {α : Type} {close : TokenKind} {trailing first : Bool}
    {pieces : List (List Token × α)}
    {guarded : Bool} {ns ns' : List Expr} {n : Expr} {p : List Token × α}
    (h : Enumerates close trailing first (pieces.map (·.1)) used)
    (hdepth : ∀ p ∈ pieces, depth p.1 = 0) (hp : p ∈ pieces)
    (hn : Occurs guarded ns p.1 n) (hns : ∀ r ∈ ns, r ∈ ns') : Occurs guarded ns' used n := by
  have hitems := depth_pieces hdepth
  have hitem : p.1 ∈ pieces.map (·.1) := List.mem_map_of_mem hp
  generalize pieces.map (·.1) = items at h hitems hitem
  induction h with
  | close | trailing => cases hitem
  | first _ ih =>
    rcases List.mem_cons.mp hitem with heq | hitem
    · exact heq ▸ hn.left hns
    · exact (ih (fun item hitem => hitems item (by simp [hitem])) hitem).right (fun _ hr => hr) (hitems _ (by simp))
  | @next comma item rest items hcomma _ ih =>
    have hweight : depth [comma] = 0 := by simp [Token.weight, hcomma]
    rw [List.cons_append, ← List.singleton_append]
    refine Occurs.right ?_ (fun _ hr => hr) hweight
    rcases List.mem_cons.mp hitem with heq | hitem
    · exact heq ▸ hn.left hns
    · exact (ih (fun item hitem => hitems item (by simp [hitem])) hitem).right (fun _ hr => hr) (hitems _ (by simp))

/-- The nodes of the trees of a phrase. -/
def Phrase.nodes : Phrase → List Expr
  | .primary _ e | .accessed _ e | .operand _ e | .operation _ e | .expr _ e | .statement e => e.nodes
  | .fieldInit field => field.value.nodes
  | .operands _ rest => rest.flatMap fun p => p.2.nodes
  | .elseBranch e => Expr.nodesOption e
  | .statements stmts tail => Expr.nodesAll stmts ++ Expr.nodesOption tail
  | .block b => Expr.nodesBlock b

/-- Whether no struct literal of a phrase is in the open: literals are not allowed there, or a bracket is. -/
def Phrase.isGuarded : Phrase → Bool
  | .primary noStruct e => noStruct || e.isBlockLike
  | .accessed noStruct _ | .operand noStruct _ | .operands noStruct _ | .operation noStruct _
  | .expr noStruct _ => noStruct
  | .elseBranch _ | .block _ => true
  | .fieldInit _ | .statement _ | .statements _ _ => false

/-- Whether a part of a tree is looked for in its tokens: a block, a conditional, a loop or a struct literal. -/
def Expr.isLandmark (n : Expr) : Bool := n.isBlockLike || n.isStructLiteral

/-- A landmark is none of its own operations. -/
private theorem Expr.isLandmark.ne_binary {n : Expr} (h : n.isLandmark = true) :
    ∀ i op lhs rhs, n ≠ .binary i op lhs rhs := by
  rintro i op lhs rhs rfl
  cases h

/-- What starts with `if` is a conditional, and has no literal in the open. -/
private theorem Derives.isBlockLike_of_if {noStruct : Bool} {e : Expr} (h : Derives (.primary noStruct e) used)
    (hfirst : used.head? = some t) (ht : t.kind = .keyword .ifWord) : e.isBlockLike = true := by
  cases h with
  | blockExpr | ifElse | whileLoop | endlessLoop => rfl
  | @boolean _ _ b hb => cases b <;> simp_all
  | _ => simp_all

/-- All landmarks of a phrase occur in its tokens. -/
def Phrase.PartsOccur (phrase : Phrase) (used : List Token) : Prop :=
  ∀ n ∈ phrase.nodes, n.isLandmark = true → Occurs phrase.isGuarded phrase.nodes used n

/-! ### Landmarks of expressions -/

section

variable {noStruct : Bool} {u₁ u₂ u₃ : List Token} {span : Span}

/-- What stands in the brackets of a struct literal or of a call. -/
private theorem parts_items {α : Type} {close : TokenKind} {trailing guarded : Bool} {pieces : List (List Token × α)}
    {F : α → Phrase} {ns : List Expr} {n : Expr} (hlist : Enumerates close trailing true (pieces.map (·.1)) v)
    (hpieces : ∀ p ∈ pieces, Derives (F p.2) p.1) (hcloses : ∀ a, (F a).closes = 0)
    (ih : ∀ p ∈ pieces, (F p.2).PartsOccur p.1) (hmark : n.isLandmark = true)
    (hn : ∃ a ∈ pieces.map (·.2), n ∈ (F a).nodes)
    (hu : depth u = 1) : Occurs guarded ns (u ++ v) n := by
  obtain ⟨a, ha, hn⟩ := hn
  obtain ⟨p, hp, rfl⟩ := List.mem_map.mp ha
  have hdepth : ∀ p ∈ pieces, depth p.1 = 0 := by
    intro p hp
    rw [(hpieces p hp).depth_eq, hcloses]
    rfl
  exact (hlist.occurs hdepth hp (ih p hp n hn hmark) fun _ hr => hr).bracket hu |>.weaken

private theorem parts_structLiteral {name brace : Token} {pieces : List (List Token × FieldInit Expr)}
    (hname : name.kind = .identifier) (hbrace : brace.kind = .leftBrace)
    (hlist : Enumerates .rightBrace true true (pieces.map (·.1)) used)
    (hpieces : ∀ p ∈ pieces, Derives (.fieldInit p.2) p.1) (hspan : Covers (name :: brace :: used) span)
    (ih : ∀ p ∈ pieces, (Phrase.fieldInit p.2).PartsOccur p.1) :
    (Phrase.primary false (.structLiteral { span } name.text (pieces.map (·.2)))).PartsOccur
      (name :: brace :: used) := by
  intro n hn hmark
  rcases List.mem_cons.mp hn with rfl | hn
  · exact .self (.structLiteral hname hspan.start_eq) fun _ => rfl
  · have hu : depth [name, brace] = 1 := by simp [Token.weight, hname, hbrace]
    exact parts_items (F := .fieldInit) hlist hpieces (fun _ => rfl) ih hmark (Expr.mem_nodesFields.mp hn) hu

/-- No literal stands in the open in a condition, so a conditional is guarded whatever its condition is. -/
private theorem parts_ifElse {word : Token} {cond : Expr} {thenBlock : Block Expr} {other : Option Expr}
    (hword : word.kind = .keyword .ifWord) (hcond : Derives (.expr true cond) u₁)
    (hthen : Derives (.block thenBlock) u₂)
    (hspan : Covers (word :: u₁ ++ u₂ ++ u₃) span) (ihcond : (Phrase.expr true cond).PartsOccur u₁)
    (ihthen : (Phrase.block thenBlock).PartsOccur u₂) (ihother : (Phrase.elseBranch other).PartsOccur u₃) :
    (Phrase.primary noStruct (.ifElse { span } cond thenBlock other)).PartsOccur (word :: u₁ ++ u₂ ++ u₃) := by
  intro n hn hmark
  have hu : depth [word] = 0 := by simp [Token.weight, hword]
  have hu₁ : depth (word :: u₁) = 0 := by simp [Token.weight, hword, hcond.depth_eq, Phrase.closes]
  have hu₂ : depth (word :: u₁ ++ u₂) = 0 := by
    rw [depth_append, hu₁, hthen.depth_eq]
    rfl
  refine Occurs.weaken ?_
  rcases List.mem_cons.mp hn with rfl | hn
  · rw [List.append_assoc]
    exact .self (.conditional rfl (.inl hword) hspan.start_eq hcond) fun hn => by cases hn
  rcases List.mem_append.mp hn with hn | hn
  · rcases List.mem_append.mp hn with hn | hn
    · exact (ihcond n hn hmark).within
        (fun r hr => List.mem_cons_of_mem _ (List.mem_append_left _ (List.mem_append_left _ hr))) hu
        (w := u₂ ++ u₃) (by simp)
    · exact (ihthen n hn hmark).within
        (fun r hr => List.mem_cons_of_mem _ (List.mem_append_left _ (List.mem_append_right _ hr))) hu₁
        (w := u₃) (by simp)
  · exact (ihother n hn hmark).right (fun r hr => List.mem_cons_of_mem _ (List.mem_append_right _ hr)) hu₂

private theorem parts_whileLoop {word : Token} {cond : Expr} {body : Block Expr}
    (hword : word.kind = .keyword .whileWord)
    (hcond : Derives (.expr true cond) u₁) (hspan : Covers (word :: u₁ ++ u₂) span)
    (ihcond : (Phrase.expr true cond).PartsOccur u₁) (ihbody : (Phrase.block body).PartsOccur u₂) :
    (Phrase.primary noStruct (.whileLoop { span } cond body)).PartsOccur (word :: u₁ ++ u₂) := by
  intro n hn hmark
  have hu : depth [word] = 0 := by simp [Token.weight, hword]
  have hu₁ : depth (word :: u₁) = 0 := by simp [Token.weight, hword, hcond.depth_eq, Phrase.closes]
  refine Occurs.weaken ?_
  rcases List.mem_cons.mp hn with rfl | hn
  · exact .self (.conditional rfl (.inr hword) hspan.start_eq hcond) fun hn => by cases hn
  rcases List.mem_append.mp hn with hn | hn
  · exact (ihcond n hn hmark).within (fun r hr => List.mem_cons_of_mem _ (List.mem_append_left _ hr)) hu rfl
  · exact (ihbody n hn hmark).right (fun r hr => List.mem_cons_of_mem _ (List.mem_append_right _ hr)) hu₁

private theorem parts_endlessLoop {word : Token} {body : Block Expr} (hword : word.kind = .keyword .loopWord)
    (ih : (Phrase.block body).PartsOccur used) :
    (Phrase.primary noStruct (.endlessLoop { span } body)).PartsOccur (word :: used) := by
  intro n hn hmark
  have hu : depth [word] = 0 := by simp [Token.weight, hword]
  refine Occurs.weaken ?_
  rcases List.mem_cons.mp hn with rfl | hn
  · exact .self .endlessLoop fun hn => by cases hn
  · exact (ih n hn hmark).right (fun r hr => List.mem_cons_of_mem _ hr) hu

private theorem parts_builtinCall {mark name paren : Token} {pieces : List (List Token × Expr)}
    (hmark : mark.kind = .at)
    (hname : name.kind = .identifier) (hparen : paren.kind = .leftParen)
    (hlist : Enumerates .rightParen false true (pieces.map (·.1)) used)
    (hpieces : ∀ p ∈ pieces, Derives (.expr false p.2) p.1)
    (ih : ∀ p ∈ pieces, (Phrase.expr false p.2).PartsOccur p.1) :
    (Phrase.primary noStruct (.builtinCall { span } name.text (pieces.map (·.2)))).PartsOccur
      (mark :: name :: paren :: used) := by
  intro n hn hlandmark
  rcases List.mem_cons.mp hn with rfl | hn
  · cases hlandmark
  · have hu : depth [mark, name, paren] = 1 := by simp [Token.weight, hmark, hname, hparen]
    exact parts_items (F := .expr false) hlist hpieces (fun _ => rfl) ih hlandmark (Expr.mem_nodesAll.mp hn) hu

private theorem parts_call {e : Expr} {paren : Token} {pieces : List (List Token × Expr)}
    (he : Derives (.accessed noStruct e) u₁)
    (hparen : paren.kind = .leftParen) (hlist : Enumerates .rightParen false true (pieces.map (·.1)) u₂)
    (hpieces : ∀ p ∈ pieces, Derives (.expr false p.2) p.1) (ihcallee : (Phrase.accessed noStruct e).PartsOccur u₁)
    (ihargs : ∀ p ∈ pieces, (Phrase.expr false p.2).PartsOccur p.1) :
    (Phrase.accessed noStruct (.call { span } e (pieces.map (·.2)))).PartsOccur (u₁ ++ paren :: u₂) := by
  intro n hn hmark
  rcases List.mem_cons.mp hn with rfl | hn
  · cases hmark
  rcases List.mem_append.mp hn with hn | hn
  · exact (ihcallee n hn hmark).left fun r hr => List.mem_cons_of_mem _ (List.mem_append_left _ hr)
  · have hu : depth (u₁ ++ [paren]) = 1 := by simp [he.depth_eq, Phrase.closes, Token.weight, hparen]
    rw [← List.singleton_append, ← List.append_assoc]
    exact parts_items (F := .expr false) hlist hpieces (fun _ => rfl) ihargs hmark (Expr.mem_nodesAll.mp hn) hu

private theorem parts_unary {op : UnaryOp} {e : Expr} (ht : t.kind = op.token)
    (ih : (Phrase.operand noStruct e).PartsOccur used) :
    (Phrase.operand noStruct (.unary { span } op e)).PartsOccur (t :: used) := by
  intro n hn hmark
  have hu : depth [t] = 0 := by cases op <;> simp [Token.weight, ht, UnaryOp.token]
  rcases List.mem_cons.mp hn with rfl | hn
  · cases hmark
  · exact (ih n hn hmark).right (fun r hr => List.mem_cons_of_mem _ hr) hu

private theorem parts_moreOperands {op : BinaryOp} {e : Expr} {rest : List (BinaryOp × Expr)}
    (hop : BinaryOp.ofToken? t.kind = some op) (he : Derives (.operand noStruct e) u₁)
    (ihoperand : (Phrase.operand noStruct e).PartsOccur u₁) (ihrest : (Phrase.operands noStruct rest).PartsOccur u₂) :
    (Phrase.operands noStruct ((op, e) :: rest)).PartsOccur (t :: u₁ ++ u₂) := by
  intro n hn hmark
  have hu : depth [t] = 0 := by
    rw [depth_cons, Token.weight, BinaryOp.token_of_ofToken hop]
    cases op <;> rfl
  have hu₁ : depth (t :: u₁) = 0 := by
    rw [← List.singleton_append, depth_append, hu, he.depth_eq]
    rfl
  rw [Phrase.nodes, List.flatMap_cons] at hn ⊢
  rcases List.mem_append.mp hn with hn | hn
  · exact (ihoperand n hn hmark).within (fun r hr => List.mem_append_left _ hr) hu rfl
  · exact (ihrest n hn hmark).right (fun r hr => List.mem_append_right _ hr) hu₁

/-- Operations are no landmarks, so how the operands are grouped does not matter. -/
private theorem parts_operation {e : Expr} {rest : List (BinaryOp × Expr)} (he : Derives (.operand noStruct e) u₁)
    (ihfirst : (Phrase.operand noStruct e).PartsOccur u₁) (ihrest : (Phrase.operands noStruct rest).PartsOccur u₂) :
    (Phrase.operation noStruct (Expr.ofOperands e rest)).PartsOccur (u₁ ++ u₂) := by
  intro n hn hmark
  rcases Expr.nodes_ofOperands_inv hn (Expr.isLandmark.ne_binary hmark) with hn | ⟨p, hp, hn⟩
  · exact (ihfirst n hn hmark).left fun r hr => Expr.mem_nodes_ofOperands (.inl hr)
  · refine (ihrest n (List.mem_flatMap_of_mem hp hn) hmark).right (fun r hr => ?_) he.depth_eq
    obtain ⟨q, hq, hr⟩ := List.mem_flatMap.mp hr
    exact Expr.mem_nodes_ofOperands (.inr ⟨q, hq, hr⟩)

private theorem parts_assignment {target source : Expr} (htarget : Derives (.operation noStruct target) u₁)
    (ht : t.kind = .assign) (ihtarget : (Phrase.operation noStruct target).PartsOccur u₁)
    (ihsource : (Phrase.expr noStruct source).PartsOccur u₂) :
    (Phrase.expr noStruct (.assignment { span } target source)).PartsOccur (u₁ ++ t :: u₂) := by
  intro n hn hmark
  have hu : depth (u₁ ++ [t]) = 0 := by simp [htarget.depth_eq, Phrase.closes, Token.weight, ht]
  rcases List.mem_cons.mp hn with rfl | hn
  · cases hmark
  rcases List.mem_append.mp hn with hn | hn
  · exact (ihtarget n hn hmark).left fun r hr => List.mem_cons_of_mem _ (List.mem_append_left _ hr)
  · exact (ihsource n hn hmark).within (w := [])
      (fun r hr => List.mem_cons_of_mem _ (List.mem_append_right _ hr)) hu (by simp)

private theorem parts_letBinding {word name equal : Token} {mutable : Bool} {mark annotation : List Token}
    {declared : Option TypeExpr} {binding : Holder Variable} {init : Expr} (hword : word.kind = .keyword .letWord)
    (hmutable : DerivesMutable mutable mark) (hname : name.kind = .identifier)
    (hdeclared : DerivesDeclared declared annotation) (hequal : equal.kind = .assign)
    (ih : (Phrase.expr false init).PartsOccur used) :
    (Phrase.statement (.letBinding { span } binding declared init)).PartsOccur
      (word :: mark ++ name :: annotation ++ equal :: used) := by
  intro n hn hmark
  have hu : depth (word :: mark ++ name :: annotation ++ [equal]) = 0 := by
    simp [Token.weight, hword, hmutable.depth_eq, hname, hdeclared.depth_eq, hequal]
  rcases List.mem_cons.mp hn with rfl | hn
  · cases hmark
  · exact (ih n hn hmark).within (w := []) (fun r hr => List.mem_cons_of_mem _ hr) hu (by simp)

/-- A statement in front of others, with or without a semicolon behind it. -/
private theorem parts_statements (sep : List Token) {e : Expr} {stmts : List Expr} {tail : Option Expr}
    (he : Derives (.statement e) u₁) (hsep : depth sep = 0) (ihstmt : (Phrase.statement e).PartsOccur u₁)
    (ihrest : (Phrase.statements stmts tail).PartsOccur u₂) :
    (Phrase.statements (e :: stmts) tail).PartsOccur (u₁ ++ (sep ++ u₂)) := by
  intro n hn hmark
  have hu : depth (u₁ ++ sep) = 0 := by
    rw [depth_append, he.depth_eq, hsep]
    rfl
  rw [Phrase.nodes, Expr.nodesAll, List.append_assoc] at hn ⊢
  rcases List.mem_append.mp hn with hn | hn
  · exact (ihstmt n hn hmark).left fun r hr => List.mem_append_left _ hr
  · exact (ihrest n hn hmark).within (w := []) (fun r hr => List.mem_append_right _ hr) hu (by simp)

private theorem parts_block {brace : Token} {stmts : List Expr} {tail : Option Expr} (hbrace : brace.kind = .leftBrace)
    (hstmts : Derives (.statements stmts tail) used) (hspan : Covers (brace :: used) span)
    (ih : (Phrase.statements stmts tail).PartsOccur used) :
    (Phrase.block { info := { span }, frame := none, stmts, tail }).PartsOccur (brace :: used) := by
  intro n hn hmark
  have hu : depth [brace] = 1 := by simp [Token.weight, hbrace]
  rcases List.mem_cons.mp hn with rfl | hn
  · exact .self (.block (.block hbrace hstmts hspan)) fun hn => by cases hn
  · exact (ih n hn hmark).bracket hu

end

/-- The landmarks of a derived tree occur in its tokens. -/
theorem Derives.parts {phrase : Phrase} (h : Derives phrase used) : phrase.PartsOccur used := by
  induction h with
  | integer | float | boolean | identifier | leaveLoop | nextRound | leaveFunction | smallestInteger =>
    intro n hn hmark
    cases List.mem_singleton.mp hn
    cases hmark
  | structLiteral hname hbrace hlist hpieces hspan ih => exact parts_structLiteral hname hbrace hlist hpieces hspan ih
  | @fieldInit name colon value used hname hcolon hvalue ih =>
    have hu : depth [name, colon] = 0 := by simp [Token.weight, hname, hcolon]
    exact fun n hn hmark => (ih n hn hmark).right (fun _ hr => hr) hu
  | @parenthesised noStruct left right e used hleft he hright ih =>
    have hu : depth [left] = 1 := by simp [Token.weight, hleft]
    exact fun n hn hmark => (((ih n hn hmark).bracket hu).left fun _ hr => hr).weaken
  | blockExpr hb ih => exact fun n hn hmark => (ih n hn hmark).weaken
  | ifElse hword hcond hthen _ hspan ihcond ihthen ihother =>
    exact parts_ifElse hword hcond hthen hspan ihcond ihthen ihother
  | whileLoop hword hcond _ hspan ihcond ihbody => exact parts_whileLoop hword hcond hspan ihcond ihbody
  | endlessLoop hword _ _ ih => exact parts_endlessLoop hword ih
  | leaveWith hword he hspan ih =>
    intro n hn hmark
    rcases List.mem_cons.mp hn with rfl | hn
    · cases hmark
    · exact (ih n hn hmark).returned hn hword hspan.start_eq List.mem_cons_self
  | builtinCall hmark hname hparen hlist hpieces _ ih => exact parts_builtinCall hmark hname hparen hlist hpieces ih
  | @accessed noStruct e used he ih =>
    cases noStruct with
    | true => exact ih
    | false => exact fun n hn hmark => (ih n hn hmark).unguarded
  | member he hdot hname ih =>
    intro n hn hmark
    rcases List.mem_cons.mp hn with rfl | hn
    · cases hmark
    · exact (ih n hn hmark).left fun r hr => List.mem_cons_of_mem _ hr
  | call he hparen hlist hpieces _ ihcallee ihargs => exact parts_call he hparen hlist hpieces ihcallee ihargs
  | operand he ih => exact ih
  | unary ht _ _ ih => exact parts_unary ht ih
  | noOperands => exact fun n hn => by cases hn
  | moreOperands hop he _ ihoperand ihrest => exact parts_moreOperands hop he ihoperand ihrest
  | operation he _ ihfirst ihrest => exact parts_operation he ihfirst ihrest
  | expr he ih => exact ih
  | assignment htarget ht _ ihtarget ihsource => exact parts_assignment htarget ht ihtarget ihsource
  | noElse => exact fun n hn => by cases hn
  | @elseIf word first e used hword hfirst he ih =>
    intro n hn hmark
    have hu : depth [word] = 0 := by simp [Token.weight, hword]
    have h := (ih n hn hmark).right (u := [word]) (fun _ hr => hr) hu
    rwa [Phrase.isGuarded, he.isBlockLike_of_if rfl hfirst] at h
  | @elseBlock word b used hword hb ih =>
    have hu : depth [word] = 0 := by simp [Token.weight, hword]
    exact fun n hn hmark => (ih n hn hmark).right (fun _ hr => hr) hu
  | letBinding hword hmutable hname hdeclared hequal _ _ ih =>
    exact parts_letBinding hword hmutable hname hdeclared hequal ih
  | nestedFunction hheader hbody ih =>
    intro n hn hmark
    rcases List.mem_cons.mp hn with rfl | hn
    · cases hmark
    · exact ((ih n hn hmark).right (fun r hr => List.mem_cons_of_mem _ hr) hheader.depth_eq).weaken
  | blockStatement he ih => exact fun n hn hmark => (ih n hn hmark).unguarded
  | exprStatement he ih => exact ih
  | endOfBlock hbrace => exact fun n hn => by cases hn
  | lastExpr he hvalue hbrace ih => exact fun n hn hmark => (ih n hn hmark).left fun _ hr => hr
  | @ended e semicolon stmts tail u₁ u₂ he hsemicolon hrest ihstmt ihrest =>
    exact parts_statements [semicolon] he (by simp [Token.weight, hsemicolon]) ihstmt ihrest
  | unended he _ _ ihstmt ihrest => exact parts_statements [] he rfl ihstmt ihrest
  | block hbrace hstmts hspan ih => exact parts_block hbrace hstmts hspan ih

/-! ### Parts of modules -/

private theorem DerivesDecl.built {exported : Bool} {d : Decl} {n : Expr}
    (h : DerivesDecl exported d used) (hn : n ∈ d.nodes)
    (hmark : n.isLandmark = true) : ∃ before part behind, used = before ++ part ++ behind ∧ Built n part := by
  cases h with
  | struct h => cases hn
  | @function header body u₁ u₂ hheader hbody =>
    obtain ⟨before, part, behind, rfl, hpart, -⟩ := hbody.parts n hn hmark
    exact ⟨u₁ ++ before, part, behind, by simp, hpart⟩

private theorem DerivesModule.built {decls : List Decl} {d : Decl} {n : Expr}
    (h : DerivesModule decls used) (hd : d ∈ decls)
    (hn : n ∈ d.nodes) (hmark : n.isLandmark = true) :
    ∃ before part behind, used = before ++ part ++ behind ∧ Built n part := by
  induction h with
  | nil => cases hd
  | @hidden decl decls u₁ u₂ hdecl _ ih =>
    rcases List.mem_cons.mp hd with rfl | hd
    · obtain ⟨before, part, behind, rfl, hpart⟩ := hdecl.built hn hmark
      exact ⟨before, part, behind ++ u₂, by simp, hpart⟩
    · obtain ⟨before, part, behind, rfl, hpart⟩ := ih hd
      exact ⟨u₁ ++ before, part, behind, by simp, hpart⟩
  | @exported word decl decls u₁ u₂ _ hdecl _ ih =>
    rcases List.mem_cons.mp hd with rfl | hd
    · obtain ⟨before, part, behind, rfl, hpart⟩ := hdecl.built hn hmark
      exact ⟨word :: before, part, behind ++ u₂, by simp, hpart⟩
    · obtain ⟨before, part, behind, rfl, hpart⟩ := ih hd
      exact ⟨word :: u₁ ++ before, part, behind, by simp, hpart⟩

/-- The landmarks of what tokens are read as are built from some of these tokens. -/
theorem Decl.built_of_tokens {tokens : List Token} {decls : List Decl} {d : Decl} {n : Expr} (h : TokenSequence tokens)
    (hread : ofTokens tokens = .ok decls) (hd : d ∈ decls) (hn : n ∈ d.nodes) (hmark : n.isLandmark = true) :
    ∃ before part behind, tokens = before ++ part ++ behind ∧ Built n part := by
  rcases ofTokens_cases h with ⟨decls', used, last, i, -, hused, -, -, hread', hmodule⟩ | ⟨d', hrefused, -⟩
  · cases hread.symm.trans hread'
    obtain ⟨before, part, behind, rfl, hpart⟩ := hmodule.built hd hn hmark
    exact ⟨before, part, behind ++ i.tokens, by simpa using hused, hpart⟩
  · cases hread.symm.trans hrefused

end RainCheck

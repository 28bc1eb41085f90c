import RainCheck.Proofs.Levels

/-!
# Precedence

How a sequence of operands with binary operators between them is grouped.  A `Grouping` takes its operands as they are.
* It is ordered if no operator binds tighter than the one of its left part, and each binds less tightly than the one of
  its right part.
* Operands and operators determine an ordered grouping (`Grouping.eq_of_ordered`).
* Joining operands level by level gives the ordered grouping of them (`Expr.exists_grouping`), and the parser of binary
  operations reads exactly that, as does a parser with a loop for each level (`Parser.run_binary_grouping`).
-/

namespace RainCheck

/-- Operands with binary operators between them, in groups. -/
inductive Grouping where
  | operand (e : Expr)
  | operation (op : BinaryOp) (lhs rhs : Grouping)

namespace Grouping

/-- The tree of a grouping. -/
def tree : Grouping → Expr
  | operand e => e
  | operation op lhs rhs => lhs.tree.operation op rhs.tree

/-- The operands from left to right. -/
def operands : Grouping → List Expr
  | operand e => [e]
  | operation _ lhs rhs => lhs.operands ++ rhs.operands

/-- The operators from left to right. -/
def operators : Grouping → List BinaryOp
  | operand _ => []
  | operation op lhs rhs => lhs.operators ++ op :: rhs.operators

/-- The operator at the root. -/
def operator? : Grouping → Option BinaryOp
  | operand _ => none
  | operation op _ _ => some op

/-- Every operator binds at most as tightly as the one on its left, and less tightly than the one on its right. -/
def Ordered : Grouping → Prop
  | operand _ => True
  | operation op lhs rhs =>
    (∀ o ∈ lhs.operator?, op.level ≤ o.level) ∧ (∀ o ∈ rhs.operator?, op.level < o.level) ∧ lhs.Ordered ∧ rhs.Ordered

/-- An ordered grouping whose operator, if it has one, has at least the level `n`. -/
structure BindsFrom (n : Nat) (G : Grouping) : Prop where
  ordered : G.Ordered
  level : ∀ o ∈ G.operator?, n ≤ o.level

variable {G G' : Grouping} {n m : Nat}

private theorem BindsFrom.mono (h : G.BindsFrom n) (hmn : m ≤ n) : G.BindsFrom m :=
  ⟨h.ordered, fun o ho => Nat.le_trans hmn (h.level o ho)⟩

private theorem bindsFrom_operand (n : Nat) (e : Expr) : (operand e).BindsFrom n := ⟨trivial, by simp [operator?]⟩

/-- An operation on a part that binds as tightly and one that binds tighter. -/
private theorem BindsFrom.operation {op : BinaryOp} (h : G.BindsFrom op.level) (h' : G'.BindsFrom (op.level + 1)) :
    (operation op G G').BindsFrom op.level :=
  ⟨⟨h.level, fun o ho => h'.level o ho, h.ordered, h'.ordered⟩, by simp [operator?]⟩

/-! ### Operands and operators determine the groups -/

private theorem length_operands (G : Grouping) : G.operands.length = G.operators.length + 1 := by
  induction G with
  | operand e => rfl
  | operation op lhs rhs ihl ihr =>
    simp only [operands, operators, List.length_append, List.length_cons, ihl, ihr]
    omega

/-- In an ordered grouping all operators bind at least as tightly as the one at the root. -/
private theorem BindsFrom.operators (h : G.BindsFrom n) : ∀ o ∈ G.operators, n ≤ o.level := by
  induction G generalizing n with
  | operand e => simp [Grouping.operators]
  | operation op lhs rhs ihl ihr =>
    obtain ⟨hleft, hright, hlhs, hrhs⟩ := h.ordered
    have hop : n ≤ op.level := h.level op rfl
    intro o ho
    rcases List.mem_append.mp ho with ho | ho
    · exact ihl ⟨hlhs, fun o ho => Nat.le_trans hop (hleft o ho)⟩ o ho
    · rcases List.mem_cons.mp ho with rfl | ho
      · exact hop
      · exact ihr ⟨hrhs, fun o ho => Nat.le_trans hop (Nat.le_of_lt (hright o ho))⟩ o ho

/-- Two ordered groupings have their root at the same operator: of the loosest operators it is the last one. -/
private theorem root_le {op op' : BinaryOp} {l l' r r' : List BinaryOp} (h : l ++ op :: r = l' ++ op' :: r')
    (hright : ∀ o ∈ r, op.level < o.level) (hleft : ∀ o ∈ l', op'.level ≤ o.level) : l'.length ≤ l.length := by
  by_contra hlt
  rw [Nat.not_le] at hlt
  have hop : (l ++ op :: r)[l.length]? = some op := by simp
  have hop' : (l' ++ op' :: r')[l'.length]? = some op' := by simp
  rw [h, List.getElem?_append_left hlt] at hop
  rw [← h, List.getElem?_append_right (Nat.le_of_lt hlt), List.getElem?_cons,
    if_neg (by omega)] at hop'
  have h₁ := hleft op (List.mem_of_getElem? hop)
  have h₂ := hright op' (List.mem_of_getElem? hop')
  omega

/-- There is one ordered grouping of operands and operators. -/
theorem eq_of_ordered (h : G.Ordered) (h' : G'.Ordered) (hoperands : G.operands = G'.operands)
    (hoperators : G.operators = G'.operators) : G = G' := by
  induction G generalizing G' with
  | operand e =>
    cases G' with
    | operand e' =>
      cases hoperands
      rfl
    | operation op lhs rhs => simp [operators] at hoperators
  | operation op lhs rhs ihl ihr =>
    cases G' with
    | operand e' => simp [operators] at hoperators
    | operation op' lhs' rhs' =>
      obtain ⟨hl, hr, hlhs, hrhs⟩ := h
      obtain ⟨hl', hr', hlhs', hrhs'⟩ := h'
      simp only [operators] at hoperators
      simp only [operands] at hoperands
      have hlen : lhs.operators.length = lhs'.operators.length := Nat.le_antisymm
        (root_le hoperators.symm (BindsFrom.operators ⟨hrhs', hr'⟩) (BindsFrom.operators ⟨hlhs, hl⟩))
        (root_le hoperators (BindsFrom.operators ⟨hrhs, hr⟩) (BindsFrom.operators ⟨hlhs', hl'⟩))
      obtain ⟨hleft, hbehind⟩ := List.append_inj hoperators hlen
      obtain ⟨rfl, hright⟩ := List.cons.inj hbehind
      obtain ⟨hfirst, hlast⟩ := List.append_inj hoperands (by rw [length_operands, length_operands, hlen])
      rw [ihl hlhs hlhs' hfirst hleft, ihr hrhs hrhs' hlast hright]

end Grouping

/-! ### Joining the levels -/

namespace Expr

/-- The trees of groupings, each behind its operator. -/
def treesBehind (rest : List (BinaryOp × Grouping)) : List (BinaryOp × Expr) := rest.map fun p => (p.1, p.2.tree)

/-- Groupings with operators between them are joined at one level, and what is left binds from this level on. -/
private theorem joinLevel_groupings {level : Nat} {G : Grouping} {rest : List (BinaryOp × Grouping)}
    (hG : G.BindsFrom level)
    (hrest : ∀ p ∈ rest, p.2.BindsFrom (level + 1)) :
    ∃ G' rest', joinLevel level G.tree (treesBehind rest) = (Grouping.tree G', treesBehind rest') ∧ G'.BindsFrom level ∧
      (∀ p ∈ rest', p.2.BindsFrom level ∧ p.1.level ≠ level ∧ p.1 ∈ rest.map Prod.fst) ∧
      G'.operands ++ rest'.flatMap (fun p => p.2.operands) = G.operands ++ rest.flatMap (fun p => p.2.operands) ∧
      G'.operators ++ rest'.flatMap (fun p => p.1 :: p.2.operators) =
        G.operators ++ rest.flatMap (fun p => p.1 :: p.2.operators) := by
  induction rest generalizing G with
  | nil => exact ⟨G, [], rfl, hG, by simp, rfl, rfl⟩
  | cons p rest ih =>
    obtain ⟨op, next⟩ := p
    have hnext : next.BindsFrom (level + 1) := hrest (op, next) (by simp)
    have hmore : ∀ p ∈ rest, p.2.BindsFrom (level + 1) := fun p hp => hrest p (by simp [hp])
    by_cases hop : op.level = level
    · -- the operator is one of this level, and takes what is joined so far as its left operand
      subst hop
      obtain ⟨G', rest', hjoin, hG', hrest', hoperands, hoperators⟩ := ih (hG.operation hnext) hmore
      refine ⟨G', rest', ?_, hG', fun p hp => ?_, ?_, ?_⟩
      · rw [treesBehind, List.map_cons, joinLevel, if_pos rfl]
        exact hjoin
      · obtain ⟨hp₁, hp₂, hp₃⟩ := hrest' p hp
        exact ⟨hp₁, hp₂, List.mem_cons_of_mem _ hp₃⟩
      · simpa [Grouping.operands] using hoperands
      · simpa [Grouping.operators] using hoperators
    · obtain ⟨G', rest', hjoin, hG', hrest', hoperands, hoperators⟩ := ih (hnext.mono (Nat.le_succ level)) hmore
      refine ⟨G, (op, G') :: rest', ?_, hG, fun p hp => ?_, ?_, ?_⟩
      · rw [treesBehind, List.map_cons, joinLevel, if_neg hop]
        rw [treesBehind] at hjoin
        rw [hjoin]
        rfl
      · rcases List.mem_cons.mp hp with rfl | hp
        · exact ⟨hG', hop, by simp⟩
        · obtain ⟨hp₁, hp₂, hp₃⟩ := hrest' p hp
          exact ⟨hp₁, hp₂, List.mem_cons_of_mem _ hp₃⟩
      · rw [List.flatMap_cons, List.flatMap_cons, hoperands]
      · rw [List.flatMap_cons, List.flatMap_cons, List.cons_append, List.cons_append, hoperators]

/-- Joining all levels below `n`, from the tightest one on. -/
private theorem joinLevels_groupings {n : Nat} {G : Grouping} {rest : List (BinaryOp × Grouping)} (hG : G.BindsFrom n)
    (hrest : ∀ p ∈ rest, p.2.BindsFrom n ∧ p.1.level < n) :
    ∃ G' : Grouping, joinLevels (List.range n).reverse G.tree (treesBehind rest) = G'.tree ∧ G'.Ordered ∧
      G'.operands = G.operands ++ rest.flatMap (fun p => p.2.operands) ∧
      G'.operators = G.operators ++ rest.flatMap (fun p => p.1 :: p.2.operators) := by
  induction n generalizing G rest with
  | zero =>
    cases rest with
    | nil => exact ⟨G, rfl, hG.ordered, by simp, by simp⟩
    | cons p rest => exact absurd (hrest p (by simp)).2 (Nat.not_lt_zero _)
  | succ n ih =>
    obtain ⟨G₁, rest₁, hjoin, hG₁, hrest₁, hoperands, hoperators⟩ :=
      joinLevel_groupings (hG.mono (Nat.le_succ n)) fun p hp => (hrest p hp).1
    -- an operator that is left is one of the others, none of which is above this level
    have hlower : ∀ p ∈ rest₁, p.2.BindsFrom n ∧ p.1.level < n := by
      intro p hp
      obtain ⟨hbinds, hne, hmem⟩ := hrest₁ p hp
      obtain ⟨q, hq, heq⟩ := List.mem_map.mp hmem
      have hlt := (hrest q hq).2
      rw [heq] at hlt
      exact ⟨hbinds, by omega⟩
    obtain ⟨G', hjoins, hG', hoperands', hoperators'⟩ := ih hG₁ hlower
    refine ⟨G', ?_, hG', hoperands'.trans hoperands, hoperators'.trans hoperators⟩
    rw [List.range_succ, List.reverse_append, List.reverse_singleton, List.singleton_append, joinLevels, hjoin]
    exact hjoins

/-- The tree of operands with operators between them is an ordered grouping of them. -/
theorem exists_grouping (first : Expr) (rest : List (BinaryOp × Expr)) :
    ∃ G : Grouping, ofOperands first rest = G.tree ∧ G.operands = first :: rest.map Prod.snd ∧
      G.operators = rest.map Prod.fst ∧ G.Ordered := by
  have hrest : ∀ p ∈ rest.map fun p => (p.1, Grouping.operand p.2), p.2.BindsFrom 8 ∧ p.1.level < 8 := by
    intro p hp
    obtain ⟨q, -, rfl⟩ := List.mem_map.mp hp
    refine ⟨Grouping.bindsFrom_operand 8 q.2, ?_⟩
    cases q.1 <;> decide
  obtain ⟨G, hjoins, hG, hoperands, hoperators⟩ :=
    joinLevels_groupings (Grouping.bindsFrom_operand 8 first) hrest
  have htrees : treesBehind (rest.map fun p => (p.1, Grouping.operand p.2)) = rest := by
    rw [treesBehind, List.map_map]
    exact List.map_id rest
  rw [htrees] at hjoins
  refine ⟨G, hjoins, ?_, ?_, hG⟩
  · rw [hoperands, List.flatMap_map, List.map_eq_flatMap]
    rfl
  · rw [hoperators, List.flatMap_map, List.map_eq_flatMap]
    rfl

end Expr

/-! ### Reading operations -/

namespace Parser

/--
Operands that are consumed one by one, with the token of a binary operator between each two: from the first input `used`
is consumed up to the second one.
-/
inductive Alternates (g : Grammar) (noStruct : Bool) :
    Input → (used : List Token) → List Expr → List BinaryOp → Input → Prop where
  | last {i j : Input} {u : List Token} {e : Expr} (hrun : (unary g noStruct).run i = .ok (e, j))
      (hused : i.tokens = u ++ j.tokens) : Alternates g noStruct i u [e] [] j
  | more {i i' j : Input} {u used rest : List Token} {e : Expr} {t : Token} {op : BinaryOp} {es : List Expr}
      {ops : List BinaryOp} (hrun : (unary g noStruct).run i = .ok (e, i')) (hused : i.tokens = u ++ i'.tokens)
      (htokens : i'.tokens = t :: rest) (hop : BinaryOp.ofToken? t.kind = some op)
      (hmore : Alternates g noStruct ⟨rest, t.span⟩ used es ops j) :
      Alternates g noStruct i (u ++ t :: used) (e :: es) (op :: ops) j

namespace Alternates

variable {g : Grammar} {noStruct : Bool} {i j : Input} {used : List Token} {es : List Expr} {ops : List BinaryOp}

private theorem tokens_eq (h : Alternates g noStruct i used es ops j) : i.tokens = used ++ j.tokens := by
  induction h with
  | last _ hused => exact hused
  | more _ hused htokens _ _ ih =>
    simp only at ih
    rw [hused, htokens, ih, List.append_assoc, List.cons_append]

/-- The operands are read one after the other, until something else than an operator follows. -/
private theorem run_operands (h : Alternates g noStruct i used es ops j) {t : Token} {behind : List Token}
    (htokens : j.tokens = t :: behind) (ht : BinaryOp.ofToken? t.kind = none) :
    ∃ e i' rest, (unary g noStruct).run i = .ok (e, i') ∧ i'.tokens.length ≤ i.tokens.length ∧
      e :: rest.map Prod.snd = es ∧ rest.map Prod.fst = ops ∧
      ∀ bound, i'.tokens.length < bound → (operands g noStruct bound).run i' = .ok (rest, j) := by
  induction h with
  | @last i j u e hrun hused =>
    refine ⟨e, j, [], hrun, by simp [hused], rfl, rfl, fun bound hbound => ?_⟩
    obtain ⟨bound, rfl⟩ := Nat.exists_eq_succ_of_ne_zero (Nat.ne_of_gt (Nat.zero_lt_of_lt hbound))
    simp only [operands, StateT.run_bind, run_peek htokens, ok_bind, ht]
    rfl
  | @more i i' j u used rest e u' op es ops hrun hused htokens' hop _ ih =>
    obtain ⟨e', i'', more, hrun', hlen, hes, hops, hoperands⟩ := ih htokens
    refine ⟨e, i', (op, e') :: more, hrun, by simp [hused], by simp [hes], by simp [hops], fun bound hbound => ?_⟩
    obtain ⟨bound, rfl⟩ := Nat.exists_eq_succ_of_ne_zero (Nat.ne_of_gt (Nat.zero_lt_of_lt hbound))
    -- the operator is consumed, so the bound is left with enough for what stands behind it
    simp only [htokens', List.length_cons] at hbound
    simp only [operands, StateT.run_bind, run_peek htokens', ok_bind, hop, run_advance htokens', hrun',
      hoperands bound (by simp only at hlen; omega)]
    rfl

/-- From the first operand on the tokens alternate, and an operand gives none back. -/
private theorem consuming {t : Token} {behind : List Token} (htokens : j.tokens = t :: behind)
    (ht : BinaryOp.ofToken? t.kind = none) : Consuming (unary g noStruct)
      (fun i => ∃ used es ops, Alternates g noStruct i used es ops j)
      fun i => i = j ∨ ∃ t rest used es ops, i.tokens = t :: rest ∧
        Alternates g noStruct ⟨rest, t.span⟩ used es ops j where
  read i e i' hi hrun := by
    obtain ⟨used, es, ops, h⟩ := hi
    cases h with
    | last hrun' hused =>
      cases hrun'.symm.trans hrun
      exact ⟨.inl rfl, by simp [hused]⟩
    | more hrun' hused htokens' _ hmore =>
      cases hrun'.symm.trans hrun
      exact ⟨.inr ⟨_, _, _, _, _, htokens', hmore⟩, by simp [hused]⟩
  more i hi := by
    rcases hi with rfl | ⟨t', rest, -, -, -, htokens', -⟩
    · exact ⟨t, behind, htokens⟩
    · exact ⟨t', rest, htokens'⟩
  next i u rest op hi hu hop := by
    rcases hi with rfl | ⟨t', rest', used, es, ops, htokens', hmore⟩
    · rw [htokens] at hu
      cases hu
      rw [ht] at hop
      cases hop
    · rw [htokens'] at hu
      cases hu
      exact ⟨used, es, ops, hmore⟩

end Alternates

/--
Operands with binary operators between them, in front of something that is no binary operator, are consumed to the last
token.  The tree that they give is the one ordered grouping of them.  A parser with one loop for each level of operators
gives the same tree.
-/
theorem run_binary_grouping {g : Grammar} {noStruct : Bool} {i j : Input} {used : List Token} {es : List Expr}
    {ops : List BinaryOp} {t : Token} {behind : List Token} (h : Alternates g noStruct i used es ops j)
    (htokens : j.tokens = t :: behind) (ht : BinaryOp.ofToken? t.kind = none) :
    ∃ G : Grouping, (binary g noStruct).run i = .ok (G.tree, j) ∧ i.tokens = used ++ j.tokens ∧ G.operands = es ∧
      G.operators = ops ∧ G.Ordered ∧
      (∀ G' : Grouping, G'.Ordered → G'.operands = es → G'.operators = ops → G' = G) ∧
      (tightest (unary g noStruct) 8).run i = .ok (G.tree, j) := by
  have hsame := run_tightest (Alternates.consuming htokens ht) ⟨used, es, ops, h⟩
  obtain ⟨first, i', rest, hrun, -, rfl, rfl, hoperands⟩ := h.run_operands htokens ht
  obtain ⟨G, htree, hes, hops, hG⟩ := Expr.exists_grouping first rest
  have hleft : tokensLeft.run i' = .ok (i'.tokens.length, i') := by simp [tokensLeft]
  have hbinary : (binary g noStruct).run i = .ok (G.tree, j) := by
    simp only [binary, StateT.run_bind, hrun, ok_bind, hleft, hoperands _ (Nat.lt_succ_self _), htree]
    rfl
  refine ⟨G, hbinary, h.tokens_eq, hes, hops, hG, fun G' hG' hes' hops' => ?_, hsame.trans hbinary⟩
  exact Grouping.eq_of_ordered hG' hG (hes'.trans hes.symm) (hops'.trans hops.symm)

/-- The tokens of `a - b - c * -d;`. -/
def differences : List Token :=
  [⟨.identifier, .ofLength 0 1, "a"⟩, ⟨.minus, .ofLength 2 1, "-"⟩, ⟨.identifier, .ofLength 4 1, "b"⟩,
    ⟨.minus, .ofLength 6 1, "-"⟩, ⟨.identifier, .ofLength 8 1, "c"⟩, ⟨.star, .ofLength 10 1, "*"⟩,
    ⟨.minus, .ofLength 12 1, "-"⟩, ⟨.identifier, .ofLength 13 1, "d"⟩, ⟨.semicolon, .ofLength 14 1, ";"⟩,
    ⟨.endOfInput, .ofLength 15 0, ""⟩]

theorem run_binary_grouping_differences : ∃ G j, (binary (grammar 2) false).run ⟨differences, default⟩ =
      .ok (Grouping.tree G, j) ∧ differences = differences.take 8 ++ j.tokens ∧ G.operands.length = 4 ∧
    G.operators = [.sub, .sub, .mul] ∧ G.Ordered ∧
    (∀ G' : Grouping, G'.Ordered → G'.operands = G.operands → G'.operators = [.sub, .sub, .mul] → G' = G) ∧
    (tightest (unary (grammar 2) false) 8).run ⟨differences, default⟩ = .ok (G.tree, j) := by
  have h : ∃ es j, Alternates (grammar 2) false ⟨differences, default⟩ (differences.take 8) es [.sub, .sub, .mul] j ∧
      es.length = 4 ∧ j.tokens = differences.drop 8 :=
    ⟨_, _, .more (u := [differences[0]]) rfl rfl rfl rfl (.more (u := [differences[2]]) rfl rfl rfl rfl
      (.more (u := [differences[4]]) rfl rfl rfl rfl
        (.last (u := [differences[6], differences[7]]) rfl rfl))), rfl, rfl⟩
  obtain ⟨es, j, halternates, hlen, hj⟩ := h
  obtain ⟨G, hrun, hused, hoperands, hoperators, hG, honly, hlevels⟩ := run_binary_grouping halternates hj rfl
  exact ⟨G, j, hrun, hused, by rw [hoperands, hlen], hoperators, hG,
    fun G' hG' hes => honly G' hG' (hes.trans hoperands), hlevels⟩

end Parser

end RainCheck

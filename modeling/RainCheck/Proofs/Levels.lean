import RainCheck.Proofs.ReadingExpr

/-!
# Reading operations level by level

A parser with one loop for each level of binary operators (`Parser.tightest`): it reads an operand of a level with the
loop of the next tighter one, down to the operands themselves.
* It gives the same results and the same refusals as the parser that reads all operands first and
  joins them level by level afterwards (`Parser.run_tightest`).
* Nothing is asked of the operands but that they give no tokens back (`Parser.Consuming`).
-/

namespace RainCheck

/-! ### Joining the tightest levels -/

namespace Expr

/-- Joins the operands around the operators of the `n` tightest levels, in turn, and keeps the other operators. -/
def joinTightest : (n : Nat) → Expr → List (BinaryOp × Expr) → Expr × List (BinaryOp × Expr)
  | 0, first, rest => (first, rest)
  | n + 1, first, rest => joinLevel (7 - n) (joinTightest n first rest).1 (joinTightest n first rest).2

theorem ofOperands_eq (first : Expr) (rest : List (BinaryOp × Expr)) :
    ofOperands first rest = (joinTightest 8 first rest).1 := rfl

variable {level n : Nat} {first e : Expr} {op : BinaryOp} {r s : List (BinaryOp × Expr)}

/-- An operator of another level ends what is joined in front of it. -/
private theorem joinLevel_append (hop : op.level ≠ level) : joinLevel level first (r ++ (op, e) :: s) =
    ((joinLevel level first r).1,
      (joinLevel level first r).2 ++ (op, (joinLevel level e s).1) :: (joinLevel level e s).2) := by
  induction r generalizing first with
  | nil => simp only [List.nil_append, joinLevel, if_neg hop]
  | cons p r ih =>
    obtain ⟨o, next⟩ := p
    rw [List.cons_append, joinLevel, joinLevel]
    split
    · exact ih
    · simp only [ih, List.cons_append]

private theorem joinTightest_append (hop : op.level < 8 - n) : joinTightest n first (r ++ (op, e) :: s) =
    ((joinTightest n first r).1,
      (joinTightest n first r).2 ++ (op, (joinTightest n e s).1) :: (joinTightest n e s).2) := by
  induction n with
  | zero => rfl
  | succ n ih =>
    simp only [joinTightest]
    rw [ih (by omega), joinLevel_append (by omega)]

/-- An operator that is left is one of the others, of another level. -/
private theorem mem_joinLevel {p : BinaryOp × Expr} (hp : p ∈ (joinLevel level first r).2) :
    p.1.level ≠ level ∧ p.1 ∈ r.map Prod.fst := by
  induction r generalizing first with
  | nil => cases hp
  | cons q r ih =>
    obtain ⟨o, next⟩ := q
    rw [joinLevel] at hp
    split at hp
    · exact ⟨(ih hp).1, List.mem_cons_of_mem _ (ih hp).2⟩
    · rename_i hne
      rcases List.mem_cons.mp hp with rfl | hp
      · exact ⟨hne, List.mem_cons_self⟩
      · exact ⟨(ih hp).1, List.mem_cons_of_mem _ (ih hp).2⟩

/-- Operators of the tightest levels are all joined. -/
private theorem joinTightest_rest (hn : n ≤ 8) (hr : ∀ p ∈ r, 8 - n ≤ p.1.level) : (joinTightest n first r).2 = [] := by
  have hlevel : ∀ {n}, n ≤ 8 → ∀ p ∈ (joinTightest n first r).2, p.1.level < 8 - n ∧ p.1 ∈ r.map Prod.fst := by
    intro n
    induction n with
    | zero =>
      intro _ p hp
      refine ⟨?_, List.mem_map_of_mem hp⟩
      cases p.1 <;> decide
    | succ n ih =>
      intro hn p hp
      obtain ⟨hne, hmem⟩ := mem_joinLevel hp
      obtain ⟨q, hq, heq⟩ := List.mem_map.mp hmem
      obtain ⟨hlt, hmem'⟩ := ih (Nat.le_of_succ_le hn) q hq
      rw [heq] at hlt hmem'
      exact ⟨by omega, hmem'⟩
  refine List.eq_nil_iff_forall_not_mem.mpr fun p hp => ?_
  obtain ⟨hlt, hmem⟩ := hlevel hn p hp
  obtain ⟨q, hq, heq⟩ := List.mem_map.mp hmem
  have hle := hr q hq
  rw [heq] at hle
  omega

/-- Joins further operands to a left one; the first of them stands behind an operator of the next level. -/
private def foldLevel (n : Nat) (lhs : Expr) : List (BinaryOp × Expr) → Expr
  | [] => lhs
  | (op, e) :: rest =>
    (joinLevel (7 - n) (lhs.operation op (joinTightest n e rest).1) (joinTightest n e rest).2).1

section

variable {lhs : Expr} (hn : n ≤ 7) (hr : ∀ p ∈ r, 8 - n ≤ p.1.level) (hs : ∀ p ∈ s.head?, p.1.level = 7 - n)
include hn hr hs

/-- The operators of the tightest levels are joined first. -/
private theorem joinTightest_succ :
    (joinTightest (n + 1) first (r ++ s)).1 = foldLevel n (joinTightest n first r).1 s := by
  have hrest : (joinTightest n first r).2 = [] := joinTightest_rest (Nat.le_succ_of_le hn) hr
  cases s with
  | nil =>
    rw [List.append_nil, joinTightest, hrest]
    rfl
  | cons p s =>
    obtain ⟨op, e⟩ := p
    have hop : op.level = 7 - n := hs (op, e) rfl
    rw [joinTightest, joinTightest_append (by omega), hrest, List.nil_append]
    simp only [joinLevel, if_pos hop]
    rfl

private theorem foldLevel_append :
    foldLevel n lhs ((op, e) :: (r ++ s)) = foldLevel n (lhs.operation op (joinTightest n e r).1) s := by
  have hrest : (joinTightest n e r).2 = [] := joinTightest_rest (Nat.le_succ_of_le hn) hr
  cases s with
  | nil =>
    simp only [List.append_nil, foldLevel, hrest]
    rfl
  | cons p s =>
    obtain ⟨op', e'⟩ := p
    have hop : op'.level = 7 - n := hs (op', e') rfl
    rw [foldLevel, joinTightest_append (by omega), hrest, List.nil_append]
    simp only [joinLevel, if_pos hop]
    rfl

end

end Expr

namespace Parser

/-! ### One loop for each level -/

/-- Joins to a left operand what is read behind each operator of one level. -/
def joinOperands (operand : Parser Expr) (level : Nat) : (bound : Nat) → Expr → Parser Expr
  | 0, _ => fail .exhausted
  | bound + 1, lhs => do
    match BinaryOp.ofToken? (← peek).kind with
    | none => return lhs
    | some op =>
      if op.level = level then
        let _ ← advance
        let rhs ← operand
        joinOperands operand level bound (lhs.operation op rhs)
      else return lhs

/-- Reads operands with operators of the `n` tightest levels between them.  There are eight levels. -/
def tightest (operand : Parser Expr) : (n : Nat) → Parser Expr
  | 0 => operand
  | n + 1 => do
    let lhs ← tightest operand n
    joinOperands (tightest operand n) (7 - n) ((← tokensLeft) + 1) lhs

/--
From some inputs on a parser reads an operand, and gives no tokens back.  Behind it there are tokens, and behind an
operator another operand can be read.
-/
structure Consuming (operand : Parser Expr) (starts behind : Input → Prop) : Prop where
  read : ∀ i e i', starts i → operand.run i = .ok (e, i') → behind i' ∧ i'.tokens.length ≤ i.tokens.length
  more : ∀ i, behind i → ∃ t rest, i.tokens = t :: rest
  next : ∀ i t rest op, behind i → i.tokens = t :: rest → BinaryOp.ofToken? t.kind = some op → starts ⟨rest, t.span⟩

/-- Reads the operators that follow, down to a level, each with its right operand. -/
private def operandsFrom (operand : Parser Expr) (level : Nat) : (bound : Nat) → Parser (List (BinaryOp × Expr))
  | 0 => fail .exhausted
  | bound + 1 => do
    match BinaryOp.ofToken? (← peek).kind with
    | none => return []
    | some op =>
      if level ≤ op.level then
        let _ ← advance
        let e ← operand
        let rest ← operandsFrom operand level bound
        return (op, e) :: rest
      else return []

private theorem operands_eq (g : Grammar) (noStruct : Bool) (bound : Nat) :
    operands g noStruct bound = operandsFrom (unary g noStruct) 0 bound := by
  induction bound with
  | zero => rfl
  | succ bound ih =>
    rw [operands, operandsFrom, ih]
    refine congrArg (peek >>= ·) (funext fun t => ?_)
    cases BinaryOp.ofToken? t.kind with
    | none => rfl
    | some op => exact (if_pos op.level.zero_le).symm

/-- What is read behind an operand, down to a level: operators with their right operands, and the input behind them. -/
private def behindOperand (p : Parser Expr) (level : Nat) (i : Input) : Except Stop (List (BinaryOp × Expr) × Input) :=
  (operandsFrom p level (i.tokens.length + 1)).run i

/-- Whether the next token is an operator of a level. -/
private def startsLevel (level : Nat) (i : Input) : Bool :=
  match i.tokens with
  | t :: _ => (BinaryOp.ofToken? t.kind).any fun op => op.level = level
  | [] => false

section

variable {p q : Parser Expr} {S B : Input → Prop} {i i₁ i₂ : Input} {t : Token} {ts : List Token} {op : BinaryOp}
  {e : Expr} {level bound n : Nat}

/-- At the end, or at an operator of a looser level, nothing more is read. -/
private theorem operandsFrom_end (ht : i.tokens = t :: ts)
    (hop : ∀ op, BinaryOp.ofToken? t.kind = some op → ¬level ≤ op.level) :
    (operandsFrom p level (bound + 1)).run i = .ok ([], i) := by
  simp only [operandsFrom, StateT.run_bind, run_peek ht, ok_bind]
  cases hkind : BinaryOp.ofToken? t.kind with
  | none => rfl
  | some op =>
    simp only [if_neg (hop op hkind)]
    rfl

private theorem operandsFrom_more (ht : i.tokens = t :: ts) (hop : BinaryOp.ofToken? t.kind = some op)
    (hlevel : level ≤ op.level) : (operandsFrom p level (bound + 1)).run i =
      p.run ⟨ts, t.span⟩ >>= fun x => (operandsFrom p level bound).run x.2 >>= fun y =>
        .ok ((op, x.1) :: y.1, y.2) := by
  simp only [operandsFrom, StateT.run_bind, run_peek ht, ok_bind, hop, if_pos hlevel, run_advance ht]
  rfl

variable (h : Consuming p S B)
include h

/-- The bound is never reached. -/
private theorem run_operandsFrom (hi : B i) (hbound : i.tokens.length < bound) :
    (operandsFrom p level bound).run i = behindOperand p level i := by
  rw [behindOperand]
  generalize hn : i.tokens.length + 1 = bound'
  have hbound' : i.tokens.length < bound' := by omega
  clear hn
  induction bound generalizing i bound' with
  | zero => cases hbound
  | succ bound ih =>
    cases bound' with
    | zero => cases hbound'
    | succ bound' =>
      obtain ⟨t, ts, ht⟩ := h.more i hi
      by_cases hop : ∃ op, BinaryOp.ofToken? t.kind = some op ∧ level ≤ op.level
      · obtain ⟨op, hop, hlevel⟩ := hop
        rw [operandsFrom_more ht hop hlevel, operandsFrom_more ht hop hlevel]
        cases hrun : p.run ⟨ts, t.span⟩ with
        | error s => rfl
        | ok x =>
          obtain ⟨hx, hlen⟩ := h.read _ _ _ (h.next i t ts op hi ht hop) hrun
          rw [ht, List.length_cons] at hbound hbound'
          simp only at hlen
          rw [ok_bind, ok_bind, ih hx (by omega) bound' (by omega)]
      · have hend : ∀ op, BinaryOp.ofToken? t.kind = some op → ¬level ≤ op.level := fun op ho hl => hop ⟨op, ho, hl⟩
        rw [operandsFrom_end ht hend, operandsFrom_end ht hend]

omit h in
private theorem startsLevel_iff (ht : i.tokens = t :: ts) :
    startsLevel level i = true ↔ ∃ op, BinaryOp.ofToken? t.kind = some op ∧ op.level = level := by
  simp only [startsLevel, ht]
  cases BinaryOp.ofToken? t.kind <;> simp

omit h in
private theorem behindOperand_end (ht : i.tokens = t :: ts)
    (hop : ∀ op, BinaryOp.ofToken? t.kind = some op → ¬level ≤ op.level) : behindOperand p level i = .ok ([], i) :=
  operandsFrom_end ht hop

private theorem behindOperand_more (hi : B i) (ht : i.tokens = t :: ts) (hop : BinaryOp.ofToken? t.kind = some op)
    (hlevel : level ≤ op.level) : behindOperand p level i =
      p.run ⟨ts, t.span⟩ >>= fun x => behindOperand p level x.2 >>= fun y => .ok ((op, x.1) :: y.1, y.2) := by
  rw [behindOperand, operandsFrom_more ht hop hlevel]
  cases hrun : p.run ⟨ts, t.span⟩ with
  | error s => rfl
  | ok x =>
    obtain ⟨hx, hlen⟩ := h.read _ _ _ (h.next i t ts op hi ht hop) hrun
    rw [ok_bind, ok_bind, run_operandsFrom h hx (by rw [ht]; exact Nat.lt_succ_of_le hlen)]

/-- Behind the operands that are read there are tokens, no more than before, and each operator has
at least the level. -/
private theorem behindOperand_ok (hi : B i) {r : List (BinaryOp × Expr)}
    (hrun : behindOperand p level i = .ok (r, i₁)) :
    B i₁ ∧ i₁.tokens.length ≤ i.tokens.length ∧ ∀ x ∈ r, level ≤ x.1.level := by
  induction hn : i.tokens.length using Nat.strongRecOn generalizing i r with
  | ind n ih =>
    subst hn
    obtain ⟨t, ts, ht⟩ := h.more i hi
    by_cases hop : ∃ op, BinaryOp.ofToken? t.kind = some op ∧ level ≤ op.level
    · obtain ⟨op, hop, hlevel⟩ := hop
      rw [behindOperand_more h hi ht hop hlevel] at hrun
      obtain ⟨⟨e, j⟩, hread, hrun⟩ := bind_eq_ok_iff.mp hrun
      obtain ⟨⟨r', j'⟩, hrest, hrun⟩ := bind_eq_ok_iff.mp hrun
      cases hrun
      obtain ⟨hj, hlen⟩ := h.read _ _ _ (h.next i t ts op hi ht hop) hread
      have hlt : j.tokens.length < i.tokens.length := by
        rw [ht]
        exact Nat.lt_succ_of_le hlen
      obtain ⟨hj', hle, hall⟩ := ih _ hlt hj hrest rfl
      exact ⟨hj', by omega, List.forall_mem_cons.mpr ⟨hlevel, hall⟩⟩
    · rw [behindOperand_end ht fun op ho hl => hop ⟨op, ho, hl⟩] at hrun
      cases hrun
      exact ⟨hi, Nat.le_refl _, by simp⟩

/-- What is read behind an operand, if the next operator is one of the level. -/
private def behindLevel (p : Parser Expr) (level : Nat) (i : Input) : Except Stop (List (BinaryOp × Expr) × Input) :=
  if startsLevel level i then behindOperand p level i else .ok ([], i)

/-- Down to a level one reads down to the next tighter one, and goes on if an operator of the level follows. -/
private theorem behindOperand_eq (level : Nat) (hi : B i) : behindOperand p level i =
    behindOperand p (level + 1) i >>= fun x => behindLevel p level x.2 >>= fun y => .ok (x.1 ++ y.1, y.2) := by
  induction hn : i.tokens.length using Nat.strongRecOn generalizing i with
  | ind n ih =>
    subst hn
    obtain ⟨t, ts, ht⟩ := h.more i hi
    by_cases htighter : ∃ op, BinaryOp.ofToken? t.kind = some op ∧ level + 1 ≤ op.level
    · obtain ⟨op, hop, hlevel⟩ := htighter
      rw [behindOperand_more h hi ht hop (Nat.le_of_succ_le hlevel), behindOperand_more h hi ht hop hlevel]
      cases hread : p.run ⟨ts, t.span⟩ with
      | error s => rfl
      | ok x =>
        obtain ⟨hj, hlen⟩ := h.read _ _ _ (h.next i t ts op hi ht hop) hread
        have hlt : x.2.tokens.length < i.tokens.length := by
          rw [ht]
          exact Nat.lt_succ_of_le hlen
        rw [ok_bind, ok_bind, ih _ hlt hj rfl]
        simp only [bind_assoc, ok_bind, List.cons_append]
    · have hnone : behindOperand p (level + 1) i = .ok ([], i) :=
        behindOperand_end ht fun op ho hl => htighter ⟨op, ho, hl⟩
      rw [hnone, ok_bind, behindLevel]
      by_cases hsame : startsLevel level i
      · rw [if_pos hsame]
        cases behindOperand p level i <;> rfl
      · rw [if_neg hsame]
        refine behindOperand_end ht fun op ho hl => ?_
        rcases Nat.lt_or_eq_of_le hl with hlt | heq
        · exact htighter ⟨op, ho, hlt⟩
        · exact hsame (startsLevel_iff ht |>.mpr ⟨op, ho, heq.symm⟩)

/-- What is read for a level begins with an operator of the level. -/
private theorem behindLevel_head (hi : B i) {s : List (BinaryOp × Expr)} (hrun : behindLevel p level i = .ok (s, i₁)) :
    ∀ x ∈ s.head?, x.1.level = level := by
  obtain ⟨t, ts, ht⟩ := h.more i hi
  rw [behindLevel] at hrun
  split at hrun
  · rename_i hstarts
    obtain ⟨op, hop, hlevel⟩ := (startsLevel_iff ht).mp hstarts
    rw [behindOperand_more h hi ht hop (Nat.le_of_eq hlevel.symm)] at hrun
    obtain ⟨x, -, hrun⟩ := bind_eq_ok_iff.mp hrun
    obtain ⟨y, -, hrun⟩ := bind_eq_ok_iff.mp hrun
    cases hrun
    rintro _ ⟨⟩
    exact hlevel
  · cases hrun
    simp

/-! ### The loops -/

/-- An operand and what is read behind it, joined as far as the `n` tightest levels go. -/
private def joined (p : Parser Expr) (n : Nat) (i : Input) : Except Stop (Expr × Input) :=
  p.run i >>= fun x => behindOperand p (8 - n) x.2 >>= fun y => .ok ((Expr.joinTightest n x.1 y.1).1, y.2)

/-- The loop of a level joins what is read for the level. -/
private theorem run_joinOperands (hn : n ≤ 7) (hq : ∀ i, S i → q.run i = joined p n i) {lhs : Expr} (hi : B i)
    (hbound : i.tokens.length < bound) : (joinOperands q (7 - n) bound lhs).run i =
      behindLevel p (7 - n) i >>= fun y => .ok (Expr.foldLevel n lhs y.1, y.2) := by
  induction bound generalizing i lhs with
  | zero => cases hbound
  | succ bound ih =>
    obtain ⟨t, ts, ht⟩ := h.more i hi
    rw [behindLevel]
    by_cases hsame : startsLevel (7 - n) i
    · obtain ⟨op, hop, hlevel⟩ := (startsLevel_iff ht).mp hsame
      have hstart := h.next i t ts op hi ht hop
      have hrun : (joinOperands q (7 - n) (bound + 1) lhs).run i = joined p n ⟨ts, t.span⟩ >>= fun x =>
          (joinOperands q (7 - n) bound (lhs.operation op x.1)).run x.2 := by
        simp only [joinOperands, StateT.run_bind, run_peek ht, ok_bind, hop, if_pos hlevel, run_advance ht]
        rw [hq _ hstart]
      rw [hrun, if_pos hsame, behindOperand_more h hi ht hop (Nat.le_of_eq hlevel.symm), joined]
      cases hread : p.run ⟨ts, t.span⟩ with
      | error s => rfl
      | ok x =>
        obtain ⟨hx, hlen⟩ := h.read _ _ _ hstart hread
        have hnext : 7 - n + 1 = 8 - n := by omega
        rw [ok_bind, ok_bind, behindOperand_eq h (7 - n) hx, hnext]
        cases hrest : behindOperand p (8 - n) x.2 with
        | error s => rfl
        | ok y =>
          obtain ⟨hy, hle, hall⟩ := behindOperand_ok h hx hrest
          have hshort : y.2.tokens.length < bound := by
            rw [ht, List.length_cons] at hbound
            simp only at hlen
            omega
          simp only [ok_bind]
          rw [ih hy hshort]
          cases hmore : behindLevel p (7 - n) y.2 with
          | error s => rfl
          | ok z =>
            simp only [ok_bind]
            rw [Expr.foldLevel_append hn hall (behindLevel_head h hy hmore)]
    · rw [if_neg hsame]
      have hother : ∀ op, BinaryOp.ofToken? t.kind = some op → op.level ≠ 7 - n := fun op hop heq =>
        hsame ((startsLevel_iff ht).mpr ⟨op, hop, heq⟩)
      simp only [joinOperands, StateT.run_bind, run_peek ht, ok_bind]
      cases hop : BinaryOp.ofToken? t.kind with
      | none => rfl
      | some op =>
        simp only [if_neg (hother op hop)]
        rfl

/-- The loops of some levels join what is read as far as these levels go. -/
private theorem run_tightest_eq (hn : n ≤ 8) (hi : S i) : (tightest p n).run i = joined p n i := by
  induction n generalizing i with
  | zero =>
    rw [tightest, joined]
    cases hread : p.run i with
    | error s => rfl
    | ok x =>
      obtain ⟨hx, -⟩ := h.read _ _ _ hi hread
      obtain ⟨t, ts, ht⟩ := h.more _ hx
      rw [ok_bind, behindOperand_end ht fun op _ hl => by cases op <;> revert hl <;> decide]
      rfl
  | succ n ih =>
    have hle : n ≤ 7 := Nat.le_of_succ_le_succ hn
    have hrun : (tightest p (n + 1)).run i = (tightest p n).run i >>= fun x =>
        (joinOperands (tightest p n) (7 - n) (x.2.tokens.length + 1) x.1).run x.2 := rfl
    rw [hrun, ih (Nat.le_of_succ_le hn) hi, joined, joined]
    cases hread : p.run i with
    | error s => rfl
    | ok x =>
      obtain ⟨hx, -⟩ := h.read _ _ _ hi hread
      have hthis : 8 - (n + 1) = 7 - n := by omega
      have hnext : 7 - n + 1 = 8 - n := by omega
      rw [ok_bind, ok_bind, hthis, behindOperand_eq h (7 - n) hx, hnext]
      cases hrest : behindOperand p (8 - n) x.2 with
      | error s => rfl
      | ok y =>
        obtain ⟨hy, -, hall⟩ := behindOperand_ok h hx hrest
        simp only [ok_bind]
        rw [run_joinOperands h hle (fun j hj => ih (Nat.le_of_succ_le hn) hj) hy (Nat.lt_succ_self _)]
        cases hmore : behindLevel p (7 - n) y.2 with
        | error s => rfl
        | ok z =>
          simp only [ok_bind]
          rw [Expr.joinTightest_succ hle hall (behindLevel_head h hy hmore)]

end

variable {g : Grammar} {noStruct : Bool} {i : Input}

/-- With one loop for each level operations are read as by joining all operands level by level: both
give the same tree and the same rest of the input, or end in the same way. -/
theorem run_tightest {S B : Input → Prop} (h : Consuming (unary g noStruct) S B) (hi : S i) :
    (tightest (unary g noStruct) 8).run i = (binary g noStruct).run i := by
  rw [run_tightest_eq h (Nat.le_refl 8) hi]
  have hrun : (binary g noStruct).run i = (unary g noStruct).run i >>= fun x =>
      (operands g noStruct (x.2.tokens.length + 1)).run x.2 >>= fun y => .ok (Expr.ofOperands x.1 y.1, y.2) := rfl
  rw [hrun]
  simp only [operands_eq]
  rfl

/-- The parsers of all levels of nesting give no tokens back. -/
private theorem consuming_unary {size : Nat} (hg : g.Reads size) : Consuming (unary g noStruct)
    (fun i => TokenSequence i.tokens ∧ i.tokens.length ≤ size + 1) fun i =>
      TokenSequence i.tokens ∧ i.tokens.length ≤ size + 1 where
  read i e i' hi hrun := by
    have hreads := reads_unary hg noStruct hi.1 hi.2
    unfold Reads at hreads
    rw [hrun] at hreads
    obtain ⟨used, hpassed, -⟩ := hreads
    have hlen := hpassed.length_eq
    have hsize := hi.2
    exact ⟨⟨hpassed.sequence, by omega⟩, by omega⟩
  more i hi := hi.1.exists_cons
  next i t rest op hi ht hop := by
    have hend : t.kind ≠ .endOfInput := by
      intro hkind
      simp [hkind, BinaryOp.ofToken?] at hop
    have hsize := hi.2
    rw [ht, List.length_cons] at hsize
    exact ⟨(ht ▸ hi.1).tail hend, by simp only; omega⟩

/-- The operations of a file are read alike in both ways. -/
theorem run_tightest_grammar (depth : Nat) (hi : TokenSequence i.tokens) (hsize : i.tokens.length ≤ depth + 1) :
    (tightest (unary (grammar depth) noStruct) 8).run i = (binary (grammar depth) noStruct).run i :=
  run_tightest (consuming_unary (grammar_reads depth)) ⟨hi, hsize⟩

end Parser

end RainCheck

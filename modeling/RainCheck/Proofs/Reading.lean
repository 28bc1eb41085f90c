import RainCheck.Proofs.Grammar
import RainCheck.Proofs.TokenStream

/-!
# Readers follow the grammar

Every parser, run on a sequence of tokens, ends in one of two ways: it consumes tokens that the
grammar derives its result from, or it refuses the program at one of the tokens.  It never raises a
fault (`Reads`).
* Each step of a parser has a rule that says what is left to show behind it (`reads_expect`, `reads_accept`, ...).
* The bounds of loops and of nesting are never reached, since every round and every level consumes a token.
-/

namespace RainCheck

/-! ### Sequences of tokens -/

/-- Tokens that do not go back in the text; the end of the input stands at the end and nowhere else. -/
structure TokenSequence (ts : List Token) : Prop where
  ordered : ts.Pairwise fun t u => t.span.start ≤ u.span.start
  ended : ∃ init last, ts = init ++ [last] ∧ last.kind = .endOfInput ∧ ∀ t ∈ init, t.kind ≠ .endOfInput

/-- Tokens that stand one behind the other do not go back. -/
theorem TokenStream.sequence {ts : List Token} (h : TokenStream ts) : TokenSequence ts :=
  ⟨h.ordered.imp fun {t _} htu => Int.le_trans t.span.start_le_stop htu, h.ended⟩

namespace TokenSequence

variable {t : Token} {ts : List Token}

theorem exists_cons (h : TokenSequence ts) : ∃ t rest, ts = t :: rest := by
  obtain ⟨init, last, rfl, -, -⟩ := h.ended
  cases init with
  | nil => exact ⟨last, [], rfl⟩
  | cons t init => exact ⟨t, init ++ [last], rfl⟩

/-- What follows a token other than the end of the input is a sequence again. -/
theorem tail (h : TokenSequence (t :: ts)) (ht : t.kind ≠ .endOfInput) : TokenSequence ts := by
  refine ⟨(List.pairwise_cons.mp h.ordered).2, ?_⟩
  obtain ⟨init, last, heq, hlast, hinit⟩ := h.ended
  cases init with
  | nil =>
    simp only [List.nil_append, List.cons.injEq] at heq
    rw [heq.1] at ht
    exact absurd hlast ht
  | cons u init =>
    simp only [List.cons_append, List.cons.injEq] at heq
    exact ⟨init, last, heq.2, hlast, fun v hv => hinit v (by simp [hv])⟩

/-- Nothing stands behind the end of the input. -/
theorem eq_singleton {rest : List Token} (h : TokenSequence ts) (hts : ts = t :: rest) (ht : t.kind = .endOfInput) :
    ts = [t] := by
  obtain ⟨init, last, heq, -, hinit⟩ := h.ended
  cases init with
  | nil =>
    rw [heq] at hts
    cases hts
    exact heq
  | cons first init =>
    rw [heq] at hts
    cases hts
    exact absurd ht (hinit t List.mem_cons_self)

/-- The first one of some consumed tokens starts in front of the end of the last one. -/
private theorem start_le_stop {used rest : List Token} {first last : Token} (h : TokenSequence (used ++ rest))
    (hfirst : used.head? = some first) (hlast : used.getLast? = some last) :
    first.span.start ≤ last.span.stop := by
  cases used with
  | nil => simp at hfirst
  | cons t used =>
    simp only [List.head?_cons, Option.some.injEq] at hfirst
    subst hfirst
    cases used with
    | nil =>
      simp only [List.getLast?_singleton, Option.some.injEq] at hlast
      subst hlast
      exact t.span.start_le_stop
    | cons u used =>
      rw [List.getLast?_cons_cons] at hlast
      have hmem : last ∈ (u :: used) ++ rest := List.mem_append_left _ (List.mem_of_getLast? hlast)
      have hle := (List.pairwise_cons.mp h.ordered).1 last hmem
      exact Int.le_trans hle last.span.start_le_stop

end TokenSequence

/-! ### Consumed tokens -/

/-- Tokens of an input are consumed up to another input. -/
structure Input.Passed (i : Input) (used : List Token) (i' : Input) : Prop where
  tokens : i.tokens = used ++ i'.tokens
  last : i'.last = (used.getLast?.map Token.span).getD i.last
  sequence : TokenSequence i'.tokens

namespace Input.Passed

variable {i i' i'' : Input} {u v : List Token}

private theorem nothing (h : TokenSequence i.tokens) : i.Passed [] i := ⟨rfl, rfl, h⟩

theorem token {t : Token} {rest : List Token} (htokens : i.tokens = t :: rest) (h : TokenSequence i.tokens)
    (ht : t.kind ≠ .endOfInput) : i.Passed [t] ⟨rest, t.span⟩ :=
  ⟨htokens, rfl, (htokens ▸ h).tail ht⟩

theorem trans (h : i.Passed u i') (h' : i'.Passed v i'') : i.Passed (u ++ v) i'' := by
  refine ⟨by rw [h.tokens, h'.tokens, List.append_assoc], ?_, h'.sequence⟩
  rw [h'.last, h.last, List.getLast?_append]
  cases v.getLast? <;> simp

theorem length_eq (h : i.Passed u i') : i.tokens.length = u.length + i'.tokens.length := by
  rw [h.tokens, List.length_append]

private theorem mem {t : Token} (h : i.Passed u i') (ht : t ∈ i'.tokens) : t ∈ i.tokens := by
  rw [h.tokens]
  exact List.mem_append_right _ ht

end Input.Passed

namespace Parser

variable {α β : Type}

/--
A parser run on an input: it consumes tokens such that `post` holds of them, of the result and of the tokens that are
left, or it refuses the program at a token that was left.  It raises no fault.
-/
def Reads (p : Parser α) (i : Input) (post : List Token → α → List Token → Prop) : Prop :=
  match p.run i with
  | .ok (a, i') => ∃ used, i.Passed used i' ∧ post used a i'.tokens
  | .error (.refused d) => ∃ t ∈ i.tokens, d.span = t.span
  | .error (.fault _) => False

variable {i : Input} {p : Parser α} {f : α → Parser β} {P : List Token → α → List Token → Prop}
  {Q : List Token → β → List Token → Prop}

theorem reads_pure {a : α} (hi : TokenSequence i.tokens) (h : P [] a i.tokens) : Reads (pure a) i P :=
  ⟨[], .nothing hi, h⟩

theorem Reads.mono {P' : List Token → α → List Token → Prop} (h : Reads p i P)
    (himp : ∀ used a rest, P used a rest → P' used a rest) : Reads p i P' := by
  unfold Reads at h ⊢
  split
  · rename_i a i' hrun
    rw [hrun] at h
    obtain ⟨used, hpassed, hP⟩ := h
    exact ⟨used, hpassed, himp _ _ _ hP⟩
  · rename_i d hrun
    rw [hrun] at h
    exact h
  · rename_i f hrun
    rw [hrun] at h
    exact h

/-- One parser behind another. -/
theorem Reads.bind (hp : Reads p i P)
    (hf : ∀ used a i', i.Passed used i' → P used a i'.tokens →
      Reads (f a) i' fun more b rest => Q (used ++ more) b rest) : Reads (p >>= f) i Q := by
  unfold Reads at hp
  split at hp
  · rename_i a i' hrun
    obtain ⟨used, hpassed, hP⟩ := hp
    have h := hf used a i' hpassed hP
    have heq : (p >>= f).run i = (f a).run i' := by simp [StateT.run_bind, hrun]
    unfold Reads at h ⊢
    rw [heq]
    split at h
    · rename_i b i'' hrun'
      obtain ⟨more, hmore, hQ⟩ := h
      exact ⟨used ++ more, hpassed.trans hmore, hQ⟩
    · obtain ⟨t, ht, hd⟩ := h
      exact ⟨t, hpassed.mem ht, hd⟩
    · exact h
  · rename_i d hrun
    have heq : (p >>= f).run i = .error (.refused d) := by simp [StateT.run_bind, hrun]
    unfold Reads
    rw [heq]
    exact hp
  · exact hp.elim

/-! ### Rules of the steps -/

theorem reads_refuse {t : Token} {cause : Cause} (ht : t ∈ i.tokens) : Reads (refuse t cause) i P :=
  ⟨t, ht, rfl⟩

theorem reads_refuse_bind {t : Token} {cause : Cause} (ht : t ∈ i.tokens) : Reads (refuse t cause >>= f) i Q :=
  ⟨t, ht, rfl⟩

theorem run_peekAt {n : Nat} {t : Token} (h : i.tokens[n]? = some t) : (peekAt n).run i = .ok (t, i) := by
  simp [peekAt, h]

theorem run_peek {t : Token} {rest : List Token} (h : i.tokens = t :: rest) : peek.run i = .ok (t, i) :=
  run_peekAt (by simp [h])

theorem run_advance {t : Token} {rest : List Token} (h : i.tokens = t :: rest) :
    advance.run i = .ok (t, ⟨rest, t.span⟩) := by
  simp [advance, h]

theorem run_follows {kind : TokenKind} {t : Token} {rest : List Token} (h : i.tokens = t :: rest) :
    (follows kind).run i = .ok (decide (t.kind = kind), i) := by
  simp [follows, run_peek h]

theorem reads_of_run {a : α} {q : Parser α} (hrun : q.run i = .ok (a, i))
    (h : Reads (f a) i Q) : Reads (q >>= f) i Q := by
  have heq : (q >>= f).run i = (f a).run i := by simp [StateT.run_bind, hrun]
  unfold Reads at h ⊢
  rw [heq]
  exact h

theorem reads_peek {f : Token → Parser β} {t : Token} {rest : List Token} (htokens : i.tokens = t :: rest)
    (h : Reads (f t) i Q) : Reads (peek >>= f) i Q :=
  reads_of_run (run_peek htokens) h

theorem reads_follows {f : Bool → Parser β} {kind : TokenKind} {t : Token} {rest : List Token}
    (htokens : i.tokens = t :: rest) (h : Reads (f (decide (t.kind = kind))) i Q) : Reads (follows kind >>= f) i Q :=
  reads_of_run (run_follows htokens) h

theorem reads_tokensLeft {f : Nat → Parser β} (h : Reads (f i.tokens.length) i Q) : Reads (tokensLeft >>= f) i Q :=
  reads_of_run (by simp [tokensLeft]) h

theorem reads_advance {f : Token → Parser β} {t : Token} {rest : List Token} (hi : TokenSequence i.tokens)
    (htokens : i.tokens = t :: rest) (ht : t.kind ≠ .endOfInput)
    (h : Reads (f t) ⟨rest, t.span⟩ fun more b left => Q (t :: more) b left) : Reads (advance >>= f) i Q := by
  have hstep : Reads advance i fun used a left => used = [t] ∧ a = t ∧ left = rest := by
    unfold Reads
    rw [run_advance htokens]
    exact ⟨[t], .token htokens hi ht, rfl, rfl, rfl⟩
  refine hstep.bind ?_
  rintro _ u ⟨tokens, last⟩ hpassed ⟨rfl, rfl, rfl⟩
  have hlast : last = u.span := by simpa using hpassed.last
  subst hlast
  exact h

theorem reads_accept {f : Bool → Parser β} {kind : TokenKind} {t : Token} {rest : List Token}
    (hi : TokenSequence i.tokens) (htokens : i.tokens = t :: rest) (hkind : kind ≠ .endOfInput)
    (hyes : t.kind = kind → Reads (f true) ⟨rest, t.span⟩ fun more b left => Q (t :: more) b left)
    (hno : t.kind ≠ kind → Reads (f false) i Q) : Reads (accept kind >>= f) i Q := by
  unfold accept
  rw [bind_assoc]
  refine reads_follows htokens ?_
  by_cases h : t.kind = kind
  · simp only [h, decide_true, if_true, bind_assoc, pure_bind]
    exact reads_advance hi htokens (h ▸ hkind) (hyes h)
  · simp only [h, decide_false, Bool.false_eq_true, if_false, pure_bind]
    exact hno h

theorem reads_expect {f : Token → Parser β} {kind : TokenKind} {t : Token} {rest : List Token}
    (hi : TokenSequence i.tokens) (htokens : i.tokens = t :: rest) (hkind : kind ≠ .endOfInput)
    (h : t.kind = kind → Reads (f t) ⟨rest, t.span⟩ fun more b left => Q (t :: more) b left) :
    Reads (expect kind >>= f) i Q := by
  unfold expect
  rw [bind_assoc]
  refine reads_peek htokens ?_
  by_cases hk : t.kind = kind
  · rw [if_pos hk]
    exact reads_advance hi htokens (hk ▸ hkind) (h hk)
  · rw [if_neg hk]
    exact reads_refuse_bind (by simp [htokens])

theorem reads_spanFrom {f : Span → Parser β} {i₀ : Input} {used : List Token} {first : Token}
    (hi : TokenSequence i₀.tokens) (hpassed : i₀.Passed used i) (hfirst : used.head? = some first)
    (h : ∀ span, Covers used span → Reads (f span) i Q) : Reads (spanFrom first >>= f) i Q := by
  obtain ⟨last, hlast⟩ : ∃ last, used.getLast? = some last := by
    cases used with
    | nil => simp at hfirst
    | cons t used => exact ⟨_, List.getLast?_eq_some_getLast (by simp)⟩
  have hle : first.span.start ≤ i.last.stop := by
    rw [hpassed.last, hlast]
    exact TokenSequence.start_le_stop (hpassed.tokens ▸ hi) hfirst hlast
  refine reads_of_run (a := ⟨first.span.start, i.last.stop, hle⟩) ?_ (h _ ⟨first, last, hfirst, hlast, rfl, ?_⟩)
  · simp [spanFrom, Span.between, hle]
  · simp [hpassed.last, hlast]

/-! ### Items between commas -/

/-- The tokens of items between commas: each item is read from its own piece. -/
def EnumeratedBy (close : TokenKind) (trailing first : Bool) (P : List Token → α → Prop) (used : List Token)
    (items : List α) : Prop :=
  ∃ pieces : List (List Token × α), items = pieces.map (·.2) ∧
    Enumerates close trailing first (pieces.map (·.1)) used ∧ ∀ p ∈ pieces, P p.1 p.2

private theorem EnumeratedBy.item {close : TokenKind} {trailing : Bool} {P : List Token → α → Prop}
    {u v : List Token} {a : α}
    {items : List α} (ha : P u a) (h : EnumeratedBy close trailing false P v items) :
    EnumeratedBy close trailing true P (u ++ v) (a :: items) ∧
      ∀ comma : Token, comma.kind = .comma →
        EnumeratedBy close trailing false P (comma :: (u ++ v)) (a :: items) := by
  obtain ⟨pieces, rfl, hlist, hpieces⟩ := h
  have hall : ∀ p ∈ (u, a) :: pieces, P p.1 p.2 := by
    intro p hp
    rcases List.mem_cons.mp hp with rfl | hp
    · exact ha
    · exact hpieces p hp
  exact ⟨⟨(u, a) :: pieces, rfl, .first hlist, hall⟩,
    fun comma hcomma => ⟨(u, a) :: pieces, rfl, .next hcomma hlist, hall⟩⟩

/-- Items are read one after the other; the bound suffices if every item consumes a token. -/
private theorem reads_itemsUntil {close : TokenKind} {trailing : Bool} {item : Parser α} {P : List Token → α → Prop}
    (hclose : close ≠ .endOfInput) {size : Nat}
    (hitem : ∀ i : Input, TokenSequence i.tokens → i.tokens.length ≤ size →
      Reads item i fun used a _ => used ≠ [] ∧ P used a)
    (bound : Nat) (first : Bool) (i : Input) (hi : TokenSequence i.tokens) (hsize : i.tokens.length ≤ size)
    (hbound : i.tokens.length < bound) :
    Reads (itemsUntil close trailing item bound first) i fun used items _ =>
      EnumeratedBy close trailing first P used items := by
  induction bound generalizing first i with
  | zero => omega
  | succ bound ih =>
    -- the item in front of the others, on an input behind its comma
    have hmore : ∀ (i : Input), TokenSequence i.tokens → i.tokens.length ≤ size → i.tokens.length < bound + 1 →
        Reads (do let a ← item; let rest ← itemsUntil close trailing item bound false; return a :: rest) i
          fun used items _ => EnumeratedBy close trailing true P used items ∧
            ∀ comma : Token, comma.kind = .comma → EnumeratedBy close trailing false P (comma :: used) items := by
      intro i hi hsize hbound
      refine (hitem i hi hsize).bind ?_
      rintro used a i' hpassed ⟨hused, ha⟩
      have hlen := hpassed.length_eq
      have hpos := List.length_pos_iff.mpr hused
      refine (ih false i' hpassed.sequence (by omega) (by omega)).bind ?_
      intro more items i'' hmore hitems
      refine reads_pure hmore.sequence ?_
      rw [List.append_nil]
      exact hitems.item ha
    obtain ⟨t, rest, htokens⟩ := hi.exists_cons
    rw [itemsUntil]
    refine reads_accept hi htokens hclose (fun ht => ?_) (fun ht => ?_)
    · exact reads_pure ((htokens ▸ hi).tail (ht ▸ hclose)) ⟨[], rfl, .close ht, by simp⟩
    · cases first with
      | true =>
        simp only [Bool.not_true, Bool.false_eq_true, if_false]
        exact (hmore i hi hsize hbound).mono fun _ _ _ h => h.1
      | false =>
        simp only [Bool.not_false, if_true, Bool.false_eq_true, if_false]
        refine reads_expect hi htokens (by simp) fun hcomma => ?_
        have hi' : TokenSequence rest := (htokens ▸ hi).tail (hcomma ▸ by simp)
        have hlen : rest.length + 1 = i.tokens.length := by simp [htokens]
        have hnext := hmore ⟨rest, t.span⟩ hi' (by simp only; omega) (by simp only; omega)
        cases trailing with
        | false =>
          simp only [Bool.false_eq_true, if_false]
          exact hnext.mono fun _ _ _ h => h.2 t hcomma
        | true =>
          simp only [if_true]
          obtain ⟨u, rest', hrest⟩ := hi'.exists_cons
          refine reads_accept hi' hrest hclose (fun hu => ?_) (fun hu => ?_)
          · refine reads_pure ((hrest ▸ hi').tail (hu ▸ hclose)) ⟨[], rfl, .trailing rfl hcomma hu, by simp⟩
          · simp only [Bool.false_eq_true, if_false]
            exact hnext.mono fun _ _ _ h => h.2 t hcomma

theorem reads_separated {close : TokenKind} {trailing : Bool} {item : Parser α} {P : List Token → α → Prop}
    (hclose : close ≠ .endOfInput) (hi : TokenSequence i.tokens)
    (hitem : ∀ i' : Input, TokenSequence i'.tokens → i'.tokens.length ≤ i.tokens.length →
      Reads item i' fun used a _ => used ≠ [] ∧ P used a) :
    Reads (separated close trailing item) i fun used items _ => EnumeratedBy close trailing true P used items :=
  reads_tokensLeft (reads_itemsUntil hclose hitem _ true i hi (Nat.le_refl _) (Nat.lt_succ_self _))

/-! ### Types and heads of functions -/

private theorem reads_returnType {type : Parser TypeExpr} (hi : TokenSequence i.tokens)
    (htype : ∀ i' : Input, TokenSequence i'.tokens → i'.tokens.length < i.tokens.length →
      Reads type i' fun used t _ => used ≠ [] ∧ DerivesType (.type t) used) :
    Reads (returnType type) i fun used returns _ => DerivesType (.returns returns) used := by
  obtain ⟨t, rest, htokens⟩ := hi.exists_cons
  refine reads_accept hi htokens (by simp) (fun ht => ?_) (fun _ => reads_pure hi .nothing)
  have hi' : TokenSequence rest := (htokens ▸ hi).tail (ht ▸ by simp)
  refine (htype ⟨rest, t.span⟩ hi' (by simp [htokens])).bind ?_
  rintro used type i' hpassed ⟨-, htype⟩
  refine reads_pure hpassed.sequence ?_
  rw [List.append_nil]
  exact .result ht htype

private theorem reads_typeWithin (depth : Nat) (i : Input) (hi : TokenSequence i.tokens)
    (hdepth : i.tokens.length ≤ depth) :
    Reads (typeWithin depth) i fun used t _ => used ≠ [] ∧ DerivesType (.type t) used := by
  -- by induction on the depth, which no type can exceed: each part of a type starts behind its first token
  induction depth generalizing i with
  | zero =>
    obtain ⟨t, rest, htokens⟩ := hi.exists_cons
    simp [htokens] at hdepth
  | succ depth ih =>
    obtain ⟨t, rest, htokens⟩ := hi.exists_cons
    have hlen : i.tokens.length = rest.length + 1 := by simp [htokens]
    rw [typeWithin]
    refine reads_peek htokens ?_
    split
    · rename_i ht
      exact reads_advance hi htokens (by simp [ht])
        (reads_pure ((htokens ▸ hi).tail (by simp [ht])) ⟨by simp, .named ht⟩)
    · rename_i ht
      have hi' := Input.Passed.token htokens hi (by simp [ht])
      refine reads_advance hi htokens (by simp [ht]) ?_
      refine (ih ⟨rest, t.span⟩ hi'.sequence (by simp only; omega)).bind ?_
      rintro used inner i' hpassed ⟨-, hinner⟩
      refine reads_spanFrom hi (hi'.trans hpassed) rfl fun span hspan => ?_
      refine reads_pure hpassed.sequence ⟨by simp, ?_⟩
      rw [List.append_nil]
      exact .reference ht hinner hspan
    · rename_i ht
      have hi' := Input.Passed.token htokens hi (by simp [ht])
      refine reads_advance hi htokens (by simp [ht]) ?_
      -- the type of a function: its parameters in parentheses, then what it returns
      obtain ⟨paren, rest', hrest⟩ := hi'.sequence.exists_cons
      simp only at hrest
      subst hrest
      refine reads_expect hi'.sequence rfl (by simp) fun hparen => ?_
      have hi'' := hi'.trans (Input.Passed.token rfl hi'.sequence (by simp [hparen]))
      simp only [List.length_cons] at hlen
      refine (reads_separated (P := fun used t => DerivesType (.type t) used) (by simp) hi''.sequence ?_).bind ?_
      · intro j hj hjlen
        exact ih j hj (by simp only at hjlen; omega)
      rintro used params i' hpassed ⟨pieces, rfl, hlist, hpieces⟩
      have hlen' := hpassed.length_eq
      simp only at hlen'
      refine (reads_returnType hpassed.sequence fun j hj hjlen => ih j hj (by omega)).bind ?_
      intro behind returns j hbehind hreturns
      refine reads_spanFrom hi ((hi''.trans hpassed).trans hbehind) rfl fun span hspan => ?_
      refine reads_pure hbehind.sequence ⟨by simp, ?_⟩
      rw [List.append_nil]
      exact .function ht hparen hlist hpieces hreturns hspan
    · exact reads_refuse (by simp [htokens])

theorem reads_type (hi : TokenSequence i.tokens) :
    Reads type i fun used t _ => used ≠ [] ∧ DerivesType (.type t) used :=
  reads_tokensLeft (reads_typeWithin _ i hi (Nat.le_succ _))

theorem reads_mutable (hi : TokenSequence i.tokens) :
    Reads (accept (.keyword .mutWord)) i fun used mutable _ => DerivesMutable mutable used := by
  obtain ⟨t, rest, htokens⟩ := hi.exists_cons
  rw [← bind_pure (accept _)]
  exact reads_accept hi htokens (by simp) (fun ht => reads_pure ((htokens ▸ hi).tail (ht ▸ by simp)) (.yes ht))
    (fun _ => reads_pure hi .no)

private theorem reads_param (hi : TokenSequence i.tokens) :
    Reads param i fun used p _ => used ≠ [] ∧ DerivesParam p used := by
  refine (reads_mutable hi).bind ?_
  intro mark mutable i₁ h₁ hmark
  obtain ⟨name, rest, htokens⟩ := h₁.sequence.exists_cons
  refine reads_expect h₁.sequence htokens (by simp) fun hname => ?_
  have h₂ := Input.Passed.token htokens h₁.sequence (by simp [hname])
  obtain ⟨colon, rest', htokens'⟩ := h₂.sequence.exists_cons
  refine reads_expect h₂.sequence htokens' (by simp) fun hcolon => ?_
  have h₃ := Input.Passed.token htokens' h₂.sequence (by simp [hcolon])
  refine (reads_type h₃.sequence).bind ?_
  rintro used declared i' h₄ ⟨-, hdeclared⟩
  refine reads_pure h₄.sequence ⟨by simp, ?_⟩
  rw [List.append_nil]
  exact .param hmark hname hcolon hdeclared

theorem reads_header (exported : Bool) (hi : TokenSequence i.tokens) :
    Reads (header exported) i fun used h _ => used ≠ [] ∧ DerivesHeader exported h used := by
  obtain ⟨word, rest, htokens⟩ := hi.exists_cons
  refine reads_expect hi htokens (by simp) fun hword => ?_
  have h₁ := Input.Passed.token htokens hi (by simp [hword])
  obtain ⟨name, rest₁, htokens₁⟩ := h₁.sequence.exists_cons
  refine reads_expect h₁.sequence htokens₁ (by simp) fun hname => ?_
  have h₂ := Input.Passed.token htokens₁ h₁.sequence (by simp [hname])
  obtain ⟨paren, rest₂, htokens₂⟩ := h₂.sequence.exists_cons
  refine reads_expect h₂.sequence htokens₂ (by simp) fun hparen => ?_
  have h₃ := Input.Passed.token htokens₂ h₂.sequence (by simp [hparen])
  refine (reads_separated (P := fun used p => DerivesParam p used) (by simp) h₃.sequence
    fun j hj _ => reads_param hj).bind ?_
  rintro used params i₄ h₄ ⟨pieces, rfl, hlist, hpieces⟩
  refine (reads_returnType h₄.sequence fun j hj _ => reads_type hj).bind ?_
  intro behind returns i₅ h₅ hreturns
  refine reads_pure h₅.sequence ⟨by simp, ?_⟩
  rw [List.append_nil]
  exact .header hword hname hparen hlist hpieces hreturns

end Parser

end RainCheck

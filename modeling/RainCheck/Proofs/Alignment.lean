import RainCheck.Proofs.Relocation
import RainCheck.Proofs.Symbols
import RainCheck.Proofs.Reading

/-!
# Reading tokens at other places

Two lists of tokens with the same kinds and texts are read alike, wherever the tokens stand.  Every
span that is made along the way runs from the start of one token to the end of another one, and of
the same ones in both lists (`Aligned`).
* `Parser.InStep` relates two readers that have come to the same token.
* (steps) Each step of a reader has a rule that says what is left to show behind it.
-/

namespace RainCheck

/-- A span from the start of one token to the end of another one. -/
structure Span.Runs (s : Span) (ts : List Token) (i j : Nat) : Prop where
  start : ∃ t, ts[i]? = some t ∧ s.start = t.span.start
  stop : ∃ t, ts[j]? = some t ∧ s.stop = t.span.stop

/-- Two spans that run over the same tokens of two lists, and not to the last ones, which are the ends of the inputs. -/
def Aligned (ts ts' : List Token) (s s' : Span) : Prop :=
  ∃ i j, i ≤ j ∧ j + 1 < ts.length ∧ s.Runs ts i j ∧ s'.Runs ts' i j

/-- Two streams of tokens with the same kinds and texts. -/
structure SameWords (ts ts' : List Token) : Prop where
  left : TokenStream ts
  right : TokenStream ts'
  words : ts.map Token.toWord = ts'.map Token.toWord

/-- Types and frames are the same; spans run over the same tokens, and problems are about such spans. -/
def layout (ts ts' : List Token) : Matching where
  span := Aligned ts ts'
  type := Eq
  frame := Eq
  problem d d' := Aligned ts ts' d.span d'.span ∧ d'.cause = d.cause

/-! ### Streams -/

namespace TokenStream

variable {ts : List Token} {t u : Token} {i j : Nat}

/-- The last token is the end of the input. -/
private theorem lt_of_kind (h : TokenStream ts) (ht : ts[i]? = some t) (hkind : t.kind ≠ .endOfInput) :
    i + 1 < ts.length := by
  obtain ⟨init, last, rfl, hlast, -⟩ := h.ended
  have hi := (List.getElem?_eq_some_iff.mp ht).1
  simp only [List.length_append, List.length_singleton] at hi ⊢
  by_contra hge
  obtain rfl : i = init.length := by omega
  simp only [List.getElem?_append_right (Nat.le_refl _), Nat.sub_self, List.getElem?_cons_zero, Option.some.injEq] at ht
  rw [← ht] at hkind
  exact hkind hlast

theorem kind_of_lt (h : TokenStream ts) (ht : ts[i]? = some t) (hi : i + 1 < ts.length) : t.kind ≠ .endOfInput := by
  obtain ⟨init, last, rfl, -, hinit⟩ := h.ended
  simp only [List.length_append, List.length_singleton] at hi
  rw [List.getElem?_append_left (by omega)] at ht
  exact hinit t (List.mem_of_getElem? ht)

private theorem stop_le_start (h : TokenStream ts) (hij : i < j) (ht : ts[i]? = some t) (hu : ts[j]? = some u) :
    t.span.stop ≤ u.span.start := by
  obtain ⟨hi, rfl⟩ := List.getElem?_eq_some_iff.mp ht
  obtain ⟨hj, rfl⟩ := List.getElem?_eq_some_iff.mp hu
  exact List.pairwise_iff_getElem.mp h.ordered i j hi hj hij

private theorem start_le_start (h : TokenStream ts) (hij : i ≤ j) (ht : ts[i]? = some t) (hu : ts[j]? = some u) :
    t.span.start ≤ u.span.start := by
  rcases Nat.eq_or_lt_of_le hij with rfl | hij
  · obtain rfl : t = u := by simpa [ht] using hu
    exact Int.le_refl _
  · exact Int.le_trans t.span.start_le_stop (h.stop_le_start hij ht hu)

private theorem stop_le_stop (h : TokenStream ts) (hij : i ≤ j) (ht : ts[i]? = some t) (hu : ts[j]? = some u) :
    t.span.stop ≤ u.span.stop := by
  rcases Nat.eq_or_lt_of_le hij with rfl | hij
  · obtain rfl : t = u := by simpa [ht] using hu
    exact Int.le_refl _
  · exact Int.le_trans (h.stop_le_start hij ht hu) u.span.start_le_stop

/-- Different tokens start and end at different places, but for the end of the input. -/
private theorem index_inj (h : TokenStream ts) (hi : i + 1 < ts.length) (hj : j + 1 < ts.length) (ht : ts[i]? = some t)
    (hu : ts[j]? = some u) (heq : t.span.start = u.span.start ∨ t.span.stop = u.span.stop) : i = j := by
  have ht' := h.filled t (List.mem_of_getElem? ht) (h.kind_of_lt ht hi)
  have hu' := h.filled u (List.mem_of_getElem? hu) (h.kind_of_lt hu hj)
  rcases Nat.lt_trichotomy i j with hij | hij | hij
  · have := h.stop_le_start hij ht hu
    omega
  · exact hij
  · have := h.stop_le_start hij hu ht
    omega

end TokenStream

namespace Span.Runs

variable {ts : List Token} {s s' : Span} {i j k l : Nat}

/-- A span is told by the tokens it runs over, and tells them. -/
private theorem eq_iff (h : TokenStream ts) (hs : s.Runs ts i j) (hs' : s'.Runs ts k l) (hij : i ≤ j) (hkl : k ≤ l)
    (hj : j + 1 < ts.length) (hl : l + 1 < ts.length) : s = s' ↔ i = k ∧ j = l := by
  obtain ⟨⟨t, ht, hstart⟩, u, hu, hstop⟩ := hs
  obtain ⟨⟨t', ht', hstart'⟩, u', hu', hstop'⟩ := hs'
  constructor
  · rintro rfl
    exact ⟨h.index_inj (by omega) (by omega) ht ht' (by omega), h.index_inj hj hl hu hu' (by omega)⟩
  · rintro ⟨rfl, rfl⟩
    obtain rfl : t = t' := by simpa [ht] using ht'
    obtain rfl : u = u' := by simpa [hu] using hu'
    cases s
    cases s'
    simp_all

private theorem join (h : TokenStream ts) (hs : s.Runs ts i j) (hs' : s'.Runs ts k l) :
    (s.join s').Runs ts (min i k) (max j l) := by
  obtain ⟨⟨t, ht, hstart⟩, u, hu, hstop⟩ := hs
  obtain ⟨⟨t', ht', hstart'⟩, u', hu', hstop'⟩ := hs'
  constructor
  · change ∃ t, ts[min i k]? = some t ∧ min s.start s'.start = t.span.start
    rcases Nat.le_total i k with hik | hki
    · have := h.start_le_start hik ht ht'
      exact ⟨t, by rwa [Nat.min_eq_left hik], by omega⟩
    · have := h.start_le_start hki ht' ht
      exact ⟨t', by rwa [Nat.min_eq_right hki], by omega⟩
  · change ∃ t, ts[max j l]? = some t ∧ max s.stop s'.stop = t.span.stop
    rcases Nat.le_total j l with hjl | hlj
    · have := h.stop_le_stop hjl hu hu'
      exact ⟨u', by rwa [Nat.max_eq_right hjl], by omega⟩
    · have := h.stop_le_stop hlj hu' hu
      exact ⟨u, by rwa [Nat.max_eq_left hlj], by omega⟩

end Span.Runs

namespace SameWords

variable {ts ts' : List Token} (h : SameWords ts ts')

include h

theorem length : ts'.length = ts.length := by
  simpa using (congrArg List.length h.words).symm

/-- Spans that run over the same tokens are told apart alike. -/
theorem exact : (layout ts ts').Exact where
  span := by
    rintro a a' b b' ⟨i, j, hij, hj, ha, ha'⟩ ⟨k, l, hkl, hl, hb, hb'⟩
    rw [ha.eq_iff h.left hb hij hkl hj hl, ha'.eq_iff h.right hb' hij hkl (h.length ▸ hj) (h.length ▸ hl)]
  type := rfl
  frame := rfl
  problem := Iff.rfl

theorem join {a a' b b' : Span} (ha : Aligned ts ts' a a') (hb : Aligned ts ts' b b') :
    Aligned ts ts' (a.join b) (a'.join b') := by
  obtain ⟨i, j, hij, hj, ha, ha'⟩ := ha
  obtain ⟨k, l, hkl, hl, hb, hb'⟩ := hb
  exact ⟨min i k, max j l, by omega, by omega, ha.join h.left hb, ha'.join h.right hb'⟩

end SameWords

/-- Two tokens that stand at one place of two lists. -/
structure Counterparts (ts ts' : List Token) (k : Nat) (t t' : Token) : Prop where
  left : ts[k]? = some t
  right : ts'[k]? = some t'

namespace Counterparts

variable {ts ts' : List Token} {t t' u u' : Token} {i j k : Nat}

private theorem word (h : SameWords ts ts') (ht : Counterparts ts ts' k t t') : t'.toWord = t.toWord := by
  have hwords := congrArg (·[k]?) h.words
  simp only [List.getElem?_map, ht.left, ht.right, Option.map_some, Option.some.injEq] at hwords
  exact hwords.symm

theorem kind (h : SameWords ts ts') (ht : Counterparts ts ts' k t t') : t'.kind = t.kind :=
  congrArg Word.kind (ht.word h)

theorem text (h : SameWords ts ts') (ht : Counterparts ts ts' k t t') : t'.text = t.text :=
  congrArg Word.text (ht.word h)

theorem span (ht : Counterparts ts ts' k t t') (hk : k + 1 < ts.length) : Aligned ts ts' t.span t'.span :=
  ⟨k, k, Nat.le_refl k, hk, ⟨⟨t, ht.left, rfl⟩, t, ht.left, rfl⟩, ⟨t', ht.right, rfl⟩, t', ht.right, rfl⟩

end Counterparts

/-! ### Steps -/

/-- An input that has come to the token at a place of a list. -/
structure Input.At (ts : List Token) (k : Nat) (i : Input) : Prop where
  tokens : i.tokens = ts.drop k
  last : 0 < k → ∃ t, ts[k - 1]? = some t ∧ i.last = t.span

namespace Input.At

variable {ts : List Token} {k n : Nat} {i : Input} {t : Token}

theorem tokens_cons (hi : i.At ts k) (ht : ts[k]? = some t) : i.tokens = t :: ts.drop (k + 1) := by
  obtain ⟨hk, rfl⟩ := List.getElem?_eq_some_iff.mp ht
  rw [hi.tokens, List.drop_eq_getElem_cons hk]

/-- The input behind a token that is consumed. -/
theorem next (ht : ts[k]? = some t) : Input.At ts (k + 1) ⟨ts.drop (k + 1), t.span⟩ := ⟨rfl, fun _ => ⟨t, ht, rfl⟩⟩

/-- The span from a token that was consumed to the last one. -/
theorem run_spanFrom (hi : i.At ts k) (hts : TokenStream ts) (ht : ts[n]? = some t) (hn : n < k) :
    ∃ s : Span, s.Runs ts n (k - 1) ∧ (Parser.spanFrom t).run i = .ok (s, i) := by
  obtain ⟨u, hu, hlast⟩ := hi.last (by omega)
  have hle : t.span.start ≤ u.span.stop := Int.le_trans t.span.start_le_stop (hts.stop_le_stop (by omega) ht hu)
  refine ⟨⟨t.span.start, u.span.stop, hle⟩, ⟨⟨t, ht, rfl⟩, u, hu, rfl⟩, ?_⟩
  simp only [Parser.spanFrom, StateT.run_bind, StateT.run_get, pure_eq_ok, ok_bind, Span.between, hlast, hle, dif_pos]
  rfl

end Input.At

/-- Two readers end early for the same reason, at the same token if they refuse the program. -/
inductive Stop.Aligned (ts ts' : List Token) : Stop → Stop → Prop where
  | refused {k : Nat} {t t' : Token} {c : Cause} (h : Counterparts ts ts' k t t') :
      Stop.Aligned ts ts' (.refused ⟨t.span, c⟩) (.refused ⟨t'.span, c⟩)
  | fault (f : Fault) : Stop.Aligned ts ts' (.fault f) (.fault f)

namespace Parser

variable {α β γ δ : Type}

/--
Two readers that have come to the same token end early for the same reason, or come to the same token further on, with
results such that `Q` holds.  They never read the end of the input.
-/
def InStep (ts ts' : List Token) (k : Nat) (Q : Nat → α → β → Prop) (p : Parser α) (q : Parser β) : Prop :=
  ∀ i i', i.At ts k → i'.At ts' k → Except.Rel (Stop.Aligned ts ts')
    (fun r r' => ∃ n, k ≤ n ∧ n < ts.length ∧ r.2.At ts n ∧ r'.2.At ts' n ∧ Q n r.1 r'.1) (p.run i) (q.run i')

variable {ts ts' : List Token} {k : Nat} {t t' : Token} {Q : Nat → α → β → Prop} {R : Nat → γ → δ → Prop} {p : Parser α}
  {q : Parser β} {f : α → Parser γ} {g : β → Parser δ}

theorem inStep_pure {x : α} {y : β} (hk : k < ts.length) (h : Q k x y) : InStep ts ts' k Q (pure x) (pure y) :=
  fun _ _ hi hi' => .ok ⟨k, Nat.le_refl k, hk, hi, hi', h⟩

theorem inStep_fail {why : Fault} : InStep ts ts' k Q (fail why : Parser α) (fail why : Parser β) :=
  fun _ _ _ _ => .error (.fault why)

theorem inStep_refuse {c : Cause} {n : Nat} (ht : Counterparts ts ts' n t t') :
    InStep ts ts' k Q (refuse t c : Parser α) (refuse t' c : Parser β) :=
  fun _ _ _ _ => .error (.refused ht)

theorem InStep.bind (h : InStep ts ts' k Q p q)
    (hf : ∀ n x y, k ≤ n → n < ts.length → Q n x y → InStep ts ts' n R (f x) (g y)) :
    InStep ts ts' k R (p >>= f) (q >>= g) := by
  intro i i' hi hi'
  have hpq := h i i' hi hi'
  rw [StateT.run_bind, StateT.run_bind]
  refine hpq.bind fun r r' hr => ?_
  obtain ⟨n, hkn, hn, hr, hr', hQ⟩ := hr
  refine (hf n _ _ hkn hn hQ _ _ hr hr').imp (fun _ _ h => h) fun z z' hz => ?_
  obtain ⟨l, hnl, hl, hz⟩ := hz
  exact ⟨l, Nat.le_trans hkn hnl, hl, hz⟩

theorem InStep.imp {Q' : Nat → α → β → Prop} (h : InStep ts ts' k Q p q) (hQ : ∀ n x y, k ≤ n → Q n x y → Q' n x y) :
    InStep ts ts' k Q' p q := by
  intro i i' hi hi'
  refine (h i i' hi hi').imp (fun _ _ h => h) fun r r' hr => ?_
  obtain ⟨n, hkn, hn, hr, hr', h⟩ := hr
  exact ⟨n, hkn, hn, hr, hr', hQ _ _ _ hkn h⟩

theorem inStep_refuse_bind {c : Cause} {n : Nat} (ht : Counterparts ts ts' n t t') :
    InStep ts ts' k R (refuse t c >>= f) (refuse t' c >>= g) :=
  (inStep_refuse (Q := fun _ _ _ => False) ht).bind fun _ _ _ _ _ h => h.elim

section

variable (hts : SameWords ts ts')

include hts

/-- There are tokens at every place. -/
private theorem exists_counterparts (hk : k < ts.length) : ∃ t t', Counterparts ts ts' k t t' :=
  ⟨ts[k], ts'.get ⟨k, hts.length ▸ hk⟩, List.getElem?_eq_getElem hk, List.getElem?_eq_getElem (hts.length ▸ hk)⟩

theorem inStep_peekAt {f : Token → Parser γ} {g : Token → Parser δ} (n : Nat)
    (h : ∀ t t', Counterparts ts ts' (k + n) t t' → InStep ts ts' k R (f t) (g t')) :
    InStep ts ts' k R (peekAt n >>= f) (peekAt n >>= g) := by
  intro i i' hi hi'
  have hleft : i.tokens[n]? = ts[k + n]? := by rw [hi.tokens, List.getElem?_drop]
  have hright : i'.tokens[n]? = ts'[k + n]? := by rw [hi'.tokens, List.getElem?_drop]
  by_cases hn : k + n < ts.length
  · obtain ⟨t, t', ht⟩ := exists_counterparts hts hn
    rw [StateT.run_bind, StateT.run_bind, run_peekAt (hleft.trans ht.left), run_peekAt (hright.trans ht.right)]
    exact h t t' ht i i' hi hi'
  · have hnone : ∀ {ts : List Token}, ts.length ≤ k + n → ts[k + n]? = none := List.getElem?_eq_none
    have hrun : ∀ {i : Input}, i.tokens[n]? = none → (peekAt n).run i = .error (.fault .outOfRange) := by
      intro i hnone
      simp only [peekAt, StateT.run_bind, StateT.run_get, pure_eq_ok, ok_bind, hnone]
      rfl
    rw [StateT.run_bind, StateT.run_bind, hrun (hleft.trans (hnone (by omega))),
      hrun (hright.trans (hnone (by rw [hts.length]; omega)))]
    exact .error (.fault _)

theorem inStep_peek {f : Token → Parser γ} {g : Token → Parser δ}
    (h : ∀ t t', Counterparts ts ts' k t t' → InStep ts ts' k R (f t) (g t')) :
    InStep ts ts' k R (peek >>= f) (peek >>= g) :=
  inStep_peekAt hts 0 h

theorem inStep_follows {kind : TokenKind} {f : Bool → Parser γ} {g : Bool → Parser δ}
    (h : ∀ t t', Counterparts ts ts' k t t' →
      InStep ts ts' k R (f (decide (t.kind = kind))) (g (decide (t.kind = kind)))) :
    InStep ts ts' k R (follows kind >>= f) (follows kind >>= g) := by
  unfold follows
  rw [bind_assoc, bind_assoc]
  refine inStep_peek hts fun t t' ht => ?_
  rw [pure_bind, pure_bind, ht.kind hts]
  exact h t t' ht

/-- A token is consumed that is not the end of the input. -/
theorem inStep_advance {f : Token → Parser γ} {g : Token → Parser δ} (ht : Counterparts ts ts' k t t')
    (hkind : t.kind ≠ .endOfInput) (h : k + 1 < ts.length → InStep ts ts' (k + 1) R (f t) (g t')) :
    InStep ts ts' k R (advance >>= f) (advance >>= g) := by
  intro i i' hi hi'
  rw [StateT.run_bind, StateT.run_bind, run_advance (hi.tokens_cons ht.left), run_advance (hi'.tokens_cons ht.right)]
  have hbehind := h (hts.left.lt_of_kind ht.left hkind) _ _ (.next ht.left) (.next ht.right)
  refine hbehind.imp (fun _ _ h => h) fun r r' hr => ?_
  obtain ⟨n, hkn, hr⟩ := hr
  exact ⟨n, by omega, hr⟩

theorem inStep_accept {kind : TokenKind} {f : Bool → Parser γ} {g : Bool → Parser δ} (hkind : kind ≠ .endOfInput)
    (hyes : k + 1 < ts.length → InStep ts ts' (k + 1) R (f true) (g true))
    (hno : InStep ts ts' k R (f false) (g false)) :
    InStep ts ts' k R (accept kind >>= f) (accept kind >>= g) := by
  unfold accept
  rw [bind_assoc, bind_assoc]
  refine inStep_follows hts fun t t' ht => ?_
  by_cases h : t.kind = kind
  · simp only [h, decide_true, if_true, bind_assoc, pure_bind]
    exact inStep_advance hts ht (by rwa [h]) hyes
  · simp only [h, decide_false, Bool.false_eq_true, if_false, pure_bind]
    exact hno

/-- A mark that may be there, and that is noted. -/
theorem inStep_accepted {kind : TokenKind} {f : Bool → Parser γ} {g : Bool → Parser δ} (hkind : kind ≠ .endOfInput)
    (hk : k < ts.length) (h : ∀ b n, k ≤ n → n < ts.length → InStep ts ts' n R (f b) (g b)) :
    InStep ts ts' k R (accept kind >>= f) (accept kind >>= g) := by
  refine inStep_accept hts hkind (fun hk => ?_) (h false k (Nat.le_refl k) hk)
  exact h true (k + 1) (Nat.le_succ k) hk

theorem inStep_expect {kind : TokenKind} {f : Token → Parser γ} {g : Token → Parser δ} (hkind : kind ≠ .endOfInput)
    (h : ∀ t t', Counterparts ts ts' k t t' → k + 1 < ts.length → InStep ts ts' (k + 1) R (f t) (g t')) :
    InStep ts ts' k R (expect kind >>= f) (expect kind >>= g) := by
  unfold expect
  rw [bind_assoc, bind_assoc]
  refine inStep_peek hts fun t t' ht => ?_
  rw [ht.kind hts]
  split
  · rename_i heq
    exact inStep_advance hts ht (by rwa [heq]) (h t t' ht)
  · exact inStep_refuse_bind ht

/-- The span from a token that was consumed to the last one. -/
theorem inStep_spanFrom {f : Span → Parser γ} {g : Span → Parser δ} {n : Nat} (ht : Counterparts ts ts' n t t')
    (hn : n < k) (hk : k < ts.length) (h : ∀ s s', Aligned ts ts' s s' → InStep ts ts' k R (f s) (g s')) :
    InStep ts ts' k R (spanFrom t >>= f) (spanFrom t' >>= g) := by
  intro i i' hi hi'
  obtain ⟨s, hs, hrun₁⟩ := hi.run_spanFrom hts.left ht.left hn
  obtain ⟨s', hs', hrun₂⟩ := hi'.run_spanFrom hts.right ht.right hn
  rw [StateT.run_bind, StateT.run_bind, hrun₁, hrun₂]
  exact h s s' ⟨n, k - 1, by omega, by omega, hs, hs'⟩ i i' hi hi'

theorem inStep_tokensLeft {f : Nat → Parser γ} {g : Nat → Parser δ} (h : ∀ n, InStep ts ts' k R (f n) (g n)) :
    InStep ts ts' k R (tokensLeft >>= f) (tokensLeft >>= g) := by
  intro i i' hi hi'
  have hlength : i'.tokens.length = i.tokens.length := by
    rw [hi.tokens, hi'.tokens, List.length_drop, List.length_drop, hts.length]
  have hrun : ∀ i : Input, tokensLeft.run i = .ok (i.tokens.length, i) := fun _ => rfl
  rw [StateT.run_bind, StateT.run_bind, hrun, hrun, hlength]
  exact h _ i i' hi hi'

/-! ### Lists and types -/

private theorem inStep_itemsUntil {P : α → β → Prop} {close : TokenKind} {trailing : Bool}
    (hclose : close ≠ .endOfInput)
    (hitem : ∀ k, k < ts.length → InStep ts ts' k (fun _ => P) p q) (bound : Nat) (first : Bool) (hk : k < ts.length) :
    InStep ts ts' k (fun _ => List.Forall₂ P) (itemsUntil close trailing p bound first)
      (itemsUntil close trailing q bound first) := by
  induction bound generalizing k first with
  | zero => exact inStep_fail
  | succ bound ih =>
    rw [itemsUntil, itemsUntil]
    refine inStep_accept hts hclose (fun hk => inStep_pure hk .nil) ?_
    have hbehind : ∀ k, k < ts.length → InStep ts ts' k (fun _ => List.Forall₂ P)
        (do return (← p) :: (← itemsUntil close trailing p bound false))
        (do return (← q) :: (← itemsUntil close trailing q bound false)) := by
      intro k hk
      refine (hitem k hk).bind fun n x y _ hn hxy => ?_
      exact (ih false hn).bind fun l xs ys _ hl hxys => inStep_pure hl (.cons hxy hxys)
    cases first with
    | true => exact hbehind k hk
    | false =>
      refine inStep_expect hts (by decide) fun t t' _ hk => ?_
      cases trailing with
      | false => exact hbehind (k + 1) hk
      | true => exact inStep_accept hts hclose (fun hk => inStep_pure hk .nil) (hbehind (k + 1) hk)

theorem inStep_separated {P : α → β → Prop} {close : TokenKind} {trailing : Bool} (hclose : close ≠ .endOfInput)
    (hitem : ∀ k, k < ts.length → InStep ts ts' k (fun _ => P) p q) (hk : k < ts.length) :
    InStep ts ts' k (fun _ => List.Forall₂ P) (separated close trailing p) (separated close trailing q) :=
  inStep_tokensLeft hts fun n => inStep_itemsUntil hts hclose hitem (n + 1) true hk

/-- What is read about a written type. -/
abbrev TypesAligned (ts ts' : List Token) (_ : Nat) : TypeExpr → TypeExpr → Prop := TypeExpr.Matches (Aligned ts ts')

theorem inStep_returnType {p : Parser TypeExpr} (hp : ∀ k, k < ts.length → InStep ts ts' k (TypesAligned ts ts') p p)
    (hk : k < ts.length) :
    InStep ts ts' k (fun n => Option.Rel (TypesAligned ts ts' n)) (returnType p) (returnType p) := by
  refine inStep_accept hts (by decide) (fun hk => ?_) (inStep_pure hk .none)
  exact (hp _ hk).bind fun n t t' _ hn ht => inStep_pure hn (.some ht)

private theorem inStep_typeWithin (depth : Nat) (hk : k < ts.length) :
    InStep ts ts' k (TypesAligned ts ts') (typeWithin depth) (typeWithin depth) := by
  induction depth generalizing k with
  | zero => exact inStep_fail
  | succ depth ih =>
    rw [typeWithin]
    refine inStep_peek hts fun t t' ht => ?_
    rw [ht.kind hts]
    split
    · refine inStep_advance hts ht (by simp_all) fun hk => ?_
      rw [ht.text hts]
      exact inStep_pure hk (.named (ht.span hk))
    · refine inStep_advance hts ht (by simp_all) fun hk => ?_
      refine (ih hk).bind fun n inner inner' hkn hn hinner => ?_
      exact inStep_spanFrom hts ht (by omega) hn fun s s' hs => inStep_pure hn (.reference hs hinner)
    · refine inStep_advance hts ht (by simp_all) fun hk => ?_
      refine inStep_expect hts (by decide) fun _ _ _ hk => ?_
      refine (inStep_separated hts (by decide) (fun k hk => ih hk) hk).bind fun n ps ps' hkn hn hps => ?_
      refine (inStep_returnType hts (fun k hk => ih hk) hn).bind fun l r r' hnl hl hr => ?_
      exact inStep_spanFrom hts ht (by omega) hl fun s s' hs => inStep_pure hl (.function hs hps hr)
    · exact inStep_refuse ht

theorem inStep_type (hk : k < ts.length) : InStep ts ts' k (TypesAligned ts ts') type type :=
  inStep_tokensLeft hts fun n => inStep_typeWithin hts (n + 1) hk

end

end Parser

end RainCheck

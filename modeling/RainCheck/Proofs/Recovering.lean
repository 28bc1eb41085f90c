import RainCheck.Proofs.Alignment
import RainCheck.Proofs.ReadBack

/-!
# Reading what is written

A reader that has come to the symbols of something reads it and comes to the token behind (`Parser.Recovers`).
* `Standing` says which symbols stand from one token of a stream to another one.
* Each step of a reader has a rule that says what is left to show behind it.
* Types are read as they are written, if no arrow follows (`Parser.recovers_type`).
-/

namespace RainCheck

/-! ### Symbols in a stream -/

theorem Symbol.Says.kind {x : Symbol} {t : Token} (h : x.Says t) : t.kind = x.kind := by
  cases h with
  | word => rfl
  | integer ht => exact ht
  | float ht => exact ht

theorem Symbol.Says.text {w : Word} {t : Token} (h : (Symbol.word w).Says t) : t.text = w.text := by
  cases h
  rfl

/-- Symbols are said by the tokens from one place of a list to another one. -/
inductive Standing (ts : List Token) : Nat → List Symbol → Nat → Prop where
  | nil (k : Nat) : Standing ts k [] k
  | cons {k n : Nat} {t : Token} {x : Symbol} {xs : List Symbol} (ht : ts[k]? = some t) (hx : x.Says t)
      (hxs : Standing ts (k + 1) xs n) : Standing ts k (x :: xs) n

namespace Standing

variable {ts : List Token} {k m n : Nat} {x : Symbol} {xs ys : List Symbol} {t : Token}

theorem le (h : Standing ts k xs n) : k ≤ n := by
  induction h with
  | nil => exact Nat.le_refl _
  | cons _ _ _ ih => omega

theorem cons_inv (h : Standing ts k (x :: xs) n) : ∃ t, ts[k]? = some t ∧ x.Says t ∧ Standing ts (k + 1) xs n := by
  cases h with
  | cons ht hx hxs => exact ⟨_, ht, hx, hxs⟩

theorem append_inv (h : Standing ts k (xs ++ ys) n) : ∃ m, Standing ts k xs m ∧ Standing ts m ys n := by
  induction xs generalizing k with
  | nil => exact ⟨k, .nil k, h⟩
  | cons x xs ih =>
    obtain ⟨t, ht, hx, hrest⟩ := h.cons_inv
    obtain ⟨m, hxs, hys⟩ := ih hrest
    exact ⟨m, .cons ht hx hxs, hys⟩

theorem of_says (h : List.Forall₂ Symbol.Says xs (ts.drop k)) : Standing ts k xs (k + xs.length) := by
  induction xs generalizing k with
  | nil => exact .nil k
  | cons x xs ih =>
    generalize hdrop : ts.drop k = rest at h
    cases h with
    | @cons _ t _ rest hx hxs =>
      have ht : ts[k]? = some t := by
        rw [← Nat.add_zero k, ← List.getElem?_drop, hdrop]
        rfl
      have hrest : ts.drop (k + 1) = rest := by
        rw [← List.drop_drop, hdrop]
        rfl
      have hbehind := ih (hrest ▸ hxs)
      rw [List.length_cons, Nat.add_comm xs.length, ← Nat.add_assoc]
      exact .cons ht hx hbehind

end Standing

/-! ### Steps -/

namespace Parser

variable {α β γ : Type}

/-- A reader that has come to one token gives a result such that `Q` holds, and comes to another token. -/
def Recovers (ts : List Token) (k n : Nat) (Q : α → Prop) (p : Parser α) : Prop :=
  ∀ i, i.At ts k → ∃ a i', p.run i = .ok (a, i') ∧ i'.At ts n ∧ Q a

variable {ts : List Token} {k m n : Nat} {t : Token} {Q : α → Prop} {R : β → Prop} {p : Parser α} {f : α → Parser β}

theorem recovers_pure {a : α} (h : Q a) : Recovers ts k k Q (pure a) := fun i hi => ⟨a, i, rfl, hi, h⟩

theorem Recovers.bind (h : Recovers ts k m Q p) (hf : ∀ a, Q a → Recovers ts m n R (f a)) :
    Recovers ts k n R (p >>= f) := by
  intro i hi
  obtain ⟨a, i', hrun, hi', hQ⟩ := h i hi
  rw [StateT.run_bind, hrun]
  exact hf a hQ i' hi'

theorem recovers_peekAt {f : Token → Parser β} (j : Nat) (ht : ts[k + j]? = some t) (h : Recovers ts k n R (f t)) :
    Recovers ts k n R (peekAt j >>= f) := by
  intro i hi
  rw [StateT.run_bind, run_peekAt (by rw [hi.tokens, List.getElem?_drop, ht])]
  exact h i hi

theorem recovers_peek {f : Token → Parser β} (ht : ts[k]? = some t) (h : Recovers ts k n R (f t)) :
    Recovers ts k n R (peek >>= f) :=
  recovers_peekAt 0 ht h

theorem recovers_follows {f : Bool → Parser β} {kind : TokenKind} (ht : ts[k]? = some t)
    (h : Recovers ts k n R (f (decide (t.kind = kind)))) : Recovers ts k n R (follows kind >>= f) := by
  unfold follows
  rw [bind_assoc]
  exact recovers_peek ht h

theorem recovers_advance {f : Token → Parser β} (ht : ts[k]? = some t) (h : Recovers ts (k + 1) n R (f t)) :
    Recovers ts k n R (advance >>= f) := by
  intro i hi
  rw [StateT.run_bind, run_advance (hi.tokens_cons ht)]
  exact h _ (.next ht)

/-- A token that is asked for, and is there. -/
theorem recovers_accept {f : Bool → Parser β} {kind : TokenKind} (ht : ts[k]? = some t) (hkind : t.kind = kind)
    (h : Recovers ts (k + 1) n R (f true)) : Recovers ts k n R (accept kind >>= f) := by
  unfold accept
  rw [bind_assoc]
  refine recovers_follows ht ?_
  simp only [decide_eq_true hkind, if_true, bind_assoc, pure_bind]
  exact recovers_advance ht h

/-- A token that is asked for, and is not there. -/
theorem recovers_decline {f : Bool → Parser β} {kind : TokenKind} (ht : ts[k]? = some t) (hkind : t.kind ≠ kind)
    (h : Recovers ts k n R (f false)) : Recovers ts k n R (accept kind >>= f) := by
  unfold accept
  rw [bind_assoc]
  refine recovers_follows ht ?_
  rw [decide_eq_false hkind]
  exact h

theorem recovers_expect {f : Token → Parser β} {kind : TokenKind} (ht : ts[k]? = some t) (hkind : t.kind = kind)
    (h : Recovers ts (k + 1) n R (f t)) : Recovers ts k n R (expect kind >>= f) := by
  unfold expect
  rw [bind_assoc]
  refine recovers_peek ht ?_
  rw [if_pos hkind]
  exact recovers_advance ht h

theorem recovers_spanFrom {f : Span → Parser β} {j : Nat} (hts : TokenStream ts) (ht : ts[j]? = some t) (hj : j < k)
    (h : ∀ s, Recovers ts k n R (f s)) : Recovers ts k n R (spanFrom t >>= f) := by
  intro i hi
  obtain ⟨s, -, hrun⟩ := hi.run_spanFrom hts ht hj
  rw [StateT.run_bind, hrun]
  exact h s i hi

theorem recovers_tokensLeft {f : Nat → Parser β} (h : Recovers ts k n R (f (ts.length - k))) :
    Recovers ts k n R (tokensLeft >>= f) := by
  intro i hi
  have hrun : tokensLeft.run i = .ok (ts.length - k, i) := by
    rw [← List.length_drop, ← hi.tokens]
    rfl
  rw [StateT.run_bind, hrun]
  exact h i hi

/-! ### Items between commas -/

/-- Items with commas between them, up to a closing token.  None of them begins with that token. -/
private theorem recovers_itemsUntil {close : TokenKind} (trailing : Bool) {Q : γ → α → Prop} {write : γ → List Symbol}
    {items : List γ} (hclose : close ≠ .comma)
    (hfirst : ∀ c ∈ items, ∃ x xs, write c = x :: xs ∧ x.kind ≠ close)
    (hitem : ∀ c ∈ items, ∀ j l u, k ≤ j → Standing ts j (write c) l → ts[l]? = some u →
      (u.kind = .comma ∨ u.kind = close) → Recovers ts j l (Q c) p)
    (bound : Nat) (first : Bool) {j : Nat} (hj : k ≤ j) (hbound : ts.length < j + bound)
    (hstanding : Standing ts j (Symbol.listed first (items.map write)) n) (ht : ts[n]? = some t)
    (hkind : t.kind = close) :
    Recovers ts j (n + 1) (List.Forall₂ Q items) (itemsUntil close trailing p bound first) := by
  have hn := (List.getElem?_eq_some_iff.mp ht).1
  induction items generalizing bound first j with
  | nil =>
    obtain rfl : j = n := by cases first <;> cases hstanding <;> rfl
    obtain ⟨bound, rfl⟩ : ∃ b, bound = b + 1 := ⟨bound - 1, by omega⟩
    rw [itemsUntil]
    exact recovers_accept ht hkind (recovers_pure .nil)
  | cons c items ih =>
    have hjn := hstanding.le
    obtain ⟨bound, rfl⟩ : ∃ b, bound = b + 1 := ⟨bound - 1, by omega⟩
    -- the item in front of the others, behind its comma
    have hmore : ∀ j, k ≤ j → ts.length < j + (bound + 1) →
        Standing ts j (write c ++ Symbol.listed false (items.map write)) n →
        (∃ u, ts[j]? = some u ∧ u.kind ≠ close) ∧ Recovers ts j (n + 1) (List.Forall₂ Q (c :: items))
          (do let a ← p; let rest ← itemsUntil close trailing p bound false; return a :: rest) := by
      intro j hj hbound hstanding
      obtain ⟨l, hc, hitems⟩ := hstanding.append_inv
      obtain ⟨x, xs, hwrite, hx⟩ := hfirst c (by simp)
      have hfound : ∃ u, ts[j]? = some u ∧ u.kind ≠ close ∧ j < l := by
        rw [hwrite] at hc
        obtain ⟨u, hu, hux, hxs⟩ := hc.cons_inv
        exact ⟨u, hu, by rwa [hux.kind], hxs.le⟩
      obtain ⟨u, hu, hukind, hjl⟩ := hfound
      have hbehind : ∃ v, ts[l]? = some v ∧ (v.kind = .comma ∨ v.kind = close) := by
        cases items with
        | nil =>
          cases hitems
          exact ⟨t, ht, .inr hkind⟩
        | cons d items =>
          obtain ⟨v, hv, hvx, -⟩ := hitems.cons_inv
          exact ⟨v, hv, .inl hvx.kind⟩
      obtain ⟨v, hv, hvkind⟩ := hbehind
      refine ⟨⟨u, hu, hukind⟩, (hitem c (by simp) j l v hj hc hv hvkind).bind fun a ha => ?_⟩
      refine (ih (fun d hd => hfirst d (by simp [hd])) (fun d hd => hitem d (by simp [hd])) bound false (by omega)
        (by omega) hitems).bind fun rest hrest => ?_
      exact recovers_pure (.cons ha hrest)
    rw [itemsUntil]
    cases first with
    | true =>
      obtain ⟨⟨u, hu, hukind⟩, hrecovers⟩ := hmore j hj hbound hstanding
      exact recovers_decline hu hukind hrecovers
    | false =>
      obtain ⟨comma, hcomma, hsaid, hrest⟩ := hstanding.cons_inv
      obtain ⟨⟨u, hu, hukind⟩, hrecovers⟩ := hmore (j + 1) (by omega) (by omega) hrest
      refine recovers_decline hcomma (by rw [hsaid.kind]; exact hclose.symm) ?_
      refine recovers_expect hcomma hsaid.kind ?_
      cases trailing with
      | false => exact hrecovers
      | true => exact recovers_decline hu hukind hrecovers

theorem recovers_separated {close : TokenKind} {trailing : Bool} {Q : γ → α → Prop} {write : γ → List Symbol}
    {items : List γ} (hclose : close ≠ .comma)
    (hfirst : ∀ c ∈ items, ∃ x xs, write c = x :: xs ∧ x.kind ≠ close)
    (hitem : ∀ c ∈ items, ∀ j l u, k ≤ j → Standing ts j (write c) l → ts[l]? = some u →
      (u.kind = .comma ∨ u.kind = close) → Recovers ts j l (Q c) p)
    (hstanding : Standing ts k (Symbol.listed true (items.map write)) n) (ht : ts[n]? = some t)
    (hkind : t.kind = close) :
    Recovers ts k (n + 1) (List.Forall₂ Q items) (separated close trailing p) :=
  recovers_tokensLeft (recovers_itemsUntil trailing hclose hfirst hitem _ true (Nat.le_refl k)
    (by have := hstanding.le; have := (List.getElem?_eq_some_iff.mp ht).1; omega) hstanding ht hkind)

/-! ### Types -/

/-- A written type, wherever it stands. -/
abbrev SameType : TypeExpr → TypeExpr → Prop := TypeExpr.Matches fun _ _ => True

private theorem exists_typeSymbol (e : TypeExpr) {close : TokenKind}
    (hclose : close ∉ [TokenKind.identifier, .ampersand, .keyword .fnWord]) :
    ∃ x xs, e.symbols = x :: xs ∧ x.kind ≠ close := by
  rw [List.mem_cons, List.mem_cons, List.mem_singleton, not_or, not_or] at hclose
  cases e with
  | named s text => exact ⟨_, _, rfl, Ne.symm hclose.1⟩
  | reference s inner => exact ⟨_, _, rfl, Ne.symm hclose.2.1⟩
  | function s params returns => exact ⟨_, _, rfl, Ne.symm hclose.2.2⟩

theorem recovers_returnType {p : Parser TypeExpr} {returns : Option TypeExpr}
    (hp : ∀ e, returns = some e → ∀ j, k < j → Standing ts j e.symbols n → Recovers ts j n (SameType e) p)
    (hstanding : Standing ts k (TypeExpr.symbolsReturns returns) n) (ht : ts[n]? = some t) (hkind : t.kind ≠ .arrow) :
    Recovers ts k n (Option.Rel SameType returns) (returnType p) := by
  cases returns with
  | none =>
    rw [TypeExpr.symbolsReturns] at hstanding
    cases hstanding
    exact recovers_decline ht hkind (recovers_pure .none)
  | some e =>
    rw [TypeExpr.symbolsReturns] at hstanding
    obtain ⟨arrow, harrow, hsaid, hrest⟩ := hstanding.cons_inv
    exact recovers_accept harrow hsaid.kind
      ((hp e rfl (k + 1) (Nat.lt_succ_self k) hrest).bind fun e' he => recovers_pure (.some he))

section

variable (hts : TokenStream ts)

include hts

private theorem recovers_typeWithin (depth : Nat) (e : TypeExpr) (hdepth : ts.length ≤ k + depth)
    (hstanding : Standing ts k e.symbols n) (ht : ts[n]? = some t) (hkind : t.kind ≠ .arrow) :
    Recovers ts k n (SameType e) (typeWithin depth) := by
  have hn := (List.getElem?_eq_some_iff.mp ht).1
  have hkn := hstanding.le
  induction depth generalizing e k n t with
  | zero => omega
  | succ depth ih =>
    rw [typeWithin]
    cases e with
    | named s text =>
      rw [TypeExpr.symbols] at hstanding
      obtain ⟨first, hfirst, hsaid, hrest⟩ := hstanding.cons_inv
      cases hrest
      refine recovers_peek hfirst ?_
      rw [hsaid.kind, hsaid.text]
      exact recovers_advance hfirst (recovers_pure (.named trivial))
    | reference s inner =>
      rw [TypeExpr.symbols] at hstanding
      obtain ⟨first, hfirst, hsaid, hrest⟩ := hstanding.cons_inv
      refine recovers_peek hfirst ?_
      rw [hsaid.kind]
      refine recovers_advance hfirst ((ih inner (by omega) hrest ht hkind hn hrest.le).bind fun inner' hinner => ?_)
      exact recovers_spanFrom hts hfirst hrest.le fun _ => recovers_pure (.reference trivial hinner)
    | function s params returns =>
      rw [TypeExpr.symbols, TypeExpr.symbolsAll_eq] at hstanding
      obtain ⟨first, hfirst, hsaid, hstanding⟩ := hstanding.cons_inv
      obtain ⟨left, hleft, hleftSays, hstanding⟩ := hstanding.cons_inv
      obtain ⟨m, hparams, hstanding⟩ := hstanding.append_inv
      obtain ⟨right, hright, hrightSays, hreturns⟩ := hstanding.cons_inv
      have hkm := hparams.le
      have hmn := hreturns.le
      refine recovers_peek hfirst ?_
      rw [hsaid.kind]
      refine recovers_advance hfirst (recovers_expect hleft hleftSays.kind ?_)
      have hitem : ∀ c ∈ params, ∀ j l u, k + 1 + 1 ≤ j → Standing ts j c.symbols l → ts[l]? = some u →
          (u.kind = .comma ∨ u.kind = .rightParen) → Recovers ts j l (SameType c) (typeWithin depth) := by
        intro c _ j l u hj hc hu hukind
        refine ih c (by omega) hc hu ?_ (List.getElem?_eq_some_iff.mp hu).1 hc.le
        rcases hukind with hukind | hukind <;> rw [hukind] <;> decide
      refine (recovers_separated (by decide) (fun c _ => exists_typeSymbol c (by decide)) hitem hparams hright
        hrightSays.kind).bind fun params' hparams' => ?_
      -- the type that is returned, if one is written, is the last part
      have hresult : ∀ e, returns = some e → ∀ j, m + 1 < j → Standing ts j e.symbols n →
          Recovers ts j n (SameType e) (typeWithin depth) := fun e _ j hj he =>
        ih e (by omega) he ht hkind hn he.le
      refine (recovers_returnType hresult hreturns ht hkind).bind fun returns' hreturns' => ?_
      exact recovers_spanFrom hts hfirst (by omega) fun _ => recovers_pure (.function trivial hparams' hreturns')

/-- A type is read as it is written, if no arrow follows. -/
theorem recovers_type (e : TypeExpr) (hstanding : Standing ts k e.symbols n) (ht : ts[n]? = some t)
    (hkind : t.kind ≠ .arrow) : Recovers ts k n (SameType e) type :=
  recovers_tokensLeft (recovers_typeWithin hts _ e (by omega) hstanding ht hkind)

end

end Parser

end RainCheck

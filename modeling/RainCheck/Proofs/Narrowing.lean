import RainCheck.Proofs.Matching
import RainCheck.Proofs.Places

/-!
# Fresh trees match by their places

Nothing is known about a fresh tree but where it stands.  So two fresh trees that match do so for every matching that
matches the spans of the one with those of the other (`Expr.Matches.narrow`).
-/

namespace RainCheck

/-! ### Related parts -/

section

variable {α β : Type} {R S : α → β → Prop}

theorem forall₂_of_mem {l : List α} {l' : List β} (h : List.Forall₂ R l l') (hRS : ∀ a ∈ l, ∀ b ∈ l', R a b → S a b) :
    List.Forall₂ S l l' := by
  induction h with
  | nil => exact .nil
  | cons hab _ ih =>
    refine .cons (hRS _ List.mem_cons_self _ List.mem_cons_self hab) (ih fun a ha b hb => ?_)
    exact hRS a (List.mem_cons_of_mem _ ha) b (List.mem_cons_of_mem _ hb)

private theorem rel_of_mem {o : Option α} {o' : Option β} (h : Option.Rel R o o')
    (hRS : ∀ a ∈ o, ∀ b ∈ o', R a b → S a b) :
    Option.Rel S o o' := by
  cases h with
  | none => exact .none
  | some hab => exact .some (hRS _ rfl _ rfl hab)

end

/-! ### Trees -/

section

variable {m n : Matching} {P P' Q Q' : Span → Prop}

/-- The spans of two trees match in another way, too. -/
def Matching.Covers (m n : Matching) (P P' : Span → Prop) : Prop := ∀ a a', m.span a a' → P a → P' a' → n.span a a'

variable (hmn : m.Covers n P P')

include hmn

private theorem TypeExpr.Matches.narrow {t t' : TypeExpr} (h : t.Matches m.span t') (ht : t.Lies P) (ht' : t'.Lies P') :
    t.Matches n.span t' := by
  induction ht generalizing t' with
  | named hs =>
    cases h with
    | named h => cases ht' with | named hs' => exact .named (hmn _ _ h hs hs')
  | reference hs _ ih =>
    cases h with
    | reference h hinner =>
      cases ht' with
      | reference hs' hinner' => exact .reference (hmn _ _ h hs hs') (ih hinner hinner')
  | function hs _ _ ihparams ihreturns =>
    cases h with
    | function h hparams hreturns =>
      cases ht' with
      | function hs' hparams' hreturns' =>
        refine .function (hmn _ _ h hs hs') (forall₂_of_mem hparams fun t ht t' ht' htt' => ?_)
          (rel_of_mem hreturns fun t ht t' ht' htt' => ?_)
        · exact ihparams t ht htt' (hparams' t' ht')
        · exact ihreturns t ht htt' (hreturns' t' ht')

theorem StructDecl.Matches.narrow {d d' : StructDecl} (h : d.Matches m.span d') (hd : d.Lies P) (hd' : d'.Lies P') :
    d.Matches n.span d' where
  name := h.name
  span := hmn _ _ h.span hd.name hd'.name
  exported := h.exported
  fields := forall₂_of_mem h.fields fun f hf f' hf' hff' =>
    ⟨hff'.name, hmn _ _ hff'.span (hd.fields f hf).1 (hd'.fields f' hf').1,
      hff'.type.narrow hmn (hd.fields f hf).2 (hd'.fields f' hf').2⟩

private theorem Variable.Matches.narrow {v v' : Variable} (h : v.Matches m v') (hv : v.Lies P) (hv' : v'.Lies P')
    (hempty : v.type = .empty) : v.Matches n v' where
  name := h.name
  kind := by
    have hkind := h.kind
    have hplain := hv.plain
    generalize v.kind = k at hkind hplain
    generalize v'.kind = k' at hkind
    cases hkind with
    | bound => exact .bound
    | argument => exact .argument
    | function => cases hplain
  mutable := h.mutable
  span := hmn _ _ h.span hv.span hv'.span
  type := by
    have htype := h.type
    rw [hempty] at htype ⊢
    generalize v'.type = t' at htype ⊢
    cases htype
    exact .empty

theorem Header.Matches.narrow {h h' : Header} (hh : h.Matches m h') (hl : h.Lies P) (hl' : h'.Lies P')
    (hf : ∀ p ∈ h.params, p.Fresh) : h.Matches n h' where
  name := hh.name
  span := hmn _ _ hh.span hl.name hl'.name
  exported := hh.exported
  params := forall₂_of_mem hh.params fun p hp p' hp' hpp' =>
    ⟨hpp'.binding.narrow hmn (hl.params p hp).1 (hl'.params p' hp').1 (hf p hp).2,
      hpp'.declared.narrow hmn (hl.params p hp).2 (hl'.params p' hp').2⟩
  returns := rel_of_mem hh.returns fun t ht t' ht' htt' => htt'.narrow hmn (hl.returns t ht) (hl'.returns t' ht')

/-- What is known about a fresh node is where it stands. -/
theorem Info.Matches.narrow {span : Span} {i' : Info} (h : Info.Matches m { span } i')
    (hspan : P span) (hspan' : P' i'.span) :
    Info.Matches n { span } i' where
  span := hmn _ _ h.span hspan hspan'
  type := by
    have htype := h.type
    generalize i'.type = t' at htype ⊢
    cases htype
    exact .none
  compileTime := h.compileTime
  constant := h.constant
  value := h.value
  reference := h.reference

/-- Whatever matches a fresh tree does so in another way, too. -/
def Matching.Narrows (m n : Matching) (P' : Span → Prop) (e : Expr) : Prop :=
  ∀ {b : Bool} {e' : Expr}, e.Matches m e' → e'.Lies P' → e.Fresh b → e.Matches n e'

omit hmn in
private theorem Expr.Matches.narrow_all {b : Bool} {es es' : List Expr} (h : List.Forall₂ (Expr.Matches m) es es')
    (hes' : ∀ e ∈ es', e.Lies P') (hf : ∀ e ∈ es, e.Fresh b) (ih : ∀ e ∈ es, m.Narrows n P' e) :
    List.Forall₂ (Expr.Matches n) es es' :=
  forall₂_of_mem h fun e he e' he' hee' => ih e he hee' (hes' e' he') (hf e he)

omit hmn in
private theorem Expr.Matches.narrow_option {b : Bool} {o o' : Option Expr} (h : Option.Rel (Expr.Matches m) o o')
    (ho' : ∀ e ∈ o', e.Lies P') (hf : ∀ e ∈ o, e.Fresh b) (ih : ∀ e ∈ o, m.Narrows n P' e) :
    Option.Rel (Expr.Matches n) o o' :=
  rel_of_mem h fun e he e' he' hee' => ih e he hee' (ho' e' he') (hf e he)

private theorem FieldInit.Matches.narrow {f f' : FieldInit Expr} {b : Bool}
    (h : FieldInit.Matches m (Expr.Matches m) f f')
    (hname : P f.span) (hname' : P' f'.span) (hvalue' : f'.value.Lies P') (hf : f.value.Fresh b)
    (ih : m.Narrows n P' f.value) : FieldInit.Matches n (Expr.Matches n) f f' := by
  cases h with
  | mk hs he => exact .mk (hmn _ _ hs hname hname') (ih he hvalue' hf)

theorem Expr.Matches.narrow {b : Bool} {e e' : Expr} (h : e.Matches m e') (he : e.Lies P)
    (he' : e'.Lies P') (hf : e.Fresh b) :
    e.Matches n e' := by
  induction he generalizing b e' with
  | integer hi =>
    cases hf
    cases h with | integer h => cases he' with | integer hi' => exact .integer (h.narrow hmn hi hi')
  | float hi =>
    cases hf
    cases h with | float h => cases he' with | float hi' => exact .float (h.narrow hmn hi hi')
  | boolean hi =>
    cases hf
    cases h with | boolean h => cases he' with | boolean hi' => exact .boolean (h.narrow hmn hi hi')
  | identifier hi =>
    cases hf
    cases h with
    | identifier h hv =>
      cases he' with
      | identifier hi' =>
        cases hv
        exact .identifier (h.narrow hmn hi hi') .none
  | member hi _ hname ih =>
    cases hf with
    | member hfbase =>
      cases h with
      | member h hbase hs =>
        cases he' with
        | member hi' hbase' hname' =>
            exact .member (h.narrow hmn hi hi') (ih hbase hbase' hfbase) (hmn _ _ hs hname hname')
  | call hi _ _ ihcallee ihargs =>
    cases hf with
    | call hfcallee hfargs =>
      cases h with
      | call h hcallee hargs =>
        cases he' with
        | call hi' hcallee' hargs' =>
          exact .call (h.narrow hmn hi hi') (ihcallee hcallee hcallee' hfcallee) (narrow_all hargs hargs' hfargs ihargs)
  | builtinCall hi _ ihargs =>
    cases hf with
    | builtinCall hfargs =>
      cases h with
      | builtinCall h hargs =>
        cases he' with
        | builtinCall hi' hargs' => exact .builtinCall (h.narrow hmn hi hi') (narrow_all hargs hargs' hfargs ihargs)
  | unary hi _ ih =>
    cases hf with
    | unary hfe =>
      cases h with
      | unary h he => cases he' with | unary hi' he' => exact .unary (h.narrow hmn hi hi') (ih he he' hfe)
  | binary hi _ _ ihlhs ihrhs =>
    cases hf with
    | binary hflhs hfrhs =>
      cases h with
      | binary h hlhs hrhs =>
        cases he' with
        | binary hi' hlhs' hrhs' =>
            exact .binary (h.narrow hmn hi hi') (ihlhs hlhs hlhs' hflhs) (ihrhs hrhs hrhs' hfrhs)
  | assignment hi _ _ ihtarget ihsource =>
    cases hf with
    | assignment hftarget hfsource =>
      cases h with
      | assignment h htarget hsource =>
        cases he' with
        | assignment hi' htarget' hsource' =>
          exact .assignment (h.narrow hmn hi hi') (ihtarget htarget htarget' hftarget)
            (ihsource hsource hsource' hfsource)
  | structLiteral hi hnames _ ih =>
    cases hf with
    | structLiteral hffields =>
      cases h with
      | structLiteral h hinits =>
        cases he' with
        | structLiteral hi' hnames' hvalues' =>
          exact .structLiteral (h.narrow hmn hi hi') (forall₂_of_mem hinits fun f hf f' hf' hff' =>
            hff'.narrow hmn (hnames f hf) (hnames' f' hf') (hvalues' f' hf') (hffields f hf) (ih f hf))
  | letBinding hi hv hdeclared _ ih =>
    cases hf with
    | letBinding hfinit =>
      cases h with
      | letBinding h hvv ht hinit =>
        cases he' with
        | letBinding hi' hv' hdeclared' hinit' =>
          refine .letBinding (h.narrow hmn hi hi') ?_ (rel_of_mem ht fun t ht t' ht' htt' => ?_)
            (ih hinit hinit' hfinit)
          · cases hvv with
            | owned hvv => exact .owned (hvv.narrow hmn (hv _ rfl) (hv' _ rfl) rfl)
          · exact htt'.narrow hmn (hdeclared t ht) (hdeclared' t' ht')
  | block hi _ _ ihstmts ihtail =>
    cases hf with
    | block hfstmts hftail =>
      cases h with
      | block h hfr hstmts htail =>
        cases he' with
        | block hi' hstmts' htail' =>
          cases hfr
          exact .block (h.narrow hmn hi hi') .none (narrow_all hstmts hstmts' hfstmts ihstmts)
            (narrow_option htail htail' hftail ihtail)
  | ifElse hi _ _ _ ihcond ihthen ihother =>
    cases hf with
    | ifElse hfcond hfthen hfother =>
      cases h with
      | ifElse h hcond hthen hother =>
        cases he' with
        | ifElse hi' hcond' hthen' hother' =>
          exact .ifElse (h.narrow hmn hi hi') (ihcond hcond hcond' hfcond) (ihthen hthen hthen' hfthen)
            (narrow_option hother hother' hfother ihother)
  | whileLoop hi _ _ ihcond ihbody =>
    cases hf with
    | whileLoop hfcond hfbody =>
      cases h with
      | whileLoop h hcond hbody =>
        cases he' with
        | whileLoop hi' hcond' hbody' =>
          exact .whileLoop (h.narrow hmn hi hi') (ihcond hcond hcond' hfcond) (ihbody hbody hbody' hfbody)
  | endlessLoop hi _ ih =>
    cases hf with
    | endlessLoop hfbody =>
      cases h with
      | endlessLoop h hbody =>
        cases he' with
        | endlessLoop hi' hbody' => exact .endlessLoop (h.narrow hmn hi hi') (ih hbody hbody' hfbody)
  | leaveLoop hi =>
    cases hf
    cases h with | leaveLoop h => cases he' with | leaveLoop hi' => exact .leaveLoop (h.narrow hmn hi hi')
  | nextRound hi =>
    cases hf
    cases h with | nextRound h => cases he' with | nextRound hi' => exact .nextRound (h.narrow hmn hi hi')
  | leaveFunction hi _ ih =>
    cases hf with
    | leaveFunction hfresult =>
      cases h with
      | leaveFunction h hresult =>
        cases he' with
        | leaveFunction hi' hresult' =>
          exact .leaveFunction (h.narrow hmn hi hi') (narrow_option hresult hresult' hfresult ih)
  | function hi _ hheader _ ih =>
    cases hf with
    | function _ hfparams hfbody =>
      cases h with
      | function h hh hbody =>
        cases he' with
        | function hi' _ hheader' hbody' =>
          exact .function (h.narrow hmn hi hi') (hh.narrow hmn hheader hheader' hfparams) (ih hbody hbody' hfbody)

end

end RainCheck

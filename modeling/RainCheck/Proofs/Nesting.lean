import RainCheck.Proofs.ReadingExpr
import Mathlib.Logic.Relation

/-!
# Nesting

How the parts of a module that have a place in the text (`Site`) stand to each other.
* Each of them starts where some token does and stops where some token does.
* An expression, unless it is a function, and a type stand around everything inside of them.
* What stands directly inside of one of them stands apart, in the order of the text.

Parentheses leave no trace in a tree, and a span comes from one token, from the first and the last one of several tokens
(`Covers`), or from the spans of two operands.  So an induction over the derivation of a tree knows of the sites of a
phrase where they stand among its tokens, one behind the other (`InLine`), and not how their spans were made.
-/

namespace RainCheck

open Relation (ReflTransGen)

/-- What has a place in the text of a module: declarations, expressions, types, and the names of
variables and fields. -/
inductive Site where
  | decl (d : Decl)
  | expr (e : Expr)
  | type (t : TypeExpr)
  | name (span : Span)

/-- A span around another one. -/
structure Span.Contains (a b : Span) : Prop where
  start : a.start ≤ b.start
  stop : b.stop ≤ a.stop

namespace Site

/-- Where a site stands; a function and a struct stand where their names do. -/
def span : Site → Span
  | .decl d => d.span
  | .expr e => e.span
  | .type t => t.span
  | .name span => span

/-- Whether a site is to stand around what is inside of it: an expression that is no function, or a type. -/
def encloses : Site → Bool
  | .expr e => !e.isFunction
  | .type _ => true
  | .decl _ | .name _ => false

/-- The sites of a parameter. -/
def ofParam (p : Param) : List Site := [.name p.binding.span, .type p.declared]

/-- The sites of the head of a function, without its name. -/
def ofHeader (h : Header) : List Site := h.params.flatMap ofParam ++ h.returns.toList.map .type

/-- The sites of a field of a struct. -/
def ofField (f : FieldDecl) : List Site := [.name f.span, .type f.type]

/-- The sites of a field of a struct literal. -/
def ofInit (f : FieldInit Expr) : List Site := [.name f.span, .expr f.value]

/-- What stands directly inside of an expression, in the order of the text. -/
def ofExpr : Expr → List Site
  | .integer _ _ | .float _ _ | .boolean _ _ | .identifier _ _ _ | .leaveLoop _ | .nextRound _ => []
  | .member _ base _ nameSpan _ => [.expr base, .name nameSpan]
  | .call _ callee args => .expr callee :: args.map .expr
  | .builtinCall _ _ args => args.map .expr
  | .unary _ _ operand => [.expr operand]
  | .binary _ _ lhs rhs => [.expr lhs, .expr rhs]
  | .assignment _ target source => [.expr target, .expr source]
  | .structLiteral _ _ inits => inits.flatMap ofInit
  | .letBinding _ binding declared init =>
    binding.value?.toList.map (fun v => .name v.span) ++ declared.toList.map .type ++ [.expr init]
  | .block b => b.stmts.map .expr ++ b.tail.toList.map .expr
  | .ifElse _ cond thenBlock other => [.expr cond, .expr (.block thenBlock)] ++ other.toList.map .expr
  | .whileLoop _ cond body => [.expr cond, .expr (.block body)]
  | .endlessLoop _ body => [.expr (.block body)]
  | .leaveFunction _ result => result.toList.map .expr
  | .function _ header body => ofHeader header ++ [.expr (.block body)]

/-- What stands directly inside of a site, in the order of the text. -/
def parts : Site → List Site
  | .decl (.struct d) => d.fields.flatMap ofField
  | .decl (.function f) => ofHeader f.header ++ [.expr (.block f.body)]
  | .expr e => ofExpr e
  | .type (.named _ _) => []
  | .type (.reference _ inner) => [.type inner]
  | .type (.function _ params returns) => params.map .type ++ returns.toList.map .type
  | .name _ => []

/-- A site is another one or stands somewhere inside of it. -/
def Reaches : Site → Site → Prop := ReflTransGen fun n k => k ∈ n.parts

/-- One site ends before another one begins. -/
def Before (n k : Site) : Prop := n.span.stop ≤ k.span.start

end Site

/-- A span that starts where some token does and stops where some token does, and is not empty. -/
structure Span.Meets (s : Span) (tokens : List Token) : Prop where
  starts : ∃ t ∈ tokens, s.start = t.span.start
  stops : ∃ t ∈ tokens, s.stop = t.span.stop
  filled : s.start < s.stop

/-- A site stands between tokens, around what is inside of it, and what is directly inside of it stands apart. -/
structure Site.Nested (tokens : List Token) (n : Site) : Prop where
  meets : n.span.Meets tokens
  around : n.encloses = true → ∀ k, n.Reaches k → n.span.Contains k.span
  apart : n.parts.Pairwise Before

/-! ### Tokens in order -/

/-- Tokens that stand one behind the other, none of them empty. -/
structure Token.InOrder (used : List Token) : Prop where
  ordered : used.Pairwise fun t u => t.span.stop ≤ u.span.start
  filled : ∀ t ∈ used, t.span.start < t.span.stop

section

variable {u v used : List Token} {t : Token} {s s' : Span}

namespace Token.InOrder

private theorem sub (h : InOrder v) (hsub : u.Sublist v) : InOrder u :=
  ⟨h.ordered.sublist hsub, fun t ht => h.filled t (hsub.subset ht)⟩

private theorem left (h : InOrder (u ++ v)) : InOrder u := h.sub (List.sublist_append_left u v)

private theorem right (h : InOrder (u ++ v)) : InOrder v := h.sub (List.sublist_append_right u v)

private theorem tail (h : InOrder (t :: u)) : InOrder u := h.sub (List.sublist_cons_self t u)

/-- The first token starts first. -/
private theorem start_le (h : InOrder used) (hhead : used.head? = some t) :
    ∀ x ∈ used, t.span.start ≤ x.span.start := by
  obtain ⟨rest, rfl⟩ := List.head?_eq_some_iff.mp hhead
  intro x hx
  rcases List.mem_cons.mp hx with rfl | hx
  · exact Int.le_refl _
  · exact Int.le_trans t.span.start_le_stop ((List.pairwise_cons.mp h.ordered).1 x hx)

/-- The last token stops last. -/
private theorem le_stop (h : InOrder used) (hlast : used.getLast? = some t) :
    ∀ x ∈ used, x.span.stop ≤ t.span.stop := by
  obtain ⟨front, rfl⟩ := List.getLast?_eq_some_iff.mp hlast
  intro x hx
  rcases List.mem_append.mp hx with hx | hx
  · exact Int.le_trans ((List.pairwise_append.mp h.ordered).2.2 x hx t (by simp)) t.span.start_le_stop
  · obtain rfl := List.mem_singleton.mp hx
    exact Int.le_refl _

end Token.InOrder

private theorem TokenStream.inOrder (h : TokenStream (used ++ [t])) : Token.InOrder used := by
  obtain ⟨init, last, heq, -, hinit⟩ := h.ended
  obtain ⟨rfl, -⟩ := List.append_inj' heq rfl
  exact ⟨(List.pairwise_append.mp h.ordered).1, fun u hu => h.filled u (List.mem_append_left _ hu) (hinit u hu)⟩

namespace Span

private theorem Contains.refl (s : Span) : s.Contains s := ⟨Int.le_refl _, Int.le_refl _⟩

private theorem Contains.trans {a b c : Span} (h : a.Contains b) (h' : b.Contains c) : a.Contains c :=
  ⟨Int.le_trans h.start h'.start, Int.le_trans h'.stop h.stop⟩

private theorem contains_join_left {a b : Span} : (a.join b).Contains a := ⟨Int.min_le_left _ _, Int.le_max_left _ _⟩

private theorem contains_join_right {a b : Span} : (a.join b).Contains b := ⟨Int.min_le_right _ _, Int.le_max_right _ _⟩

private theorem Meets.mono (h : s.Meets u) (hsub : u ⊆ v) : s.Meets v where
  starts := h.starts.imp fun _ ht => ⟨hsub ht.1, ht.2⟩
  stops := h.stops.imp fun _ ht => ⟨hsub ht.1, ht.2⟩
  filled := h.filled

private theorem meets_token (ht : t ∈ used) (hused : Token.InOrder used) : t.span.Meets used :=
  ⟨⟨t, ht, rfl⟩, ⟨t, ht, rfl⟩, hused.filled t ht⟩

private theorem Meets.join (h : s.Meets used) (h' : s'.Meets used) : (s.join s').Meets used where
  starts := by
    rcases Int.le_total s.start s'.start with hle | hle
    · exact h.starts.imp fun t ht => ⟨ht.1, (Int.min_eq_left hle).trans ht.2⟩
    · exact h'.starts.imp fun t ht => ⟨ht.1, (Int.min_eq_right hle).trans ht.2⟩
  stops := by
    rcases Int.le_total s.stop s'.stop with hle | hle
    · exact h'.stops.imp fun t ht => ⟨ht.1, (Int.max_eq_right hle).trans ht.2⟩
    · exact h.stops.imp fun t ht => ⟨ht.1, (Int.max_eq_left hle).trans ht.2⟩
  filled := Int.lt_of_le_of_lt (Int.min_le_left _ _) (Int.lt_of_lt_of_le h.filled (Int.le_max_left _ _))

/-- What stands among some tokens ends before what stands among later ones begins. -/
private theorem Meets.stop_le (h : s.Meets u) (h' : s'.Meets v) (hused : Token.InOrder (u ++ v)) :
    s.stop ≤ s'.start := by
  obtain ⟨t, ht, hstop⟩ := h.stops
  obtain ⟨t', ht', hstart⟩ := h'.starts
  rw [hstop, hstart]
  exact (List.pairwise_append.mp hused.ordered).2.2 t ht t' ht'

end Span

namespace Covers

private theorem token (t : Token) : Covers [t] t.span := ⟨t, t, rfl, rfl, rfl, rfl⟩

/-- The span of some tokens is around everything that stands among them. -/
private theorem contains (h : Covers used s) (hused : Token.InOrder used) (hs : s'.Meets used) : s.Contains s' := by
  obtain ⟨first, last, hfirst, hlast, hstart, hstop⟩ := h
  obtain ⟨t, ht, hstart'⟩ := hs.starts
  obtain ⟨t', ht', hstop'⟩ := hs.stops
  exact ⟨by rw [hstart, hstart']; exact hused.start_le hfirst t ht,
    by rw [hstop, hstop']; exact hused.le_stop hlast t' ht'⟩

private theorem meets (h : Covers used s) (hused : Token.InOrder used) : s.Meets used := by
  obtain ⟨first, last, hfirst, hlast, hstart, hstop⟩ := h
  have hmem := List.mem_of_head? hfirst
  refine ⟨⟨first, hmem, hstart⟩, ⟨last, List.mem_of_getLast? hlast, hstop⟩, ?_⟩
  rw [hstart, hstop]
  exact Int.lt_of_lt_of_le (hused.filled first hmem) (hused.le_stop hlast first hmem)

end Covers

end

/-! ### Sites in line -/

namespace Site

/-- A site and all sites inside of it are nested between some tokens. -/
def Laid (used : List Token) (n : Site) : Prop := ∀ k, n.Reaches k → k.Nested used

/-- Sites that stand between some tokens, one behind the other. -/
structure InLine (used : List Token) (ns : List Site) : Prop where
  laid : ∀ n ∈ ns, n.Laid used
  apart : ns.Pairwise Before

section

variable {u v used : List Token} {t : Token} {n a b : Site} {ns ms front behind : List Site}

private theorem reaches_self (n : Site) : n.Reaches n := .refl

private theorem reaches_iff {k : Site} : n.Reaches k ↔ n = k ∨ ∃ c ∈ n.parts, c.Reaches k := by
  unfold Reaches
  rw [ReflTransGen.cases_head_iff]

private theorem Nested.mono (h : n.Nested u) (hsub : u ⊆ v) : n.Nested v := ⟨h.meets.mono hsub, h.around, h.apart⟩

private theorem Laid.self (h : n.Laid used) : n.Nested used := h n n.reaches_self

private theorem Laid.meets (h : n.Laid used) : n.span.Meets used := h.self.meets

/-- A site is laid if what is directly inside of it is in line, and inside of it where it should be. -/
private theorem Laid.of_parts (hmeets : n.span.Meets used) (hparts : InLine used n.parts)
    (haround : n.encloses = true → ∀ c ∈ n.parts, ∀ k, c.Reaches k → n.span.Contains k.span) : n.Laid used := by
  intro k hk
  rcases reaches_iff.mp hk with rfl | ⟨c, hc, hk⟩
  · refine ⟨hmeets, fun hencloses k hk => ?_, hparts.apart⟩
    rcases reaches_iff.mp hk with rfl | ⟨c, hc, hk⟩
    · exact .refl _
    · exact haround hencloses c hc k hk
  · exact hparts.laid c hc k hk

/-- A site whose span runs over all tokens of its parts. -/
private theorem Laid.of_covers (hused : Token.InOrder used) (hspan : Covers used n.span)
    (hparts : InLine used n.parts) :
    n.Laid used :=
  .of_parts (hspan.meets hused) hparts fun _ c hc k hk => hspan.contains hused (hparts.laid c hc k hk).meets

/-- A site whose span is joined from those of its two parts. -/
private theorem Laid.of_join (hab : InLine used [a, b]) (hparts : n.parts = [a, b])
    (hspan : n.span = a.span.join b.span)
    (ha : ∀ k, a.Reaches k → a.span.Contains k.span) (hb : ∀ k, b.Reaches k → b.span.Contains k.span) :
    n.Laid used := by
  have hmeets : ∀ c ∈ [a, b], c.span.Meets used := fun c hc => (hab.laid c hc).meets
  refine .of_parts ?_ (hparts ▸ hab) fun _ c hc k hk => ?_
  · rw [hspan]
    exact (hmeets a (by simp)).join (hmeets b (by simp))
  · rw [hspan]
    rw [hparts, List.mem_cons, List.mem_singleton] at hc
    rcases hc with rfl | rfl
    · exact Span.contains_join_left.trans (ha k hk)
    · exact Span.contains_join_right.trans (hb k hk)

namespace InLine

private theorem nil : InLine used [] := ⟨by simp, .nil⟩

private theorem single (h : n.Laid used) : InLine used [n] := ⟨by simpa using h, List.pairwise_singleton _ _⟩

private theorem mono (h : InLine u ns) (hsub : u ⊆ v) : InLine v ns :=
  ⟨fun n hn k hk => (h.laid n hn k hk).mono hsub, h.apart⟩

private theorem sub (h : InLine used ns) (hsub : ms.Sublist ns) : InLine used ms :=
  ⟨fun n hn => h.laid n (hsub.subset hn), h.apart.sublist hsub⟩

/-- Sites in front of other ones. -/
private theorem append (h : InLine u ns) (h' : InLine v ms) (hused : Token.InOrder (u ++ v)) :
    InLine (u ++ v) (ns ++ ms) where
  laid n hn := (List.mem_append.mp hn).elim ((h.mono (List.subset_append_left u v)).laid n)
    ((h'.mono (List.subset_append_right u v)).laid n)
  apart := List.pairwise_append.mpr
    ⟨h.apart, h'.apart, fun n hn m hm => (h.laid n hn).meets.stop_le (h'.laid m hm).meets hused⟩

/-- A token in front that belongs to no site. -/
private theorem skip (h : InLine u ns) : InLine (t :: u) ns := h.mono (List.subset_cons_self t u)

/-- A name in front of other sites. -/
private theorem name (h : InLine u ns) (hused : Token.InOrder (t :: u)) : InLine (t :: u) (.name t.span :: ns) := by
  have hname : InLine [t] [.name t.span] :=
    .single (.of_parts (Span.meets_token List.mem_cons_self (hused.sub (by simp))) nil nofun)
  exact hname.append h hused

/-- Two sites are replaced by one that stands where both do. -/
private theorem merge (h : InLine used (front ++ a :: b :: behind)) (hn : n.Laid used)
    (hspan : n.span = a.span.join b.span) :
    InLine used (front ++ n :: behind) := by
  obtain ⟨hfront, hrest, hacross⟩ := List.pairwise_append.mp h.apart
  obtain ⟨ha, hrest⟩ := List.pairwise_cons.mp hrest
  obtain ⟨hb, hbehind⟩ := List.pairwise_cons.mp hrest
  refine ⟨fun m hm => ?_, List.pairwise_append.mpr ⟨hfront, List.pairwise_cons.mpr ⟨fun m hm => ?_, hbehind⟩, ?_⟩⟩
  · rcases List.mem_append.mp hm with hm | hm
    · exact h.laid m (List.mem_append_left _ hm)
    · rcases List.mem_cons.mp hm with rfl | hm
      · exact hn
      · exact h.laid m (List.mem_append_right _ (by simp [hm]))
  · rw [Before, hspan]
    exact Int.max_le.mpr ⟨ha m (List.mem_cons_of_mem _ hm), hb m hm⟩
  · intro m hm k hk
    rcases List.mem_cons.mp hk with rfl | hk
    · rw [Before, hspan]
      exact Int.le_min.mpr ⟨hacross m hm a (by simp), hacross m hm b (by simp)⟩
    · exact hacross m hm k (by simp [hk])

end InLine

end

end Site

/-! ### Types and heads of functions -/

section

open Site

variable {α : Type} {used : List Token} {close : TokenKind} {trailing first : Bool}

/-- The items of an enumeration stand in it one behind the other. -/
private theorem Enumerates.inLine {pieces : List (List Token × α)} {sites : α → List Site}
    (h : Enumerates close trailing first (pieces.map (·.1)) used) (hused : Token.InOrder used)
    (hpieces : ∀ p ∈ pieces, Token.InOrder p.1 → InLine p.1 (sites p.2)) :
    InLine used ((pieces.map (·.2)).flatMap sites) := by
  generalize hitems : pieces.map (·.1) = items at h
  induction h generalizing pieces with
  | close | trailing =>
    obtain rfl := List.map_eq_nil_iff.mp hitems
    exact .nil
  | first _ ih =>
    obtain ⟨p, rest, rfl, rfl, hrest⟩ := List.map_eq_cons_iff.mp hitems
    exact (hpieces p (by simp) hused.left).append (ih hused.right (fun q hq => hpieces q (by simp [hq])) hrest) hused
  | next _ _ ih =>
    obtain ⟨p, rest, rfl, rfl, hrest⟩ := List.map_eq_cons_iff.mp hitems
    have hbehind := hused.tail
    exact ((hpieces p (by simp) hbehind.left).append (ih hbehind.right (fun q hq => hpieces q (by simp [hq])) hrest)
      hbehind).skip

/-- Items with one site each. -/
private theorem Enumerates.inLine_map {pieces : List (List Token × α)} {site : α → Site}
    (h : Enumerates close trailing first (pieces.map (·.1)) used) (hused : Token.InOrder used)
    (hpieces : ∀ p ∈ pieces, Token.InOrder p.1 → InLine p.1 [site p.2]) :
    InLine used ((pieces.map (·.2)).map site) := by
  rw [List.map_eq_flatMap]
  exact h.inLine hused hpieces

/-- The sites of a phrase. -/
def TypePhrase.sites : TypePhrase → List Site
  | .type t => [.type t]
  | .returns t => t.toList.map .type

private theorem DerivesType.inLine {phrase : TypePhrase} (h : DerivesType phrase used) (hused : Token.InOrder used) :
    InLine used phrase.sites := by
  induction h with
  | @named t => exact .single (.of_covers hused (.token t) .nil)
  | reference _ _ hspan ih => exact .single (.of_covers hused hspan (ih hused.tail).skip)
  | function _ _ hlist _ _ hspan ihparams ihreturns =>
    have hparams := hlist.inLine_map hused.left.tail.tail ihparams
    exact .single (.of_covers hused hspan (hparams.skip.skip.append (ihreturns hused.right) hused))
  | nothing => exact .nil
  | result _ _ ih => exact (ih hused.tail).skip

private theorem DerivesDeclared.inLine {declared : Option TypeExpr} (h : DerivesDeclared declared used)
    (hused : Token.InOrder used) : InLine used (declared.toList.map .type) := by
  cases h with
  | nothing => exact .nil
  | type _ ht => exact (ht.inLine hused.tail).skip

private theorem DerivesParam.inLine {p : Param} (h : DerivesParam p used) (hused : Token.InOrder used) :
    InLine used (ofParam p) := by
  cases h with
  | param _ _ _ hdeclared =>
    have hbehind := hused.right
    exact ((hdeclared.inLine hbehind.tail.tail).skip.name hbehind).mono (List.subset_append_right _ _)

/-- The sites of the head of a function, which stands where its name does. -/
private theorem DerivesHeader.inLine {exported : Bool} {header : Header} (h : DerivesHeader exported header used)
    (hused : Token.InOrder used) : header.span.Meets used ∧ InLine used (ofHeader header) := by
  cases h with
  | header _ _ _ hlist hpieces hreturns =>
    have hparams := hlist.inLine hused.left.tail.tail.tail fun p hp hp' => (hpieces p hp).inLine hp'
    exact ⟨Span.meets_token (by simp) hused, hparams.skip.skip.skip.append (hreturns.inLine hused.right) hused⟩

private theorem DerivesField.inLine {f : FieldDecl} (h : DerivesField f used) (hused : Token.InOrder used) :
    InLine used (ofField f) := by
  cases h with
  | field _ _ htype => exact (htype.inLine hused.tail.tail).skip.name hused

end

/-! ### Expressions -/

section

open Site

variable {used : List Token} {level : Nat} {front : List Site} {first : Expr} {rest : List (BinaryOp × Expr)}

private theorem Site.encloses_of_isValue {e : Expr} (h : e.isValue = true) : (Site.expr e).encloses = true := by
  rw [Expr.isValue, Bool.and_eq_true] at h
  exact h.2

/-- The sites of operands with operators between them. -/
def Site.ofOperands (first : Expr) (rest : List (BinaryOp × Expr)) : List Site :=
  .expr first :: rest.map fun p => .expr p.2

/-- Two operands in line are in line as one operation. -/
private theorem Site.InLine.operation {lhs rhs : Expr} {op : BinaryOp} {behind : List Site}
    (h : InLine used (front ++ .expr lhs :: .expr rhs :: behind)) (hlhs : lhs.isValue = true)
    (hrhs : rhs.isValue = true) :
    InLine used (front ++ .expr (lhs.operation op rhs) :: behind) := by
  have hboth : InLine used [.expr lhs, .expr rhs] := by
    refine h.sub (List.Sublist.trans ?_ (List.sublist_append_right front _))
    exact ((List.nil_sublist behind).cons_cons _).cons_cons _
  refine h.merge (.of_join hboth rfl rfl ?_ ?_) rfl
  · exact (hboth.laid _ (by simp)).self.around (encloses_of_isValue hlhs)
  · exact (hboth.laid _ (by simp)).self.around (encloses_of_isValue hrhs)

/-- Operands in line stay so when those around the operators of one level are joined. -/
private theorem Site.InLine.joinLevel (h : InLine used (front ++ ofOperands first rest)) (hfirst : first.isValue = true)
    (hrest : ∀ p ∈ rest, p.2.isValue = true) :
    InLine used (front ++ ofOperands (Expr.joinLevel level first rest).1 (Expr.joinLevel level first rest).2) ∧
      ∀ p ∈ (Expr.joinLevel level first rest).2, p.2.isValue = true := by
  induction rest generalizing front first with
  | nil => exact ⟨h, hrest⟩
  | cons p rest ih =>
    obtain ⟨op, next⟩ := p
    obtain ⟨hnext, hmore⟩ := List.forall_mem_cons.mp hrest
    unfold Expr.joinLevel
    split
    · exact ih (h.operation hfirst hnext) rfl hmore
    · have hstep : InLine used ((front ++ [.expr first]) ++ ofOperands next rest) := by
        simpa [ofOperands] using h
      obtain ⟨hline, hvalues⟩ := ih hstep hnext hmore
      refine ⟨by simpa [ofOperands] using hline, List.forall_mem_cons.mpr ⟨Expr.joinLevel_isValue hnext, hvalues⟩⟩

/-- Operands in line are in line as one tree. -/
private theorem Site.InLine.ofOperands (h : InLine used (ofOperands first rest)) (hfirst : first.isValue = true)
    (hrest : ∀ p ∈ rest, p.2.isValue = true) : InLine used [.expr (Expr.ofOperands first rest)] := by
  unfold Expr.ofOperands
  generalize [7, 6, 5, 4, 3, 2, 1, 0] = levels
  induction levels generalizing first rest with
  | nil => exact h.sub ((List.nil_sublist _).cons_cons _)
  | cons level levels ih =>
    have hstart : InLine used ([] ++ Site.ofOperands first rest) := h
    obtain ⟨hline, hvalues⟩ := hstart.joinLevel hfirst hrest
    exact ih hline (Expr.joinLevel_isValue hfirst) hvalues

private theorem Derives.operands_isValue {noStruct : Bool} (h : Derives (.operands noStruct rest) used) :
    ∀ p ∈ rest, p.2.isValue = true := by
  induction rest generalizing used with
  | nil => simp
  | cons p rest ih =>
    cases h with
    | moreOperands _ he hrest => exact List.forall_mem_cons.mpr ⟨he.isValue rfl, ih hrest⟩

/-- The sites of a phrase. -/
def Phrase.sites : Phrase → List Site
  | .primary _ e | .accessed _ e | .operand _ e | .operation _ e | .expr _ e | .statement e => [.expr e]
  | .fieldInit field => ofInit field
  | .operands _ rest => rest.map fun p => .expr p.2
  | .elseBranch e => e.toList.map .expr
  | .statements stmts tail => stmts.map .expr ++ tail.toList.map .expr
  | .block b => [.expr (.block b)]

private theorem Site.around_name {span : Span} : ∀ k, (Site.name span).Reaches k → span.Contains k.span := by
  intro k hk
  rcases reaches_iff.mp hk with rfl | ⟨c, hc, -⟩
  · exact .refl _
  · cases hc

/-- The sites of a phrase stand one behind the other in the tokens that it is written with. -/
private theorem Derives.inLine {phrase : Phrase} (h : Derives phrase used) (hused : Token.InOrder used) :
    InLine used phrase.sites := by
  induction h with
  | integer | float | boolean | identifier | leaveLoop | nextRound => exact .single (.of_covers hused (.token _) .nil)
  | structLiteral _ _ hlist _ hspan ih =>
    exact .single (.of_covers hused hspan (hlist.inLine hused.tail.tail ih).skip.skip)
  | fieldInit _ _ _ ih => exact (ih hused.tail.tail).skip.name hused
  | parenthesised _ _ _ ih => exact (ih hused.left.tail).skip.mono (List.subset_append_left _ _)
  | blockExpr _ ih | accessed _ ih | operand _ ih | expr _ ih | blockStatement _ ih | exprStatement _ ih =>
      exact ih hused
  | ifElse _ _ _ _ hspan ihcond ihthen ihother =>
    have hfront := (ihcond hused.left.left.tail).skip.append (ihthen hused.left.right) hused.left
    exact .single (.of_covers hused hspan (hfront.append (ihother hused.right) hused))
  | whileLoop _ _ _ hspan ihcond ihbody =>
    exact .single (.of_covers hused hspan ((ihcond hused.left.tail).skip.append (ihbody hused.right) hused))
  | endlessLoop _ _ hspan ih | leaveWith _ _ hspan ih | unary _ _ hspan ih | block _ _ hspan ih =>
    exact .single (.of_covers hused hspan (ih hused.tail).skip)
  | leaveFunction _ hspan | smallestInteger _ _ _ hspan => exact .single (.of_covers hused hspan .nil)
  | builtinCall _ _ _ hlist _ hspan ih =>
    exact .single (.of_covers hused hspan (hlist.inLine_map hused.tail.tail.tail ih).skip.skip.skip)
  | member he _ _ ih =>
    have hline := (ih hused.left).append (InLine.nil.name hused.right.tail).skip hused
    have hbase := (hline.laid _ List.mem_cons_self).self.around (encloses_of_isValue (he.isValue rfl))
    exact .single (.of_join hline rfl rfl hbase around_name)
  | call _ _ hlist _ hspan ihcallee ihargs =>
    have hargs := hlist.inLine_map hused.right.tail ihargs
    exact .single (.of_covers hused hspan ((ihcallee hused.left).append hargs.skip hused))
  | noOperands | noElse | endOfBlock => exact .nil
  | moreOperands _ _ _ ihoperand ihrest => exact (ihoperand hused.left.tail).skip.append (ihrest hused.right) hused
  | operation he hrest ihfirst ihrest =>
    exact ((ihfirst hused.left).append (ihrest hused.right) hused).ofOperands (he.isValue rfl) hrest.operands_isValue
  | assignment htarget _ hsource ihtarget ihsource =>
    have hline := (ihtarget hused.left).append (ihsource hused.right.tail).skip hused
    refine .single (.of_join hline rfl rfl ?_ ?_)
    · exact (hline.laid _ List.mem_cons_self).self.around (encloses_of_isValue (htarget.isValue rfl))
    · exact (hline.laid _ (by simp [Phrase.sites])).self.around (encloses_of_isValue (hsource.isValue rfl))
  | elseIf _ _ _ ih | elseBlock _ _ ih => exact (ih hused.tail).skip
  | @letBinding word _ _ _ mark _ _ _ _ _ _ _ _ hdeclared _ _ hspan ih =>
    have hnames := (hdeclared.inLine hused.left.right.tail).name hused.left.right
    have hfront := hnames.mono (List.subset_append_right (word :: mark) _)
    exact .single (.of_covers hused hspan (hfront.append (ih hused.right.tail).skip hused))
  | nestedFunction hheader _ ih =>
    obtain ⟨hmeets, hline⟩ := hheader.inLine hused.left
    exact .single (.of_parts (hmeets.mono (List.subset_append_left _ _)) (hline.append (ih hused.right) hused) nofun)
  | lastExpr _ _ _ ih => exact (ih hused.left).mono (List.subset_append_left _ _)
  | ended _ _ _ ihstmt ihrest => exact (ihstmt hused.left).append (ihrest hused.right.tail).skip hused
  | unended _ _ _ ihstmt ihrest => exact (ihstmt hused.left).append (ihrest hused.right) hused

/-! ### Modules -/

private theorem DerivesDecl.inLine {exported : Bool} {d : Decl} (h : DerivesDecl exported d used)
    (hused : Token.InOrder used) :
    InLine used [.decl d] := by
  cases h with
  | struct h =>
    cases h with
    | struct _ _ _ hlist hpieces =>
      have hfields := hlist.inLine hused.tail.tail.tail fun p hp hp' => (hpieces p hp).inLine hp'
      exact .single (.of_parts (Span.meets_token (by simp) hused) hfields.skip.skip.skip nofun)
  | function hheader hbody =>
    obtain ⟨hmeets, hline⟩ := hheader.inLine hused.left
    have hparts := hline.append (hbody.inLine hused.right) hused
    exact .single (.of_parts (hmeets.mono (List.subset_append_left _ _)) hparts nofun)

private theorem DerivesModule.inLine {decls : List Decl} (h : DerivesModule decls used) (hused : Token.InOrder used) :
    InLine used (decls.map .decl) := by
  induction h with
  | nil => exact .nil
  | hidden hdecl _ ih => exact (hdecl.inLine hused.left).append (ih hused.right) hused
  | exported _ hdecl _ ih => exact (hdecl.inLine hused.left.tail).skip.append (ih hused.right) hused

end

/--
Spans nest.  Every site of a file that can be read starts with a token and stops with one, in front
of the end of the input; an expression that is no function, and a type, stands around everything
inside of it, including the parameters and the bodies of nested functions; and what stands directly
inside of a site, or of the module, stands apart, in the order of the text.
-/
theorem nested_of_declarations (file : SourceFile) (decls : List Decl) (hdecls : file.declarations = .ok decls) :
    ∃ used last, file.tokens = .ok (used ++ [last]) ∧ last.kind = .endOfInput ∧
      (decls.map Site.decl).Pairwise Site.Before ∧ ∀ d ∈ decls, ∀ n, (Site.decl d).Reaches n → n.Nested used := by
  rcases file.declarations_cases with ⟨decls', used, last, hread, htokens, hstream, hlast, hmodule⟩ | ⟨d, hrefused⟩
  · cases hdecls.symm.trans hread
    have hline := hmodule.inLine hstream.inOrder
    exact ⟨used, last, htokens, hlast, hline.apart, fun d hd => hline.laid _ (List.mem_map_of_mem hd)⟩
  · rw [hdecls] at hrefused
    cases hrefused

/-- A function in which another one is declared, with a parameter. -/
def innerFunction : SourceFile := ⟨"inner", "fn f(){fn g(a:i32){}(1+2)*3;}".toList⟩

/-- Whether the body of a declaration begins with a function that has parameters. -/
def Decl.beginsNested : Decl → Bool
  | .function f =>
    match f.body.stmts with
    | .function _ header _ :: _ => !header.params.isEmpty
    | _ => false
  | .struct _ => false

private theorem Decl.beginsNested_eq_true {d : Decl} (h : d.beginsNested = true) : ∃ f i header body rest p,
    d = .function f ∧ f.body.stmts = .function i header body :: rest ∧ p ∈ header.params := by
  unfold beginsNested at h
  split at h
  · split at h
    · rename_i f _ i header body rest hstmts
      obtain ⟨p, hp⟩ := List.exists_mem_of_ne_nil header.params (by simpa using h)
      exact ⟨f, i, header, body, rest, p, rfl, hstmts, hp⟩
    · cases h
  · cases h

/-- The body of the outer function stands around the parameter of the inner one, whose own span is that of its name. -/
theorem nested_innerFunction : ∃ decls f i header body p used last, innerFunction.declarations = .ok decls ∧
    .function f ∈ decls ∧ .function i header body ∈ f.body.stmts ∧ p ∈ header.params ∧
      innerFunction.tokens = .ok (used ++ [last]) ∧ p.binding.span.Meets used ∧
      f.body.info.span.Contains p.binding.span := by
  have hrun : (innerFunction.declarations.toOption.any fun decls => decls.any Decl.beginsNested) = true := by
    decide +kernel
  cases hdecls : innerFunction.declarations with
  | error f =>
    rw [hdecls] at hrun
    cases hrun
  | ok decls =>
    rw [hdecls] at hrun
    obtain ⟨d, hd, hbegins⟩ := List.any_eq_true.mp hrun
    obtain ⟨f, i, header, body, rest, p, rfl, hstmts, hp⟩ := Decl.beginsNested_eq_true hbegins
    obtain ⟨used, last, htokens, -, -, hnested⟩ := nested_of_declarations innerFunction decls hdecls
    have hstmt : .function i header body ∈ f.body.stmts := hstmts ▸ List.mem_cons_self
    have hbody : (Site.decl (.function f)).Reaches (.expr (.block f.body)) := .single (by simp [Site.parts])
    have hfunction : (Site.expr (.block f.body)).Reaches (.expr (.function i header body)) :=
      .single (List.mem_append_left _ (List.mem_map_of_mem hstmt))
    have hname : (Site.expr (.function i header body)).Reaches (.name p.binding.span) :=
      .single (List.mem_append_left _ (List.mem_append_left _ (List.mem_flatMap.mpr ⟨p, hp, by simp [Site.ofParam]⟩)))
    have hinside : (Site.expr (.block f.body)).Reaches (.name p.binding.span) := hfunction.trans hname
    exact ⟨decls, f, i, header, body, p, used, last, rfl, hd, hstmt, hp, htokens,
      (hnested _ hd _ (hbody.trans hinside)).meets, (hnested _ hd _ hbody).around rfl _ hinside⟩

end RainCheck

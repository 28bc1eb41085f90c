import RainCheck.Proofs.Grounding
import RainCheck.Proofs.Walked

/-!
# Control paths

Which ways control can take through a checked tree (`Expr.paths`), and what is safe about one of them (`Path.Safe`).
* Parts run in the order in which they are checked, a conditional takes either branch, a call returns, and a loop takes
  any number of rounds.  A jump belongs to the loop whose body it stands in; the condition of a loop is outside of it.
* On a safe path every expression that is completed has an attainable type, every jump out of a loop is noted, and every
  result fits the function.

Safety is put together along the paths, one rule for each way of combining them.
-/

namespace RainCheck

/-! ### Paths -/

/-- How a control path ends. -/
inductive Exit where
  /-- The part is completed. -/
  | done
  /-- By a jump out of the loop around. -/
  | leave
  /-- By a jump to the next round of the loop around. -/
  | next
  /-- By a return from the function. -/
  | result (e : Option Expr)
  /-- Not at all; this is how far it has come. -/
  | running

/-- A round of a loop that ends in this way is followed by the next one. -/
def Exit.isRound : Exit → Bool
  | .done => true
  | .next => true
  | _ => false

/-- What ends in this way does not stay in the loop around. -/
def Exit.isOuter : Exit → Bool
  | .result _ => true
  | .running => true
  | _ => false

/-- The control paths through a part: which expressions are completed on the way, in order, and how a path ends. -/
abbrev Paths := List Expr → Exit → Prop

namespace Paths

/-- Nothing happens. -/
inductive nothing : Paths where
  | done : nothing [] .done
  | running : nothing [] .running

/-- One part behind another. -/
inductive seq (A B : Paths) : Paths where
  | first {tr : List Expr} {x : Exit} (hA : A tr x) (hx : x ≠ .done) : seq A B tr x
  | both {tr tr' : List Expr} {x : Exit} (hA : A tr .done) (hB : B tr' x) : seq A B (tr ++ tr') x

/-- One part or another. -/
inductive either (A B : Paths) : Paths where
  | left {tr : List Expr} {x : Exit} (hA : A tr x) : either A B tr x
  | right {tr : List Expr} {x : Exit} (hB : B tr x) : either A B tr x

/-- An expression is completed behind its parts. -/
inductive node (n : Expr) (A : Paths) : Paths where
  | inside {tr : List Expr} {x : Exit} (hA : A tr x) (hx : x ≠ .done) : node n A tr x
  | completed {tr : List Expr} (hA : A tr .done) : node n A (tr ++ [n]) .done

/-- A jump behind its parts. -/
inductive jump (A : Paths) (y : Exit) : Paths where
  | inside {tr : List Expr} {x : Exit} (hA : A tr x) (hx : x ≠ .done) : jump A y tr x
  | jumps {tr : List Expr} (hA : A tr .done) : jump A y tr y

/-- Rounds of a loop: a condition, which may end the loop if `ends` holds, and a body. -/
inductive rounds (C B : Paths) (ends : Prop) : Paths where
  | condition {tr : List Expr} {x : Exit} (hC : C tr x) (hx : x ≠ .done) : rounds C B ends tr x
  | finished {tr : List Expr} (hC : C tr .done) (hends : ends) : rounds C B ends tr .done
  | left {tr tr' : List Expr} (hC : C tr .done) (hB : B tr' .leave) : rounds C B ends (tr ++ tr') .done
  | outer {tr tr' : List Expr} {x : Exit} (hC : C tr .done) (hB : B tr' x) (hx : x.isOuter = true) :
      rounds C B ends (tr ++ tr') x
  | again {tr tr' rest : List Expr} {x y : Exit} (hC : C tr .done) (hB : B tr' x) (hx : x.isRound = true)
      (hrest : rounds C B ends rest y) : rounds C B ends (tr ++ (tr' ++ rest)) y

end Paths

open Paths in
mutual

/-- The control paths through an expression. -/
def Expr.paths : Expr → Paths
  | .integer i n => node (.integer i n) nothing
  | .float i x => node (.float i x) nothing
  | .boolean i b => node (.boolean i b) nothing
  | .identifier i name v => node (.identifier i name v) nothing
  | .member i base name span index => node (.member i base name span index) base.paths
  | .call i callee args => node (.call i callee args) (seq callee.paths (Expr.pathsAll args))
  | .builtinCall i name args => node (.builtinCall i name args) (Expr.pathsAll args)
  | .unary i op operand => node (.unary i op operand) operand.paths
  | .binary i op lhs rhs => node (.binary i op lhs rhs) (seq lhs.paths rhs.paths)
  | .assignment i target source => node (.assignment i target source) (seq target.paths source.paths)
  | .structLiteral i name inits => node (.structLiteral i name inits) (Expr.pathsFields inits)
  | .letBinding i v declared init => node (.letBinding i v declared init) init.paths
  | .block b => Expr.pathsBlock b
  | .ifElse i cond thenBlock other =>
    node (.ifElse i cond thenBlock other)
      (seq cond.paths (either (Expr.pathsBlock thenBlock) (Expr.pathsOption other)))
  | .whileLoop i cond body => node (.whileLoop i cond body) (rounds cond.paths (Expr.pathsBlock body) True)
  | .endlessLoop i body => node (.endlessLoop i body) (rounds nothing (Expr.pathsBlock body) False)
  | .leaveLoop _ => jump nothing .leave
  | .nextRound _ => jump nothing .next
  | .leaveFunction _ result => jump (Expr.pathsOption result) (.result result)
  | .function i header body => node (.function i header body) nothing

/-- The control paths through an expression that may be left out. -/
def Expr.pathsOption : Option Expr → Paths
  | none => nothing
  | some e => e.paths

/-- The control paths through expressions one behind the other. -/
def Expr.pathsAll : List Expr → Paths
  | [] => nothing
  | e :: rest => seq e.paths (Expr.pathsAll rest)

/-- The control paths through the values of a struct literal. -/
def Expr.pathsFields : List (FieldInit Expr) → Paths
  | [] => nothing
  | ⟨_, _, value⟩ :: rest => seq value.paths (Expr.pathsFields rest)

/-- The control paths through a block. -/
def Expr.pathsBlock : Block Expr → Paths
  | ⟨i, frame, stmts, tail⟩ => node (.block ⟨i, frame, stmts, tail⟩) (seq (Expr.pathsAll stmts) (Expr.pathsOption tail))

end

attribute [grind =] Expr.paths Expr.pathsOption Expr.pathsAll Expr.pathsFields Expr.pathsBlock

/-! ### Later states of a walk -/

/-- A state to which a walk advances from one with a grounded store. -/
structure CheckState.Later (st st' : CheckState) : Prop extends st.Advances st' where
  start : st.store.Grounded

namespace CheckState.Later

variable {st st' st'' : CheckState}

theorem types (h : st.Later st') : st.store.TypesStay st'.store := (h.stays h.start).2

theorem refl (h : st.store.Grounded) : st.Later st := ⟨.of_loops (.refl st.store) rfl, h⟩

theorem trans (h : st.Later st') (h' : st'.Later st'') : st.Later st'' := ⟨h.toAdvances.trans h'.toAdvances, h.start⟩

theorem reached (h : st.Later st') : st'.store.Grounded := (h.stays h.start).1

/-- The next part of a walk. -/
theorem next (h : st.Later st') (h' : st'.Advances st'') : st'.Later st'' := ⟨h', h.reached⟩

end CheckState.Later

/-! ### Safe paths -/

/-- An expression has a type that it can complete with. -/
def Expr.Attained (s : Store) (n : Expr) : Prop := ∃ t, n.info.type = some t ∧ s.Attainable t

theorem Expr.Attained.stay {s s' : Store} {n : Expr} (h : n.Attained s) (hstay : s.TypesStay s') : n.Attained s' := by
  obtain ⟨t, ht, hattainable⟩ := h
  exact ⟨t, ht, hattainable.stay hstay⟩

/-- What is returned fits the result of the function; without a result the function gives no value. -/
def Store.Returns (s : Store) (returns : Option TypeId) (r : Option Expr) : Prop :=
  ∃ t, returns = some t ∧ (∀ e ∈ r, s.Fits e.info t) ∧ (r = none → t = TypeId.void)

theorem Store.Returns.stay {s s' : Store} {returns : Option TypeId} {r : Option Expr} (h : s.Returns returns r)
    (hstay : s.TypesStay s') : s'.Returns returns r := by
  obtain ⟨t, ht, hfits, hvoid⟩ := h
  exact ⟨t, ht, fun e he => hstay.fits (hfits e he), hvoid⟩

/-- A path is safe in the state behind a part; if the part is completed, then `D` holds. -/
structure Path.Safe (c : Context) (st : CheckState) (D : Prop) (tr : List Expr) (x : Exit) : Prop where
  attained : ∀ n ∈ tr, n.Attained st.store
  done : x = .done → D
  leave : x = .leave → st.loops.head? = some true
  next : x = .next → st.loops ≠ []
  result : ∀ r, x = .result r → st.store.Returns c.returns r

/-- All paths through a part are safe. -/
def Paths.Safe (A : Paths) (c : Context) (st : CheckState) (D : Prop) : Prop := ∀ tr x, A tr x → Path.Safe c st D tr x

section

variable {A B C : Paths} {c : Context} {st st₁ st₂ : CheckState} {D D₁ : Prop} {n : Expr}
  {tr tr' : List Expr} {x y : Exit}

private theorem Path.Safe.grow (h : Path.Safe c st₁ D tr x) (hl : st₁.Later st) : Path.Safe c st D tr x :=
  ⟨fun n hn => (h.attained n hn).stay hl.types, h.done, fun hx => hl.leave (h.leave hx),
    fun hx => hl.inside (h.next hx),
    fun r hr => (h.result r hr).stay hl.types⟩

/-- A path that does not complete its part says nothing about what holds behind it. -/
private theorem Path.Safe.unfinished (h : Path.Safe c st D₁ tr x) (hx : x ≠ .done) : Path.Safe c st D tr x :=
  ⟨h.attained, fun heq => absurd heq hx, h.leave, h.next, h.result⟩

private theorem Path.Safe.append (h : Path.Safe c st D₁ tr y) (h' : Path.Safe c st D tr' x) :
    Path.Safe c st D (tr ++ tr') x := by
  refine ⟨fun n hn => ?_, h'.done, h'.leave, h'.next, h'.result⟩
  rcases List.mem_append.mp hn with hn | hn
  · exact h.attained n hn
  · exact h'.attained n hn

theorem Paths.safe_nothing (h : D) : nothing.Safe c st D := by
  rintro tr x (_ | _)
  · exact ⟨by simp, fun _ => h, nofun, nofun, nofun⟩
  · exact ⟨by simp, nofun, nofun, nofun, nofun⟩

theorem Paths.Safe.imp (h : A.Safe c st D₁) (himp : D₁ → D) : A.Safe c st D := fun tr x hA =>
  ⟨(h tr x hA).attained, fun hx => himp ((h tr x hA).done hx), (h tr x hA).leave, (h tr x hA).next, (h tr x hA).result⟩

theorem Paths.Safe.grow (h : A.Safe c st₁ D) (hl : st₁.Later st) : A.Safe c st D := fun tr x hA => (h tr x hA).grow hl

/-- The second part is reached only if the first one is completed. -/
theorem Paths.Safe.seq (hA : A.Safe c st₁ D₁) (hl : st₁.Later st) (hB : D₁ → B.Safe c st D) :
    (seq A B).Safe c st D := by
  rintro tr x (⟨h, hx⟩ | ⟨h, h'⟩)
  · exact ((hA _ x h).grow hl).unfinished hx
  · have hfirst := hA _ _ h
    exact (hfirst.grow hl).append (hB (hfirst.done rfl) _ x h')

theorem Paths.Safe.either (hA : A.Safe c st D) (hB : B.Safe c st D) : (either A B).Safe c st D := by
  rintro tr x (h | h)
  · exact hA tr x h
  · exact hB tr x h

theorem Paths.Safe.node (hA : A.Safe c st₁ D₁) (hl : st₁.Later st) (hD : D₁ → n.Attained st.store ∧ D) :
    (node n A).Safe c st (n.Attained st.store ∧ D) := by
  rintro tr x (⟨h, hx⟩ | h)
  · exact ((hA _ x h).grow hl).unfinished hx
  · have hparts := hA _ _ h
    obtain ⟨hn, hD⟩ := hD (hparts.done rfl)
    refine (hparts.grow hl).append ⟨fun n' hn' => ?_, fun _ => ⟨hn, hD⟩, nofun, nofun, nofun⟩
    rw [List.mem_singleton.mp hn']
    exact hn

theorem Paths.Safe.jump (hA : A.Safe c st₁ D₁) (hl : st₁.Later st) (hy : D₁ → Path.Safe c st D [] y) :
    (jump A y).Safe c st D := by
  rintro tr x (⟨h, hx⟩ | h)
  · exact ((hA _ x h).grow hl).unfinished hx
  · have hparts := hA _ _ h
    have hsafe := (hparts.grow hl).append (hy (hparts.done rfl))
    rwa [List.append_nil] at hsafe

/--
The rounds of a loop.  The state `st₂` is that inside of the loop behind its body; a jump out of the loop is caught, and
one to the next round stays inside.
-/
theorem Paths.Safe.rounds {ends : Prop} (hC : C.Safe c st₁ D₁) (hl : st₁.Later st)
    (hB : D₁ → B.Safe c st₂ True) (hstay : st₂.store.TypesStay st.store) (hends : ends → D₁ → D)
    (hleft : st₂.loops.head? = some true → D₁ → D) : (rounds C B ends).Safe c st D := by
  intro tr x h
  induction h with
  | condition h hx => exact ((hC _ _ h).grow hl).unfinished hx
  | finished h he =>
    have hcondition := hC _ _ h
    exact ⟨(hcondition.grow hl).attained, fun _ => hends he (hcondition.done rfl), nofun, nofun, nofun⟩
  | left h h' =>
    have hcondition := hC _ _ h
    have hbody := hB (hcondition.done rfl) _ _ h'
    refine (hcondition.grow hl).append ⟨fun n hn => (hbody.attained n hn).stay hstay, fun _ => ?_, nofun, nofun, nofun⟩
    exact hleft (hbody.leave rfl) (hcondition.done rfl)
  | @outer tr tr' x h h' hx =>
    have hcondition := hC _ _ h
    have hbody := hB (hcondition.done rfl) _ _ h'
    refine (hcondition.grow hl).append ⟨fun n hn => (hbody.attained n hn).stay hstay, ?_, ?_, ?_,
      fun r hr => (hbody.result r hr).stay hstay⟩ <;>
      · rintro rfl
        cases hx
  | again h h' _ _ ih =>
    have hcondition := hC _ _ h
    have hbody := hB (hcondition.done rfl) _ _ h'
    have hround : Path.Safe c st D _ .running :=
      ⟨fun n hn => (hbody.attained n hn).stay hstay, nofun, nofun, nofun, nofun⟩
    exact (hcondition.grow hl).append (hround.append ih)

end

end RainCheck

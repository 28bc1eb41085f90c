import RainCheck.Proofs.ControlFlow
import RainCheck.Proofs.Nodes

/-!
# The type of what never completes

No control path completes an expression of the type `never`.
* A variable of that type, or a reference to one, stands behind an initial value that is not completed.  So as long as
  control goes on, all variables in scope have attainable types (`Store.Clean`).
* (down) This is kept from a part to those inside of it.
* (up) From safe paths through its parts, the paths through an expression are safe.

So a path through the body of a function ends with a result that fits the function, or not at all.
-/

namespace RainCheck

open Check RainCheck.Action
open Relation (ReflTransGen)

/-! ### Variables in scope -/

/-- A variable that is no function has an attainable type. -/
def Store.Sure (s : Store) (v : Variable) : Prop :=
  v.kind.isFunction = false → ∃ t, v.type.value? = some t ∧ s.Attainable t

/-- The variables of a frame and of those around it have attainable types. -/
def Store.Clean (s : Store) (fr : FrameId) : Prop :=
  ∀ f, s.frame? fr = some f → ∀ g ∈ fr :: f.outer, ∀ h, s.frame? g = some h → ∀ p ∈ h.values, s.Sure p.2

namespace Store

variable {L : Listing} {s s' : Store} {fr : FrameId} {f : Frame} {v : Variable}

theorem Sure.grow (h : s.Sure v) (hg : s.GrowsTo s') : s'.Sure v := by
  intro hkind
  obtain ⟨t, ht, hattainable⟩ := h hkind
  exact ⟨t, ht, hattainable.stay hg.typesStay⟩

/-- A variable that is found from a frame has an attainable type. -/
private theorem Clean.lookup {name : String} (h : s.Clean fr) (hlookup : s.frames.lookup fr name = .ok (some v)) :
    s.Sure v := by
  unfold Frames.lookup Frames.search Frames.chain at hlookup
  cases hget : s.frames.get fr with
  | error g =>
    rw [hget] at hlookup
    cases hlookup
  | ok f =>
    rw [hget] at hlookup
    have hclean := h f (itemAt_eq_ok_iff.mp hget)
    change s.frames.searchIn _ (fr :: f.outer) = _ at hlookup
    generalize fr :: f.outer = chain at hlookup hclean
    induction chain with
    | nil => cases hlookup
    | cons g chain ih =>
      rw [Frames.searchIn] at hlookup
      cases hg : s.frames.get g with
      | error e =>
        rw [hg] at hlookup
        cases hlookup
      | ok h =>
        rw [hg, ok_bind] at hlookup
        cases hfind : h.findVariable name with
        | none =>
          rw [hfind] at hlookup
          exact ih hlookup fun g hg => hclean g (List.mem_cons_of_mem _ hg)
        | some w =>
          rw [hfind] at hlookup
          cases hlookup
          exact hclean g List.mem_cons_self h (itemAt_eq_ok_iff.mp hg) _ (mem_of_lookup hfind)

/-- A variable that is added to a frame is found there, or was there before. -/
private theorem finds_of_adds {vs : List Variable} {f' : Frame} (hs' : s'.FramesSound L) (hg : s.GrowsTo s')
    (hadds : s.Adds s' fr vs) (hf : s.frame? fr = some f) (hf' : s'.frame? fr = some f') {p : String × Variable}
    (hp : p ∈ f'.values) : p ∈ f.values ∨ s'.Finds fr p.2 ∧ p.2.bare ∈ vs := by
  obtain ⟨f₁, hf₁, hnames⟩ := hadds f hf
  rw [hf'] at hf₁
  cases hf₁
  obtain ⟨f₁, hf₁, hgrows⟩ := hg.frames fr f hf
  rw [hf'] at hf₁
  cases hf₁
  obtain ⟨extra, hextra⟩ := hgrows.values
  rw [← hextra] at hp
  rcases List.mem_append.mp hp with hp | hp
  · exact .inl hp
  · have hbare : (p.1, p.2.bare) ∈ named vs := by
      have hmap : extra.map (fun p => (p.1, p.2.bare)) = named vs := by
        simpa [Frame.names, ← hextra] using hnames
      exact hmap ▸ List.mem_map_of_mem hp
    obtain ⟨w, hw, heq⟩ := List.mem_map.mp hbare
    obtain ⟨hname, rfl⟩ := Prod.mk.inj heq
    refine .inr ⟨⟨f', hf', ?_⟩, hw⟩
    -- no name occurs twice in a frame
    have hmem : (p.2.name, p.2) ∈ f'.values := by
      rw [← hextra, show (p.2.name, p.2) = p from Prod.ext hname rfl]
      exact List.mem_append_right _ hp
    exact lookup_of_mem hmem (hs'.once fr f' hf')

/-- Frames stay clean if the variables that are added have attainable types. -/
theorem Clean.declare {vs : List Variable} (h : s.Clean fr) (hs : s.FramesSound L) (hs' : s'.FramesSound L)
    (hfr : fr < s.frames.size) (hg : s.GrowsTo s') (hleaves : s.Leaves s' fr) (hadds : s.Adds s' fr vs)
    (hnew : ∀ v, s'.Finds fr v → v.bare ∈ vs → s'.Sure v) : s'.Clean fr := by
  intro f' hf' g hg' h' hh' p hp
  obtain ⟨f, -, hf⟩ := get_frame hfr
  obtain ⟨f₁, hf₁, hgrows⟩ := hg.frames fr f hf
  rw [hf'] at hf₁
  cases hf₁
  rw [hgrows.outer] at hg'
  by_cases heq : g = fr
  · subst heq
    rw [hf'] at hh'
    cases hh'
    rcases finds_of_adds hs' hg hadds hf hf' hp with hold | ⟨hfinds, hbare⟩
    · exact (h f hf g List.mem_cons_self f hf p hold).grow hg
    · exact hnew p.2 hfinds hbare
  · have houter : g ∈ f.outer := (List.mem_cons.mp hg').resolve_left heq
    obtain ⟨k, -, hk⟩ := get_frame (Nat.lt_trans (hs.outer fr f hf g houter) hfr)
    have hsame := hleaves g k heq hk
    rw [hh'] at hsame
    cases hsame
    exact (h f hf g hg' h' hk p hp).grow hg

/-- A new frame inside a clean one is clean. -/
private theorem Clean.nest (h : s.Clean fr) (hs : s.FramesSound L) (hf : s.frame? fr = some f) :
    (s.addFrame (fr :: f.outer)).Clean s.frames.size := by
  intro f' hf' g hg k hk p hp
  rw [frame?_addFrame, if_pos rfl] at hf'
  cases hf'
  have hsame : ∀ v, s.Sure v → (s.addFrame (fr :: f.outer)).Sure v := fun v hv => hv.grow extends_addFrame.toGrowsTo
  rcases List.mem_cons.mp hg with rfl | hg
  · rw [frame?_addFrame, if_pos rfl] at hk
    cases hk
    cases hp
  · have hlt : g < s.frames.size := by
      rcases List.mem_cons.mp hg with rfl | hg
      · exact frame_lt_size hf
      · exact Nat.lt_trans (hs.outer fr f hf g hg) (frame_lt_size hf)
    rw [frame?_addFrame, if_neg (Nat.ne_of_lt hlt)] at hk
    exact hsame p.2 (h f hf g hg k hk p hp)

/-- A frame is clean where only functions are in scope. -/
theorem Shows.clean {σ : Scope} (h : s.Shows fr σ) (hσ : ∀ layer ∈ σ, ∀ v ∈ layer, v.kind.isFunction = true) :
    s.Clean fr := by
  have hlayer : ∀ g k (layer : List Variable), s.frame? g = some k → k.names = named layer →
      (∀ v ∈ layer, v.kind.isFunction = true) → ∀ p ∈ k.values, s.Sure p.2 := by
    intro g k layer _ hnames hlayer p hp hkind
    have hmem : (p.1, p.2.bare) ∈ named layer := hnames ▸ List.mem_map_of_mem hp
    obtain ⟨w, hw, heq⟩ := List.mem_map.mp hmem
    have hfunction := hlayer w hw
    rw [(Prod.mk.inj heq).2] at hfunction
    rw [show p.2.bare.kind = p.2.kind from rfl, hkind] at hfunction
    cases hfunction
  cases σ with
  | nil => exact h.elim
  | cons layer rest =>
    obtain ⟨f, hf, hnames, houter⟩ := h
    intro f' hf' g hg k hk p hp
    rw [hf] at hf'
    cases hf'
    rcases List.mem_cons.mp hg with rfl | hg
    · rw [hf] at hk
      cases hk
      exact hlayer g f layer hf hnames (hσ layer List.mem_cons_self) p hp
    · obtain ⟨i, hi, rfl⟩ := List.getElem_of_mem hg
      have hlen := houter.length_eq
      have hholds := List.forall₂_iff_get.mp houter |>.2 i hi (hlen ▸ hi)
      obtain ⟨k', hk', hnames'⟩ := hholds
      simp only [List.get_eq_getElem] at hk' hnames'
      rw [hk] at hk'
      cases hk'
      refine hlayer _ k _ hk hnames' ?_ p hp
      have hmem := List.getElem_mem (hlen ▸ hi : i < (rest ++ [[]]).length)
      rcases List.mem_append.mp hmem with hmem | hmem
      · exact hσ _ (List.mem_cons_of_mem _ hmem)
      · rw [List.mem_singleton.mp hmem]
        simp

end Store

/-! ### Clear visits -/

variable {L : Listing} {functions : List Variable} {uses : List Use}

variable (L functions uses) in
/-- A sound visit of a part that control comes to. -/
structure Visit.Clear (v : Visit) : Prop where
  sound : ∃ σ, v.Sound L functions uses σ
  grounded : v.state.store.Grounded
  clean : v.state.store.Clean v.frame

section

variable {c : Context} {fr : FrameId} {st st' : CheckState}

/-- A part of a walk that declares nothing but functions leaves a frame clean. -/
private theorem CheckState.Goes.clean {p : Footprint} (hgo : st.Goes L fr p st') (hs : st.Sound L)
    (hfr : fr < st.store.frames.size) (h : st.store.Clean fr) (hstop : st'.stop = none)
    (hfunctions : ∀ v ∈ p.declared, v.kind.isFunction = true) : st'.store.Clean fr := by
  refine h.declare hs.store.frames hgo.moves.sound.frames hfr hgo.grows hgo.moves.leaves (hgo.adds hstop) ?_
  intro v _ hbare hkind
  have hfunction := hfunctions _ hbare
  rw [show v.bare.kind = v.kind from rfl, hkind] at hfunction
  cases hfunction

variable {e e' : Expr}

/-- What is known behind an expression that control comes to. -/
structure Behind (L : Listing) (c : Context) (fr : FrameId) (st : CheckState) (e' : Expr)
    (st' : CheckState) : Prop where
  annotated : ∃ ret, ret = c.returns ∧ e'.Annotated st'.store ret fr
  later : st.Later st'
  grounded : st'.store.Grounded
  sound : st'.store.Sound L
  grows : st.store.GrowsTo st'.store

private theorem Visit.Clear.behind (hv : Visit.Clear L functions uses ⟨c, fr, .expr e, st⟩)
    (hrun : (Check.expr c fr e).run st = (e', st')) (hstop : st'.stop = none) : Behind L c fr st e' st' := by
  obtain ⟨σ, hr, ⟨b, hf⟩, -⟩ := hv.sound
  obtain ⟨hgo, hannotated⟩ := (walks_iff hrun).mp (checks_expr e hf c fr σ st hr)
  have hadvances := (advances_expr e c fr).of_run hrun
  exact ⟨⟨_, rfl, hannotated hstop⟩, ⟨hadvances, hv.grounded⟩, (hadvances.stays hv.grounded).1,
    hgo.moves.sound, hgo.grows⟩

/-- Behind an expression that declares nothing but functions, a frame stays clean. -/
private theorem Visit.Clear.clean_behind (hv : Visit.Clear L functions uses ⟨c, fr, .expr e, st⟩)
    (hrun : (Check.expr c fr e).run st = (e', st')) (hstop : st'.stop = none)
    (hfunctions : ∀ v ∈ e.declared, v.kind.isFunction = true) : st'.store.Clean fr := by
  obtain ⟨σ, hr, ⟨b, hf⟩, -⟩ := hv.sound
  obtain ⟨hgo, -⟩ := (walks_iff hrun).mp (checks_expr e hf c fr σ st hr)
  exact hgo.clean hr.sound hr.frame hv.clean hstop hfunctions

/-- A step that only looks at the store. -/
private theorem Action.Gives.store_eq {α : Type} {a : Action α} {x : α} (h : a.Gives st x st') (ha : a.Reads) :
    st'.store = st.store := by
  have hsame := ha st.store
  rw [show a.run.run st.store = _ from h.yields] at hsame
  exact hsame

private theorem Visit.Clear.fresh (hv : Visit.Clear L functions uses ⟨c, fr, .expr e, st⟩) : ∃ b, e.Fresh b := by
  obtain ⟨σ, -, hf, -⟩ := hv.sound
  exact hf

/-- A part that a clear visit leads to, in a state whose store is grounded and whose frame is clean. -/
private theorem Visit.Clear.step {v w : Visit} (hv : v.Clear L functions uses) (hstep : v.Step w)
    (hgrounded : w.state.store.Grounded)
    (hclean : w.state.store.Clean w.frame) : w.Clear L functions uses := by
  obtain ⟨σ, hsound⟩ := hv.sound
  exact ⟨hstep.sound hsound, hgrounded, hclean⟩

end

/-! ### Paths through nodes -/

section

variable (L functions uses) in
/-- The paths through an expression that control comes to are safe. -/
def SafeExpr (e : Expr) : Prop :=
  ∀ ⦃c fr st e' st'⦄, Visit.Clear L functions uses ⟨c, fr, .expr e, st⟩ → (Check.expr c fr e).run st = (e', st') →
    st'.stop = none → e'.paths.Safe c st' (e'.Attained st'.store ∧ st'.store.Clean fr)

variable (L functions uses) in
/-- The same for an expression that may be left out. -/
def SafeOption (e : Option Expr) : Prop :=
  ∀ ⦃c fr st e' st'⦄, Visit.Clear L functions uses ⟨c, fr, .option e, st⟩ → (Check.option c fr e).run st = (e', st') →
    st'.stop = none → (Expr.pathsOption e').Safe c st' (∀ x ∈ e', x.Attained st'.store)

variable (L functions uses) in
/-- The same for expressions one behind the other. -/
def SafeAll (es : List Expr) : Prop :=
  ∀ ⦃c fr st es' st'⦄, Visit.Clear L functions uses ⟨c, fr, .exprs es, st⟩ → (Check.exprs c fr es).run st = (es', st') →
    st'.stop = none → (Expr.pathsAll es').Safe c st' ((∀ e ∈ es', e.Attained st'.store) ∧ st'.store.Clean fr)

variable (L functions uses) in
/-- The same for the fields of a struct literal. -/
def SafeFields (inits : List (FieldInit Expr)) : Prop :=
  ∀ ⦃c fr st owner declared seen inits' st'⦄,
    Visit.Clear L functions uses ⟨c, fr, .fields owner declared seen inits, st⟩ →
    (Check.fields c fr owner declared seen inits).run st = (inits', st') → st'.stop = none →
    (Expr.pathsFields inits').Safe c st' True

variable (L functions uses) in
/-- The same for a block. -/
def SafeBlock (b : Block Expr) : Prop :=
  ∀ ⦃c fr st b' st'⦄, Visit.Clear L functions uses ⟨c, fr, .block b, st⟩ → (Check.block c fr b).run st = (b', st') →
    st'.stop = none → (Expr.pathsBlock b').Safe c st' ((Expr.block b').Attained st'.store ∧ st'.store.Clean fr)

variable {c : Context} {fr : FrameId} {st st₁ st' : CheckState} {e e' : Expr} {A : Paths} {D : Prop}

/-- A node is completed behind its parts, and declares nothing but functions. -/
private theorem Visit.Clear.node (hv : Visit.Clear L functions uses ⟨c, fr, .expr e, st⟩)
    (hrun : (Check.expr c fr e).run st = (e', st')) (hstop : st'.stop = none)
    (hfunctions : ∀ v ∈ e.declared, v.kind.isFunction = true) (hA : A.Safe c st₁ D) (hl : st₁.Later st')
    (hn : D → e'.Attained st'.store) : (Paths.node e' A).Safe c st' (e'.Attained st'.store ∧ st'.store.Clean fr) :=
  hA.node hl fun h => ⟨hn h, hv.clean_behind hrun hstop hfunctions⟩

/-- A node without parts. -/
private theorem Visit.Clear.leaf (hv : Visit.Clear L functions uses ⟨c, fr, .expr e, st⟩)
    (hrun : (Check.expr c fr e).run st = (e', st')) (hstop : st'.stop = none)
    (hfunctions : ∀ v ∈ e.declared, v.kind.isFunction = true) (hn : e'.Attained st'.store) :
    (Paths.node e' Paths.nothing).Safe c st' (e'.Attained st'.store ∧ st'.store.Clean fr) :=
  hv.node hrun hstop hfunctions (D := True) (Paths.safe_nothing trivial)
    (.refl (hv.behind hrun hstop).grounded) fun _ => hn

/-- A type that is primitive in every store can be attained. -/
private theorem Store.Sound.attainable {s : Store} {t : TypeId} (hs : s.Sound L) (ht : t < Types.primitives.length)
    (hne : t ≠ TypeId.never) : s.Attainable t :=
  .primitive ((hs.types.primitives t _).mpr (List.getElem?_eq_getElem ht)) hne

/-- The type of a variable that control comes to can be attained. -/
private theorem Visit.Clear.variable {info found : Info} {name : String} {binding : Option Variable}
    {v : Variable} {t : TypeId}
    (hv : Visit.Clear L functions uses ⟨c, fr, .expr (.identifier info name binding), st⟩)
    (hrule : (attempt (identifierRule fr info name)).run st = (some (v, found), st₁)) (hs : st'.store.Sound L)
    (hstay : st.store.TypesStay st'.store) (ht : (st'.store.typeOf v).value? = some t) : st'.store.Attainable t := by
  cases hkind : v.kind.isFunction with
  | true =>
    -- the type of a function is kept with it
    unfold Store.typeOf at ht
    rw [if_pos hkind] at ht
    cases hrecord : (st'.store.function v.span).variableType with
    | none =>
      rw [hrecord] at ht
      cases ht
    | some holder =>
      rw [hrecord] at ht
      rcases hs.functions.variableType _ _ hrecord with ⟨rfl, -⟩ | ⟨sig, rfl, hsig⟩
      · cases ht
      · obtain ⟨params, returns, he, -⟩ := hs.functions.signature _ sig hsig
        cases ht
        exact .function he
  | false =>
    have hlookup : st.store.frames.lookup fr name = .ok (some v) := by
      have hyields := (attempt_gives hrule).yields
      unfold identifierRule at hyields
      simp only [yields_bind, yields_get, yields_lift] at hyields
      obtain ⟨_, _, ⟨rfl, rfl⟩, o, _, ⟨hlookup, rfl⟩, hyields⟩ := hyields
      cases o with
      | none => exact absurd hyields yields_refuse
      | some w =>
        simp only [yields_bind, yields_get, yields_lift, yields_pure] at hyields
        obtain ⟨_, _, -, _, _, -, _, _, -, heq, -⟩ := hyields
        cases heq
        exact hlookup
    unfold Store.typeOf at ht
    rw [if_neg (by simp [hkind])] at ht
    obtain ⟨u, hu, hattainable⟩ := hv.clean.lookup hlookup hkind
    rw [ht] at hu
    cases hu
    exact hattainable.stay hstay

/-- The paths through an expression are safe, if they are with what is known of the walk through it. -/
private theorem safe_of_walked {e : Expr}
    (h : ∀ c fr st e' st', Visit.Clear L functions uses ⟨c, fr, .expr e, st⟩ → st.stop = none → e.info.type = none →
      (Check.expr c fr e).run st = (e', st') → st'.stop = none → e.Walked c fr st e' st' → Behind L c fr st e' st' →
      e'.paths.Safe c st' (e'.Attained st'.store ∧ st'.store.Clean fr)) :
    SafeExpr L functions uses e := by
  intro c fr st e' st' hv hrun hstop
  obtain ⟨b, hf⟩ := hv.fresh
  exact h c fr st e' st' hv ((steady_expr _).opened hrun hstop) hf.untyped hrun hstop
    (Expr.walked hf.untyped hrun hstop) (hv.behind hrun hstop)

/-- A literal has a primitive type, and not the type of what never completes. -/
private theorem safe_literal (make : Info → Expr) {info : Info} {t : TypeId} (ht : t < Types.primitives.length)
    (hne : t ≠ TypeId.never)
    (hmake : ∀ i, (make i).info = i ∧ (make i).declared = [] ∧ (make i).paths = Paths.node (make i) Paths.nothing)
    (hkept : ∀ {c fr st e' st'}, (make info).Walked c fr st e' st' → ∃ i, e' = make i)
    (hannotated : ∀ {s ret fr i}, (make i).Annotated s ret fr → i.Typed s t) :
    SafeExpr L functions uses (make info) := by
  refine safe_of_walked fun c fr st e' st' hv _ _ hrun hstop hwalked hb => ?_
  obtain ⟨i, rfl⟩ := hkept hwalked
  obtain ⟨_, -, hi⟩ := hb.annotated
  have htype : (make i).info.type = some t := (congrArg Info.type (hmake i).1).trans (hannotated hi).type
  rw [(hmake i).2.2]
  exact hv.leaf hrun hstop (by simp [(hmake info).2.1]) ⟨_, htype, hb.sound.attainable ht hne⟩

private theorem safe_integer {info : Info} {n : Int32} : SafeExpr L functions uses (.integer info n) :=
  safe_literal (.integer · n) (t := TypeId.i32) (by decide) (by decide)
    (fun i => ⟨rfl, by simp [Expr.declared], by rw [Expr.paths]⟩)
    (fun h => by cases h with | integer => exact ⟨_, rfl⟩) fun h => by cases h with | integer hi => exact hi

private theorem safe_float {info : Info} {x : Float} : SafeExpr L functions uses (.float info x) :=
  safe_literal (.float · x) (t := TypeId.f64) (by decide) (by decide)
    (fun i => ⟨rfl, by simp [Expr.declared], by rw [Expr.paths]⟩)
    (fun h => by cases h with | float => exact ⟨_, rfl⟩) fun h => by cases h with | float hi => exact hi

private theorem safe_boolean {info : Info} {b : Bool} : SafeExpr L functions uses (.boolean info b) :=
  safe_literal (.boolean · b) (t := TypeId.bool) (by decide) (by decide)
    (fun i => ⟨rfl, by simp [Expr.declared], by rw [Expr.paths]⟩)
    (fun h => by cases h with | boolean => exact ⟨_, rfl⟩) fun h => by cases h with | boolean hi => exact hi

private theorem safe_identifier {info : Info} {name : String} {binding : Option Variable} :
    SafeExpr L functions uses (.identifier info name binding) := by
  refine safe_of_walked fun c fr st e' st' hv _ _ hrun hstop hwalked hb => ?_
  cases hwalked with
  | identifier hrule hi =>
    obtain ⟨_, -, hannotated⟩ := hb.annotated
    cases hannotated with
    | identifier hi' ht =>
      rw [Expr.paths]
      exact hv.leaf hrun hstop (by simp [Expr.declared]) ⟨_, hi'.type, hv.variable hrule hb.sound hb.later.types ht⟩

private theorem safe_member {info : Info} {base : Expr} {name : String} {nameSpan : Span} {index : Nat}
    (hbase : SafeExpr L functions uses base) : SafeExpr L functions uses (.member info base name nameSpan index) := by
  refine safe_of_walked fun c fr st e' st' hv hopen huntyped hrun hstop hwalked hb => ?_
  cases hwalked with
  | member hrun₁ hrule hi =>
    have hv₁ := hv.step (.memberBase hopen huntyped) hv.grounded hv.clean
    have hl₁ : st.Later _ := ⟨(advances_expr _ c fr).of_run hrun₁, hv.grounded⟩
    have hl₂ := hl₁.next ((advances_attempt grounds_member).of_run hrule)
    have hl₃ := hl₂.next ((advances_conclude grounds_pure).of_run hi)
    rw [Expr.paths]
    refine hv.node hrun hstop (by simp [Expr.declared]) (hbase hv₁ hrun₁ (attempt_gives hrule).opened) (hl₂.trans hl₃)
      fun _ => ?_
    obtain ⟨_, -, hannotated⟩ := hb.annotated
    cases hannotated with
    | member _ _ _ hstruct _ hfield hi' =>
      exact ⟨_, hi'.type, hb.grounded.fields _ _ _ hstruct _ (List.mem_of_getElem? hfield)⟩

private theorem safe_call {info : Info} {callee : Expr} {args : List Expr} (hcallee : SafeExpr L functions uses callee)
    (hargs : SafeAll L functions uses args) : SafeExpr L functions uses (.call info callee args) := by
  refine safe_of_walked fun c fr st e' st' hv hopen huntyped hrun hstop hwalked hb => ?_
  cases hwalked with
  | call hrun₁ hrun₂ hi =>
    have hstop₂ := conclude_opened hi hstop
    have hstop₁ := (steady_exprs _).opened hrun₂ hstop₂
    have hl₁ : st.Later _ := ⟨(advances_expr _ c fr).of_run hrun₁, hv.grounded⟩
    have hl₂ := hl₁.next ((advances_exprs _ c fr).of_run hrun₂)
    have hl₃ := hl₂.next ((advances_conclude grounds_call).of_run hi)
    have hparts := (hcallee (hv.step (.callee hopen huntyped) hv.grounded hv.clean) hrun₁ hstop₁).seq hl₂
      fun h => hargs (hv.step (.arguments hopen huntyped hrun₁) hl₁.reached h.2) hrun₂ hstop₂
    rw [Expr.paths]
    refine hv.node hrun hstop (by simp [Expr.declared]) hparts hl₃ fun _ => ?_
    obtain ⟨_, -, hannotated⟩ := hb.annotated
    cases hannotated with
    | call _ _ _ hfunction _ hi' => exact ⟨_, hi'.type, (hb.grounded.functionTypes _ _ _ hfunction).2⟩

private theorem safe_builtinCall {info : Info} {name : String} {args : List Expr}
    (hargs : SafeAll L functions uses args) :
    SafeExpr L functions uses (.builtinCall info name args) := by
  refine safe_of_walked fun c fr st e' st' hv hopen huntyped hrun hstop hwalked hb => ?_
  cases hwalked with
  | builtinCall hfind hrun₂ hi =>
    have hstop₂ := conclude_opened hi hstop
    have hl₁ : st.Later _ := ⟨(advances_attempt reads_findBuiltin.grounds).of_run hfind, hv.grounded⟩
    have hl₂ := hl₁.next ((advances_exprs _ c fr).of_run hrun₂)
    have hl₃ := hl₂.next ((advances_conclude grounds_builtin).of_run hi)
    have hclean := hv.clean
    rw [← show _ = st.store from (attempt_gives hfind).store_eq reads_findBuiltin] at hclean
    have hparts := hargs (hv.step (.builtinArguments hopen huntyped hfind) hl₁.reached hclean) hrun₂ hstop₂
    rw [Expr.paths]
    refine hv.node hrun hstop (by simp [Expr.declared]) hparts hl₃ fun _ => ?_
    obtain ⟨_, -, hannotated⟩ := hb.annotated
    cases hannotated with
    | @builtinCall _ _ _ _ _ b u _ _ _ _ htakes hi' =>
      refine ⟨_, hi'.type, ?_⟩
      obtain ⟨hlt, hne⟩ : b.family.result u < Types.primitives.length ∧ b.family.result u ≠ TypeId.never := by
        have hnumber : TypeId.isNumeric (b.family.result u) = true := by
          cases b <;>
            simp_all [Builtin.family, Builtin.Family.takes, Builtin.Family.result, TypeId.isNumeric] <;> decide
        simp only [TypeId.isNumeric, TypeId.isInteger, TypeId.isFloat, Bool.or_eq_true, decide_eq_true_eq] at hnumber
        rcases hnumber with (h | h) | h | h <;> rw [h] <;> decide
      exact hb.sound.attainable hlt hne

private theorem safe_unary {info : Info} {op : UnaryOp} {operand : Expr}
    (hoperand : SafeExpr L functions uses operand) :
    SafeExpr L functions uses (.unary info op operand) := by
  refine safe_of_walked fun c fr st e' st' hv hopen huntyped hrun hstop hwalked hb => ?_
  cases hwalked with
  | unary hrun₁ hi =>
    have hv₁ := hv.step (.operand hopen huntyped) hv.grounded hv.clean
    have hl₁ : st.Later _ := ⟨(advances_expr _ c fr).of_run hrun₁, hv.grounded⟩
    have hl₂ := hl₁.next ((advances_conclude grounds_unary).of_run hi)
    rw [Expr.paths]
    refine hv.node hrun hstop (by simp [Expr.declared]) (hoperand hv₁ hrun₁ (conclude_opened hi hstop)) hl₂ fun h => ?_
    obtain ⟨u, hu, hattainable⟩ := h.1.stay hl₂.types
    obtain ⟨_, -, hannotated⟩ := hb.annotated
    cases hannotated with
    | negation _ _ hu' hload hi' =>
      obtain rfl := Option.some.inj (hu.symm.trans hu')
      exact ⟨_, hi'.type, hattainable.loads hload⟩
    | address _ _ hu' ht hi' =>
      obtain rfl := Option.some.inj (hu.symm.trans hu')
      exact ⟨_, hi'.type, .reference ht hattainable⟩

private theorem safe_binary {info : Info} {op : BinaryOp} {lhs rhs : Expr} (hlhs : SafeExpr L functions uses lhs)
    (hrhs : SafeExpr L functions uses rhs) : SafeExpr L functions uses (.binary info op lhs rhs) := by
  refine safe_of_walked fun c fr st e' st' hv hopen huntyped hrun hstop hwalked hb => ?_
  cases hwalked with
  | binary hrun₁ hrun₂ hi =>
    have hstop₂ := conclude_opened hi hstop
    have hstop₁ := (steady_expr _).opened hrun₂ hstop₂
    have hl₁ : st.Later _ := ⟨(advances_expr _ c fr).of_run hrun₁, hv.grounded⟩
    have hl₂ := hl₁.next ((advances_expr _ c fr).of_run hrun₂)
    have hl₃ := hl₂.next ((advances_conclude grounds_binary).of_run hi)
    have hparts := (hlhs (hv.step (.left hopen huntyped) hv.grounded hv.clean) hrun₁ hstop₁).seq hl₂
      fun h => hrhs (hv.step (.right hopen huntyped hrun₁) hl₁.reached h.2) hrun₂ hstop₂
    rw [Expr.paths]
    refine hv.node hrun hstop (by simp [Expr.declared]) hparts hl₃ fun h => ?_
    obtain ⟨u, hu, hattainable⟩ := h.1.stay hl₃.types
    obtain ⟨_, -, hannotated⟩ := hb.annotated
    cases hannotated with
    | binary _ _ _ hu' _ hright _ hi' =>
      obtain rfl := Option.some.inj (hu.symm.trans hu')
      refine ⟨_, hi'.type, ?_⟩
      split
      · exact hb.sound.attainable (by decide) (by decide)
      · exact hattainable.loads hright

private theorem safe_assignment {info : Info} {target source : Expr} (htarget : SafeExpr L functions uses target)
    (hsource : SafeExpr L functions uses source) : SafeExpr L functions uses (.assignment info target source) := by
  refine safe_of_walked fun c fr st e' st' hv hopen huntyped hrun hstop hwalked hb => ?_
  cases hwalked with
  | assignment hrun₁ hrun₂ hi =>
    have hstop₂ := conclude_opened hi hstop
    have hstop₁ := (steady_expr _).opened hrun₂ hstop₂
    have hl₁ : st.Later _ := ⟨(advances_expr _ c fr).of_run hrun₁, hv.grounded⟩
    have hl₂ := hl₁.next ((advances_expr _ c fr).of_run hrun₂)
    have hl₃ := hl₂.next ((advances_conclude grounds_assignment).of_run hi)
    have hparts := (htarget (hv.step (.target hopen huntyped) hv.grounded hv.clean) hrun₁ hstop₁).seq hl₂
      fun h => hsource (hv.step (.source hopen huntyped hrun₁) hl₁.reached h.2) hrun₂ hstop₂
    rw [Expr.paths]
    refine hv.node hrun hstop (by simp [Expr.declared]) hparts hl₃ fun _ => ?_
    obtain ⟨_, -, hannotated⟩ := hb.annotated
    cases hannotated with
    | assignment _ _ _ _ _ _ hi' => exact ⟨_, hi'.type, hb.grounded.void⟩

private theorem safe_structLiteral {info : Info} {name : String} {inits : List (FieldInit Expr)}
    (hinits : SafeFields L functions uses inits) : SafeExpr L functions uses (.structLiteral info name inits) := by
  refine safe_of_walked fun c fr st e' st' hv hopen huntyped hrun hstop hwalked hb => ?_
  cases hwalked with
  | structLiteral hstruct hrun₂ hi =>
    have hstop₂ := conclude_opened hi hstop
    have hl₁ : st.Later _ := ⟨(advances_attempt grounds_literalStruct).of_run hstruct, hv.grounded⟩
    have hl₂ := hl₁.next ((advances_fields _ c fr _ _ _).of_run hrun₂)
    have hl₃ := hl₂.next ((advances_conclude grounds_literal).of_run hi)
    obtain ⟨σ, hr, -, -⟩ := hv.sound
    obtain ⟨hname, -⟩ := Listing.lists_cons.mp hr.listed
    obtain ⟨hgo, -⟩ := (walks_iff hstruct).mp
      (walks_learn hr.sound fun _ => keeps_literalStruct hr.sound.store hr.sound.idle hr.frame hname)
    have hclean := hgo.clean hr.sound hr.frame hv.clean (attempt_alive hstruct) (by simp)
    have hparts := hinits (hv.step (.literalFields hopen huntyped hstruct) hl₁.reached hclean) hrun₂ hstop₂
    rw [Expr.paths]
    refine hv.node hrun hstop (by simp [Expr.declared]) hparts hl₃ fun _ => ?_
    obtain ⟨_, -, hannotated⟩ := hb.annotated
    cases hannotated with
    | structLiteral _ hentry _ _ hi' => exact ⟨_, hi'.type, .struct hentry⟩

/-- Behind a binding whose initial value is completed, a frame stays clean: the variable has the type of that value. -/
private theorem Visit.Clear.clean_let {info : Info} {binding : Holder Variable}
    {declared : Option TypeExpr} {init : Expr}
    (hv : Visit.Clear L functions uses ⟨c, fr, .expr (.letBinding info binding declared init), st⟩)
    (hrun : (Check.expr c fr (.letBinding info binding declared init)).run st = (e', st')) (hstop : st'.stop = none)
    (hnew : ∀ v, st'.store.Finds fr v → v.bare ∈ (Expr.letBinding info binding declared init).declared →
      st'.store.Sure v) :
    st'.store.Clean fr := by
  obtain ⟨σ, hr, ⟨b, hf⟩, -⟩ := hv.sound
  obtain ⟨hgo, -⟩ := (walks_iff hrun).mp (checks_expr _ hf c fr σ st hr)
  exact hv.clean.declare hr.sound.store.frames hgo.moves.sound.frames hr.frame hgo.grows hgo.moves.leaves
    (hgo.adds hstop) hnew

/-- The variable of a binding keeps its name. -/
private theorem letRule_name {v v₀ : Variable} {declared : Option TypeExpr} {init : Expr} {s s' : Store}
    (h : (letRule fr (.owned v₀) declared init).Yields s v s') : v.name = v₀.name := by
  unfold letRule at h
  obtain ⟨w, _, hget, h⟩ := yields_bind.mp h
  obtain ⟨heq, rfl⟩ := yields_lift.mp hget
  cases heq
  cases declared with
  | none =>
    obtain ⟨_, _, -, h⟩ := yields_bind.mp h
    obtain ⟨rfl, -⟩ := yields_pure.mp h
    rfl
  | some t =>
    obtain ⟨_, _, -, h⟩ := yields_bind.mp h
    obtain ⟨_, _, -, h⟩ := yields_bind.mp h
    obtain ⟨rfl, -⟩ := yields_pure.mp h
    rfl

private theorem safe_letBinding {info : Info} {binding : Holder Variable} {declared : Option TypeExpr} {init : Expr}
    (hinit : SafeExpr L functions uses init) : SafeExpr L functions uses (.letBinding info binding declared init) := by
  intro c fr st e' st' hv hrun hstop
  obtain ⟨b, hf⟩ := hv.fresh
  have hb := hv.behind hrun hstop
  have hopen : st.stop = none := (steady_expr _).opened hrun hstop
  cases Expr.walked hf.untyped hrun hstop with
  | @letBinding _ _ _ _ _ _ _ v v' _ _ _ _ hrun₁ hrule hdeclare hi =>
    have hl₁ : st.Later _ := ⟨(advances_expr _ c fr).of_run hrun₁, hv.grounded⟩
    have hl₂ := hl₁.next ((advances_attempt grounds_let).of_run hrule)
    have hl₃ := hl₂.next ((advances_attempt (grounds_declare.bind fun _ => grounds_lift)).of_run hdeclare)
    have hl₄ := (hl₂.trans hl₃).trans (hl₃.next ((advances_conclude grounds_pure).of_run hi))
    have hv₁ := hv.step (.initial hopen hf.untyped) hv.grounded hv.clean
    rw [Expr.paths]
    refine (hinit hv₁ hrun₁ (attempt_gives hrule).opened).node hl₄ fun h => ?_
    obtain ⟨u, hu, hattainable⟩ := h.1.stay hl₄.types
    obtain ⟨_, -, hannotated⟩ := hb.annotated
    cases hannotated with
    | @letBinding _ _ _ _ _ _ t _ hvt _ hfits hfound hi' =>
      refine ⟨⟨_, hi'.type, hb.grounded.void⟩, hv.clean_let hrun hstop fun w hw hbare _ => ?_⟩
      obtain ⟨u', hu', hassignable⟩ := hfits
      obtain rfl := Option.some.inj (hu.symm.trans hu')
      have ht : st'.store.Attainable t := hattainable.assignable (hattainable.ne_never hb.sound.types) hassignable
      -- the variable of the binding is the one that is found under its name
      have hname : w.name = v'.name := by
        cases hf with
        | letBinding =>
          obtain ⟨_, _, -, htake⟩ := yields_bind.mp (attempt_gives hdeclare).yields
          obtain ⟨htake, -⟩ := yields_lift.mp htake
          cases htake
          have hbare : w.bare = _ := List.mem_singleton.mp hbare
          rw [letRule_name (attempt_gives hrule).yields, ← hbare]
          rfl
      obtain ⟨f, hf', hfind⟩ := hw
      obtain ⟨f', hf'', hfind'⟩ := hfound
      rw [hf'] at hf''
      cases hf''
      rw [hname, hfind'] at hfind
      cases hfind
      exact ⟨t, hvt, ht⟩

private theorem safe_blockExpr {blk : Block Expr} (hblock : SafeBlock L functions uses blk) :
    SafeExpr L functions uses (.block blk) := by
  refine safe_of_walked fun c fr st e' st' hv hopen huntyped _ hstop hwalked _ => ?_
  cases hwalked with
  | block hrun₁ =>
    rw [Expr.paths]
    exact hblock (hv.step (.block hopen huntyped) hv.grounded hv.clean) hrun₁ hstop

/-- Behind a block a frame stays clean. -/
private theorem Visit.Clear.clean_block {b b' : Block Expr} (hv : Visit.Clear L functions uses ⟨c, fr, .block b, st⟩)
    (hrun : (Check.block c fr b).run st = (b', st')) (hstop : st'.stop = none) : st'.store.Clean fr := by
  obtain ⟨σ, hr, hf, -⟩ := hv.sound
  obtain ⟨hgo, -⟩ := (walks_iff hrun).mp (checks_blockOf b hf c fr σ st hr)
  exact hgo.clean hr.sound hr.frame hv.clean hstop (by simp)

/-- What fits a type and can be attained shows that the type can be attained. -/
private theorem Store.Fits.attained {s : Store} {t : TypeId} {n n' : Expr} (hs : s.Sound L) (hfits : s.Fits n.info t)
    (hn : n.Attained s) (ht : n'.info.type = some t) : n'.Attained s := by
  obtain ⟨u, hu, hassignable⟩ := hfits
  obtain ⟨u', hu', hattainable⟩ := hn
  obtain rfl := Option.some.inj (hu.symm.trans hu')
  exact ⟨t, ht, hattainable.assignable (hattainable.ne_never hs.types) hassignable⟩

private theorem safe_ifElse {info : Info} {cond : Expr} {thenBlock : Block Expr} {other : Option Expr}
    (hcond : SafeExpr L functions uses cond) (hthen : SafeBlock L functions uses thenBlock)
    (hother : SafeOption L functions uses other) :
    SafeExpr L functions uses (.ifElse info cond thenBlock other) := by
  refine safe_of_walked fun c fr st e' st' hv hopen huntyped hrun hstop hwalked hb => ?_
  cases hwalked with
  | @ifElse _ i _ cond' _ then' _ other' st₁ st₂ st₃ st₄ _ hrun₁ hbool hrun₃ hrun₄ hi =>
    have hstop₄ := conclude_opened hi hstop
    have hstop₃ := (steady_option _).opened hrun₄ hstop₄
    have hstop₂ := (steady_block _).opened hrun₃ hstop₃
    have hgives := demand_inv hbool hstop₂
    have hl₁ : st.Later st₁ := ⟨(advances_expr _ c fr).of_run hrun₁, hv.grounded⟩
    have hl₂ : st₁.Later st₂ := hl₁.next ((advances_demand grounds_expectType).of_run hbool)
    have hl₃ : st₂.Later st₃ := hl₂.next ((advances_block _ c fr).of_run hrun₃)
    have hl₄ : st₃.Later st₄ := hl₃.next ((advances_option _ c fr).of_run hrun₄)
    have hl₅ : st₄.Later st' := hl₄.next ((advances_conclude grounds_if).of_run hi)
    rw [Expr.paths]
    obtain ⟨_, -, hannotated⟩ := hb.annotated
    cases hannotated with
    | ifElse _ _ _ _ hfirst hsecond hvoid hi' =>
      have hcond' := hcond (hv.step (.ifCondition hopen huntyped) hv.grounded hv.clean) hrun₁ hgives.opened
      refine hv.node hrun hstop (by simp [Expr.declared])
        (hcond'.seq (hl₂.trans (hl₃.trans hl₄)) (D := (Expr.ifElse i cond' then' other').Attained st'.store)
          fun h => ?_) hl₅ id
      have hclean₂ : st₂.store.Clean fr := by
        rw [hgives.store_eq reads_expectType]
        exact h.2
      have hv₂ := hv.step (.thenBlock hopen huntyped hrun₁ hbool) hl₂.reached hclean₂
      have hv₃ := hv.step (.elseBranch hopen huntyped hrun₁ hbool hrun₃) hl₃.reached (hv₂.clean_block hrun₃ hstop₃)
      refine .either (((hthen hv₂ hrun₃ hstop₃).grow hl₄).imp fun hD => ?_) ((hother hv₃ hrun₄ hstop₄).imp fun hD => ?_)
      · exact Store.Fits.attained (n := .block then') hb.sound hfirst (hD.1.stay (hl₄.trans hl₅).types) hi'.type
      · cases other' with
        | none => exact ⟨_, hi'.type, hvoid rfl ▸ hb.grounded.void⟩
        | some e => exact (hsecond e rfl).attained hb.sound ((hD e rfl).stay hl₅.types) hi'.type

/-- What a rule of a loop says is the type that it is given. -/
private theorem voidBlockRule_type {info j : Info} {body : Block Expr} {t : TypeId} {s s' : Store}
    (h : (voidBlockRule info body t).Yields s j s') : j.type = some t := by
  unfold voidBlockRule at h
  obtain ⟨_, _, -, h⟩ := yields_bind.mp h
  obtain ⟨rfl, -⟩ := yields_pure.mp h
  rfl

theorem grounds_voidBlock {info : Info} {body : Block Expr} {t : TypeId} : (voidBlockRule info body t).Grounds :=
  grounds_expectType.bind fun _ => grounds_pure

private theorem safe_whileLoop {info : Info} {cond : Expr} {body : Block Expr} (hcond : SafeExpr L functions uses cond)
    (hbody : SafeBlock L functions uses body) : SafeExpr L functions uses (.whileLoop info cond body) := by
  refine safe_of_walked fun c fr st e' st' hv hopen huntyped hrun hstop hwalked hb => ?_
  cases hwalked with
  | @whileLoop _ i _ cond' _ body' st₁ st₂ st₃ _ hrun₁ hbool hrun₃ hi =>
    have hstop₃ : (exitLoop.run st₃).2.stop = none := conclude_opened hi hstop
    have hstop₂ : (enterLoop.run st₂).2.stop = none := (steady_block _).opened hrun₃ (show st₃.stop = none from hstop₃)
    have hgives := demand_inv hbool hstop₂
    have hl₁ : st.Later st₁ := ⟨(advances_expr _ c fr).of_run hrun₁, hv.grounded⟩
    have hl₂ : st₁.Later st₂ := hl₁.next ((advances_demand grounds_expectType).of_run hbool)
    have hl₃ : st₂.Later (exitLoop.run st₃).2 := hl₂.next (drop_loops ((advances_block _ c fr).of_run hrun₃))
    have hl₄ := hl₃.next ((advances_conclude grounds_voidBlock).of_run hi)
    have hcond' := hcond (hv.step (.whileCondition hopen huntyped) hv.grounded hv.clean) hrun₁ hgives.opened
    rw [Expr.paths]
    have hparts : (Paths.rounds cond'.paths (Expr.pathsBlock body') True).Safe c (exitLoop.run st₃).2 True := by
      refine hcond'.rounds (hl₂.trans hl₃) (fun h => ?_) (Store.TypesStay.refl st₃.store) (fun _ _ => trivial)
        fun _ _ => trivial
      have hclean₂ : st₂.store.Clean fr := by
        rw [hgives.store_eq reads_expectType]
        exact h.2
      exact (hbody (hv.step (.whileBody hopen huntyped hrun₁ hbool) hl₂.reached hclean₂) hrun₃ hstop₃).imp
        fun _ => trivial
    refine hv.node hrun hstop (by simp [Expr.declared]) hparts hl₄ fun _ => ?_
    obtain ⟨_, -, hannotated⟩ := hb.annotated
    cases hannotated with
    | whileLoop _ _ _ _ hi' => exact ⟨_, hi'.type, hb.grounded.void⟩

/-- A loop without a condition is completed only by a jump out of it, and then it has no value. -/
private theorem safe_endlessLoop {info : Info} {body : Block Expr} (hbody : SafeBlock L functions uses body) :
    SafeExpr L functions uses (.endlessLoop info body) := by
  refine safe_of_walked fun c fr st e' st' hv hopen huntyped hrun hstop hwalked hb => ?_
  cases hwalked with
  | @endlessLoop _ i _ body' st₁ _ hrun₁ hi =>
    have hstop₁ : (exitLoop.run st₁).2.stop = none := conclude_opened hi hstop
    have hl₁ : st.Later (exitLoop.run st₁).2 := ⟨drop_loops ((advances_block _ c fr).of_run hrun₁), hv.grounded⟩
    have hl₂ := hl₁.next ((advances_conclude grounds_voidBlock).of_run hi)
    have hbody' := hbody (hv.step (.endlessBody hopen huntyped) hv.grounded hv.clean) hrun₁ hstop₁
    obtain ⟨j, r, hgives, rfl⟩ := conclude_inv hi hstop
    have htype := voidBlockRule_type hgives.yields
    rw [Expr.paths]
    refine hv.node hrun hstop (by simp [Expr.declared]) (Paths.Safe.rounds (D := st₁.loops.head? = some true)
      (Paths.safe_nothing (D := True) trivial) hl₁ (fun _ => hbody'.imp fun _ => trivial) (.refl _)
      (fun h => h.elim) fun h _ => h) hl₂ fun hleft => ?_
    have hexit : (exitLoop.run st₁).1 = true := by
      change st₁.loops.head?.getD false = true
      rw [hleft]
      rfl
    rw [hexit] at htype
    exact ⟨_, htype, hb.grounded.void⟩

private theorem safe_leaveLoop {info : Info} : SafeExpr L functions uses (.leaveLoop info) := by
  refine safe_of_walked fun c fr st e' st' _ _ _ _ hstop hwalked hb => ?_
  cases hwalked with
  | leaveLoop hi =>
    obtain ⟨j, r, hgives, rfl⟩ := conclude_inv hi hstop
    rw [Expr.paths]
    refine (Paths.safe_nothing (D := True) trivial).jump (.refl hb.grounded) fun _ => ?_
    refine ⟨by simp, nofun, fun _ => ?_, nofun, nofun⟩
    rw [hgives.loops]
    change (st.loops.modifyHead fun _ => true).head? = some true
    cases hloops : st.loops with
    | nil =>
      have hyields := hgives.yields
      rw [hloops] at hyields
      exact absurd hyields yields_refuse
    | cons left rest => rfl

private theorem safe_nextRound {info : Info} : SafeExpr L functions uses (.nextRound info) := by
  refine safe_of_walked fun c fr st e' st' _ _ _ _ hstop hwalked hb => ?_
  cases hwalked with
  | nextRound hi =>
    obtain ⟨j, r, hgives, rfl⟩ := conclude_inv hi hstop
    rw [Expr.paths]
    refine (Paths.safe_nothing (D := True) trivial).jump (.refl hb.grounded) fun _ => ?_
    refine ⟨by simp, nofun, nofun, fun _ hloops => ?_, nofun⟩
    have hyields := hgives.yields
    rw [← hgives.loops, hloops] at hyields
    exact absurd hyields yields_refuse

private theorem safe_leaveFunction {info : Info} {result : Option Expr} (hresult : SafeOption L functions uses result) :
    SafeExpr L functions uses (.leaveFunction info result) := by
  refine safe_of_walked fun c fr st e' st' hv hopen huntyped _ hstop hwalked hb => ?_
  cases hwalked with
  | leaveFunction hreturns hrun₁ hi =>
    have hl₁ : st.Later _ := ⟨(advances_option _ c fr).of_run hrun₁, hv.grounded⟩
    have hl₂ := hl₁.next ((advances_conclude grounds_return).of_run hi)
    have hv₁ := hv.step (.result hopen huntyped (by rw [hreturns]; rfl)) hv.grounded hv.clean
    rw [Expr.paths]
    refine (hresult hv₁ hrun₁ (conclude_opened hi hstop)).jump hl₂ fun _ => ⟨by simp, nofun, nofun, nofun, ?_⟩
    rintro r ⟨⟩
    obtain ⟨_, hret, hannotated⟩ := hb.annotated
    cases hannotated with
    | leaveFunction _ hfits hvoid => exact ⟨_, hret.symm, hfits, hvoid⟩

private theorem safe_function {info : Info} {header : Header} {body : Block Expr} :
    SafeExpr L functions uses (.function info header body) := by
  refine safe_of_walked fun c fr st e' st' hv _ _ hrun hstop hwalked hb => ?_
  cases hwalked with
  | function hnested henter hparams hbody hi =>
    obtain ⟨_, -, hannotated⟩ := hb.annotated
    cases hannotated with
    | function hsig _ _ _ hi' =>
      rw [Expr.paths]
      refine hv.leaf hrun hstop (fun v hv => ?_) ⟨_, hi'.type, .function hsig⟩
      rw [List.mem_singleton.mp hv]
      rfl

private theorem safe_none : SafeOption L functions uses none := by
  intro c fr st e' st' hv hrun hstop
  rw [Check.option] at hrun
  cases hrun
  rw [Expr.pathsOption]
  exact Paths.safe_nothing (by simp)

private theorem safe_some {e : Expr} (he : SafeExpr L functions uses e) : SafeOption L functions uses (some e) := by
  intro c fr st e' st' hv hrun hstop
  rw [Check.option] at hrun
  obtain ⟨x, _, hrun, hreturn⟩ := run_bind_inv hrun
  cases hreturn
  rw [Expr.pathsOption]
  exact (he (hv.step .present hv.grounded hv.clean) hrun hstop).imp fun h => by simpa using h.1

private theorem safe_nil : SafeAll L functions uses [] := by
  intro c fr st es' st' hv hrun hstop
  rw [Check.exprs] at hrun
  cases hrun
  rw [Expr.pathsAll]
  exact Paths.safe_nothing ⟨by simp, hv.clean⟩

private theorem safe_cons {e : Expr} {rest : List Expr} (he : SafeExpr L functions uses e)
    (hrest : SafeAll L functions uses rest) :
    SafeAll L functions uses (e :: rest) := by
  intro c fr st es' st' hv hrun hstop
  rw [Check.exprs] at hrun
  obtain ⟨x, st₁, hrun₁, hrun⟩ := run_bind_inv hrun
  obtain ⟨xs, _, hrun₂, hreturn⟩ := run_bind_inv hrun
  cases hreturn
  have hstop₁ := (steady_exprs rest).opened hrun₂ hstop
  have hl₁ : st.Later st₁ := ⟨(advances_expr e c fr).of_run hrun₁, hv.grounded⟩
  have hl₂ := hl₁.next ((advances_exprs rest c fr).of_run hrun₂)
  rw [Expr.pathsAll]
  refine (he (hv.step .head hv.grounded hv.clean) hrun₁ hstop₁).seq hl₂ fun h => ?_
  refine (hrest (hv.step (.tail hrun₁) hl₁.reached h.2) hrun₂ hstop).imp fun hall => ⟨?_, hall.2⟩
  exact List.forall_mem_cons.mpr ⟨h.1.stay hl₂.types, hall.1⟩

private theorem safe_noFields : SafeFields L functions uses [] := by
  intro c fr st owner declared seen inits' st' hv hrun hstop
  rw [Check.fields] at hrun
  cases hrun
  rw [Expr.pathsFields]
  exact Paths.safe_nothing trivial

private theorem safe_field {name : String} {span : Span} {value : Expr} {rest : List (FieldInit Expr)}
    (hvalue : SafeExpr L functions uses value) (hrest : SafeFields L functions uses rest) :
    SafeFields L functions uses (⟨name, span, value⟩ :: rest) := by
  intro c fr st owner declared seen inits' st' hv hrun hstop
  rw [Check.fields] at hrun
  obtain ⟨type, st₁, hfield, hrun⟩ := attempt_inv hrun hstop steady_pure
  obtain ⟨value', st₂, hrun₂, hrun⟩ := run_bind_inv hrun
  obtain ⟨_, st₃, hfits, hrun⟩ := run_bind_inv hrun
  obtain ⟨rest', _, hrun₃, hreturn⟩ := run_bind_inv hrun
  cases hreturn
  have hstop₃ := (steady_fields rest).opened hrun₃ hstop
  have hgives := demand_inv hfits hstop₃
  have hl₁ : st.Later st₁ := ⟨(advances_attempt reads_field.grounds).of_run hfield, hv.grounded⟩
  have hl₂ : st₁.Later st₂ := hl₁.next ((advances_expr value c fr).of_run hrun₂)
  have hl₃ : st₂.Later st₃ := hl₂.next ((advances_demand grounds_expectType).of_run hfits)
  have hl₄ := hl₃.next ((advances_fields rest c fr _ _ _).of_run hrun₃)
  have hclean₁ : st₁.store.Clean fr := by
    rw [(attempt_gives hfield).store_eq reads_field]
    exact hv.clean
  rw [Expr.pathsFields]
  refine (hvalue (hv.step (.fieldValue hfield) hl₁.reached hclean₁) hrun₂ hgives.opened).seq (hl₃.trans hl₄) fun h => ?_
  have hclean₃ : st₃.store.Clean fr := by
    rw [hgives.store_eq reads_expectType]
    exact h.2
  exact hrest (hv.step (.laterFields hfield hrun₂ hfits) hl₃.reached hclean₃) hrun₃ hstop

private theorem yields_nest {s s' : Store} {f : Frame} {inner : FrameId} (hf : s.frame? fr = some f)
    (h : (Action.nest fr).Yields s inner s') : inner = s.frames.size ∧ s' = s.addFrame (fr :: f.outer) := by
  unfold Action.nest at h
  obtain ⟨_, _, hget, h⟩ := yields_bind.mp h
  obtain ⟨rfl, rfl⟩ := yields_get.mp hget
  obtain ⟨⟨id, frames⟩, _, hnest, h⟩ := yields_bind.mp h
  obtain ⟨hnest, rfl⟩ := yields_lift.mp hnest
  simp only [Frames.nest, show s.frames.get fr = .ok f from itemAt_eq_ok_iff.mpr hf, ok_bind] at hnest
  cases hnest
  cases h
  exact ⟨rfl, rfl⟩

/-- A block has the type of its last expression; without one it has no value, unless a statement is never completed. -/
private theorem blockRule_type {info j : Info} {stmts : List Expr} {tail : Option Expr} {s s' : Store}
    (h : (blockRule info stmts tail).Yields s j s') :
    (∃ e, tail = some e ∧ j.type = e.info.type) ∨
      tail = none ∧
        j.type = some (if stmts.any (fun e => e.type? = some TypeId.never) then TypeId.never else TypeId.void) := by
  cases tail with
  | some e =>
    obtain ⟨t, _, hyields, h⟩ := yields_bind.mp h
    obtain ⟨ht, -⟩ := yields_typeOf.mp hyields
    obtain ⟨rfl, -⟩ := yields_pure.mp h
    exact .inl ⟨e, rfl, ht.symm⟩
  | none =>
    obtain ⟨rfl, -⟩ := yields_pure.mp h
    exact .inr ⟨rfl, rfl⟩

/-- A block without a last expression is completed only if all its statements are; then it has no value. -/
private theorem safe_block {info : Info} {entered : Option FrameId} {stmts : List Expr} {tail : Option Expr}
    (hstmts : SafeAll L functions uses stmts) (htail : SafeOption L functions uses tail) :
    SafeBlock L functions uses ⟨info, entered, stmts, tail⟩ := by
  intro c fr st b' st' hv hrun hstop
  obtain ⟨σ, hr, hf, -⟩ := hv.sound
  have hopen : st.stop = none := (steady_block _).opened hrun hstop
  have hclean := hv.clean_block hrun hstop
  have hs : st'.store.Sound L := ((walks_iff hrun).mp (checks_blockOf _ hf c fr σ st hr)).1.moves.sound
  cases Block.walked (by exact hf.untyped) hrun hstop with
  | @block _ i _ inner _ stmts' _ tail' st₁ st₂ st₃ _ hnest hrun₂ hrun₃ hi =>
    have hstop₃ := conclude_opened hi hstop
    have hstop₂ := (steady_option _).opened hrun₃ hstop₃
    have hl₁ : st.Later st₁ := ⟨(advances_attempt grounds_nest).of_run hnest, hv.grounded⟩
    have hl₂ : st₁.Later st₂ := hl₁.next ((advances_exprs _ c inner).of_run hrun₂)
    have hl₃ : st₂.Later st₃ := hl₂.next ((advances_option _ c inner).of_run hrun₃)
    have hl₄ := hl₃.next ((advances_conclude grounds_block).of_run hi)
    have hclean₁ : st₁.store.Clean inner := by
      obtain ⟨f, -, hframe⟩ := Store.get_frame hr.frame
      obtain ⟨hinner, hstore⟩ := yields_nest hframe (attempt_gives hnest).yields
      rw [hinner, hstore]
      exact hv.clean.nest hr.sound.store.frames hframe
    have hparts : (Paths.seq (Expr.pathsAll stmts') (Expr.pathsOption tail')).Safe c st₃
        ((∀ e ∈ stmts', e.Attained st₃.store) ∧ ∀ e ∈ tail', e.Attained st₃.store) := by
      refine (hstmts (hv.step (.statements hopen hf.untyped hnest) hl₁.reached hclean₁) hrun₂ hstop₂).seq
        hl₃ fun h => ?_
      refine (htail (hv.step (.blockTail hopen hf.untyped hnest hrun₂) hl₂.reached h.2) hrun₃ hstop₃).imp fun hD => ?_
      exact ⟨fun e he => (h.1 e he).stay hl₃.types, hD⟩
    rw [Expr.pathsBlock]
    refine hparts.node hl₄ fun h => ⟨?_, hclean⟩
    obtain ⟨j, r, hgives, rfl⟩ := conclude_inv hi hstop
    rcases blockRule_type hgives.yields with ⟨e, rfl, htype⟩ | ⟨-, htype⟩
    · obtain ⟨t, ht, hattainable⟩ := (h.2 e rfl).stay hl₄.types
      exact ⟨t, htype.trans ht, hattainable⟩
    · refine ⟨_, htype, ?_⟩
      rw [if_neg]
      · exact hl₄.reached.void
      · intro hany
        obtain ⟨e, he, hnever⟩ := List.any_eq_true.mp hany
        obtain ⟨t, ht, hattainable⟩ := (h.1 e he).stay hl₄.types
        obtain rfl := Option.some.inj (ht.symm.trans (of_decide_eq_true hnever))
        exact hattainable.ne_never hs.types rfl

mutual

/-- The paths through an expression are safe. -/
private theorem safe_expr (e : Expr) : SafeExpr L functions uses e := by
  match e with
  | .integer _ _ => exact safe_integer
  | .float _ _ => exact safe_float
  | .boolean _ _ => exact safe_boolean
  | .identifier _ _ _ => exact safe_identifier
  | .member _ base _ _ _ => exact safe_member (safe_expr base)
  | .call _ callee args => exact safe_call (safe_expr callee) (safe_exprs args)
  | .builtinCall _ _ args => exact safe_builtinCall (safe_exprs args)
  | .unary _ _ operand => exact safe_unary (safe_expr operand)
  | .binary _ _ lhs rhs => exact safe_binary (safe_expr lhs) (safe_expr rhs)
  | .assignment _ target source => exact safe_assignment (safe_expr target) (safe_expr source)
  | .structLiteral _ _ inits => exact safe_structLiteral (safe_fields inits)
  | .letBinding _ _ _ init => exact safe_letBinding (safe_expr init)
  | .block b => exact safe_blockExpr (safe_blockOf b)
  | .ifElse _ cond thenBlock other => exact safe_ifElse (safe_expr cond) (safe_blockOf thenBlock) (safe_option other)
  | .whileLoop _ cond body => exact safe_whileLoop (safe_expr cond) (safe_blockOf body)
  | .endlessLoop _ body => exact safe_endlessLoop (safe_blockOf body)
  | .leaveLoop _ => exact safe_leaveLoop
  | .nextRound _ => exact safe_nextRound
  | .leaveFunction _ result => exact safe_leaveFunction (safe_option result)
  | .function _ _ _ => exact safe_function

private theorem safe_option (e : Option Expr) : SafeOption L functions uses e := by
  match e with
  | none => exact safe_none
  | some e => exact safe_some (safe_expr e)

private theorem safe_exprs (es : List Expr) : SafeAll L functions uses es := by
  match es with
  | [] => exact safe_nil
  | e :: rest => exact safe_cons (safe_expr e) (safe_exprs rest)

private theorem safe_fields (inits : List (FieldInit Expr)) : SafeFields L functions uses inits := by
  match inits with
  | [] => exact safe_noFields
  | ⟨_, _, value⟩ :: rest => exact safe_field (safe_expr value) (safe_fields rest)

theorem safe_blockOf (b : Block Expr) : SafeBlock L functions uses b := by
  match b with
  | ⟨_, _, stmts, tail⟩ => exact safe_block (safe_exprs stmts) (safe_option tail)

end

end

end RainCheck

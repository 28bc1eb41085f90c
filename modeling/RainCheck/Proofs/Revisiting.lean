import RainCheck.Proofs.Passing

/-!
# Walks through trees that carry annotations

A tree is checked again when an earlier check of it was refused: a part of its nodes carries types, written into another
store than the one it is checked with now.  Such a walk raises no fault, whatever has been declared meanwhile.
* (store) Between two steps the store is `Steady`: besides what always holds, nothing is known of a function that is not
  registered.
* (tree) Every node is `Upright`: it has no type, or a type that can be used and the shape that comes with it.

A walk keeps both (`Check.steps_expr`), so it can be followed by any other.
-/

namespace RainCheck

/-! ### Steady stores -/

/-- A sound store in which nothing is being resolved, and nothing is known of functions that are not registered. -/
structure Store.Steady (L : Listing) (s : Store) : Prop where
  sound : s.Sound L
  idle : s.Idle
  tidy : ∀ key, (s.function key).variableType = none → s.function key = {}

/-- A store in which more is known and the frames of the module are the same. -/
structure Store.StepsTo (s s' : Store) : Prop extends s.GrowsTo s' where
  global : ∀ g < 3, s'.frame? g = s.frame? g

namespace Store

variable {L : Listing} {s s' s'' : Store}

private theorem StepsTo.refl (s : Store) : s.StepsTo s := ⟨.refl s, fun _ _ => rfl⟩

private theorem StepsTo.trans (h : s.StepsTo s') (h' : s'.StepsTo s'') : s.StepsTo s'' :=
  ⟨h.toGrowsTo.trans h'.toGrowsTo, fun g hg => (h'.global g hg).trans (h.global g hg)⟩

private theorem Learns.stepsTo (h : s.Learns s') : s.StepsTo s' :=
  ⟨h.toGrowsTo, fun g _ => by unfold frame?; rw [h.frames_eq]⟩

private theorem Steady.learn (hs : s.Steady L) (hs' : s'.Sound L) (h : s.Learns s') : s'.Steady L where
  sound := hs'
  idle := h.toExtends.idle hs.idle
  tidy key hkey := by
    have hbefore := h.toGrowsTo.unregistered hkey
    rw [h.unregistered key hbefore, hs.tidy key hbefore]

theorem Steady.move {fr : FrameId} {ms : List Mention} (hs : s.Steady L) (hmoves : s.Moves L fr ms s') :
    s'.Steady L where
  sound := hmoves.sound
  idle := hmoves.toExtends.idle hs.idle
  tidy key hkey := by rw [hmoves.untouched key hkey, hs.tidy key (hmoves.toExtends.toGrowsTo.unregistered hkey)]

/-- All frames before one that gets variables stay as they are. -/
private theorem Leaves.global {fr : FrameId} (h : s.Leaves s' fr) (hs : s.FramesSound L) (hfr : 3 ≤ fr) (g : FrameId)
    (hg : g < 3) : s'.frame? g = s.frame? g := by
  obtain ⟨f, -, hf⟩ := get_frame (Nat.lt_of_lt_of_le hg hs.three_le)
  rw [h g f (Nat.ne_of_lt (Nat.lt_of_lt_of_le hg hfr)) hf, hf]

end Store

namespace Action

variable {α β : Type} {L : Listing} {s : Store} {fr : FrameId} {P : α → Store → Prop} {Q : β → Store → Prop}
  {R : Diagnostic → Prop}

/-- An action leaves the store steady, whether it gives a result or refuses the program; it raises no fault. -/
def Steps (L : Listing) (s : Store) (a : Action α) (P : α → Store → Prop) : Prop :=
  a.Ends s (fun x s' => s'.Steady L ∧ s.StepsTo s' ∧ P x s') (fun _ s' => s'.Steady L ∧ s.StepsTo s')

theorem Steps.bind {a : Action α} {f : α → Action β} (h : Steps L s a P)
    (hf : ∀ x s', s'.Steady L → s.StepsTo s' → P x s' → Steps L s' (f x) Q) : Steps L s (a >>= f) Q := by
  refine Ends.bind h ?_
  rintro x s' ⟨hs', hsteps, hP⟩
  refine (hf x s' hs' hsteps hP).mono ?_ ?_
  · rintro y s'' ⟨hs'', hsteps', hQ⟩
    exact ⟨hs'', hsteps.trans hsteps', hQ⟩
  · rintro d s'' ⟨hs'', hsteps'⟩
    exact ⟨hs'', hsteps.trans hsteps'⟩

theorem Steps.mono {a : Action α} {P' : α → Store → Prop} (h : Steps L s a P) (hP : ∀ x s', P x s' → P' x s') :
    Steps L s a P' :=
  Ends.mono h (fun x s' h => ⟨h.1, h.2.1, hP x s' h.2.2⟩) fun _ _ h => h

theorem steps_pure {x : α} (hs : s.Steady L) (h : P x s) : Steps L s (pure x) P := ⟨hs, .refl s, h⟩

theorem Keeps.steps {a : Action α} (hs : s.Steady L) (h : Keeps L s a P R) : Steps L s a P := by
  refine Ends.mono h ?_ ?_
  · rintro x s' ⟨hs', hlearns, hP⟩
    exact ⟨hs.learn hs' hlearns, hlearns.stepsTo, hP⟩
  · rintro d s' ⟨hs', hlearns, -⟩
    exact ⟨hs.learn hs' hlearns, hlearns.stepsTo⟩

/-- An action that declares variables, but registers no function. -/
private theorem Moves.steps {a : Action α} {vs : List Variable} (hs : s.Steady L) (hfr : 3 ≤ fr)
    (h : Moves L fr [] vs s a P R) :
    Steps L s a P := by
  have hsteady : ∀ {s' : Store}, s.Moves L fr [] s' → s'.Steady L ∧ s.StepsTo s' := fun hmoves =>
    ⟨hs.move hmoves, hmoves.toExtends.toGrowsTo, hmoves.leaves.global hs.sound.frames hfr⟩
  refine Ends.mono h ?_ ?_
  · rintro x s' ⟨hmoves, -, hP⟩
    exact ⟨(hsteady hmoves).1, (hsteady hmoves).2, hP⟩
  · rintro d s' ⟨hmoves, -⟩
    exact hsteady hmoves

theorem steps_declare {v : Variable} (hs : s.Steady L) (hfr : 3 ≤ fr) (hlt : fr < s.frames.size) (hv : s.Declares L v) :
    Steps L s (declare fr v) fun _ _ => True :=
  Moves.steps hs hfr ((moves_declare hs.sound hlt hv).mono (fun _ _ h => ⟨h.1, h.2.1, trivial⟩) fun _ _ h => h)

theorem steps_nest (hs : s.Steady L) (hfr : fr < s.frames.size) :
    Steps L s (nest fr) fun inner s' => 3 ≤ inner ∧ inner < s'.frames.size := by
  obtain ⟨f, -, hf⟩ := Store.get_frame hfr
  have hframe : (s.addFrame (fr :: f.outer)).frame? s.frames.size = some { outer := fr :: f.outer } := by
    rw [Store.frame?_addFrame, if_pos rfl]
  have hmoves :
      Moves L s.frames.size [] [] s (nest fr) (fun inner s' => 3 ≤ inner ∧ inner < s'.frames.size) L.Allows := by
    unfold Moves
    rw [ends_nest hf]
    exact ⟨.addFrame hs.sound hf, Store.adds_addFrame, hs.sound.frames.three_le, Store.frame_lt_size hframe⟩
  exact hmoves.steps hs hs.sound.frames.three_le

/-! ### Functions -/

end Action

mutual

/-- Where every span may be that of the name of a type, all types are listed. -/
private theorem TypeExpr.lists {L : Listing} (hL : ∀ span, L.isOtherName span) (t : TypeExpr) : L.Lists t.mentions := by
  cases t with
  | named span name => exact Listing.lists_cons.mpr ⟨hL span, Listing.lists_nil⟩
  | reference span inner => exact TypeExpr.lists hL inner
  | function span params returns =>
    exact Listing.lists_append.mpr ⟨TypeExpr.lists_all hL params, TypeExpr.lists_option hL returns⟩

private theorem TypeExpr.lists_all {L : Listing} (hL : ∀ span, L.isOtherName span) (ts : List TypeExpr) :
    L.Lists (TypeExpr.mentionsAll ts) := by
  match ts with
  | [] => exact Listing.lists_nil
  | t :: rest => exact Listing.lists_append.mpr ⟨TypeExpr.lists hL t, TypeExpr.lists_all hL rest⟩

theorem TypeExpr.lists_option {L : Listing} (hL : ∀ span, L.isOtherName span) (t : Option TypeExpr) :
    L.Lists (TypeExpr.optionMentions t) := by
  match t with
  | none => exact Listing.lists_nil
  | some t => exact TypeExpr.lists hL t

end

theorem StructDecl.lists {L : Listing} (hL : ∀ span, L.isOtherName span) (d : StructDecl) : L.Lists d.mentions := by
  refine Listing.lists_cons.mpr ⟨trivial, fun m hm => ?_⟩
  obtain ⟨field, -, hm⟩ := List.mem_flatMap.mp hm
  exact TypeExpr.lists hL field.type m hm

/-- A function is listed with its declared types, and its parameters are arguments, typed or not. -/
structure Header.Upright (L : Listing) (h : Header) : Prop where
  prototype : L.prototype h.span = h.prototype
  params : ∀ p ∈ h.params, p.binding.kind = .argument

/-- A function with other parameters of the same declared types. -/
theorem Header.Upright.withParams {L : Listing} {header : Header} {params : List Param} (h : header.Upright L)
    (hparams : ∀ p ∈ params, p.binding.kind = .argument)
    (hdeclared : params.map (·.declared) = header.params.map (·.declared)) :
    Header.Upright L { header with params } where
  prototype := by
    rw [h.prototype]
    simp [Header.prototype, hdeclared]
  params := hparams

theorem Header.Upright.lists {L : Listing} {h : Header} (hh : h.Upright L) (hL : ∀ span, L.isOtherName span) :
    L.Lists h.mentions :=
  Listing.lists_cons.mpr ⟨hh.prototype,
    Listing.lists_append.mpr ⟨TypeExpr.lists_all hL _, TypeExpr.lists_option hL _⟩⟩

namespace Action

variable {L : Listing} {s : Store} {fr : FrameId} {header : Header}

/-- The type of a registered function is resolved, and its parameters get a frame of their own. -/
theorem steps_enterFunction (hL : ∀ span, L.isOtherName span) (hs : s.Steady L) (hfr : fr < s.frames.size)
    (hheader : header.Upright L) (hregistered : (s.function header.span).variableType.isSome = true) :
    Steps L s (enterFunction fr header) fun entry s' => 3 ≤ entry.frame ∧ entry.frame < s'.frames.size ∧
      s'.typeAt? entry.signature = some (.function entry.params entry.returns) ∧
      entry.params.length = header.params.length := by
  obtain ⟨-, hmentions⟩ := Listing.lists_cons.mp (hheader.lists hL)
  unfold enterFunction
  refine ((keeps_signature hs.sound hs.idle hfr hheader.prototype hmentions hregistered).steps hs).bind ?_
  intro sig s₁ hs₁ hsteps hsig
  obtain ⟨params, returns, he, hlen⟩ := hs₁.sound.functions.signature _ sig hsig
  unfold Steps
  rw [ends_bind, ends_fromTypes (Store.get_of_entry he)]
  dsimp only [TypeEntry.function?]
  refine Steps.bind (P := fun inner s' => 3 ≤ inner ∧ inner < s'.frames.size)
    (steps_nest hs₁ (hsteps.toGrowsTo.frame_lt hfr)) fun inner s₂ hs₂ hsteps₂ hinner => ?_
  refine steps_pure hs₂ ⟨hinner.1, hinner.2, hsteps₂.toGrowsTo.same he rfl, ?_⟩
  rw [hlen, hheader.prototype]
  simp [Header.prototype]

/-- A nested function is registered unless it is already. -/
private theorem steps_register (hL : ∀ span, L.isOtherName span) (hs : s.Steady L) (hfr : 3 ≤ fr)
    (hlt : fr < s.frames.size)
    (hexported : header.exported = false) (hheader : header.Upright L) :
    Steps L s (registerFunction fr header) fun _ s' => s'.Declares L header.binding := by
  have hlisted := hheader.lists hL
  cases hregistered : (s.function header.span).variableType.isSome with
  | true =>
    unfold registerFunction Steps
    rw [ends_bind, ends_get, hregistered, if_pos rfl]
    exact ⟨hs, .refl s, hheader.prototype, (Listing.lists_cons.mp hlisted).2, hregistered⟩
  | false =>
    have hnew : s.function header.span = {} := hs.tidy _ (by simpa using hregistered)
    obtain ⟨f, -, hf⟩ := Store.get_frame hlt
    unfold Steps registerFunction
    rw [ends_bind, ends_get, hregistered, hexported]
    simp only [Bool.false_eq_true, if_false]
    rw [ends_bind, ends_declare hf]
    cases hhas : f.has header.binding.name with
    | true => exact ⟨hs, .refl s⟩
    | false =>
      have hrecord : (s.addVariable fr f header.binding).function header.span = {} := hnew
      simp only [Bool.false_eq_true, if_false, ends_bind, ends_updateFunction, ends_pure, hrecord]
      obtain ⟨hmoves, hdeclares⟩ := Store.Moves.register hs.sound hf hhas hlisted hnew
      exact ⟨hs.move hmoves, ⟨hmoves.toExtends.toGrowsTo, hmoves.leaves.global hs.sound.frames hfr⟩, hdeclares⟩

theorem steps_enterNested (hL : ∀ span, L.isOtherName span) (hs : s.Steady L) (hfr : 3 ≤ fr) (hlt : fr < s.frames.size)
    (hexported : header.exported = false) (hheader : header.Upright L) :
    Steps L s (enterNested fr header) fun own s' => own < s'.frames.size ∧
      (s'.function header.span).variableType.isSome = true := by
  refine (steps_register hL hs hfr hlt hexported hheader).bind fun _ s₁ hs₁ _ hdeclares => ?_
  refine (steps_nest hs₁ hs₁.sound.frames.module_lt).bind fun own s₂ hs₂ hsteps₂ hown => ?_
  have hdeclares₂ := hsteps₂.toGrowsTo.declares hdeclares
  refine (steps_declare hs₂ hown.1 hown.2 hdeclares₂).bind fun _ s₃ hs₃ hsteps₃ _ => ?_
  exact steps_pure hs₃ ⟨hsteps₃.toGrowsTo.frame_lt hown.2, (hsteps₃.toGrowsTo.declares hdeclares₂).2.2⟩

end Action

/-! ### Trees -/

/-- What is known about a node: nothing, or a type that can be used. -/
structure Info.Upright (s : Store) (i : Info) : Prop where
  typed : ∀ t, i.type = some t → i.Typed s t
  value : i.type = none → i.value = none

/-- What a node has besides its type, from an earlier walk or none. -/
def Expr.Shaped (L : Listing) (s : Store) : Expr → Prop
  | .identifier i _ binding => ∀ t, i.type = some t → ∃ v, binding = some v ∧ (s.typeOf v).value? = some t
  | .member i base _ _ index => ∀ t, i.type = some t → ∃ u, base.type? = some u ∧ s.HasField u index t
  | .letBinding i binding _ _ => i.type = none → ∃ v, binding = .owned v ∧ v.kind = .bound
  | .function _ header _ => header.exported = false ∧ header.Upright L
  | _ => True

theorem Expr.Shaped.grow {L : Listing} {s s' : Store} {e : Expr} (h : e.Shaped L s) (hg : s.GrowsTo s') :
    e.Shaped L s' := by
  cases e with
  | identifier =>
    intro t ht
    obtain ⟨v, hv, htype⟩ := h t ht
    exact ⟨v, hv, hg.typeOf htype⟩
  | member =>
    intro t ht
    obtain ⟨u, hu, hfield⟩ := h t ht
    exact ⟨u, hu, hg.hasField hfield⟩
  | _ => exact h

structure Expr.Upright (L : Listing) (s : Store) (e : Expr) : Prop where
  info : e.info.Upright s
  shaped : e.Shaped L s

/-- All nodes are upright. -/
def Expr.AllUpright (L : Listing) (s : Store) (ns : List Expr) : Prop := ∀ n ∈ ns, n.Upright L s

/-- A function of the module whose nodes are upright. -/
structure FunctionDecl.Upright (L : Listing) (s : Store) (f : FunctionDecl) : Prop where
  info : f.info.Upright s
  header : f.header.Upright L
  body : Expr.AllUpright L s (Expr.nodesBlock f.body)

namespace Expr

variable {L : Listing} {s s' : Store} {e : Expr} {ns ns' : List Expr}

@[simp] theorem allUpright_nil : AllUpright L s [] := by simp [AllUpright]

@[simp] theorem allUpright_cons : AllUpright L s (e :: ns) ↔ e.Upright L s ∧ AllUpright L s ns := by simp [AllUpright]

@[simp] theorem allUpright_append : AllUpright L s (ns ++ ns') ↔ AllUpright L s ns ∧ AllUpright L s ns' := by
  simp [AllUpright, or_imp, forall_and]

theorem Upright.grow (h : e.Upright L s) (hg : s.GrowsTo s') : e.Upright L s' where
  info := ⟨fun t ht => (h.info.typed t ht).grow hg, h.info.value⟩
  shaped := h.shaped.grow hg

theorem AllUpright.grow (h : AllUpright L s ns) (hg : s.GrowsTo s') : AllUpright L s' ns := fun n hn => (h n hn).grow hg

private theorem AllUpright.typed (h : AllUpright L s e.nodes) (he : e.info.type.isSome = true) :
    ∃ t, e.info.Typed s t := by
  obtain ⟨t, ht⟩ := Option.isSome_iff_exists.mp he
  exact ⟨t, (h e e.self_mem_nodes).info.typed t ht⟩

/-- It is no misuse to ask an expression that has a type for its location. -/
theorem hasLocation_of_allUpright {e : Expr} (h : AllUpright L s e.nodes) (he : e.info.type.isSome = true) :
    ∃ b, e.hasLocation = .ok b := by
  obtain ⟨t, ht⟩ := Option.isSome_iff_exists.mp he
  cases e with
  | identifier i name binding =>
    obtain ⟨v, rfl, -⟩ := (h _ (self_mem_nodes _)).shaped t ht
    exact ⟨_, rfl⟩
  | member i base name span index =>
    rw [Expr.hasLocation]
    split
    · exact ⟨true, rfl⟩
    · rw [nodes, allUpright_cons] at h
      obtain ⟨u, hu, -⟩ := h.1.shaped t ht
      exact hasLocation_of_allUpright h.2 (Option.isSome_iff_exists.mpr ⟨u, hu⟩)
  | _ => exact ⟨false, rfl⟩

theorem place_of_allUpright {e : Expr} (h : AllUpright L s e.nodes) (he : e.info.type.isSome = true) :
    ∃ p, e.place? = .ok p := by
  obtain ⟨t, ht⟩ := Option.isSome_iff_exists.mp he
  cases e with
  | identifier i name binding =>
    obtain ⟨v, rfl, -⟩ := (h _ (self_mem_nodes _)).shaped t ht
    exact ⟨_, rfl⟩
  | member i base name span index =>
    rw [nodes, allUpright_cons] at h
    obtain ⟨u, hu, -⟩ := h.1.shaped t ht
    obtain ⟨p, hp⟩ := place_of_allUpright h.2 (Option.isSome_iff_exists.mpr ⟨u, hu⟩)
    rw [Expr.place?, hp, ok_bind]
    cases p <;> exact ⟨_, rfl⟩
  | _ => exact ⟨none, rfl⟩

end Expr

theorem FunctionDecl.Upright.grow {L : Listing} {s s' : Store} {f : FunctionDecl} (h : f.Upright L s)
    (hg : s.GrowsTo s') : f.Upright L s' :=
  ⟨⟨fun t ht => (h.info.typed t ht).grow hg, h.info.value⟩, h.header, h.body.grow hg⟩

/-! ### Modules that are parsed -/

/-- What the declarations of a module list, while any of its structs may be missing. -/
def openListing (decls : List Decl) : Listing :=
  { moduleListing decls with isOtherName := fun _ => True, closed := False, distinct := False }

section

variable {decls : List Decl} {s : Store}

/-- Nothing is known about the nodes of a tree that is only parsed. -/
theorem Parsed.upright {f : FunctionDecl} (h : Parsed decls) (hf : .function f ∈ decls) (s : Store) :
    f.Upright (openListing decls) s := by
  have hheader : ∀ {g : Header}, .function g ∈ decls.flatMap Decl.mentions → (∀ p ∈ g.params, p.Fresh) →
      g.Upright (openListing decls) := fun hg hparams => ⟨h.lists _ hg, fun p hp => (hparams p hp).1⟩
  have hmentions := Decl.mentions_sub hf
  refine ⟨?_, hheader (hmentions _ (List.mem_append_left _ List.mem_cons_self)) (h.params f hf), fun n hn => ?_⟩
  · rw [h.untyped f hf]
    exact ⟨nofun, fun _ => rfl⟩
  have hfresh := h.body f hf
  obtain ⟨⟨b, hn'⟩, hsub⟩ := hfresh.node n (by rwa [Expr.nodes])
  have huntyped := hn'.untyped
  refine ⟨⟨fun t ht => (by cases huntyped.symm.trans ht), fun _ => by cases hn' <;> rfl⟩, ?_⟩
  cases hn' with
  | identifier | member => nofun
  | letBinding hinit => exact fun _ => ⟨_, rfl, rfl⟩
  | function hexported hparams hbody =>
    exact ⟨hexported, hheader (hmentions _ (List.mem_append_right _ (hsub _ List.mem_cons_self))) hparams⟩
  | _ => trivial

/-- Where any struct may be missing, every problem that is kept is allowed. -/
private theorem openListing_allows (d : Diagnostic) : (openListing decls).Allows d :=
  ⟨fun _ _ => trivial, fun _ => False.elim⟩

/-- A store that is sound while the types of the module are declared is sound if some of them are missing. -/
theorem Store.Sound.opened (h : s.Sound (moduleListing decls)) : s.Sound (openListing decls) := by
  have hL : ∀ span, (openListing decls).isOtherName span := fun _ => trivial
  have hprototype : ∀ p : Prototype, (openListing decls).Lists p.mentions := fun p =>
    Listing.lists_append.mpr ⟨TypeExpr.lists_all hL _, TypeExpr.lists_option hL _⟩
  refine ⟨?_, ?_, ?_⟩
  · exact
      { h.types with
        listed := fun id decl _ _ => decl.lists hL
        resolved := fun id decl fields he =>
          let ⟨hsettled, hnames, hnodup, _⟩ := h.types.resolved id decl fields he
          ⟨hsettled, hnames, hnodup, False.elim⟩
        written := False.elim
        failed := fun _ _ why _ => ⟨openListing_allows why, False.elim⟩
        path := False.elim
        registered := False.elim }
  · refine { h.frames with values := fun fr f name v hf hv => ?_, scope := False.elim }
    have hdeclares := h.frames.values fr f name v hf hv
    unfold Store.Declares at hdeclares ⊢
    cases hkind : v.kind with
    | function declared =>
      rw [hkind] at hdeclares
      exact ⟨hdeclares.1, hprototype declared, hdeclares.2.2⟩
    | _ =>
      rw [hkind] at hdeclares
      exact hdeclares
  · exact { h.functions with failure := fun _ why _ => openListing_allows why }

end

/-! ### Walks -/

/-- The state of a walk that can go on or has ended, but not with a fault. -/
structure CheckState.Steady (L : Listing) (st : CheckState) : Prop where
  store : st.store.Steady L
  faultless : ∀ f, st.stop ≠ some (.fault f)

/-- A later state of a walk. -/
structure CheckState.StepsTo (st st' : CheckState) : Prop where
  store : st.store.StepsTo st'.store
  ended : st.stop ≠ none → st'.stop ≠ none

/-- All nodes are upright, and the roots have types unless the walk has ended. -/
structure CheckState.Bears (L : Listing) (ns roots : List Expr) (st : CheckState) : Prop where
  standing : Expr.AllUpright L st.store ns
  typed : st.stop = none → ∀ e ∈ roots, e.info.type.isSome = true

/-- A state in which a part that stands in a frame of a function can be walked through. -/
structure CheckState.Standby (L : Listing) (c : Context) (fr : FrameId) (st : CheckState) : Prop where
  steady : st.Steady L
  inner : 3 ≤ fr
  lt : fr < st.store.frames.size
  returns : ∀ r ∈ c.returns, st.store.Settled r

namespace CheckState

variable {L : Listing} {st st' st'' : CheckState} {ns roots : List Expr} {c : Context} {fr : FrameId} {e : Expr}

theorem StepsTo.refl (st : CheckState) : st.StepsTo st := ⟨.refl _, id⟩

theorem StepsTo.trans (h : st.StepsTo st') (h' : st'.StepsTo st'') : st.StepsTo st'' :=
  ⟨h.store.trans h'.store, fun hst => h'.ended (h.ended hst)⟩

private theorem StepsTo.alive (h : st.StepsTo st') (halive : st'.stop = none) : st.stop = none := by
  by_contra hst
  exact h.ended hst halive

theorem Bears.next (h : st.Bears L ns roots) (hsteps : st.StepsTo st') : st'.Bears L ns roots :=
  ⟨h.standing.grow hsteps.store.toGrowsTo, fun halive => h.typed (hsteps.alive halive)⟩

theorem Standby.next (h : st.Standby L c fr) (hs : st'.Steady L) (hsteps : st.StepsTo st') : st'.Standby L c fr :=
  ⟨hs, h.inner, hsteps.store.toGrowsTo.frame_lt h.lt, fun r hr => hsteps.store.toGrowsTo.settled (h.returns r hr)⟩

theorem Bears.info (h : st.Bears L e.nodes [e]) (halive : st.stop = none) : ∃ t, e.info.Typed st.store t :=
  h.standing.typed (h.typed halive e (by simp))

theorem Bears.block {b : Block Expr} (h : st.Bears L (Expr.block b).nodes roots) :
    Expr.AllUpright L st.store (Expr.nodesBlock b) := by
  have hstanding := h.standing
  rwa [Expr.nodes] at hstanding

theorem Bears.infos {es : List Expr} (h : st.Bears L (Expr.nodesAll es) es) (halive : st.stop = none) :
    ∀ e ∈ es, ∃ t, e.info.Typed st.store t := fun e he =>
  Expr.AllUpright.typed (fun n hn => h.standing n (Expr.mem_nodesAll.mpr ⟨e, he, hn⟩)) (h.typed halive e he)

theorem Bears.option {e : Option Expr} (h : st.Bears L (Expr.nodesOption e) e.toList) (halive : st.stop = none) :
    ∀ x ∈ e, ∃ t, x.info.Typed st.store t := fun x hx =>
  Expr.AllUpright.typed (fun n hn => h.standing n (Expr.mem_nodesOption.mpr ⟨x, hx, hn⟩))
    (h.typed halive x (Option.mem_toList.mpr hx))

end CheckState

namespace Check

open CheckState

variable {α β : Type} {L : Listing} {st : CheckState} {P : α → CheckState → Prop} {Q : β → CheckState → Prop}
  {a : Check α} {f : α → Check β}

/-- A part of a walk leaves the state steady, and `P` holds of what it gives. -/
def Steps (L : Listing) (st : CheckState) (a : Check α) (P : α → CheckState → Prop) : Prop :=
  match a.run st with
  | (x, st') => st'.Steady L ∧ st.StepsTo st' ∧ P x st'

theorem steps_iff {x : α} {st' : CheckState} (hrun : a.run st = (x, st')) :
    Steps L st a P ↔ st'.Steady L ∧ st.StepsTo st' ∧ P x st' := by
  unfold Steps
  rw [hrun]

theorem Steps.bind (h : Steps L st a P)
    (hf : ∀ x st', st'.Steady L → st.StepsTo st' → P x st' → Steps L st' (f x) Q) : Steps L st (a >>= f) Q := by
  have hrun : (a >>= f).run st = (f (a.run st).1).run (a.run st).2 := rfl
  unfold Steps at h ⊢
  rw [hrun]
  have hnext := hf (a.run st).1 (a.run st).2 h.1 h.2.1 h.2.2
  unfold Steps at hnext
  exact ⟨hnext.1, h.2.1.trans hnext.2.1, hnext.2.2⟩

private theorem Steps.congr {b : Check α} (h : Steps L st a P) (hrun : b.run st = a.run st) : Steps L st b P := by
  unfold Steps
  rw [hrun]
  exact h

theorem Steps.mono {P' : α → CheckState → Prop} (h : Steps L st a P) (hP : ∀ x st', P x st' → P' x st') :
    Steps L st a P' := ⟨h.1, h.2.1, hP _ _ h.2.2⟩

theorem steps_pure {x : α} (hs : st.Steady L) (h : P x st) : Steps L st (pure x) P := ⟨hs, .refl st, h⟩

/-- A step that changes neither the store nor the end of the walk. -/
theorem steps_same (hs : st.Steady L) (hstore : (a.run st).2.store = st.store) (hstop : (a.run st).2.stop = st.stop) :
    Steps L st a fun _ _ => True := by
  obtain ⟨x, st', hrun⟩ : ∃ x st', a.run st = (x, st') := ⟨_, _, rfl⟩
  rw [hrun] at hstore hstop
  refine (steps_iff hrun).mpr ⟨⟨hstore ▸ hs.store, fun g => hstop ▸ hs.faultless g⟩, ⟨?_, fun h => hstop ▸ h⟩, trivial⟩
  rw [show st'.store = st.store from hstore]
  exact .refl _

/-- A part that is left out if the walk has ended, or for another reason. -/
theorem steps_unless {x : α} {skip : Bool → Bool} (hs : st.Steady L) (hskip : skip true = true)
    (hended : st.stop ≠ none ∨ skip false = true → P x st)
    (hopen : st.stop = none → skip false = false → Steps L st a P) :
    Steps L st (do if skip (← stopped) then return x else a) P := by
  cases hstop : st.stop with
  | some why => exact (steps_pure hs (hended (.inl (by simp [hstop])))).congr (run_ended hstop hskip)
  | none =>
    cases hfalse : skip false with
    | true =>
      refine (steps_pure hs (hended (.inr hfalse))).congr ?_
      change (if skip st.stop.isSome then (pure x : Check α) else a).run st = _
      rw [hstop, Option.isSome_none, hfalse, if_pos rfl]
    | false => exact (hopen hstop hfalse).congr (run_open hstop hfalse)

/-- Behind an action either the walk goes on with what was found, or it has ended. -/
theorem steps_attempt {b : Action α} {f : Option α → Check β} {R : α → Store → Prop} (hs : st.Steady L)
    (h : st.stop = none → b.Steps L st.store R)
    (hsome : ∀ x st', st'.Steady L → st.StepsTo st' → st'.stop = none → R x st'.store → Steps L st' (f (some x)) Q)
    (hnone : ∀ st', st'.Steady L → st.StepsTo st' → st'.stop ≠ none → Steps L st' (f none) Q) :
    Steps L st (attempt b >>= f) Q := by
  obtain ⟨o, st', hrun⟩ : ∃ o st', (attempt b).run st = (o, st') := ⟨_, _, rfl⟩
  suffices hend : st'.Steady L ∧ st.StepsTo st' ∧
      ((∃ x, o = some x ∧ st'.stop = none ∧ R x st'.store) ∨ o = none ∧ st'.stop ≠ none) by
    have hattempt : Steps L st (attempt b) fun o st' =>
        (∃ x, o = some x ∧ st'.stop = none ∧ R x st'.store) ∨ o = none ∧ st'.stop ≠ none := (steps_iff hrun).mpr hend
    refine hattempt.bind ?_
    rintro o st' hs' hsteps (⟨x, rfl, halive, hR⟩ | ⟨rfl, hended⟩)
    · exact hsome x st' hs' hsteps halive hR
    · exact hnone st' hs' hsteps hended
  cases hstop : st.stop with
  | some why =>
    cases hrun.symm.trans (run_attempt_ended hstop)
    exact ⟨hs, .refl st, .inr ⟨rfl, by simp [hstop]⟩⟩
  | none =>
    have hends := h hstop
    unfold Action.Steps Action.Ends at hends
    rw [run_attempt hstop] at hrun
    rcases hb : b.run.run st.store with ⟨why | x, store⟩
    · rw [hb] at hends
      rw [hb] at hrun
      cases hrun
      cases why with
      | fault g => exact hends.elim
      | refused d => exact ⟨⟨hends.1, nofun⟩, ⟨hends.2, by simp⟩, .inr ⟨rfl, by simp⟩⟩
    · rw [hb] at hends
      rw [hb] at hrun
      cases hrun
      exact ⟨⟨hends.1, hs.faultless⟩, ⟨hends.2.1, id⟩, .inl ⟨x, rfl, hstop, hends.2.2⟩⟩

end Check

end RainCheck

import RainCheck.Check.Expr
import RainCheck.Proofs.Declaring

/-!
# Walks through a tree

`Walks` says what a part of a walk does to the state, whether the walk has ended before or ends in this part.
* No fault is raised, and once the walk has ended nothing changes.
* The store stays sound and grows; in the frames only what the part declares is added to the frame it stands in.
* A problem about an unknown value belongs to an identifier that means nothing in its scope.

What a part finds out holds if the walk goes on behind it.
-/

namespace RainCheck

/-- What a part of a tree mentions, uses and declares. -/
structure Footprint where
  mentions : List Mention := []
  uses : List Use := []
  declared : List Variable := []

namespace Footprint

instance : Append Footprint := ⟨fun p q => ⟨p.mentions ++ q.mentions, p.uses ++ q.uses, p.declared ++ q.declared⟩⟩

@[simp] theorem mentions_append (p q : Footprint) : (p ++ q).mentions = p.mentions ++ q.mentions := rfl

@[simp] theorem uses_append (p q : Footprint) : (p ++ q).uses = p.uses ++ q.uses := rfl

private theorem append_empty (p : Footprint) : p ++ ({} : Footprint) = p := by
  obtain ⟨ms, us, vs⟩ := p
  exact congr (congr (congrArg Footprint.mk (List.append_nil ms)) (List.append_nil us)) (List.append_nil vs)

/-- A part of a tree that declares as much as another one. -/
structure Sub (p q : Footprint) : Prop where
  mentions : ∀ m ∈ p.mentions, m ∈ q.mentions
  uses : ∀ u ∈ p.uses, u ∈ q.uses
  declared : p.declared = q.declared

end Footprint

/-- A problem is about an identifier that means nothing, or not about an unknown value. -/
def Explains (L : Listing) (uses : List Use) (d : Diagnostic) : Prop :=
  L.Allows d ∨ ∃ u ∈ uses, d = ⟨u.span, .unknownSymbol u.name⟩ ∧ u.meaning = none

/-- What holds of the state of a walk. -/
structure CheckState.Sound (L : Listing) (st : CheckState) : Prop where
  store : st.store.Sound L
  idle : st.store.Idle
  faultless : ∀ f, st.stop ≠ some (.fault f)

/-- How the state of a walk changes in a part of the tree that stands in a frame. -/
structure CheckState.Goes (L : Listing) (fr : FrameId) (p : Footprint) (st st' : CheckState) : Prop where
  moves : st.store.Moves L fr p.mentions st'.store
  faultless : ∀ f, st'.stop ≠ some (.fault f)
  ended : ∀ why, st.stop = some why → st'.stop = some why
  adds : st'.stop = none → st.store.Adds st'.store fr p.declared
  explained : ∀ d, st'.stop = some (.refused d) → st.stop = some (.refused d) ∨ Explains L p.uses d

namespace CheckState.Goes

variable {L : Listing} {fr g : FrameId} {p q : Footprint} {st st' st'' : CheckState}

theorem alive (h : st.Goes L fr p st') (hstop : st'.stop = none) : st.stop = none := by
  cases hst : st.stop with
  | none => rfl
  | some why =>
    rw [h.ended why hst] at hstop
    cases hstop

theorem grows (h : st.Goes L fr p st') : st.store.GrowsTo st'.store := h.moves.toExtends.toGrowsTo

theorem sound (h : st.Goes L fr p st') (hs : st.Sound L) : st'.Sound L :=
  ⟨h.moves.sound, h.moves.toExtends.idle hs.idle, h.faultless⟩

/-- A part of the walk that changes neither the store nor the end of the walk. -/
theorem of_same (hs : st.Sound L) (hstore : st'.store = st.store) (hstop : st'.stop = st.stop) :
    st.Goes L fr {} st' := by
  obtain ⟨store, loops, stop⟩ := st
  obtain ⟨store', loops', stop'⟩ := st'
  simp only at hstore hstop
  subst hstore hstop
  exact ⟨.refl hs.store, hs.faultless, fun _ h => h, fun _ => .refl _ fr, fun _ h => .inl h⟩

private theorem trans (h : st.Goes L fr p st') (h' : st'.Goes L fr q st'') : st.Goes L fr (p ++ q) st'' := by
  refine ⟨?_, h'.faultless, fun why hwhy => h'.ended why (h.ended why hwhy), fun hstop => ?_, fun d hd => ?_⟩
  · exact (h.moves.mono fun _ => List.mem_append_left _).trans (h'.moves.mono fun _ => List.mem_append_right _)
  · exact (h.adds (h'.alive hstop)).trans (h'.adds hstop)
  · rcases h'.explained d hd with hd | hallows | ⟨u, hu, hwhy⟩
    · rcases h.explained d hd with hd | hallows | ⟨u, hu, hwhy⟩
      · exact .inl hd
      · exact .inr (.inl hallows)
      · exact .inr (.inr ⟨u, List.mem_append_left _ hu, hwhy⟩)
    · exact .inr (.inl hallows)
    · exact .inr (.inr ⟨u, List.mem_append_right _ hu, hwhy⟩)

private theorem mono (h : st.Goes L fr p st') (hsub : p.Sub q) : st.Goes L fr q st' := by
  refine ⟨h.moves.mono hsub.mentions, h.faultless, h.ended, fun hstop => hsub.declared ▸ h.adds hstop, fun d hd => ?_⟩
  rcases h.explained d hd with hd | hallows | ⟨u, hu, hwhy⟩
  · exact .inl hd
  · exact .inr (.inl hallows)
  · exact .inr (.inr ⟨u, hsub.uses u hu, hwhy⟩)

/-- What happens in a new frame declares nothing in the frames before it. -/
private theorem inside (h : st.Goes L g p st') (hnew : st.store.frames.size ≤ g) (hfr : fr < st.store.frames.size) :
    st.Goes L fr { p with declared := [] } st' :=
  ⟨h.moves.before hnew, h.faultless, h.ended, fun _ => h.moves.leaves.adds (Nat.ne_of_lt (Nat.lt_of_lt_of_le hfr hnew)),
    h.explained⟩

end CheckState.Goes

namespace Check

variable {α β : Type} {L : Listing} {fr g : FrameId} {p q : Footprint} {st : CheckState}

/-- A part of a walk goes on such that `P` holds of what it finds, or the walk has ended. -/
def Walks (L : Listing) (fr : FrameId) (p : Footprint) (c : Check α) (st : CheckState) (P : α → Store → Prop) : Prop :=
  match c.run st with
  | (x, st') => st.Goes L fr p st' ∧ (st'.stop = none → P x st'.store)

variable {c : Check α} {f : α → Check β} {P Q : α → Store → Prop} {R : β → Store → Prop}

theorem walks_iff {x : α} {st' : CheckState} (hrun : c.run st = (x, st')) :
    Walks L fr p c st P ↔ st.Goes L fr p st' ∧ (st'.stop = none → P x st'.store) := by
  unfold Walks
  rw [hrun]

theorem Walks.bind (h : Walks L fr p c st P)
    (hf : ∀ x st', st.Goes L fr p st' → (st'.stop = none → P x st'.store) → Walks L fr q (f x) st' R) :
    Walks L fr (p ++ q) (c >>= f) st R := by
  have hrun : (c >>= f).run st = (f (c.run st).1).run (c.run st).2 := rfl
  unfold Walks at h ⊢
  rw [hrun]
  have hnext := hf (c.run st).1 (c.run st).2 h.1 h.2
  unfold Walks at hnext
  exact ⟨h.1.trans hnext.1, hnext.2⟩

/-- A part of a walk that runs as another one does. -/
theorem Walks.congr {c' : Check α} (h : Walks L fr p c st P) (hrun : c'.run st = c.run st) : Walks L fr p c' st P := by
  unfold Walks
  rw [hrun]
  exact h

theorem Walks.mono (h : Walks L fr p c st P) (hsub : p.Sub q) : Walks L fr q c st P := ⟨h.1.mono hsub, h.2⟩

theorem Walks.imp (h : Walks L fr p c st P)
    (himp : ∀ x st', st.Goes L fr p st' → st'.stop = none → P x st'.store → Q x st'.store) : Walks L fr p c st Q :=
  ⟨h.1, fun hstop => himp _ _ h.1 hstop (h.2 hstop)⟩

/-- A part of a walk that is followed by one without a footprint. -/
theorem Walks.followed (h : Walks L fr p c st P)
    (hf : ∀ x st', st.Goes L fr p st' → (st'.stop = none → P x st'.store) → Walks L fr {} (f x) st' R) :
    Walks L fr p (c >>= f) st R := by
  rw [← p.append_empty]
  exact h.bind hf

/-- A part of a walk behind one without a footprint. -/
theorem Walks.after (h : Walks L fr {} c st P)
    (hf : ∀ x st', st.Goes L fr {} st' → (st'.stop = none → P x st'.store) → Walks L fr q (f x) st' R) :
    Walks L fr q (c >>= f) st R :=
  h.bind hf

theorem Walks.inside (h : Walks L g p c st P) (hnew : st.store.frames.size ≤ g) (hfr : fr < st.store.frames.size) :
    Walks L fr { p with declared := [] } c st P :=
  ⟨h.1.inside hnew hfr, h.2⟩

/-! ### Rules of the steps -/

theorem walks_pure {x : α} (hs : st.Sound L) (h : st.stop = none → P x st.store) : Walks L fr {} (pure x) st P :=
  ⟨.of_same hs rfl rfl, h⟩

/-- A step that changes neither the store nor the end of the walk. -/
theorem walks_same (hs : st.Sound L) (hstore : (c.run st).2.store = st.store) (hstop : (c.run st).2.stop = st.stop) :
    Walks L fr {} c st fun _ _ => True :=
  ⟨.of_same hs hstore hstop, fun _ => trivial⟩

/-- A part that is left alone because the walk has ended. -/
private theorem walks_ended {x : α} {why : Stop} (hs : st.Sound L) (hstop : st.stop = some why) :
    Walks L fr p (pure x) st P := by
  refine ⟨⟨.refl hs.store, hs.faultless, fun _ h => h, fun h => ?_, fun _ h => .inl h⟩, fun h => ?_⟩
  · have h : st.stop = none := h
    rw [hstop] at h
    cases h
  · have h : st.stop = none := h
    rw [hstop] at h
    cases h

/-- A part that is not skipped, because the walk goes on. -/
theorem run_open {x : α} {skip : Bool → Bool} (hopen : st.stop = none) (hskip : skip false = false) :
    (do if skip (← stopped) then return x else c).run st = c.run st := by
  change (if skip st.stop.isSome then (pure x : Check α) else c).run st = _
  rw [hopen, Option.isSome_none, hskip]
  rfl

/-- A part that is skipped, because the walk has ended. -/
theorem run_ended {x : α} {why : Stop} {skip : Bool → Bool} (hstop : st.stop = some why) (hskip : skip true = true) :
    (do if skip (← stopped) then return x else c).run st = (x, st) := by
  change (if skip st.stop.isSome then (pure x : Check α) else c).run st = _
  rw [hstop, Option.isSome_some, hskip]
  rfl

/-- A part is walked through, unless it is skipped because the walk has ended. -/
theorem walks_open {x : α} {skip : Bool → Bool} (hs : st.Sound L) (hended : skip true = true)
    (hopen : skip false = false)
    (h : st.stop = none → Walks L fr p c st P) : Walks L fr p (do if skip (← stopped) then return x else c) st P := by
  cases hstop : st.stop with
  | some why => exact (walks_ended (x := x) hs hstop).congr (run_ended hstop hended)
  | none => exact (h hstop).congr (run_open hstop hopen)

/-- An action that is tried because the walk goes on. -/
theorem run_attempt {a : Action α} (hopen : st.stop = none) :
    (attempt a).run st = match a.run.run st.store with
      | (.ok x, store) => (some x, { st with store })
      | (.error why, store) => (none, { st with store, stop := some why }) := by
  obtain ⟨store, loops, stop⟩ := st
  have hopen : stop = none := hopen
  subst hopen
  rfl

/-- An action that is not tried because the walk has ended. -/
theorem run_attempt_ended {a : Action α} {why : Stop} (hstop : st.stop = some why) :
    (attempt a).run st = (none, st) := by
  simp only [attempt, StateT.run, hstop]

/-- An action on the store, unless the walk has ended. -/
theorem walks_attempt {a : Action α} {F : Diagnostic → Prop} (hs : st.Sound L)
    (h : st.stop = none → a.Moves L fr p.mentions p.declared st.store P F) (hF : ∀ d, F d → Explains L p.uses d) :
    Walks L fr p (attempt a) st fun o s => ∃ x, o = some x ∧ P x s := by
  cases hstop : st.stop with
  | some why => exact (walks_ended (x := none) hs hstop).congr (run_attempt_ended hstop)
  | none =>
    have hends := h hstop
    unfold Action.Moves Action.Ends at hends
    unfold Walks
    rw [run_attempt hstop]
    rcases ha : a.run.run st.store with ⟨why | x, store⟩
    · rw [ha] at hends
      cases why with
      | fault f => exact hends.elim
      | refused d =>
        refine ⟨⟨hends.1, fun f hf => (by cases hf), fun why hwhy => ?_, nofun, fun d' hd' => ?_⟩, nofun⟩
        · rw [hstop] at hwhy
          cases hwhy
        · cases hd'
          exact .inr (hF d hends.2)
    · rw [ha] at hends
      refine ⟨⟨hends.1, fun f hf => ?_, fun why hwhy => hwhy, fun _ => hends.2.1, fun d hd => .inl hd⟩,
        fun _ => ⟨x, rfl, hends.2.2⟩⟩
      exact hs.faultless f hf

/-- An action that gives a result does not end the walk. -/
theorem attempt_alive {a : Action α} {x : α} {st' : CheckState} (h : (attempt a).run st = (some x, st')) :
    st'.stop = none := by
  simp only [attempt, StateT.run] at h
  cases hstop : st.stop with
  | some why =>
    rw [hstop] at h
    cases h
  | none =>
    rw [hstop] at h
    dsimp only at h
    split at h <;> cases h
    rfl

/-- Behind an action either the walk goes on with what was found, or it has ended. -/
theorem Walks.attempted {a : Action α} {f : Option α → Check β}
    (h : Walks L fr p (attempt a) st fun o s => ∃ x, o = some x ∧ P x s)
    (hsome : ∀ x st', st.Goes L fr p st' → st'.stop = none → P x st'.store → Walks L fr q (f (some x)) st' R)
    (hnone : ∀ st', st.Goes L fr p st' → st'.stop ≠ none → Walks L fr q (f none) st' R) :
    Walks L fr (p ++ q) (attempt a >>= f) st R := by
  obtain ⟨o, st', hrun⟩ : ∃ o st', (attempt a).run st = (o, st') := ⟨_, _, rfl⟩
  obtain ⟨hgo, hP⟩ := (walks_iff hrun).mp h
  have hnext : Walks L fr q (f o) st' R := by
    cases o with
    | some x =>
      obtain ⟨y, hy, hPy⟩ := hP (attempt_alive hrun)
      cases hy
      exact hsome x st' hgo (attempt_alive hrun) hPy
    | none =>
      refine hnone st' hgo fun hstop => ?_
      obtain ⟨y, hy, -⟩ := hP hstop
      cases hy
  obtain ⟨y, st'', hrun'⟩ : ∃ y st'', (f o).run st' = (y, st'') := ⟨_, _, rfl⟩
  obtain ⟨hgo', hR⟩ := (walks_iff hrun').mp hnext
  have hboth : (attempt a >>= f).run st = (y, st'') := by
    change (f ((attempt a).run st).1).run ((attempt a).run st).2 = _
    rw [hrun, hrun']
  exact (walks_iff hboth).mpr ⟨hgo.trans hgo', hR⟩

/-- A part that is left alone because the walk has ended in front of it. -/
theorem walks_failed {x : α} (hs : st.Sound L) (hstop : st.stop ≠ none) : Walks L fr p (pure x) st P := by
  obtain ⟨why, hwhy⟩ := Option.ne_none_iff_exists'.mp hstop
  exact walks_ended hs hwhy

/-- An action that learns something about the store. -/
theorem walks_learn {a : Action α} (hs : st.Sound L) (h : st.stop = none → a.Keeps L st.store P L.Allows) :
    Walks L fr {} (attempt a) st fun o s => ∃ x, o = some x ∧ P x s :=
  walks_attempt hs (fun hstop => (h hstop).moves) fun _ => .inl

theorem walks_demand {a : Action Unit} {P : Store → Prop} (hs : st.Sound L)
    (h : st.stop = none → a.Moves L fr p.mentions p.declared st.store (fun _ s => P s) L.Allows) :
    Walks L fr p (demand a) st fun _ s => P s := by
  refine (walks_attempt hs h fun _ => .inl).followed fun o st' hgo hP => walks_pure (hgo.sound hs) fun hstop => ?_
  obtain ⟨_, -, hstore⟩ := hP hstop
  exact hstore

/-- What a rule says about a node is settled. -/
theorem walks_conclude {info : Info} {rule : Action Info} {P : TypeId → Store → Prop} (hs : st.Sound L)
    (h : st.stop = none → rule.Keeps L st.store (fun i s => ∃ t, i.Proper s t ∧ P t s) L.Allows) :
    Walks L fr {} (conclude info rule) st fun i s => ∃ t, i.Typed s t ∧ P t s := by
  refine (walks_learn hs fun hstop => (h hstop).settled).followed fun o st' hgo hP => ?_
  refine walks_pure (hgo.sound hs) fun hstop => ?_
  obtain ⟨i, rfl, htyped⟩ := hP hstop
  exact htyped

end Check

/-! ### Before a part is walked through -/

/-- What is known about the state and the module before a part with some mentions is walked through. -/
structure Prepared (L : Listing) (functions : List Variable) (ms : List Mention) (st : CheckState) : Prop where
  sound : st.Sound L
  listed : L.Lists ms
  apart : (ms.map Mention.start).Nodup
  unseen : ∀ h, .function h ∈ ms → st.store.function h.span = {}
  module : st.store.Shows FrameId.module [functions]

/-- What is known before a part is walked through in a frame inside of a function. -/
structure Ready (L : Listing) (functions : List Variable) (c : Context) (fr : FrameId) (σ : Scope) (ms : List Mention)
    (st : CheckState) : Prop extends Prepared L functions ms st where
  frame : fr < st.store.frames.size
  inner : 3 ≤ fr
  returns : ∀ r ∈ c.returns, st.store.Settled r
  shows : st.stop = none → st.store.Shows fr σ

section

variable {L : Listing} {functions : List Variable} {c : Context} {fr : FrameId} {σ : Scope} {ms ns : List Mention}
  {us : List Use} {vs : List Variable} {st st' : CheckState}

namespace Prepared

private theorem sub (h : Prepared L functions ns st) (hsub : ms.Sublist ns) : Prepared L functions ms st :=
  { h with
    listed := fun m hm => h.listed m (hsub.subset hm)
    apart := (hsub.map _).nodup h.apart
    unseen := fun header hm => h.unseen header (hsub.subset hm) }

private theorem right (h : Prepared L functions (ms ++ ns) st) : Prepared L functions ns st :=
  h.sub (List.sublist_append_right ms ns)

/-- Functions that are mentioned in different parts have different names. -/
private theorem unmentioned (h : Prepared L functions (ms ++ ns) st) {header header' : Header}
    (hm : .function header ∈ ms)
    (hn : .function header' ∈ ns) : header.span ≠ header'.span := by
  have hapart := h.apart
  rw [List.map_append] at hapart
  intro heq
  refine (List.nodup_append.mp hapart).2.2 header.span.start (List.mem_map.mpr ⟨_, hm, rfl⟩) _
    (List.mem_map.mpr ⟨_, hn, rfl⟩) ?_
  rw [heq]
  rfl

/-- Behind a part of a function, the next part is prepared. -/
private theorem next {p : Footprint} (h : Prepared L functions (p.mentions ++ ns) st) (hgo : st.Goes L fr p st')
    (hfr : FrameId.module < fr) : Prepared L functions ns st' where
  sound := hgo.sound h.sound
  listed := (Listing.lists_append.mp h.listed).2
  apart := h.right.apart
  unseen header hm := by
    have hnew := h.right.unseen header hm
    rw [hgo.moves.unregistered header.span (fun _ hm' => h.unmentioned hm' hm) (by rw [hnew]), hnew]
  module := h.module.before h.sound.store.frames hgo.moves.leaves hfr

/-- In a new frame. -/
theorem enter {inner : FrameId} (h : Prepared L functions ms st) (hgo : st.Goes L inner {} st')
    (hnew : st.store.frames.size ≤ inner) (hreturns : ∀ r ∈ c.returns, st'.store.Settled r)
    (hshows : st'.store.Shows inner σ) : Ready L functions c inner σ ms st' where
  toPrepared := next (show Prepared L functions (Footprint.mentions {} ++ ms) st from h) hgo
    (Nat.lt_of_lt_of_le h.sound.store.frames.module_lt hnew)
  frame := hshows.lt_size
  inner := Nat.le_trans h.sound.store.frames.three_le hnew
  returns := hreturns
  shows _ := hshows

end Prepared

namespace Ready

theorem sub (h : Ready L functions c fr σ ns st) (hsub : ms.Sublist ns) : Ready L functions c fr σ ms st :=
  { h with toPrepared := h.toPrepared.sub hsub }

theorem left (h : Ready L functions c fr σ (ms ++ ns) st) : Ready L functions c fr σ ms st :=
  h.sub (List.sublist_append_left ms ns)

theorem right (h : Ready L functions c fr σ (ms ++ ns) st) : Ready L functions c fr σ ns st :=
  h.sub (List.sublist_append_right ms ns)

/-- Behind a part that declares variables, the next part is ready. -/
theorem declare (h : Ready L functions c fr σ (ms ++ ns) st) (hgo : st.Goes L fr ⟨ms, us, vs⟩ st') :
    Ready L functions c fr (σ.declare vs) ns st' where
  toPrepared := h.toPrepared.next hgo (Nat.lt_of_lt_of_le (by decide) h.inner)
  frame := hgo.grows.frame_lt h.frame
  inner := h.inner
  returns r hr := hgo.grows.settled (h.returns r hr)
  shows hstop := (h.shows (hgo.alive hstop)).declare h.sound.store.frames hgo.grows hgo.moves.leaves (hgo.adds hstop)

/-- Behind a part that declares nothing, the next part is ready. -/
theorem next (h : Ready L functions c fr σ (ms ++ ns) st) (hgo : st.Goes L fr ⟨ms, us, []⟩ st') :
    Ready L functions c fr σ ns st' := by
  simpa using h.declare hgo

/-- A step without a footprint. -/
theorem step (h : Ready L functions c fr σ ms st) (hgo : st.Goes L fr {} st') : Ready L functions c fr σ ms st' :=
  next (show Ready L functions c fr σ ([] ++ ms) st from h) hgo

end Ready

end

end RainCheck

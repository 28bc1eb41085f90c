import RainCheck.Proofs.InStep
import RainCheck.Proofs.Narrowing
import RainCheck.Proofs.Resolution
import RainCheck.Proofs.Locals

/-!
# Stores that differ by numbers

Two stores that hold the same types and frames under other numbers, and perhaps more besides.  What
is matched of the one stands one to one for what is matched of the other.
* (types) Matched types have the same text.  A type that both stores ask for is matched from then
  on, whether it is new to them or not (`Store.Renumbered.link`).
* (structs) The structs that are matched are decided, so nothing is resolved on demand.
* The stores make a `Simulation`.
-/

namespace RainCheck

open RainCheck.Action

/-- Computations on related lists, one after the other. -/
private theorem rel_mapM {ε ζ α β γ δ : Type} {E : ε → ζ → Prop} {R : γ → δ → Prop} {l : List α} {l' : List β}
    {f : α → Except ε γ} {g : β → Except ζ δ} (h : List.Forall₂ (fun a b => Except.Rel E R (f a) (g b)) l l') :
    Except.Rel E (List.Forall₂ R) (l.mapM f) (l'.mapM g) := by
  induction h with
  | nil => exact .ok .nil
  | cons hab _ ih =>
    rw [List.mapM_cons, List.mapM_cons]
    exact hab.bind fun _ _ hcd => ih.bind fun _ _ hrest => .ok (.cons hcd hrest)

/-! ### More is matched -/

namespace Matching

/-- One more pair of types is matched. -/
def withType (m : Matching) (t t' : TypeId) : Matching :=
  { m with type := fun u u' => m.type u u' ∨ u = t ∧ u' = t' }

/-- One more pair of frames is matched. -/
def withFrame (m : Matching) (fr fr' : FrameId) : Matching :=
  { m with frame := fun g g' => m.frame g g' ∨ g = fr ∧ g' = fr' }

private theorem le_withType (m : Matching) (t t' : TypeId) : m ≤ m.withType t t' :=
  ⟨rfl, fun _ _ => .inl, fun _ _ => id, rfl⟩

private theorem le_withFrame (m : Matching) (fr fr' : FrameId) : m ≤ m.withFrame fr fr' :=
  ⟨rfl, fun _ _ => id, fun _ _ => .inl, rfl⟩

end Matching

/-! ### Types, frames and functions -/

/-- The fields of a struct are resolved, or cannot be. -/
def TypeEntry.Closed (e : TypeEntry) : Prop :=
  ∀ decl state, e = .struct decl state → (∃ fields, state = .resolved fields) ∨ ∃ why, state = .failed why

private theorem Types.Ordered.addType {s : Store} (h : s.types.Ordered) {e : TypeEntry}
    (hparts : ∀ t ∈ e.parts, t < s.types.size)
    (hnew : e ∉ s.types.entries) : (s.addType e).types.Ordered :=
  h.add hparts fun _ => hnew

section

variable {m n : Matching}

/-- Frames in which the names mean the same. -/
structure Frame.Alike (m : Matching) (f f' : Frame) : Prop where
  outer : List.Forall₂ m.frame f.outer f'.outer
  values : ∀ name, Option.Rel (Variable.Matches m) (f.findVariable name) (f'.findVariable name)
  types : ∀ name, Option.Rel m.type (f.findType name) (f'.findType name)

/-- Functions of which the same is known. -/
structure FunctionRecord.Alike (m : Matching) (r r' : FunctionRecord) : Prop where
  variableType : Option.Rel (Holder.Rel m.type) r.variableType r'.variableType
  signature : Option.Rel m.type r.signature r'.signature
  failure : r.signature = none → Option.Rel m.problem r.failure r'.failure

private theorem Frame.Alike.mono {f f' : Frame} (h : f.Alike m f') (hle : m ≤ n) : f.Alike n f' where
  outer := h.outer.imp hle.frame
  values name := (h.values name).imp fun _ _ hv => hv.mono hle
  types name := (h.types name).imp hle.type

theorem FunctionRecord.Alike.imp {r r' : FunctionRecord} (h : r.Alike m r') (hmn : m.Finer n) : r.Alike n r' where
  variableType := h.variableType.imp fun _ _ ht => ht.imp hmn.type
  signature := h.signature.imp hmn.type
  failure hnone := (h.failure hnone).imp hmn.problem

private theorem Frame.Alike.has {f f' : Frame} (h : f.Alike m f') (name : String) : f'.has name = f.has name := by
  rw [Frame.has, Frame.has, (h.values name).isSome, (h.types name).isSome]

/-- The same name is declared in both frames, where it is new. -/
private theorem Frame.Alike.declare {f f' : Frame} {v v' : Variable} (h : f.Alike m f') (hv : v.Matches m v') :
    Frame.Alike m { f with values := f.values ++ [(v.name, v)] }
      { f' with values := f'.values ++ [(v'.name, v')] } where
  outer := h.outer
  values name := by
    have hlookup := h.values name
    simp only [Frame.findVariable] at hlookup ⊢
    rw [List.lookup_append, List.lookup_append, hv.name]
    generalize f.values.lookup name = o at hlookup
    generalize f'.values.lookup name = o' at hlookup
    cases hlookup with
    | some hx => exact .some hx
    | none =>
      have hown :
          List.Forall₂ (fun a b : String × Variable => b.1 = a.1 ∧ a.2.Matches m b.2) [(v.name, v)] [(v.name, v')] :=
        .cons ⟨rfl, hv⟩ .nil
      exact rel_lookup hown name
  types := h.types

/-- Stores that hold the same under other numbers, as far as it is matched. -/
structure Store.Renumbered (m : Matching) (s s' : Store) : Prop where
  span_iff : ∀ {a a' b b'}, m.span a a' → m.span b b' → (a' = b' ↔ a = b)
  type_iff : ∀ {t t' u u'}, m.type t t' → m.type u u' → (t' = u' ↔ t = u)
  frame_iff : ∀ {fr fr' g g'}, m.frame fr fr' → m.frame g g' → (fr' = g' ↔ fr = g)
  problem : ∀ {a a'} (c : Cause), m.span a a' → m.problem ⟨a, c⟩ ⟨a', c⟩
  primitive : ∀ {t : TypeId}, t < Types.primitives.length → m.type t t
  module : m.frame FrameId.module FrameId.module
  exported : m.frame FrameId.exported FrameId.exported
  ordered : s.types.Ordered ∧ s'.types.Ordered
  types : ∀ {t t'}, m.type t t' → ∃ e e', s.typeAt? t = some e ∧ s'.typeAt? t' = some e' ∧ e.Matches m e' ∧ e.Closed
  frames : ∀ {fr fr'}, m.frame fr fr' → ∃ f f', s.frame? fr = some f ∧ s'.frame? fr' = some f' ∧ f.Alike m f'
  functions : ∀ {key key'}, m.span key key' → (s.function key).Alike m (s'.function key')

/-- Stores that hold the same under other numbers. -/
def Renumbered : StoreRelation := fun m s s' => s.Renumbered m s'

end

namespace Store.Renumbered

variable {m : Matching} {s s' : Store}

/-! ### Types -/

/-- Entries that match are determined by each other, unless they are structs. -/
private theorem entry_iff (h : s.Renumbered m s') {e e' u u' : TypeEntry} (he : e.Matches m e') (hu : u.Matches m u')
    (hstruct : e.struct? = none) : e' = u' ↔ e = u := by
  have hlists : ∀ {ps ps' qs qs' : List TypeId}, List.Forall₂ m.type ps ps' → List.Forall₂ m.type qs qs' →
      (ps' = qs' ↔ ps = qs) := by
    intro ps ps' qs qs' hps hqs
    induction hps generalizing qs qs' with
    | nil => cases hqs <;> simp
    | cons hp _ ih =>
      cases hqs with
      | nil => simp
      | cons hq hqs => rw [List.cons.injEq, List.cons.injEq, h.type_iff hp hq, ih hqs]
  cases he with
  | struct => cases hstruct
  | primitive => cases hu <;> simp
  | reference ht =>
    cases hu with
    | reference hu => rw [TypeEntry.reference.injEq, TypeEntry.reference.injEq, h.type_iff ht hu]
    | primitive | struct | function => simp
  | function hps hr =>
    cases hu with
    | function hqs hq => rw [TypeEntry.function.injEq, TypeEntry.function.injEq, hlists hps hqs, h.type_iff hr hq]
    | primitive | struct | reference => simp

/-- The same type is listed in both stores, so that it can be matched. -/
theorem link (h : s.Renumbered m s') {t t' : TypeId} {e e' : TypeEntry} (he : s.typeAt? t = some e)
    (he' : s'.typeAt? t' = some e') (hmatch : e.Matches m e') (hstruct : e.struct? = none) :
    ∃ n, m ≤ n ∧ s.Renumbered n s' ∧ n.type t t' := by
  have hstruct' : e'.struct? = none := by
    have := hmatch.struct?
    rw [hstruct] at this
    generalize e'.struct? = o at this
    cases this
    rfl
  by_cases hmatched : m.type t t'
  · exact ⟨m, le_refl m, h, hmatched⟩
  -- neither of the two is matched with another one, as that would be the same type
  have hleft : ∀ {u u'}, m.type u u' → u ≠ t := by
    rintro u u' hu rfl
    obtain ⟨x, x', hx, hx', hxx', -⟩ := h.types hu
    cases he.symm.trans hx
    have heq : e' = x' := (h.entry_iff hmatch hxx' hstruct).mpr rfl
    exact hmatched (h.ordered.2.once u' t' e' (heq ▸ hx') he' hstruct' ▸ hu)
  have hright : ∀ {u u'}, m.type u u' → u' ≠ t' := by
    rintro u u' hu rfl
    obtain ⟨x, x', hx, hx', hxx', -⟩ := h.types hu
    cases he'.symm.trans hx'
    have heq : e = x := (h.entry_iff hmatch hxx' hstruct).mp rfl
    exact hmatched (h.ordered.1.once u t e (heq ▸ hx) he hstruct ▸ hu)
  have hle := m.le_withType t t'
  refine ⟨m.withType t t', hle, ?_, .inr ⟨rfl, rfl⟩⟩
  exact
    { h with
      type_iff := by
        rintro u u' v v' (hu | ⟨rfl, rfl⟩) (hv | ⟨rfl, rfl⟩)
        · exact h.type_iff hu hv
        · exact iff_of_false (hright hu) (hleft hu)
        · exact iff_of_false (Ne.symm (hright hv)) (Ne.symm (hleft hv))
        · exact iff_of_true rfl rfl
      primitive := fun ht => .inl (h.primitive ht)
      types := by
        rintro u u' (hu | ⟨rfl, rfl⟩)
        · obtain ⟨x, x', hx, hx', hxx', hclosed⟩ := h.types hu
          exact ⟨x, x', hx, hx', hxx'.imp hle.finer, hclosed⟩
        · refine ⟨e, e', he, he', hmatch.imp hle.finer, fun decl state heq => ?_⟩
          subst heq
          cases hstruct
      frames := fun hfr => by
        obtain ⟨f, f', hf, hf', hff'⟩ := h.frames hfr
        exact ⟨f, f', hf, hf', hff'.mono hle⟩
      functions := fun hkey => (h.functions hkey).imp hle.finer }

/-- A store that lists more types is still alike. -/
private theorem addLeft (h : s.Renumbered m s') {e : TypeEntry} (hs : (s.addType e).types.Ordered) :
    (s.addType e).Renumbered m s' :=
  { h with
    ordered := ⟨hs, h.ordered.2⟩
    types := fun ht => by
      obtain ⟨x, x', hx, hx', hrest⟩ := h.types ht
      exact ⟨x, x', entry_addType.mpr (.inl hx), hx', hrest⟩
    frames := h.frames
    functions := h.functions }

private theorem addRight (h : s.Renumbered m s') {e : TypeEntry} (hs : (s'.addType e).types.Ordered) :
    s.Renumbered m (s'.addType e) :=
  { h with
    ordered := ⟨h.ordered.1, hs⟩
    types := fun ht => by
      obtain ⟨x, x', hx, hx', hrest⟩ := h.types ht
      exact ⟨x, x', hx, entry_addType.mpr (.inl hx'), hrest⟩
    frames := h.frames
    functions := h.functions }

/-- The same type is asked for in both stores. -/
private theorem intern (h : s.Renumbered m s') {e e' : TypeEntry} {p p' : TypeEntry → Bool}
    (hp : ∀ x, p x = true ↔ x = e)
    (hp' : ∀ x, p' x = true ↔ x = e') (hmatch : e.Matches m e') (hstruct : e.struct? = none)
    (hparts : ∀ t ∈ e.parts, t < s.types.size) (hparts' : ∀ t ∈ e'.parts, t < s'.types.size) :
    ∃ n, m ≤ n ∧ Store.Renumbered n { s with types := (s.types.intern p e).2 }
      { s' with types := (s'.types.intern p' e').2 } ∧
      n.type (s.types.intern p e).1 (s'.types.intern p' e').1 := by
  -- each of the stores is made to list the type, if it does not yet
  have hleft : ∃ t : Store, t.Renumbered m s' ∧ t = { s with types := (s.types.intern p e).2 } ∧
      t.typeAt? (s.types.intern p e).1 = some e := by
    rcases @Types.intern_cases s.types p e hp with ⟨id, heq, hid⟩ | ⟨heq, hnew⟩
    · exact ⟨s, h, by rw [heq], by rw [heq]; exact hid⟩
    · refine ⟨s.addType e, h.addLeft (h.ordered.1.addType hparts hnew), by rw [heq]; rfl, ?_⟩
      rw [heq]
      exact entry_addType.mpr (.inr ⟨rfl, rfl⟩)
  obtain ⟨t, ht, rfl, hid⟩ := hleft
  have hright : ∃ t' : Store, Store.Renumbered m { s with types := (s.types.intern p e).2 } t' ∧
      t' = { s' with types := (s'.types.intern p' e').2 } ∧ t'.typeAt? (s'.types.intern p' e').1 = some e' := by
    rcases @Types.intern_cases s'.types p' e' hp' with ⟨id, heq, hid⟩ | ⟨heq, hnew⟩
    · exact ⟨s', ht, by rw [heq], by rw [heq]; exact hid⟩
    · refine ⟨s'.addType e', ht.addRight (h.ordered.2.addType hparts' hnew), by rw [heq]; rfl, ?_⟩
      rw [heq]
      exact entry_addType.mpr (.inr ⟨rfl, rfl⟩)
  obtain ⟨t', ht', rfl, hid'⟩ := hright
  exact ht'.link hid hid' hmatch hstruct

theorem lt_size (h : s.Renumbered m s') {t t' : TypeId} (ht : m.type t t') : t < s.types.size ∧ t' < s'.types.size := by
  obtain ⟨e, e', he, he', -⟩ := h.types ht
  exact ⟨(List.getElem?_eq_some_iff.mp he).1, (List.getElem?_eq_some_iff.mp he').1⟩

/-! ### What is read -/

private theorem get (h : s.Renumbered m s') {t t' : TypeId} (ht : m.type t t') :
    Except.Rel Eq (fun e e' => e.Matches m e' ∧ e.Closed) (s.types.get t) (s'.types.get t') := by
  obtain ⟨e, e', he, he', hmatch⟩ := h.types ht
  rw [get_of_entry he, get_of_entry he']
  exact .ok hmatch

private theorem textWithin (h : s.Renumbered m s') {depth depth' : Nat} {t t' : TypeId}
    (ht : m.type t t') (hlt : t < depth)
    (hlt' : t' < depth') : Except.Rel Eq Eq (s.types.textWithin depth t) (s'.types.textWithin depth' t') := by
  induction depth generalizing t t' depth' with
  | zero => exact absurd hlt (Nat.not_lt_zero t)
  | succ depth ih =>
    obtain ⟨depth', rfl⟩ := Nat.exists_eq_succ_of_ne_zero (Nat.ne_of_gt (Nat.zero_lt_of_lt hlt'))
    obtain ⟨e, e', he, he', hmatch, -⟩ := h.types ht
    -- the parts of a type stand before it, so that the bounds that are left do for them
    have hpart : ∀ u u', u ∈ e.parts → u' ∈ e'.parts → m.type u u' →
        Except.Rel Eq Eq (s.types.textWithin depth u) (s'.types.textWithin depth' u') := fun u u' hu hu' huu' =>
      ih huu' (Nat.lt_of_lt_of_le (h.ordered.1.parts t e he u hu) (Nat.le_of_lt_succ hlt))
        (Nat.lt_of_lt_of_le (h.ordered.2.parts t' e' he' u' hu') (Nat.le_of_lt_succ hlt'))
    rw [Types.textWithin, Types.textWithin, get_of_entry he, get_of_entry he']
    simp only [ok_bind]
    cases hmatch with
    | primitive => exact .ok rfl
    | struct hd => exact .ok hd.name.symm
    | reference hu => exact (hpart _ _ List.mem_cons_self List.mem_cons_self hu).bind fun _ _ heq => .ok (by rw [heq])
    | function hps hr =>
      have hparams := rel_mapM (forall₂_of_mem hps fun u hu u' hu' huu' =>
        hpart u u' (List.mem_cons_of_mem _ hu) (List.mem_cons_of_mem _ hu') huu')
      refine hparams.bind fun texts texts' htexts => ?_
      rw [List.forall₂_eq_eq_eq] at htexts
      subst htexts
      simp only [h.type_iff hr (h.primitive (show TypeId.void < _ by decide))]
      split
      · exact .ok rfl
      · exact (hpart _ _ List.mem_cons_self List.mem_cons_self hr).bind fun _ _ heq => .ok (by rw [heq])

theorem text (h : s.Renumbered m s') {t t' : TypeId} (ht : m.type t t') :
    Except.Rel Eq Eq (s.types.text t) (s'.types.text t') :=
  h.textWithin ht (Nat.lt_succ_self t) (Nat.lt_succ_self t')

private theorem frame (h : s.Renumbered m s') {fr fr' : FrameId} (hfr : m.frame fr fr') :
    Except.Rel Eq (Frame.Alike m) (s.frames.get fr) (s'.frames.get fr') := by
  obtain ⟨f, f', hf, hf', hff'⟩ := h.frames hfr
  rw [frame_get hf, frame_get hf']
  exact .ok hff'

private theorem search (h : s.Renumbered m s') {α β : Type} {Q : α → β → Prop} {find : Frame → Option α}
    {find' : Frame → Option β}
    (hfind : ∀ f f', f.Alike m f' → Option.Rel Q (find f) (find' f')) {fr fr' : FrameId} (hfr : m.frame fr fr') :
    Except.Rel Eq (Option.Rel Q) (s.frames.search find fr) (s'.frames.search find' fr') := by
  have hin : ∀ {chain chain'}, List.Forall₂ m.frame chain chain' →
      Except.Rel Eq (Option.Rel Q) (s.frames.searchIn find chain) (s'.frames.searchIn find' chain') := by
    intro chain chain' hchain
    induction hchain with
    | nil => exact .ok .none
    | cons hfr _ ih =>
      rw [Frames.searchIn, Frames.searchIn]
      refine (h.frame hfr).bind fun f f' hf => ?_
      have hfound := hfind f f' hf
      generalize find f = o at hfound
      generalize find' f' = o' at hfound
      cases hfound with
      | none => exact ih
      | some hx => exact .ok (.some hx)
  refine Except.Rel.bind (Q := List.Forall₂ m.frame) ((h.frame hfr).bind fun f f' hf => .ok (.cons hfr hf.outer))
    fun _ _ hchain => ?_
  exact hin hchain

/-! ### What is written -/

private theorem addFrames (h : s.Renumbered m s') {fr fr' : FrameId} {f f' : Frame} (hfr : m.frame fr fr')
    (hf : s.frame? fr = some f) (hf' : s'.frame? fr' = some f') :
    Store.Renumbered (m.withFrame s.frames.size s'.frames.size) (s.addFrame (fr :: f.outer))
      (s'.addFrame (fr' :: f'.outer)) := by
  have hle := m.le_withFrame s.frames.size s'.frames.size
  have hlt : ∀ {g g'}, m.frame g g' → g < s.frames.size ∧ g' < s'.frames.size := by
    intro g g' hg
    obtain ⟨x, x', hx, hx', -⟩ := h.frames hg
    exact ⟨frame_lt_size hx, frame_lt_size hx'⟩
  exact
    { span_iff := h.span_iff
      type_iff := h.type_iff
      frame_iff := by
        rintro g g' k k' (hg | ⟨rfl, rfl⟩) (hk | ⟨rfl, rfl⟩)
        · exact h.frame_iff hg hk
        · exact iff_of_false (Nat.ne_of_lt (hlt hg).2) (Nat.ne_of_lt (hlt hg).1)
        · exact iff_of_false (Nat.ne_of_gt (hlt hk).2) (Nat.ne_of_gt (hlt hk).1)
        · exact iff_of_true rfl rfl
      problem := h.problem
      primitive := h.primitive
      module := .inl h.module
      exported := .inl h.exported
      ordered := h.ordered
      types := fun ht => by
        obtain ⟨e, e', he, he', hmatch, hclosed⟩ := h.types ht
        exact ⟨e, e', he, he', hmatch.imp hle.finer, hclosed⟩
      frames := by
        rintro g g' (hg | ⟨rfl, rfl⟩)
        · obtain ⟨x, x', hx, hx', hxx'⟩ := h.frames hg
          exact ⟨x, x', frame_addFrame hx, frame_addFrame hx', hxx'.mono hle⟩
        · refine ⟨_, _, (frame?_addFrame _ _).trans (if_pos rfl), (frame?_addFrame _ _).trans (if_pos rfl), ?_⟩
          obtain ⟨x, x', hx, hx', hxx'⟩ := h.frames hfr
          cases hf.symm.trans hx
          cases hf'.symm.trans hx'
          exact ⟨(List.Forall₂.cons hfr hxx'.outer).imp hle.frame, fun _ => .none, fun _ => .none⟩
      functions := fun hkey => (h.functions hkey).imp hle.finer }

private theorem addVariables (h : s.Renumbered m s') {fr fr' : FrameId} {f f' : Frame}
    {v v' : Variable} (hfr : m.frame fr fr')
    (hf : s.frame? fr = some f) (hf' : s'.frame? fr' = some f') (hv : v.Matches m v') :
    (s.addVariable fr f v).Renumbered m (s'.addVariable fr' f' v') :=
  { h with
    ordered := h.ordered
    types := h.types
    functions := h.functions
    frames := by
      intro g g' hg
      obtain ⟨x, x', hx, hx', hxx'⟩ := h.frames hg
      rw [frame?_addVariable hf, frame?_addVariable hf']
      by_cases heq : g = fr
      · have heq' := (h.frame_iff hg hfr).mpr heq
        subst heq heq'
        cases hf.symm.trans hx
        cases hf'.symm.trans hx'
        exact ⟨_, _, if_pos rfl, if_pos rfl, hxx'.declare hv⟩
      · have hne' : g' ≠ fr' := fun heq' => heq ((h.frame_iff hg hfr).mp heq')
        exact ⟨x, x', (if_neg heq).trans hx, (if_neg hne').trans hx', hxx'⟩ }

private theorem withFunctions (h : s.Renumbered m s') {key key' : Span} {r r' : FunctionRecord} (hkey : m.span key key')
    (hr : r.Alike m r') : (s.withFunction key r).Renumbered m (s'.withFunction key' r') :=
  { h with
    ordered := h.ordered
    types := h.types
    frames := h.frames
    functions := by
      intro k k' hk
      rw [function_withFunction, function_withFunction]
      by_cases heq : k = key
      · rw [if_pos heq, if_pos ((h.span_iff hk hkey).mpr heq)]
        exact hr
      · rw [if_neg heq, if_neg fun heq' => heq ((h.span_iff hk hkey).mp heq')]
        exact h.functions hk }

end Store.Renumbered

/-! ### Actions -/

section

variable {m : Matching} {fr fr' : FrameId} {t t' : TypeId}

private theorem renumbered_complete {n n' : Nat} {a a' : Span} (ht : m.type t t') :
    InStep Renumbered m TypesMatch (completeWithin (n + 1) a t) (completeWithin (n' + 1) a' t') := by
  refine inStep_fromTypes (fun _ _ hs => hs.get ht) fun e e' h => ?_
  obtain ⟨he, hclosed⟩ := h
  cases he with
  | struct hd hstate =>
    cases hstate with
    | unresolved | resolving => rcases hclosed _ _ rfl with ⟨fields, h⟩ | ⟨why, h⟩ <;> cases h
    | resolved => exact inStep_pure ht
    | failed hwhy => exact inStep_throw (.refused hwhy)
  | primitive | reference | function => exact inStep_pure ht

private theorem renumbered_declare {v v' : Variable} (hfr : m.frame fr fr') (hv : v.Matches m v') :
    InStep Renumbered m (fun _ _ _ => True) (declare fr v) (declare fr' v') := by
  intro s s' hs
  obtain ⟨f, f', hf, hf', hff'⟩ := hs.frames hfr
  rw [run_declare hf, run_declare hf', hv.name, hff'.has]
  split
  · exact ⟨m, le_refl m, hs, .error (.refused (hs.problem _ hv.span))⟩
  · exact ⟨m, le_refl m, hs.addVariables hfr hf hf' hv, .ok trivial⟩

private theorem renumbered_nest (hfr : m.frame fr fr') : InStep Renumbered m Matching.frame (nest fr) (nest fr') := by
  intro s s' hs
  obtain ⟨f, f', hf, hf', -⟩ := hs.frames hfr
  rw [run_nest hf, run_nest hf']
  exact ⟨_, m.le_withFrame s.frames.size s'.frames.size, hs.addFrames hfr hf hf', .ok (.inr ⟨rfl, rfl⟩)⟩

private theorem renumbered_updateFunction {key key' : Span} {change change' : FunctionRecord → FunctionRecord}
    (hkey : m.span key key') (h : ∀ r r', r.Alike m r' → (change r).Alike m (change' r')) :
    InStep Renumbered m (fun _ _ _ => True) (updateFunction key change) (updateFunction key' change') :=
  inStep_modify (fun _ _ hs => hs.withFunctions hkey (h _ _ (hs.functions hkey))) trivial

private theorem renumbered_register {h h' : Header} (hfr : m.frame fr fr') (hh : h.Matches m h') :
    InStep Renumbered m (fun _ _ _ => True) (registerFunction fr h) (registerFunction fr' h') := by
  refine inStep_get fun s s' hs => ?_
  rw [(hs.functions hh.span).variableType.isSome, hh.exported]
  split
  · exact inStep_pure trivial
  refine (renumbered_declare hfr hh.binding).bind fun n _ _ h₁ _ => ?_
  have hknown : InStep Renumbered n (fun _ _ _ => True) (updateFunction h.span ({ · with variableType := some .empty }))
      (updateFunction h'.span ({ · with variableType := some .empty })) :=
    renumbered_updateFunction (h₁.span ▸ hh.span) fun r r' hr => { hr with variableType := .some .empty }
  refine hknown.bind fun l _ _ h₂ _ => .intro fun s s' hs => ?_
  split
  · exact renumbered_declare hs.exported (hh.mono (le_trans h₁ h₂)).binding
  · exact inStep_pure trivial

end

/-- The operations on types do the same on stores that differ by numbers. -/
private theorem renumbered_types : TypeSimulation Renumbered where
  type_iff hs _ _ _ _ := hs.type_iff
  primitive hs _ := hs.primitive
  problem hs _ _ := hs.problem
  get hs _ _ ht := (hs.get ht).imp (fun _ _ h => h) fun _ _ h => h.1
  text hs _ _ := hs.text
  lookupType hs _ _ name := hs.search fun _ _ hf => hf.types name
  reference {m t t'} ht s s' hs := by
    have hparts :
        ∀ {u : TypeId} {s : Store}, u < s.types.size → ∀ x ∈ (TypeEntry.reference u).parts, x < s.types.size :=
      fun hu x hx => List.mem_singleton.mp hx ▸ hu
    obtain ⟨n, hle, hs', hid⟩ := hs.intern (fun _ => TypeEntry.isReferenceTo_iff) (fun _ => TypeEntry.isReferenceTo_iff)
      (.reference ht) rfl (hparts (hs.lt_size ht).1) (hparts (hs.lt_size ht).2)
    exact ⟨n, hle, hs', .ok hid⟩
  functionOf {m ps ps' r r'} hps hr s s' hs := by
    have hlt : ∀ {ps ps' : List TypeId}, List.Forall₂ m.type ps ps' →
        (∀ x ∈ ps, x < s.types.size) ∧ ∀ x ∈ ps', x < s'.types.size := by
      intro ps ps' h
      induction h with
      | nil => simp
      | cons ht _ ih => simpa [(hs.lt_size ht).1, (hs.lt_size ht).2] using ih
    obtain ⟨n, hle, hs', hid⟩ := hs.intern (fun _ => TypeEntry.isFunctionOf_iff) (fun _ => TypeEntry.isFunctionOf_iff)
      (.function hps hr) rfl (hlt (.cons hr hps)).1 (hlt (.cons hr hps)).2
    exact ⟨n, hle, hs', .ok hid⟩

private theorem renumbered_signature {m : Matching} {fr fr' : FrameId} {key key' : Span}
    {p p' : Prototype} (hfr : m.frame fr fr')
    (hkey : m.span key key') (hp : p.Matches m.span p') :
    InStep Renumbered m TypesMatch (resolveSignature fr key p) (resolveSignature fr' key' p') := by
  refine inStep_get fun s s' hs => ?_
  obtain ⟨-, hsignature, hfailure⟩ := hs.functions hkey
  dsimp only
  generalize (s.function key).signature = o at hsignature hfailure
  generalize (s'.function key').signature = o' at hsignature
  cases hsignature with
  | some ht => exact inStep_pure ht
  | none =>
    specialize hfailure rfl
    generalize (s.function key).failure = o at hfailure
    generalize (s'.function key').failure = o' at hfailure
    cases hfailure with
    | some hwhy => exact inStep_throw (.refused hwhy)
    | none =>
      refine (inStep_prototype renumbered_types (fun _ _ _ _ _ _ _ _ ht => renumbered_complete ht) hfr hp).outcome.bind
        fun n x y h₁ hxy => ?_
      have hkey := h₁.span ▸ hkey
      cases hxy with
      | @ok t t' ht =>
        refine (renumbered_updateFunction hkey fun r r' hr => ?_).bind fun l _ _ h₂ _ => inStep_pure (h₂.type _ _ ht)
        exact ⟨hr.variableType.replace (.owned ht), .some ht, fun h => by cases h⟩
      | error hwhy =>
        cases hwhy with
        | fault f => exact inStep_fail
        | refused hwhy =>
          refine (renumbered_updateFunction hkey fun r r' hr => ?_).bind fun l _ _ h₂ _ =>
            inStep_throw (.refused (h₂.problem ▸ hwhy))
          exact ⟨hr.variableType, hr.signature, fun _ => .some hwhy⟩

theorem renumbered_simulation : Simulation Renumbered where
  toTypeSimulation := renumbered_types
  complete _ _ _ _ _ _ _ _ ht := renumbered_complete ht
  module hs := hs.module
  lookup hs _ _ name := hs.search fun _ _ hf => hf.values name
  typeOf hs v v' hv := by
    unfold Store.typeOf
    rw [hv.kind.isFunction]
    split
    · exact (hs.functions hv.span).variableType.getD .empty
    · exact hv.type
  signature := renumbered_signature
  register := renumbered_register
  nest := renumbered_nest
  declare := renumbered_declare

end RainCheck

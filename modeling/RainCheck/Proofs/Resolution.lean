import Mathlib.Data.List.Chain
import RainCheck.Proofs.StoreInvariant

/-!
# Resolving types

Resolving a written type raises no fault and keeps a store sound.
* A resolved type can be used; a refusal is due to the graph of structs (`Resolves`).
* The depth of the search is bounded by the number of structs that are still to be resolved, so its bound suffices.
* After a struct is completed it is resolved or has failed (`completes_completeWithin`).
-/

namespace RainCheck

open Relation (ReflTransGen)

/-! ### Adding types -/

namespace Store

variable {L : Listing} {s s' : Store} {id : TypeId}

/-- A store with one more type. -/
def addType (s : Store) (e : TypeEntry) : Store :=
  { s with types := { s.types with entries := s.types.entries ++ [e] } }

theorem entry_addType {e x : TypeEntry} :
    (s.addType e).typeAt? id = some x ↔ s.typeAt? id = some x ∨ id = s.types.size ∧ x = e :=
  Types.entry_add

theorem primitive_addType {e : TypeEntry} {name : String} (he : e ≠ .primitive name) :
    (s.addType e).typeAt? id = some (.primitive name) ↔ s.typeAt? id = some (.primitive name) :=
  entry_addType.trans (or_iff_left fun h => he h.2.symm)

/-- The parts of a reference or of a function type can be used in it. -/
def PartsKnown (s : Store) : TypeEntry → Prop
  | .reference inner => s.Known inner
  | .function params returns => (∀ p ∈ params, s.Settled p) ∧ s.Settled returns
  | _ => False

theorem growsTo_addType (e : TypeEntry) : s.GrowsTo (s.addType e) :=
  ⟨fun _ x hx => ⟨x, entry_addType.mpr (.inl hx), .refl x⟩, rfl, fun _ f hf => ⟨f, hf, .refl f⟩, fun _ => .refl _⟩

private theorem refines_addType {e : TypeEntry} (he : s.PartsKnown e) : s.Refines (s.addType e) := by
  refine ⟨⟨growsTo_addType e, rfl, ?_⟩, rfl, rfl⟩
  have hpending : e.isPending = false := by
    cases e with
    | struct => exact he.elim
    | _ => rfl
  simp [pending, addType, hpending]

/-- A type with parts is no struct, so all structs were there before. -/
private theorem PartsKnown.struct_old {e : TypeEntry} {decl : StructDecl} {state : StructState} (he : s.PartsKnown e)
    (hid : (s.addType e).typeAt? id = some (.struct decl state)) : s.typeAt? id = some (.struct decl state) := by
  refine (entry_addType.mp hid).resolve_right ?_
  rintro ⟨-, rfl⟩
  exact he

private theorem TypesSound.addType (h : s.TypesSound L) {e : TypeEntry} (he : s.PartsKnown e)
    (hfresh : e ∉ s.types.entries) :
    (s.addType e).TypesSound L := by
  have hg := (refines_addType he).toGrowsTo
  exact
    { primitives := fun j name => (primitive_addType (by rintro rfl; exact he)).trans (h.primitives j name)
      references := fun j inner hj => by
        rcases entry_addType.mp hj with hj | ⟨rfl, rfl⟩
        · exact ⟨(h.references j inner hj).1, hg.known (h.references j inner hj).2⟩
        · exact ⟨Known.lt_size he, hg.known he⟩
      functionTypes := fun j params returns hj => by
        rcases entry_addType.mp hj with hj | ⟨rfl, rfl⟩
        · obtain ⟨hparams, hlt, hreturns⟩ := h.functionTypes j params returns hj
          exact ⟨fun p hp => ⟨(hparams p hp).1, hg.settled (hparams p hp).2⟩, hlt, hg.settled hreturns⟩
        · exact ⟨fun p hp => ⟨(he.1 p hp).1.lt_size, hg.settled (he.1 p hp)⟩, he.2.1.lt_size, hg.settled he.2⟩
      listed := fun j decl state hj => h.listed j decl state (he.struct_old hj)
      resolved := fun j decl fields hj => by
        obtain ⟨hfields, hnames, hdoom⟩ := h.resolved j decl fields (he.struct_old hj)
        exact ⟨fun f hf => hg.settled (hfields f hf), hnames, hdoom⟩
      written := fun hclosed j decl fields hj => (h.written hclosed j decl fields (he.struct_old hj)).grow hg
      failed := fun j decl why hj => h.failed j decl why (he.struct_old hj)
      resolving := fun j => (h.resolving j).trans
        ⟨fun ⟨decl, hj⟩ => ⟨decl, entry_addType.mpr (.inl hj)⟩, fun ⟨decl, hj⟩ => ⟨decl, he.struct_old hj⟩⟩
      path := fun hclosed => (h.path hclosed).imp fun _ _ hlink => hg.link hlink
      nodup := h.nodup
      held := fun j hj => hg.known (h.held j hj)
      once := fun i j x hi hj hx => by
        rcases entry_addType.mp hi with hi | ⟨rfl, rfl⟩ <;> rcases entry_addType.mp hj with hj | ⟨rfl, heq⟩
        · exact h.once i j x hi hj hx
        · exact absurd (List.mem_of_getElem? (heq ▸ hi)) hfresh
        · exact absurd (List.mem_of_getElem? hj) hfresh
        · rfl
      registered := fun hdistinct j decl state hj => h.registered hdistinct j decl state (he.struct_old hj) }

private theorem Sound.addType (h : s.Sound L) {e : TypeEntry} (he : s.PartsKnown e) (hfresh : e ∉ s.types.entries) :
    (s.addType e).Sound L :=
  h.change_types (refines_addType he).toGrowsTo rfl rfl (h.types.addType he hfresh)

/-! ### Changing the state of a struct -/

/-- A store in which a struct has another state and others are being resolved. -/
def withState (s : Store) (id : TypeId) (state : StructState) (resolving : Stack TypeId) : Store :=
  { s with types := { s.types.setState id state with resolving } }

theorem entry_withState {decl : StructDecl} {old state : StructState} {resolving : Stack TypeId}
    (he : s.typeAt? id = some (.struct decl old)) (j : TypeId) :
    (s.withState id state resolving).typeAt? j = if j = id then some (.struct decl state) else s.typeAt? j := by
  unfold typeAt? at he ⊢
  unfold withState Types.setState
  simp only [List.getElem?_modify]
  by_cases hj : j = id
  · subst hj
    simp [he]
  · simp only [Ne.symm hj, hj, if_false]
    simp

/-- Behind the change there is the changed struct, and what was there before. -/
theorem entry_withState_cases {decl : StructDecl} {old state : StructState} {resolving : Stack TypeId}
    (he : s.typeAt? id = some (.struct decl old)) {j : TypeId} {x : TypeEntry}
    (hj : (s.withState id state resolving).typeAt? j = some x) :
    j = id ∧ x = .struct decl state ∨ j ≠ id ∧ s.typeAt? j = some x := by
  rw [entry_withState he] at hj
  by_cases hid : j = id
  · rw [if_pos hid] at hj
    exact .inl ⟨hid, (Option.some.inj hj).symm⟩
  · rw [if_neg hid] at hj
    exact .inr ⟨hid, hj⟩

/-- What is not a struct is as before. -/
theorem entry_withState_other {decl : StructDecl} {old state : StructState} {resolving : Stack TypeId}
    (he : s.typeAt? id = some (.struct decl old)) {j : TypeId} {x : TypeEntry} (hx : x.struct? = none)
    (hj : (s.withState id state resolving).typeAt? j = some x) : s.typeAt? j = some x := by
  rcases entry_withState_cases he hj with ⟨-, rfl⟩ | ⟨-, hj⟩
  · cases hx
  · exact hj

private theorem pending_withState {decl : StructDecl} {old state : StructState} {resolving : Stack TypeId}
    (he : s.typeAt? id = some (.struct decl old)) (hstate : state ≠ .unresolved) :
    (s.withState id state resolving).pending + (if old matches .unresolved then 1 else 0) = s.pending := by
  obtain ⟨hlt, hget⟩ := List.getElem?_eq_some_iff.mp he
  have hentries : (s.withState id state resolving).types.entries = s.types.entries.set id (.struct decl state) := by
    have hentry : s.types.entries[id]? = some (.struct decl old) := he
    simp [withState, Types.setState, List.modify_eq_set_getElem?, hentry]
  have hnew : (TypeEntry.struct decl state).isPending = false := by
    cases state <;> simp_all [TypeEntry.isPending]
  have hpos : (TypeEntry.struct decl old).isPending = true → 0 < s.pending := by
    intro hold
    exact List.countP_pos_iff.mpr ⟨_, List.mem_of_getElem? he, hold⟩
  unfold pending at hpos ⊢
  rw [hentries, List.countP_set hlt, hget, hnew]
  cases old with
  | unresolved =>
    have := hpos rfl
    simp only [TypeEntry.isPending, if_true, Bool.false_eq_true, if_false]
    omega
  | _ => simp [TypeEntry.isPending]

/-- The state of a struct that is not settled yet may change. -/
private theorem growsTo_withState {decl : StructDecl} {old state : StructState} {resolving : Stack TypeId}
    (he : s.typeAt? id = some (.struct decl old)) (hold : old = .unresolved ∨ old = .resolving) :
    s.GrowsTo (s.withState id state resolving) := by
  refine ⟨fun j e hj => ?_, rfl, fun fr f hf => ⟨f, hf, .refl f⟩, fun _ => .refl _⟩
  rw [entry_withState he]
  by_cases hid : j = id
  · subst hid
    rw [he] at hj
    cases hj
    refine ⟨.struct decl state, by simp, ?_⟩
    rcases hold with rfl | rfl
    · exact .start decl state
    · exact .finish decl state
  · exact ⟨e, by simpa [hid] using hj, .refl e⟩

/-- What holds of a struct whose fields are resolved, or that has failed, when it gets that state. -/
structure Justified (L : Listing) (s : Store) (decl : StructDecl) (state : StructState) : Prop where
  resolved : ∀ fields, state = .resolved fields →
    (∀ f ∈ fields, s.Settled f.2) ∧ fields.map (·.1) = decl.fields.map (·.name) ∧ (fields.map (·.1)).Nodup ∧
      (L.closed → ¬decl.Doomed L.scope)
  written : L.closed → ∀ fields, state = .resolved fields → s.Wrote L.scope fields decl.fields
  failed : ∀ why, state = .failed why → L.Allows why ∧ (L.closed → decl.Doomed L.scope)

private theorem Justified.start {decl : StructDecl} : s.Justified L decl .resolving where
  resolved := nofun
  written := nofun
  failed := nofun

private theorem Justified.finish {decl : StructDecl} {fields : List (String × TypeId)}
    (hsettled : ∀ f ∈ fields, s.Settled f.2)
    (hnames : fields.map (·.1) = decl.fields.map (·.name)) (hnodup : (fields.map (·.1)).Nodup)
    (hfree : L.closed → ¬decl.Doomed L.scope) (hwritten : L.closed → s.Wrote L.scope fields decl.fields) :
    s.Justified L decl (.resolved fields) where
  resolved := by
    rintro _ ⟨⟩
    exact ⟨hsettled, hnames, hnodup, hfree⟩
  written := by
    rintro hclosed _ ⟨⟩
    exact hwritten hclosed
  failed := nofun

private theorem Justified.fail {decl : StructDecl} {why : Diagnostic} (hallows : L.Allows why)
    (hdoomed : L.closed → decl.Doomed L.scope) : s.Justified L decl (.failed why) where
  resolved := nofun
  written := nofun
  failed := by
    rintro _ ⟨⟩
    exact ⟨hallows, hdoomed⟩

/-- The types stay sound if the new state is justified and the structs being resolved are again a path. -/
private theorem TypesSound.withState (h : s.TypesSound L) {decl : StructDecl} {old state : StructState}
    {resolving : Stack TypeId}
    (he : s.typeAt? id = some (.struct decl old)) (hold : old = .unresolved ∨ old = .resolving)
    (hstate : s.Justified L decl state)
    (hresolving : ∀ j, j ∈ resolving.items ↔
      (j = id ∧ state = .resolving) ∨ (j ≠ id ∧ j ∈ s.types.resolving.items))
    (hnodup : resolving.items.Nodup) (hknown : s.Known id)
    (hpath : L.closed → resolving.items.IsChain (s.Link L.scope)) : (s.withState id state resolving).TypesSound L := by
  have hg : s.GrowsTo (s.withState id state resolving) := growsTo_withState he hold
  exact
    { primitives := fun j name => .trans ⟨entry_withState_other he rfl, fun hj => hg.same hj rfl⟩ (h.primitives j name)
      references := fun j inner hj => by
        obtain ⟨hlt, hinner⟩ := h.references j inner (entry_withState_other he rfl hj)
        exact ⟨hlt, hg.known hinner⟩
      functionTypes := fun j params returns hj => by
        obtain ⟨hparams, hlt, hreturns⟩ := h.functionTypes j params returns (entry_withState_other he rfl hj)
        exact ⟨fun p hp => ⟨(hparams p hp).1, hg.settled (hparams p hp).2⟩, hlt, hg.settled hreturns⟩
      listed := fun j decl' state' hj => by
        rcases entry_withState_cases he hj with ⟨-, hj⟩ | ⟨-, hj⟩
        · cases hj
          exact h.listed id decl old he
        · exact h.listed j decl' state' hj
      resolved := fun j decl' fields hj => by
        have hjustified : (∀ f ∈ fields, s.Settled f.2) ∧ fields.map (·.1) = decl'.fields.map (·.name) ∧
            (fields.map (·.1)).Nodup ∧ (L.closed → ¬decl'.Doomed L.scope) := by
          rcases entry_withState_cases he hj with ⟨-, hj⟩ | ⟨-, hj⟩
          · cases hj
            exact hstate.resolved fields rfl
          · exact h.resolved j decl' fields hj
        exact ⟨fun f hf => hg.settled (hjustified.1 f hf), hjustified.2⟩
      written := fun hclosed j decl' fields hj => by
        rcases entry_withState_cases he hj with ⟨-, hj⟩ | ⟨-, hj⟩
        · cases hj
          exact (hstate.written hclosed fields rfl).grow hg
        · exact (h.written hclosed j decl' fields hj).grow hg
      failed := fun j decl' why hj => by
        rcases entry_withState_cases he hj with ⟨-, hj⟩ | ⟨-, hj⟩
        · cases hj
          exact hstate.failed why rfl
        · exact h.failed j decl' why hj
      resolving := fun j => by
        rw [show (s.withState id state resolving).types.resolving = resolving from rfl, hresolving j]
        constructor
        · rintro (⟨rfl, rfl⟩ | ⟨hid, hj⟩)
          · exact ⟨decl, by rw [entry_withState he]; simp⟩
          · obtain ⟨decl', hj⟩ := (h.resolving j).mp hj
            exact ⟨decl', by rw [entry_withState he]; simpa [hid] using hj⟩
        · rintro ⟨decl', hj⟩
          rcases entry_withState_cases he hj with ⟨hid, hj⟩ | ⟨hid, hj⟩
          · cases hj
            exact .inl ⟨hid, rfl⟩
          · exact .inr ⟨hid, (h.resolving j).mpr ⟨decl', hj⟩⟩
      path := fun hclosed => (hpath hclosed).imp fun _ _ hlink => hg.link hlink
      nodup := hnodup
      held := fun j hj => by
        rcases (hresolving j).mp hj with ⟨rfl, -⟩ | ⟨-, hj⟩
        · exact hg.known hknown
        · exact hg.known (h.held j hj)
      once := fun i j x hi hj hx =>
        h.once i j x (entry_withState_other he hx hi) (entry_withState_other he hx hj) hx
      registered := fun hdistinct j decl' state' hj => by
        rcases entry_withState_cases he hj with ⟨hid, heq⟩ | ⟨-, hj⟩
        · cases heq
          exact hid ▸ h.registered hdistinct id decl old he
        · exact h.registered hdistinct j decl' state' hj }

/-! ### Structs that are being resolved -/

/-- The structs at some positions are being resolved. -/
def Underway (s : Store) (ids : List TypeId) (decls : List StructDecl) : Prop :=
  List.Forall₂ (fun id d => s.typeAt? id = some (.struct d .resolving)) ids decls

namespace Underway

variable {ids before : List TypeId} {decls : List StructDecl}

private theorem chain {scope : TypeScope} (h : s.Underway ids decls) (hchain : ids.IsChain (s.Link scope)) :
    decls.IsChain (StructDecl.DependsOn scope) := by
  induction h with
  | nil => exact .nil
  | cons hid htail ih =>
    cases htail with
    | nil => exact List.isChain_singleton _
    | cons hnext hrest =>
      rw [List.isChain_cons_cons] at hchain ⊢
      obtain ⟨⟨A, B, sa, sb, ha, hb, hdep⟩, hchain⟩ := hchain
      cases hid.symm.trans ha
      cases hnext.symm.trans hb
      exact ⟨hdep, ih hchain⟩

private theorem exists_of_mem (h : s.Underway ids decls) {d : StructDecl} (hd : d ∈ decls) :
    ∃ id ∈ ids, s.typeAt? id = some (.struct d .resolving) := by
  induction h with
  | nil => cases hd
  | @cons id d' ids decls hid _ ih =>
    rcases List.mem_cons.mp hd with rfl | hd
    · exact ⟨id, by simp, hid⟩
    · exact (ih hd).imp fun j hj => ⟨List.mem_cons_of_mem id hj.1, hj.2⟩

private theorem getLast? (h : s.Underway ids decls) :
    Option.Rel (fun id d => s.typeAt? id = some (.struct d .resolving)) ids.getLast? decls.getLast? := by
  induction h with
  | nil => exact .none
  | cons hid htail ih =>
    cases htail with
    | nil => exact .some hid
    | cons => rwa [List.getLast?_cons_cons, List.getLast?_cons_cons]

/-- The last one is the innermost one. -/
private theorem top_iff (h : s.Underway ids decls) {A : StructDecl} (hitems : s.types.resolving.items = before ++ ids)
    (hne : ids ≠ []) : s.Top A ↔ decls.getLast? = some A := by
  obtain ⟨id, hid⟩ := Option.isSome_iff_exists.mp (List.getLast?_isSome.mpr hne)
  have hlast : s.types.resolving.items.getLast? = some id := by rw [hitems, List.getLast?_append, hid]; rfl
  have hrel := h.getLast?
  rw [hid] at hrel
  cases hdecl : decls.getLast? with
  | none => rw [hdecl] at hrel; cases hrel
  | some d =>
    rw [hdecl] at hrel
    cases hrel with
    | some he =>
      constructor
      · rintro ⟨id', state, hid', he'⟩
        cases hlast.symm.trans hid'
        cases he.symm.trans he'
        rfl
      · rintro ⟨⟩
        exact ⟨id, .resolving, hlast, he⟩

end Underway

namespace TypesSound

variable (h : s.TypesSound L)
include h

/-- The path on which a struct is met, cut at that struct. -/
private theorem underway_from {decl : StructDecl} (hid : s.typeAt? id = some (.struct decl .resolving)) :
    ∃ before after rest, s.types.resolving.items = before ++ id :: after ∧ id ∉ before ∧
      s.Underway (id :: after) (decl :: rest) := by
  obtain ⟨before, after, hitems⟩ := List.append_of_mem ((h.resolving id).mpr ⟨decl, hid⟩)
  have hafter : ∀ j ∈ after, ∃ d, s.typeAt? j = some (.struct d .resolving) := fun j hj =>
    (h.resolving j).mp (by simp [hitems, hj])
  have hnodup := h.nodup
  rw [hitems] at hnodup
  have hbefore : id ∉ before := fun hmem => (List.nodup_append.mp hnodup).2.2 id hmem id (by simp) rfl
  suffices hrest : ∃ rest, s.Underway after rest by
    obtain ⟨rest, hrest⟩ := hrest
    exact ⟨before, after, rest, hitems, hbefore, .cons hid hrest⟩
  clear hitems hnodup
  induction after with
  | nil => exact ⟨[], .nil⟩
  | cons j after ih =>
    obtain ⟨d, hd⟩ := hafter j (by simp)
    obtain ⟨rest, hrest⟩ := ih fun k hk => hafter k (by simp [hk])
    exact ⟨d :: rest, .cons hd hrest⟩

private theorem path_after {before ids : List TypeId} (hclosed : L.closed)
    (hitems : s.types.resolving.items = before ++ ids) :
    ids.IsChain (s.Link L.scope) := by
  have hpath := h.path hclosed
  rw [hitems] at hpath
  exact hpath.right_of_append

/-- No struct is met twice on the path: a struct is registered at one position. -/
private theorem underway_nodup {ids : List TypeId} {decls : List StructDecl} (hunderway : s.Underway ids decls)
    (hids : ids <:+ s.types.resolving.items) : decls.Nodup := by
  have hfind : ∀ j ∈ ids, ∀ d, s.typeAt? j = some (.struct d .resolving) →
      s.structs.find? d.span = some ⟨j, FrameId.module⟩ := by
    intro j hj d he
    obtain ⟨e, he', hregistered⟩ := h.held j (hids.subset hj)
    cases he.symm.trans he'
    exact hregistered d .resolving rfl
  have hnodup : ids.Nodup := h.nodup.sublist hids.sublist
  clear hids
  induction hunderway with
  | nil => exact List.nodup_nil
  | @cons j d ids decls he htail ih =>
    have hrest := ih (fun k hk => hfind k (by simp [hk])) (List.nodup_cons.mp hnodup).2
    refine List.nodup_cons.mpr ⟨fun hmem => ?_, hrest⟩
    obtain ⟨k, hk, he'⟩ := Underway.exists_of_mem htail hmem
    cases (hfind j (by simp) d he).symm.trans (hfind k (by simp [hk]) d he')
    exact (List.nodup_cons.mp hnodup).1 hk

end TypesSound

end Store

/-! ### Resolving -/

namespace Action

variable {α β : Type} {L : Listing} {s s' : Store}

/--
An action resolves something in a sound store: it refines the store, and if it refuses the program, the innermost struct
that is being resolved is doomed.
-/
def Resolves (L : Listing) (s : Store) (a : Action α) (P : α → Store → Prop) : Prop :=
  a.Ends s (fun x s' => s'.Sound L ∧ s.Refines s' ∧ P x s')
    (fun d s' => s'.Sound L ∧ s.Refines s' ∧ L.Allows d ∧ (L.closed → ∀ A, s.Top A → A.Doomed L.scope))

theorem Resolves.bind {a : Action α} {f : α → Action β} {P : α → Store → Prop} {Q : β → Store → Prop}
    (h : Resolves L s a P) (hf : ∀ x s', s'.Sound L → s.Refines s' → P x s' → Resolves L s' (f x) Q) :
    Resolves L s (a >>= f) Q := by
  refine Ends.bind h ?_
  rintro x s' ⟨hsound, hext, hP⟩
  refine (hf x s' hsound hext hP).mono ?_ ?_
  · rintro y s'' ⟨hsound', hext', hQ⟩
    exact ⟨hsound', hext.trans hext', hQ⟩
  · rintro d s'' ⟨hsound', hext', hallows, hdoom⟩
    exact ⟨hsound', hext.trans hext', hallows, fun hclosed A hA => hdoom hclosed A (hext.top hA)⟩

theorem Resolves.mono {a : Action α} {P Q : α → Store → Prop} (h : Resolves L s a P)
    (himp : ∀ x s', s'.Sound L → s.Refines s' → P x s' → Q x s') : Resolves L s a Q := by
  refine Ends.mono h ?_ fun _ _ h => h
  rintro x s' ⟨hsound, hext, hP⟩
  exact ⟨hsound, hext, himp x s' hsound hext hP⟩

private theorem resolves_pure {x : α} {P : α → Store → Prop} (hs : s.Sound L) (h : P x s) : Resolves L s (pure x) P :=
  ⟨hs, .refl s, h⟩

/-- A reference or function type whose parts are known is found or added. -/
private theorem resolves_intern {e : TypeEntry} {p : TypeEntry → Bool} (hp : ∀ x, p x = true ↔ x = e) (hs : s.Sound L)
    (he : s.PartsKnown e) :
    Resolves L s (updateTypes (·.intern p e)) fun id s' => s'.typeAt? id = some e := by
  unfold Resolves
  rw [ends_updateTypes]
  rcases (Types.intern_cases hp : _ ∨ s.types.intern p e = _ ∧ _) with ⟨id, hintern, hentry⟩ | ⟨hintern, hfresh⟩
  · rw [hintern]
    exact ⟨hs, .refl s, hentry⟩
  · rw [hintern]
    exact ⟨hs.addType he hfresh, Store.refines_addType he, Store.entry_addType.mpr (.inr ⟨rfl, rfl⟩)⟩

theorem resolves_reference {inner : TypeId} (hs : s.Sound L) (hinner : s.Known inner) :
    Resolves L s (updateTypes (·.reference inner)) fun id s' => s'.typeAt? id = some (.reference inner) :=
  resolves_intern (fun _ => TypeEntry.isReferenceTo_iff) hs hinner

theorem resolves_functionOf {params : List TypeId} {returns : TypeId} (hs : s.Sound L)
    (hparams : ∀ p ∈ params, s.Settled p) (hreturns : s.Settled returns) :
    Resolves L s (updateTypes (·.functionOf params returns)) fun id s' =>
      s'.typeAt? id = some (.function params returns) :=
  resolves_intern (fun _ => TypeEntry.isFunctionOf_iff) hs ⟨hparams, hreturns⟩

/-- A struct that is met where a name stands leads on from the innermost one that is being resolved. -/
def LeadsTo (L : Listing) (s : Store) (use : Span) (id : TypeId) : Prop :=
  L.closed → ∀ A, s.Top A → ∀ B state, s.typeAt? id = some (.struct B state) → A.DependsAt L.scope B use

/--
Completing a type: it is settled afterwards, or it is a struct that has failed or that contains itself.  `depth` bounds
the number of structs that are still to be resolved.
-/
def Completes (L : Listing) (depth : Nat) (complete : Span → TypeId → Action TypeId) : Prop :=
  ∀ s use id, s.Sound L → s.pending < depth → s.Known id → LeadsTo L s use id →
    (complete use id).Ends s (fun t s' => s'.Sound L ∧ s.Refines s' ∧ t = id ∧ s'.Settled id)
      (fun d s' => s'.Sound L ∧ s.Refines s' ∧ L.Allows d ∧
        ((∃ decl, s'.typeAt? id = some (.struct decl (.failed d))) ∨
          ∃ decl, s.typeAt? id = some (.struct decl .resolving)))

/-- From a struct that is being resolved, the path leads to the innermost one. -/
private theorem reaches_top {decl A : StructDecl} {id : TypeId} (hs : s.Sound L) (hclosed : L.closed)
    (hid : s.typeAt? id = some (.struct decl .resolving)) (htop : s.Top A) :
    ReflTransGen (StructDecl.DependsOn L.scope) decl A := by
  obtain ⟨before, after, rest, hitems, -, hunderway⟩ := hs.types.underway_from hid
  have hlast := List.getLast?_eq_getLast_of_ne_nil (List.cons_ne_nil decl rest)
  have hA := (hunderway.top_iff hitems (List.cons_ne_nil id after)).mp htop
  exact List.relationReflTransGen_of_exists_isChain_cons rest (hunderway.chain (hs.types.path_after hclosed hitems))
    (Option.some.inj (hlast.symm.trans hA))

/-- A struct that is met again while it is being resolved contains itself, through those that came after it. -/
private theorem isCycle_of_met {decl : StructDecl} {rest : List StructDecl} {use : Span} {id : TypeId}
    {before after : List TypeId}
    (hs : s.Sound L) (hclosed : L.closed) (hitems : s.types.resolving.items = before ++ id :: after)
    (hunderway : s.Underway (id :: after) (decl :: rest)) (hleads : LeadsTo L s use id) :
    StructDecl.IsCycle L.scope decl rest use where
  chain := hunderway.chain (hs.types.path_after hclosed hitems)
  nodup := hs.types.underway_nodup hunderway ⟨before, hitems.symm⟩
  back last hlast := by
    have htop := (hunderway.top_iff hitems (List.cons_ne_nil id after)).mpr hlast
    exact hleads hclosed last htop decl _ (List.forall₂_cons.mp hunderway).1

private theorem Completes.resolves {depth : Nat} {complete : Span → TypeId → Action TypeId}
    (hc : Completes L depth complete)
    {use : Span} {id : TypeId} (hs : s.Sound L) (hdepth : s.pending < depth) (hid : s.Known id)
    (hleads : LeadsTo L s use id) : Resolves L s (complete use id) fun t s' => t = id ∧ s'.Settled id := by
  refine (hc s use id hs hdepth hid hleads).mono (fun _ _ h => h) ?_
  rintro d s' ⟨hs', hext, hallows, hcases⟩
  refine ⟨hs', hext, hallows, fun hclosed A hA => ?_⟩
  rcases hcases with ⟨decl, hfailed⟩ | ⟨decl, hresolving⟩
  · -- a struct that has failed is doomed, and so is what depends on it
    obtain ⟨e, he, -⟩ := hid
    have hstate : ∃ state, s.typeAt? id = some (.struct decl state) := by
      cases hext.toGrowsTo.entry_of_some he hfailed <;> exact ⟨_, he⟩
    obtain ⟨state, he⟩ := hstate
    exact .step (hleads hclosed A hA decl state he).dependsOn ((hs'.types.failed id decl d hfailed).2 hclosed)
  · exact .of_cycle (hleads hclosed A hA decl _ hresolving).dependsOn (reaches_top hs hclosed hresolving hA)

/-! ### Written types -/

/-- A type can be resolved in a frame: what it mentions is listed, and the innermost struct being
resolved mentions it. -/
structure Resolvable (L : Listing) (depth : Nat) (fr : FrameId) (ms : List Mention) (uses : List TypeUse) (s : Store) :
    Prop where
  sound : s.Sound L
  depth : s.pending < depth
  frame : fr < s.frames.size
  listed : L.Lists ms
  top : ∀ A, s.Top A → fr = FrameId.module ∧ ∀ u ∈ uses, A.Uses u

theorem Resolvable.extend {depth : Nat} {fr : FrameId} {ms ms' : List Mention} {uses uses' : List TypeUse}
    (h : Resolvable L depth fr ms uses s) (hs' : s'.Sound L) (hext : s.Refines s') (hms : ∀ m ∈ ms', m ∈ ms)
    (huses : ∀ u ∈ uses', u ∈ uses) : Resolvable L depth fr ms' uses' s' := by
  refine ⟨hs', Nat.lt_of_le_of_lt hext.pending_le h.depth, hext.toGrowsTo.frame_lt h.frame,
    fun m hm => h.listed m (hms m hm), ?_⟩
  rintro A ⟨id, state, hlast, he⟩
  rw [hext.resolving] at hlast
  have hresolving : ∃ decl, s.typeAt? id = some (.struct decl .resolving) :=
    (h.sound.types.resolving id).mp (List.mem_of_getLast? hlast)
  obtain ⟨decl, hdecl⟩ := hresolving
  have hA : s.typeAt? id = some (.struct A .resolving) := by
    cases hext.toGrowsTo.entry_of_some hdecl he <;> exact hdecl
  have htop := h.top A ⟨id, .resolving, hlast, hA⟩
  exact ⟨htop.1, fun u hu => htop.2 u (huses u hu)⟩

section

variable {depth : Nat} {fr : FrameId} {t : TypeExpr} {ts : List TypeExpr} {result : Option TypeExpr} {span : Span}
  {shallow : Bool}

theorem Resolvable.first (h : Resolvable L depth fr (TypeExpr.mentionsAll (t :: ts)) (TypeExpr.usesAll (t :: ts)) s) :
    Resolvable L depth fr t.mentions (t.uses false) s :=
  h.extend h.sound (.refl s) (fun m hm => by simp [TypeExpr.mentionsAll, hm]) fun u hu => by simp [TypeExpr.usesAll, hu]

theorem Resolvable.rest (h : Resolvable L depth fr (TypeExpr.mentionsAll (t :: ts)) (TypeExpr.usesAll (t :: ts)) s)
    (hs' : s'.Sound L) (hext : s.Refines s') :
    Resolvable L depth fr (TypeExpr.mentionsAll ts) (TypeExpr.usesAll ts) s' :=
  h.extend hs' hext (fun m hm => by simp [TypeExpr.mentionsAll, hm]) fun u hu => by simp [TypeExpr.usesAll, hu]

theorem Resolvable.params
    (h : Resolvable L depth fr (TypeExpr.function span ts result).mentions
      ((TypeExpr.function span ts result).uses shallow) s) :
    Resolvable L depth fr (TypeExpr.mentionsAll ts) (TypeExpr.usesAll ts) s :=
  h.extend h.sound (.refl s) (fun m hm => by simp [TypeExpr.mentions, hm]) fun u hu => by simp [TypeExpr.uses, hu]

theorem Resolvable.returns
    (h : Resolvable L depth fr (TypeExpr.function span ts result).mentions
      ((TypeExpr.function span ts result).uses shallow) s) (hs' : s'.Sound L) (hext : s.Refines s') :
    Resolvable L depth fr (TypeExpr.optionMentions result) (TypeExpr.optionUses result) s' :=
  h.extend hs' hext (fun m hm => by simp [TypeExpr.mentions, hm]) fun u hu => by simp [TypeExpr.uses, hu]

end

/-- Names that are in scope; the structs used by value are free of doom. -/
def Fine (L : Listing) (names : List (Bool × String)) : Prop :=
  L.closed → ∀ n ∈ names, L.scope n.2 ≠ none ∧ (n.1 = false → ∀ B, L.scope n.2 = some (some B) → ¬B.Doomed L.scope)

theorem Fine.append {names names' : List (Bool × String)} (h : Fine L names) (h' : Fine L names') :
    Fine L (names ++ names') := by
  intro hclosed n hn
  rcases List.mem_append.mp hn with hn | hn
  · exact h hclosed n hn
  · exact h' hclosed n hn

/-- The name of a type is looked up; by value it is completed. -/
private theorem resolves_named {depth : Nat} {complete : Span → TypeId → Action TypeId}
    (hc : Completes L depth complete)
    {fr : FrameId} {span : Span} {name : String} {shallow : Bool}
    (h : Resolvable L depth fr [.typeName span] [⟨shallow, name, span⟩] s) :
    Resolves L s (resolveTypeWith complete fr shallow (.named span name)) fun id s' =>
      s'.Known id ∧ (shallow = false → s'.Settled id) ∧ (fr = FrameId.module → Fine L [(shallow, name)]) ∧
        (fr = FrameId.module → L.closed → s'.Denotes id ((TypeExpr.named span name).term L.scope)) := by
  obtain ⟨r, hlookup, hknown⟩ := h.sound.frames.lookupType h.frame name
  unfold Resolves
  rw [resolveTypeWith, ends_bind, ends_get, ends_bind, hlookup, ends_lift]
  cases r with
  | none =>
    simp only [ends_refuse]
    refine ⟨h.sound, .refl s, .unknownSymbol (h.listed (.typeName span) (by simp)), fun hclosed A hA => ?_⟩
    obtain ⟨rfl, huses⟩ := h.top A hA
    have hscope := h.sound.frames.scope_eq_none hclosed hlookup
    exact ⟨A, .refl, .inr (.inr ⟨shallow, name, (huses ⟨shallow, name, span⟩ (by simp)).mentions, hscope⟩)⟩
  | some id =>
    have hid := hknown id rfl
    obtain ⟨e, -, he⟩ := hid.get
    have hscope : L.closed → fr = FrameId.module → L.scope name = some (e.struct?.map (·.1)) := by
      rintro hclosed rfl
      exact h.sound.frames.scope_eq_some hclosed hlookup he
    cases shallow with
    | true =>
      refine ⟨h.sound, .refl s, hid, by simp, fun hfr hclosed n hn => ?_, fun hfr hclosed => ?_⟩
      · rw [List.mem_singleton] at hn
        subst hn
        exact ⟨by simp [hscope hclosed hfr], by simp⟩
      · exact h.sound.denotes_named hclosed (hfr ▸ hlookup) span
    | false =>
      -- a type that is named by value is one that the innermost struct depends on
      have hleads : LeadsTo L s span id := by
        intro hclosed A hA B state hB
        obtain ⟨hfr, huses⟩ := h.top A hA
        rw [he] at hB
        cases hB
        exact ⟨name, huses ⟨false, name, span⟩ (by simp), by simpa [TypeEntry.struct?] using hscope hclosed hfr⟩
      refine (hc.resolves h.sound h.depth hid hleads).mono ?_
      rintro t s' hs' hext ⟨rfl, hsettled⟩
      refine ⟨hsettled.1, fun _ => hsettled, fun hfr hclosed n hn => ?_, fun hfr hclosed =>
        hext.toGrowsTo.denotes (h.sound.denotes_named hclosed (hfr ▸ hlookup) span)⟩
      rw [List.mem_singleton] at hn
      subst hn
      refine ⟨by simp [hscope hclosed hfr], fun _ B hB => ?_⟩
      obtain ⟨e', he', hbecomes⟩ := hext.entries t e he
      have hdecl : e'.struct?.map (·.1) = some B := by
        rw [hscope hclosed hfr] at hB
        cases hbecomes <;> exact Option.some.inj hB
      cases e' with
      | struct decl state =>
        simp only [TypeEntry.struct?, Option.map_some, Option.some.injEq] at hdecl
        subst hdecl
        obtain ⟨fields, rfl⟩ := hsettled.2 _ _ he'
        exact (hs'.types.resolved t _ fields he').2.2.2 hclosed
      | _ => cases hdecl

mutual

/-- A written type is resolved. -/
theorem resolves_typeWith {depth : Nat} {complete : Span → TypeId → Action TypeId} (hc : Completes L depth complete)
    {fr : FrameId} {shallow : Bool} {s : Store} (t : TypeExpr)
    (h : Resolvable L depth fr t.mentions (t.uses shallow) s) :
    Resolves L s (resolveTypeWith complete fr shallow t) fun id s' =>
      s'.Known id ∧ (shallow = false → s'.Settled id) ∧ (fr = FrameId.module → Fine L (t.occurrences shallow)) ∧
        (fr = FrameId.module → L.closed → s'.Denotes id (t.term L.scope)) := by
  match t with
  | .named span name => exact resolves_named hc h
  | .reference span inner =>
    rw [resolveTypeWith]
    refine (resolves_typeWith hc inner h).bind ?_
    rintro id s' hs' hext ⟨hknown, -, hfine, hterm⟩
    refine (resolves_reference hs' hknown).mono ?_
    intro id' s'' hs'' hext' he
    have hsettled := Store.settled_of_entry he rfl
    exact ⟨hsettled.1, fun _ => hsettled, hfine, fun hfr hclosed =>
      .reference he (hext'.toGrowsTo.denotes (hterm hfr hclosed))⟩
  | .function span params returns =>
    rw [resolveTypeWith]
    refine (resolves_typesWith hc params h.params).bind ?_
    rintro ids s₁ hs₁ hext₁ ⟨hsettled, -, hfine, hterms⟩
    refine (resolves_returnsWith hc returns (h.returns hs₁ hext₁)).bind ?_
    rintro id s₂ hs₂ hext₂ ⟨hreturn, hfine', hterm⟩
    refine (resolves_functionOf hs₂ (fun p hp => hext₂.toGrowsTo.settled (hsettled p hp)) hreturn).mono ?_
    intro id' s₃ hs₃ hext₃ he
    have hsettled' := Store.settled_of_entry he rfl
    refine ⟨hsettled'.1, fun _ => hsettled', fun hfr => (hfine hfr).append (hfine' hfr), fun hfr hclosed => ?_⟩
    exact .function he ((hext₂.trans hext₃).toGrowsTo.denotesAll (hterms hfr hclosed))
      (hext₃.toGrowsTo.denotes (hterm hfr hclosed))

/-- Written types are resolved from left to right. -/
theorem resolves_typesWith {depth : Nat} {complete : Span → TypeId → Action TypeId} (hc : Completes L depth complete)
    {fr : FrameId} {s : Store} (ts : List TypeExpr)
    (h : Resolvable L depth fr (TypeExpr.mentionsAll ts) (TypeExpr.usesAll ts) s) :
    Resolves L s (resolveTypesWith complete fr ts) fun ids s' =>
      (∀ id ∈ ids, s'.Settled id) ∧ ids.length = ts.length ∧
        (fr = FrameId.module → Fine L (TypeExpr.occurrencesAll ts)) ∧
        (fr = FrameId.module → L.closed → s'.DenotesAll ids (TypeExpr.termsAll L.scope ts)) := by
  match ts with
  | [] =>
    rw [resolveTypesWith]
    exact resolves_pure h.sound ⟨by simp, rfl, fun _ => by simp [Fine, TypeExpr.occurrencesAll], fun _ _ => .nil⟩
  | t :: rest =>
    rw [resolveTypesWith]
    refine (resolves_typeWith hc t h.first).bind ?_
    rintro id s₁ hs₁ hext₁ ⟨-, hsettled, hfine, hterm⟩
    refine (resolves_typesWith hc rest (h.rest hs₁ hext₁)).bind ?_
    rintro ids s₂ hs₂ hext₂ ⟨hids, hlen, hfine', hterms⟩
    refine resolves_pure hs₂ ⟨?_, by simp [hlen], fun hfr => (hfine hfr).append (hfine' hfr), fun hfr hclosed =>
      .cons (hext₂.toGrowsTo.denotes (hterm hfr hclosed)) (hterms hfr hclosed)⟩
    intro id' hid'
    rcases List.mem_cons.mp hid' with rfl | hid'
    · exact hext₂.toGrowsTo.settled (hsettled rfl)
    · exact hids id' hid'

/-- The type that a function returns is resolved. -/
theorem resolves_returnsWith {depth : Nat} {complete : Span → TypeId → Action TypeId} (hc : Completes L depth complete)
    {fr : FrameId} {s : Store} (t : Option TypeExpr)
    (h : Resolvable L depth fr (TypeExpr.optionMentions t) (TypeExpr.optionUses t) s) :
    Resolves L s (resolveReturnsWith complete fr t) fun id s' =>
      s'.Settled id ∧ (fr = FrameId.module → Fine L (TypeExpr.optionOccurrences t)) ∧
        (fr = FrameId.module → L.closed → s'.Denotes id (TypeExpr.termReturns L.scope t)) := by
  match t with
  | none =>
    rw [resolveReturnsWith]
    exact resolves_pure h.sound
      ⟨Store.settled_of_entry h.sound.types.void rfl, fun _ => by simp [Fine, TypeExpr.optionOccurrences], fun _ _ =>
        .primitive h.sound.types.void⟩
  | some t =>
    rw [resolveReturnsWith]
    refine (resolves_typeWith hc t h).mono ?_
    rintro id s' - - ⟨-, hsettled, hfine, hterm⟩
    exact ⟨hsettled rfl, hfine, hterm⟩

end

/-! ### Structs -/

private theorem Top_unique {A B : StructDecl} (hA : s.Top A) (hB : s.Top B) : A = B := by
  obtain ⟨id, state, hlast, he⟩ := hA
  obtain ⟨id', state', hlast', he'⟩ := hB
  rw [hlast] at hlast'
  cases hlast'
  rw [he] at he'
  cases he'
  rfl

/--
The fields of the struct `A`, which is being resolved: `done` are resolved already, `rest` are still to be.
-/
structure Unfinished (L : Listing) (depth : Nat) (A : StructDecl) (done : List (String × TypeId))
    (rest : List FieldDecl) (s : Store) : Prop where
  sound : s.Sound L
  depth : s.pending < depth
  top : s.Top A
  listed : L.Lists A.mentions
  names : done.map (·.1) ++ rest.map (·.name) = A.fields.map (·.name)
  declared : ∀ f ∈ rest, f ∈ A.fields
  nodup : (done.map (·.1)).Nodup
  settled : ∀ f ∈ done, s.Settled f.2
  written : ∃ before, A.fields = before ++ rest ∧ (L.closed → s.Wrote L.scope done before)

private theorem Unfinished.resolvable {depth : Nat} {A : StructDecl} {done : List (String × TypeId)} {field : FieldDecl}
    {rest : List FieldDecl} (h : Unfinished L depth A done (field :: rest) s) :
    Resolvable L depth FrameId.module field.type.mentions (field.type.uses false) s := by
  have hfield : field ∈ A.fields := h.declared field (by simp)
  refine ⟨h.sound, h.depth, h.sound.frames.module_lt, fun m hm => h.listed m ?_, fun B hB => ⟨rfl, fun u hu => ?_⟩⟩
  · exact List.mem_cons_of_mem _ (List.mem_flatMap.mpr ⟨field, hfield, hm⟩)
  · rw [Top_unique hB h.top]
    exact ⟨field, hfield, hu⟩

/-- The fields of a struct that is being resolved. -/
private theorem resolves_fields {depth : Nat} {complete : Span → TypeId → Action TypeId}
    (hc : Completes L depth complete)
    {A : StructDecl} {done : List (String × TypeId)} {rest : List FieldDecl} (h : Unfinished L depth A done rest s) :
    Resolves L s (resolveFields (resolveTypeWith complete FrameId.module false) done rest) fun fields s' =>
      (∀ f ∈ fields, s'.Settled f.2) ∧ fields.map (·.1) = A.fields.map (·.name) ∧ (fields.map (·.1)).Nodup ∧
        (∀ f ∈ rest, Fine L (f.type.occurrences false)) ∧ (L.closed → s'.Wrote L.scope fields A.fields) := by
  induction rest generalizing done s with
  | nil =>
    rw [resolveFields]
    obtain ⟨before, hfields, hwritten⟩ := h.written
    rw [List.append_nil] at hfields
    exact resolves_pure h.sound ⟨h.settled, by simpa using h.names, h.nodup, by simp, hfields ▸ hwritten⟩
  | cons field rest ih =>
    rw [resolveFields]
    by_cases hdup : (done.lookup field.name).isSome = true
    · -- the name of the field is taken, so the struct repeats it
      simp only [hdup, if_true]
      unfold Resolves
      rw [ends_bind, ends_refuse]
      refine ⟨h.sound, .refl s, .of_kind (by simp [Diagnostic.kind, Cause.kind]), fun _ B hB => ?_⟩
      rw [Top_unique hB h.top]
      refine ⟨A, .refl, .inr (.inl fun hnodup => ?_)⟩
      obtain ⟨t, ht⟩ := Option.isSome_iff_exists.mp hdup
      have hmem : field.name ∈ done.map (·.1) := List.mem_map.mpr ⟨_, Store.mem_of_lookup ht, rfl⟩
      rw [← h.names, List.map_cons] at hnodup
      exact (List.nodup_append.mp hnodup).2.2 _ hmem _ (by simp) rfl
    · simp only [hdup, if_false, Bool.false_eq_true]
      refine (resolves_typeWith hc field.type h.resolvable).bind ?_
      rintro t s' hs' hext ⟨-, hsettled, hfine, hterm⟩
      have hnext : Unfinished L depth A (done ++ [(field.name, t)]) rest s' := by
        obtain ⟨before, hfields, hwritten⟩ := h.written
        refine ⟨hs', Nat.lt_of_le_of_lt hext.pending_le h.depth, hext.top h.top, h.listed, ?_, ?_, ?_, ?_,
          before ++ [field], by rw [hfields, List.append_assoc, List.singleton_append], fun hclosed =>
            List.rel_append ((hwritten hclosed).grow hext.toGrowsTo) (.cons (hterm rfl hclosed) .nil)⟩
        · simpa using h.names
        · exact fun f hf => h.declared f (by simp [hf])
        · rw [List.map_append, List.nodup_append]
          refine ⟨h.nodup, by simp, fun a ha b hb hab => hdup ?_⟩
          simp only [List.map_cons, List.map_nil, List.mem_singleton] at hb
          subst hab hb
          obtain ⟨p, hp, hname⟩ := List.mem_map.mp ha
          rw [← hname]
          exact List.lookup_isSome_iff.mpr ⟨p, hp, by simp⟩
        · intro f hf
          rcases List.mem_append.mp hf with hf | hf
          · exact hext.toGrowsTo.settled (h.settled f hf)
          · rw [List.mem_singleton] at hf
            rw [hf]
            exact hsettled rfl
      refine (ih hnext).mono ?_
      rintro fields s'' - - ⟨hfields, hnames, hnodup, hrest, hwritten⟩
      refine ⟨hfields, hnames, hnodup, fun f hf => ?_, hwritten⟩
      rcases List.mem_cons.mp hf with rfl | hf
      · exact hfine rfl
      · exact hrest f hf

/-- A struct whose fields could all be resolved is free of doom. -/
private theorem not_doomed_of_fine {A : StructDecl} (hnodup : (A.fields.map (·.name)).Nodup)
    (hclosed : L.closed) (hfine : ∀ f ∈ A.fields, Fine L (f.type.occurrences false)) : ¬A.Doomed L.scope := by
  refine StructDecl.not_doomed (fun h => h hnodup) ?_ ?_
  · rintro ⟨behind, name, ⟨field, hfield, hn⟩, hscope⟩
    exact (hfine field hfield hclosed _ hn).1 hscope
  · rintro B ⟨name, ⟨field, hfield, hn⟩, hscope⟩
    exact (hfine field hfield hclosed _ hn).2 rfl B hscope

private theorem not_mem_resolving {decl : StructDecl} {id : TypeId} (hs : s.Sound L)
    (he : s.typeAt? id = some (.struct decl .unresolved)) : id ∉ s.types.resolving.items := by
  intro hmem
  obtain ⟨decl', he'⟩ := (hs.types.resolving id).mp hmem
  rw [he] at he'
  cases he'

/-- A struct that leads on from the innermost one that is being resolved becomes the innermost one. -/
private theorem start_sound {decl : StructDecl} {use : Span} {id : TypeId} (hs : s.Sound L)
    (he : s.typeAt? id = some (.struct decl .unresolved)) (hid : s.Known id) (hleads : LeadsTo L s use id) :
    (s.withState id .resolving (s.types.resolving.push id)).Sound L := by
  have hnew := not_mem_resolving hs he
  refine hs.change_types (Store.growsTo_withState he (.inl rfl)) rfl rfl
    (hs.types.withState he (.inl rfl) .start (fun j => ?_) ?_ hid ?_)
  · simp only [Stack.push, List.mem_append, List.mem_singleton, and_true]
    by_cases hj : j = id
    · simp [hj]
    · simp [hj]
  · exact List.nodup_append.mpr ⟨hs.types.nodup, List.nodup_singleton id, fun j hj k hk hjk =>
      hnew (List.mem_singleton.mp hk ▸ hjk ▸ hj)⟩
  · refine fun hclosed => (hs.types.path hclosed).append (List.isChain_singleton id) fun top htop next hnext => ?_
    rw [List.head?_cons, Option.mem_some_iff] at hnext
    subst hnext
    obtain ⟨A, hA⟩ := (hs.types.resolving top).mp (List.mem_of_getLast? htop)
    exact ⟨A, decl, .resolving, .unresolved, hA, he,
      (hleads hclosed A ⟨top, .resolving, htop, hA⟩ decl .unresolved he).dependsOn⟩

/-- The innermost struct that is being resolved is resolved or fails, and is taken off the path. -/
private theorem finish_sound {decl : StructDecl} {id : TypeId} {items : List TypeId}
    {state : StructState} (hs : s.Sound L)
    (hitems : s.types.resolving.items = items ++ [id]) (hnew : id ∉ items)
    (he : s.typeAt? id = some (.struct decl .resolving)) (hstate : state ≠ .resolving)
    (hjustified : s.Justified L decl state) :
    (s.withState id state ⟨items⟩).Sound L := by
  refine hs.change_types (Store.growsTo_withState he (.inr rfl)) rfl rfl
    (hs.types.withState he (.inr rfl) hjustified (fun j => ?_) ?_ (hs.types.held id (by simp [hitems])) ?_)
  · rw [hitems, List.mem_append, List.mem_singleton]
    by_cases hj : j = id
    · simp [hj, hstate, hnew]
    · simp [hj]
  · have hnodup := hs.types.nodup
    rw [hitems] at hnodup
    exact (List.nodup_append.mp hnodup).1
  · intro hclosed
    have hpath := hs.types.path hclosed
    rw [hitems] at hpath
    exact hpath.left_of_append

private theorem pop_push {items : List TypeId} {id : TypeId} {stack : Stack TypeId} (h : stack.items = items ++ [id]) :
    stack.pop = .ok (id, ⟨items⟩) := by
  simp [Stack.pop, Stack.peek, h]

private theorem ends_stopResolving {items : List TypeId} {id : TypeId} {done : Unit → Store → Prop}
    {refused : Diagnostic → Store → Prop} (hitems : s.types.resolving.items = items ++ [id])
    (h : done () { s with types := { s.types with resolving := ⟨items⟩ } }) : stopResolving.Ends s done refused := by
  unfold stopResolving
  rw [ends_bind, ends_fromTypes (pop_push hitems), ends_updateTypes]
  exact h

/-- From the start to the end of the resolution of a struct, whose fields are resolved between `s₁` and `s₂`. -/
private theorem finish_refines {decl : StructDecl} {id : TypeId} {s₁ s₂ : Store} (state : StructState) (hs : s.Sound L)
    (he : s.typeAt? id = some (.struct decl .unresolved))
    (hs₁ : s₁ = s.withState id .resolving (s.types.resolving.push id)) (hs₂ : s₂.Sound L) (hext : s₁.Refines s₂)
    (hresolving : state ≠ .resolving) (hunresolved : state ≠ .unresolved)
    (hjustified : s₂.Justified L decl state) :
    s₂.types.resolving.items = s.types.resolving.items ++ [id] ∧
      (s₂.withState id state s.types.resolving).Sound L ∧ s.Refines (s₂.withState id state s.types.resolving) ∧
      (s₂.withState id state s.types.resolving).typeAt? id = some (.struct decl state) := by
  have hgrows₁ : s.GrowsTo s₁ := hs₁ ▸ Store.growsTo_withState he (.inl rfl)
  have hpending₁ : s₁.pending + 1 = s.pending := by
    rw [hs₁]
    exact Store.pending_withState he (by simp)
  have he₁ : s₁.typeAt? id = some (.struct decl .resolving) := by
    rw [hs₁, Store.entry_withState he]
    simp
  have hitems : s₂.types.resolving.items = s.types.resolving.items ++ [id] := by
    rw [hext.resolving, hs₁]
    rfl
  have he₂ : s₂.typeAt? id = some (.struct decl .resolving) := by
    obtain ⟨decl', he₂⟩ := (hs₂.types.resolving id).mp (by simp [hitems])
    cases hext.toGrowsTo.entry_of_some he₁ he₂ <;> exact he₂
  have hgrows₂ : s₂.GrowsTo (s₂.withState id state s.types.resolving) := Store.growsTo_withState he₂ (.inr rfl)
  refine ⟨hitems, finish_sound hs₂ hitems (not_mem_resolving hs he) he₂ hresolving hjustified, ?_, ?_⟩
  · refine ⟨⟨(hgrows₁.trans hext.toGrowsTo).trans hgrows₂, rfl, ?_⟩, hext.frames_eq.trans ?_,
      hext.functions_eq.trans ?_⟩
    · have hpending₂ : (s₂.withState id state s.types.resolving).pending + 0 = s₂.pending :=
        Store.pending_withState he₂ hunresolved
      have := hext.pending_le
      omega
    · rw [hs₁]
      rfl
    · rw [hs₁]
      rfl
  · rw [Store.entry_withState he₂]
    simp

/-- The fields of a struct are resolved: it is settled afterwards, or it has failed. -/
private theorem ends_resolveBody {depth : Nat} {complete : Span → TypeId → Action TypeId}
    (hc : Completes L depth complete)
    {decl : StructDecl} {use : Span} {id : TypeId} (hs : s.Sound L) (hdepth : s.pending < depth + 1)
    (he : s.typeAt? id = some (.struct decl .unresolved)) (hid : s.Known id) (hleads : LeadsTo L s use id) :
    (resolveBody complete decl).Ends s (fun t s' => s'.Sound L ∧ s.Refines s' ∧ t = id ∧ s'.Settled id)
      (fun d s' => s'.Sound L ∧ s.Refines s' ∧ L.Allows d ∧
        s'.typeAt? id = some (.struct decl (.failed d))) := by
  have hrecord : s.structs.find? decl.span = some ⟨id, FrameId.module⟩ := by
    obtain ⟨e, he', hregistered⟩ := hid
    rw [he] at he'
    cases he'
    exact hregistered decl .unresolved rfl
  have hunfinished : Unfinished L depth decl [] decl.fields
      (s.withState id .resolving (s.types.resolving.push id)) := by
    have hpending : (s.withState id .resolving (s.types.resolving.push id)).pending + 1 = s.pending :=
      Store.pending_withState he (by simp)
    refine ⟨start_sound hs he hid hleads, by omega, ⟨id, .resolving, by simp [Store.withState, Stack.push], ?_⟩,
      hs.types.listed id decl _ he, by simp, fun f hf => hf, by simp, by simp, [], rfl, fun _ => .nil⟩
    rw [Store.entry_withState he]
    simp
  unfold resolveBody
  rw [ends_bind, ends_get, ends_bind, hrecord, unwrap_some, ends_lift, ends_bind]
  unfold startResolving
  rw [ends_updateTypes]
  refine Ends.bind (resolves_fields hc hunfinished).outcome ?_
  -- with all its fields the struct is resolved; if one of them is refused it fails with the same problem
  rintro r s₂
    (⟨fields, rfl, hs₂, hext, hsettled, hnames, hnodup, hfine, hwritten⟩ | ⟨d, rfl, hs₂, hext, hallows, hdoom⟩)
  · have hfree : L.closed → ¬decl.Doomed L.scope := fun hclosed => not_doomed_of_fine (hnames ▸ hnodup) hclosed hfine
    obtain ⟨hitems, hs₃, hext₃, he₃⟩ := finish_refines (.resolved fields) hs he rfl hs₂ hext (by simp) (by simp)
      (.finish hsettled hnames hnodup hfree hwritten)
    have hsettled₃ : (s₂.withState id (.resolved fields) s.types.resolving).Settled id := by
      refine ⟨hext₃.toGrowsTo.known hid, fun decl' state' he' => ?_⟩
      rw [he₃] at he'
      cases he'
      exact ⟨fields, rfl⟩
    rw [ends_bind]
    refine ends_stopResolving hitems ?_
    rw [ends_bind]
    unfold setState
    rw [ends_updateTypes, ends_pure]
    exact ⟨hs₃, hext₃, rfl, hsettled₃⟩
  · have hdoomed : L.closed → decl.Doomed L.scope := fun hclosed => hdoom hclosed decl hunfinished.top
    obtain ⟨hitems, hs₃, hext₃, he₃⟩ := finish_refines (.failed d) hs he rfl hs₂ hext (by simp) (by simp)
      (.fail hallows hdoomed)
    rw [ends_bind]
    refine ends_stopResolving hitems ?_
    rw [ends_bind]
    unfold setState
    rw [ends_updateTypes, ends_throw]
    exact ⟨hs₃, hext₃, hallows, he₃⟩

/-! ### Completing types -/

/-- The text of a known type can be written. -/
theorem ends_textOf {id : TypeId} {done : String → Store → Prop} {refused : Diagnostic → Store → Prop}
    (hs : s.Sound L) (hid : id < s.types.size) (h : ∀ text, done text s) : (textOf id).Ends s done refused := by
  obtain ⟨text, htext⟩ := hs.types.text hid
  unfold textOf
  rw [ends_fromTypes htext]
  exact h text

/-- The text of a struct is its name. -/
private theorem textOf_struct {decl : StructDecl} {state : StructState} {id : TypeId} {done : String → Store → Prop}
    {refused : Diagnostic → Store → Prop} (he : s.typeAt? id = some (.struct decl state)) (h : done decl.name s) :
    (textOf id).Ends s done refused := by
  have hget : s.types.get id = .ok (.struct decl state) := itemAt_eq_ok_iff.mpr he
  have htext : s.types.text id = .ok decl.name := by rw [Types.text, Types.textWithin, hget]; rfl
  unfold textOf
  rw [ends_fromTypes htext]
  exact h

/-- The names of a cycle are those of the structs from the one that is met again, and its own once more. -/
private theorem ends_cycleFrom {id : TypeId} {name : String} {before after : List TypeId} {decls : List StructDecl}
    {done : List String → Store → Prop} {refused : Diagnostic → Store → Prop}
    (hitems : s.types.resolving.items = before ++ id :: after) (hbefore : id ∉ before)
    (hunderway : s.Underway (id :: after) decls) (h : done (decls.map (·.name) ++ [name]) s) :
    (cycleFrom id name).Ends s done refused := by
  have hcut : (s.types.resolving.fromLowest (· = id)).getD [] = id :: after := by
    have hskip : ∀ j ∈ before, (!decide (j = id)) = true := fun j hj => by
      simp [show j ≠ id from fun hji => hbefore (hji ▸ hj)]
    rw [Stack.fromLowest, hitems, List.dropWhile_append_of_pos hskip, List.dropWhile_cons_of_neg (by simp)]
    rfl
  unfold cycleFrom
  rw [ends_bind, ends_get, hcut, ends_bind]
  have htexts : ((id :: after).mapM textOf).Ends s (fun names s' => names = decls.map (·.name) ∧ s' = s) refused := by
    clear hcut hitems hbefore h
    generalize id :: after = ids at hunderway
    induction hunderway with
    | nil => exact ⟨rfl, rfl⟩
    | cons he _ ih =>
      rw [List.mapM_cons, ends_bind]
      refine textOf_struct he (Ends.bind ih ?_)
      rintro names s' ⟨rfl, rfl⟩
      exact ⟨rfl, rfl⟩
  refine htexts.mono ?_ fun _ _ h => h
  rintro names s' ⟨rfl, rfl⟩
  exact h

/-- The search through structs that contain each other never gets too deep. -/
theorem completes_completeWithin (L : Listing) (depth : Nat) : Completes L depth (completeWithin depth) := by
  induction depth with
  | zero => exact fun s use id _ hdepth => absurd hdepth (Nat.not_lt_zero _)
  | succ depth ih =>
    intro s use id hs hdepth hid hleads
    obtain ⟨e, hget, he⟩ := hid.get
    rw [completeWithin, ends_bind, ends_fromTypes hget]
    split
    · exact (ends_resolveBody ih hs hdepth he hid hleads).mono (fun _ _ h => h)
        fun d s' h => ⟨h.1, h.2.1, h.2.2.1, .inl ⟨_, h.2.2.2⟩⟩
    · obtain ⟨before, after, rest, hitems, hbefore, hunderway⟩ := hs.types.underway_from he
      rw [ends_bind]
      refine ends_cycleFrom hitems hbefore hunderway ?_
      rw [ends_refuse]
      refine ⟨hs, .refl s, ⟨nofun, fun _ hclosed => ?_⟩, .inr ⟨_, he⟩⟩
      exact ⟨_, rest, isCycle_of_met hs hclosed hitems hunderway hleads, rfl⟩
    · rename_i decl why
      rw [ends_throw]
      exact ⟨hs, .refl s, (hs.types.failed id decl why he).1, .inl ⟨decl, he⟩⟩
    · rename_i hunresolved hresolving hfailed
      rw [ends_pure]
      refine ⟨hs, .refl s, rfl, hid, fun decl state he' => ?_⟩
      rw [he] at he'
      cases he'
      cases state with
      | unresolved => exact absurd rfl (hunresolved decl)
      | resolving => exact absurd rfl (hresolving decl)
      | resolved fields => exact ⟨fields, rfl⟩
      | failed why => exact absurd rfl (hfailed decl why)

end Action

end RainCheck

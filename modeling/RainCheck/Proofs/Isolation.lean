import RainCheck.Proofs.BodiesInStep

/-!
# Bodies are isolated

Two modules that are the same but for the body of one function are compiled to the same, but for that function
(`SourceFile.compile_isolated`).
* (heads) Before bodies are checked nothing but the heads of declarations is looked at, so the phases are in step.
* (bodies) The stores differ by numbers from then on, as one body may list types and frames that the other one does not.
  What another function needs of the stores is spared by both bodies.
* (problems) A body is refused for a problem in itself, or for one that was on record before bodies were checked.
-/

namespace RainCheck

open RainCheck.Action

/-! ### Modules that differ by one body -/

/-- Modules that are the same but for spans, and for the body of the function with a number. -/
structure SameButBody (m : Matching) (k : Nat) (decls decls' : List Decl) : Prop where
  heads : List.Forall₂ (Decl.HeadMatches m) decls decls'
  others : ∀ i d d', i ≠ k → decls[i]? = some d → decls'[i]? = some d' → d.Matches m d'

/-- Only some of the spans are matched. -/
def Matching.restrict (m : Matching) (P : Span → Span → Prop) : Matching where
  span a a' := m.span a a' ∧ P a a'
  type := Eq
  frame := Eq
  problem d d' := (m.span d.span d'.span ∧ P d.span d'.span) ∧ d'.cause = d.cause

section

variable {m n : Matching} {P P' Q Q' : Span → Prop} {d d' : Decl} {f f' : FunctionDecl}

private theorem Matching.Exact.restrict (hm : m.Exact) (R : Span → Span → Prop) : (m.restrict R).Exact where
  span ha hb := hm.span ha.1 hb.1
  type := rfl
  frame := rfl
  problem := Iff.rfl

/-- Heads match by their places. -/
theorem Decl.HeadMatches.narrow (h : d.HeadMatches m d') (hmn : m.Covers n P P') (hd : d.Lies P Q) (hd' : d'.Lies P' Q')
    (hfresh : ∀ f, d = .function f → ∀ p ∈ f.header.params, p.Fresh) : d.HeadMatches n d' := by
  cases h with
  | struct h => exact .struct (h.narrow hmn hd hd')
  | function h => exact .function (h.narrow hmn hd.header hd'.header (hfresh _ rfl))

/-- Fresh functions match by the places of their heads and bodies. -/
theorem Decl.Matches.narrow {decls : List Decl} (h : d.Matches m d') (hhead : m.Covers n P P') (hbody : m.Covers n Q Q')
    (hd : d.Lies P Q) (hd' : d'.Lies P' Q') (hparsed : Parsed decls) (hmem : d ∈ decls) : d.Matches n d' := by
  cases h with
  | struct h => exact .struct (h.narrow hhead hd hd')
  | @function f f' h =>
    have hinfo : Info.Matches m { span := f.info.span } f'.info := hparsed.untyped f hmem ▸ h.info
    refine .function ⟨?_, h.header.narrow hhead hd.header hd'.header (hparsed.params f hmem), ?_⟩
    · rw [hparsed.untyped f hmem]
      exact hinfo.narrow hhead hd.info hd'.info
    · exact Expr.Matches.narrow hbody h.body hd.body hd'.body (hparsed.body f hmem)

end

/-! ### Places of two modules -/

section

variable {place place' : Span → Nat} {i : Nat} {a a' : Span}

/-- Spans in the heads of declarations with the same number. -/
def InHeads (place place' : Span → Nat) (a a' : Span) : Prop := place' a' = place a ∧ place a % 2 = 0

/-- Spans in the heads of declarations with the same number, or in the bodies with a given number. -/
def AtBody (place place' : Span → Nat) (i : Nat) (a a' : Span) : Prop :=
  place' a' = place a ∧ (place a % 2 = 0 ∨ place a = 2 * i + 1)

private theorem InHeads.atBody (h : InHeads place place' a a') (i : Nat) : AtBody place place' i a a' := ⟨h.1, .inl h.2⟩

private theorem AtBody.behind (h : AtBody place place' i a a') :
    (∀ j < i, place a ≠ 2 * j + 1) ∧ ∀ j < i, place' a' ≠ 2 * j + 1 := by
  have hleft : ∀ j < i, place a ≠ 2 * j + 1 := fun j hj heq => by
    rcases h.2 with heven | hown <;> omega
  exact ⟨hleft, h.1 ▸ hleft⟩

end

section

variable {m : Matching} {k i : Nat} {decls decls' : List Decl} {place place' : Span → Nat} {options : Options}
  {s s' : Store} {d d' : Decl}

/-- Heads of declarations with the same number match. -/
private theorem SameButBody.heads_inHeads (h : SameButBody m k decls decls') (hparsed : Parsed decls)
    (hlocated : Located place decls)
    (hlocated' : Located place' decls') :
    List.Forall₂ (Decl.HeadMatches (m.restrict (InHeads place place'))) decls decls' := by
  refine List.forall₂_iff_get.mpr ⟨h.heads.length_eq, fun i hi hi' => ?_⟩
  have hd : decls[i]? = some (decls.get ⟨i, hi⟩) := List.getElem?_eq_getElem hi
  have hd' : decls'[i]? = some (decls'.get ⟨i, hi'⟩) := List.getElem?_eq_getElem hi'
  refine ((List.forall₂_iff_get.mp h.heads).2 i hi hi').narrow ?_ (hlocated i _ hd) (hlocated' i _ hd') ?_
  · exact fun a a' ha hplace hplace' => ⟨ha, by rw [hplace, hplace'], by omega⟩
  · exact fun f hf p hp => hparsed.params f (hf ▸ List.get_mem _ _) p hp

/-- Other declarations match, also if only what they need of the stores is matched. -/
private theorem SameButBody.at_body (h : SameButBody m k decls decls') (hparsed : Parsed decls)
    (hlocated : Located place decls)
    (hlocated' : Located place' decls') (hi : i ≠ k) (hd : decls[i]? = some d) (hd' : decls'[i]? = some d') :
    d.Matches (knownMatching s (m.restrict (AtBody place place' i)).span) d' := by
  refine (h.others i d d' hi hd hd').narrow ?_ ?_ (hlocated i d hd) (hlocated' i d' hd') hparsed
    (List.mem_of_getElem? hd)
  · exact fun a a' ha hplace hplace' => ⟨ha, by rw [hplace, hplace'], .inl (by omega)⟩
  · exact fun a a' ha hplace hplace' => ⟨ha, by rw [hplace, hplace'], .inr hplace⟩

/-- A function that is not registered stands in no head. -/
private theorem Store.Ready.unregistered {key : Span} (h : s.Ready decls) (hlocated : Located place decls)
    (hkey : place key % 2 = 1) : s.function key = {} := by
  refine (h.functions key).resolve_right ?_
  rintro ⟨f, hf, rfl⟩
  obtain ⟨j, hj⟩ := List.mem_iff_getElem?.mp hf.mem
  have hplace : place f.header.span = 2 * j := (hlocated j _ hj).header.name
  omega

/-- The stores differ by numbers, as far as a declaration is concerned. -/
private theorem Store.Ready.renumbered_at (h : s.Ready decls) (h' : s'.Ready decls') (hm : m.Exact)
    (hs : s.Matches (m.restrict (InHeads place place')) s') (hlocated : Located place decls)
    (hlocated' : Located place' decls') (i : Nat) :
    s.Renumbered (knownMatching s (m.restrict (AtBody place place' i)).span) s' := by
  refine hs.renumbered (hm.restrict _) h (fun a a' ha => ⟨ha.1, ha.2.atBody i⟩) h' ?_ fun key key' hkey => ?_
  · exact fun ha hb => hm.span ha.1 hb.1
  · rcases Nat.mod_two_eq_zero_or_one (place key) with heven | hodd
    · exact .inl ⟨hkey.1, hkey.2.1, heven⟩
    · exact .inr ⟨h.unregistered hlocated hodd, h'.unregistered hlocated' (hkey.2.1 ▸ hodd)⟩

/-- The phases before bodies are checked are in step. -/
private theorem preparation_inStep (hm : m.Exact) (options : Options)
    (h : List.Forall₂ (Decl.HeadMatches m) decls decls') :
    Except.Rel Eq (fun r r' => List.Forall₂ (Item.Related (Decl.HeadMatches m)) r.1 r'.1 ∧ r.2.Matches m r'.2)
        (Phase.runAll options Phase.preparation (decls.map ({ decl := · })) { store := {} })
        (Phase.runAll options Phase.preparation (decls'.map ({ decl := · })) { store := {} }) ∧
      List.Forall₂ (Refusal.Matches m)
        (Phase.refusalsAll options Phase.preparation (decls.map ({ decl := · })) { store := {} })
        (Phase.refusalsAll options Phase.preparation (decls'.map ({ decl := · })) { store := {} }) := by
  have hphases : ∀ phase ∈ Phase.preparation, phase.InStep m (Decl.HeadMatches m) options := by
    intro phase hphase
    refine inStep_heads hm.rigid ?_ fun _ _ => id
    rintro rfl
    exact absurd hphase (by decide)
  obtain ⟨hitems, hstart⟩ := start_related (m := m) h
  exact ⟨runAll_related hm hphases hitems hstart, refusalsAll_related hm hphases hitems hstart⟩

end

/-! ### What is made of the rest -/

/-- Whether the body of the declaration with a number is refused. -/
def Refusal.isBody (k : Nat) (r : Refusal) : Bool := r.phase = .bodies && r.index = k

/-- The problems that are reported of all but one body: those of the refusals that were not on record. -/
def problemsBut (k : Nat) (log : List Refusal) : List Diagnostic :=
  ((log.filter fun r => !r.known).filter fun r => !r.isBody k).map (·.problem)

/--
What is made of two modules but for the body with a number.
* (refusals) The same declarations are refused in the same phases, with problems that are about the
  same; so all but the one body contribute the same problems, in their order.
* (items) The other declarations have failed in both modules or in none, and their nodes have types with the same text.
* (structs) The same structs are registered.  They have the same fields, whose types have the same text, or have failed.
* (functions) The signatures of all functions have the same text, or could not be resolved.
-/
structure Isolated (m : Matching) (k : Nat) (decls decls' : List Decl) (log log' : List Refusal)
    (items items' : List Item)
    (s s' : Store) : Prop where
  refusals : List.Forall₂ (Refusal.Matches m) (log.filter fun r => !r.isBody k) (log'.filter fun r => !r.isBody k)
  problems : List.Forall₂ m.problem (problemsBut k log) (problemsBut k log')
  items : ∀ i, i ≠ k → Option.Rel (Item.Related (Decl.Matches (textMatching m s s'))) items[i]? items'[i]?
  structs : ∀ (i : Nat) d d', decls[i]? = some (.struct d) → decls'[i]? = some (.struct d') →
    Option.Rel (fun r r' : StructRecord => ∃ e e', s.typeAt? r.type = some e ∧ s'.typeAt? r'.type = some e' ∧
      e.Matches (textMatching m s s') e') (s.structs.find? d.span) (s'.structs.find? d'.span)
  functions : ∀ (i : Nat) f f', decls[i]? = some (.function f) → decls'[i]? = some (.function f') →
    (s.function f.header.span).Alike (textMatching m s s') (s'.function f'.header.span)

section

variable {m : Matching} {k : Nat} {log log' : List Refusal}

private theorem Refusal.Matches.isBody {r r' : Refusal} (h : r.Matches m r') : r'.isBody k = r.isBody k := by
  rw [Refusal.isBody, Refusal.isBody, h.phase, h.index]

private theorem filter_isBody (h : List.Forall₂ (Refusal.Matches m) log log') :
    List.Forall₂ (Refusal.Matches m) (log.filter fun r => !r.isBody k) (log'.filter fun r => !r.isBody k) :=
  List.rel_filter (fun r r' hr => by simp only [hr.isBody]) h

private theorem problemsBut_related
    (h : List.Forall₂ (Refusal.Matches m) (log.filter fun r => !r.isBody k) (log'.filter fun r => !r.isBody k)) :
    List.Forall₂ m.problem (problemsBut k log) (problemsBut k log') := by
  have hswap : ∀ log : List Refusal,
      problemsBut k log = ((log.filter fun r => !r.isBody k).filter fun r => !r.known).map (·.problem) := fun log => by
    rw [problemsBut, List.filter_filter, List.filter_filter]
    simp only [Bool.and_comm]
  rw [hswap, hswap]
  exact List.rel_map (fun _ _ hr => hr.problem) (List.rel_filter (fun r r' hr => by simp only [hr.known]) h)

/-- Related members of lists of the same length, with their numbers. -/
private theorem rel_zipIdx {α β : Type} {l : List α} {l' : List β} (h : l.length = l'.length) :
    List.Forall₂ (fun a b => b.2 = a.2 ∧ l[a.2]? = some a.1 ∧ l'[a.2]? = some b.1) l.zipIdx l'.zipIdx := by
  refine List.forall₂_iff_get.mpr ⟨by simpa using h, fun i hi hi' => ?_⟩
  rw [List.length_zipIdx] at hi hi'
  simp [List.get_eq_getElem, hi, hi']

end

section

variable {m : Matching} {k : Nat} {options : Options} {decls decls' : List Decl} {place place' : Span → Nat}
  {items items' items₁ items₁' : List Item} {p p' q q' : Progress} {store store' : Nat → Store}

namespace SameButBody

variable (h : SameButBody m k decls decls') (hm : m.Exact) (hparsed : Parsed decls) (hlocated : Located place decls)
  (hlocated' : Located place' decls') (hc : Compiled options decls place items p store items₁ q)
  (hc' : Compiled options decls' place' items' p' store' items₁' q')

include h hm hparsed hlocated hlocated' hc hc'

/-- Up to the first body everything is in step. -/
private theorem prepared : List.Forall₂ (Item.Related fun _ _ => True) items items' ∧
    p.store.Matches (m.restrict (InHeads place place')) p'.store ∧
    List.Forall₂ (Refusal.Matches m)
      (Phase.refusalsAll options Phase.preparation (decls.map ({ decl := · })) { store := {} })
      (Phase.refusalsAll options Phase.preparation (decls'.map ({ decl := · })) { store := {} }) := by
  obtain ⟨hrun, hlog⟩ := preparation_inStep (hm.restrict _) options (h.heads_inHeads hparsed hlocated hlocated')
  rw [hc.prepared, hc'.prepared] at hrun
  obtain ⟨_, heq, hitems, hp⟩ := hrun.exists_ok
  cases heq
  refine ⟨hitems.imp fun _ _ hi => ⟨trivial, hi.failed⟩, hp.store, hlog.imp fun r r' hr => { hr with problem := ?_ }⟩
  exact hm.problem.mpr ⟨hr.problem.1.1, hr.problem.2⟩

/-- The stores differ by numbers, as far as a declaration is concerned. -/
private theorem renumbered (i : Nat) :
    p.store.Renumbered (knownMatching p.store (m.restrict (AtBody place place' i)).span) p'.store :=
  hc.ready.renumbered_at hc'.ready hm (h.prepared hm hparsed hlocated hlocated' hc hc').2.1 hlocated hlocated' i

omit h hparsed hlocated hlocated' hc hc' in
/-- Types with the same text match, wherever they are used. -/
private theorem finer (i : Nat) (s s' : Store) :
    (textMatching (knownMatching p.store (m.restrict (AtBody place place' i)).span) s s').Finer
      (textMatching m s s') where
  span _ _ ha := ha.1
  type _ _ ht := ht
  frame _ _ hfr := hfr
  problem _ _ hd := hm.problem.mpr ⟨hd.1.1, hd.2⟩

/-- Another body is treated alike. -/
private theorem other_bodies {i : Nat} {item item' : Item} (hi : i ≠ k) (hitem : items[i]? = some item)
    (hitem' : items'[i]? = some item') :
    (Phase.bodies.itemAt options item (store i)).Related (Decl.Matches (textMatching m q.store q'.store))
        (Phase.bodies.itemAt options item' (store' i)) ∧
      List.Forall₂ (Refusal.Matches m) (Phase.bodies.refusalsAt options i item (store i))
        (Phase.bodies.refusalsAt options i item' (store' i)) := by
  have hfailed := rel_getElem? (h.prepared hm hparsed hlocated hlocated' hc hc').1 i
  rw [hitem, hitem'] at hfailed
  have hdecl : ∀ {items : List Item} {item : Item} {decls : List Decl}, items.map (·.decl) = decls →
      items[i]? = some item → decls[i]? = some item.decl := fun hitems hitem => by
    rw [← hitems, List.getElem?_map, hitem]
    rfl
  have hmatch :=
    h.at_body (s := p.store) hparsed hlocated hlocated' hi (hdecl hc.decls_eq hitem) (hdecl hc'.decls_eq hitem')
  have hleft := hc.inspected i item hitem
  have hright := hc'.inspected i item' hitem'
  obtain ⟨hrelated, hrefusals⟩ := hleft.related hright (h.renumbered hm hparsed hlocated hlocated' hc hc' i)
    (fun _ _ hkey => hkey.2.behind) ⟨hmatch, by cases hfailed with | some hfailed => exact hfailed.failed⟩
  refine ⟨⟨hrelated.decl.imp (finer hm i _ _), hrelated.failed⟩,
    forall₂_of_mem hrefusals fun r hr r' hr' hproblem => ?_⟩
  obtain ⟨hphase, hindex, hknown⟩ := hleft.known r hr
  obtain ⟨hphase', hindex', hknown'⟩ := hright.known r' hr'
  refine ⟨hphase'.trans hphase.symm, hindex'.trans hindex.symm, hm.problem.mpr ⟨hproblem.1.1, hproblem.2⟩, ?_⟩
  rw [hknown', hknown, hproblem.1.2.1]

/-- The same structs are registered and resolved. -/
private theorem same_structs {i : Nat} {d d' : StructDecl} (hd : decls[i]? = some (.struct d))
    (hd' : decls'[i]? = some (.struct d')) :
    Option.Rel
      (fun r r' : StructRecord => ∃ e e', q.store.typeAt? r.type = some e ∧ q'.store.typeAt? r'.type = some e' ∧
        e.Matches (textMatching m q.store q'.store) e')
      (q.store.structs.find? d.span) (q'.store.structs.find? d'.span) := by
  have hstores := h.renumbered hm hparsed hlocated hlocated' hc hc' i
  have hkey : (m.restrict (InHeads place place')).span d.span d'.span := by
    have hheads := rel_getElem? (h.heads_inHeads hparsed hlocated hlocated') i
    rw [hd, hd'] at hheads
    cases hheads with | some hhead => cases hhead with | struct hstruct => exact hstruct.span
  have hrecords :=
    Records.Matches.find? (h.prepared hm hparsed hlocated hlocated' hc hc').2.1.structs (hm.restrict _).rigid hkey
  rw [hc.spared.structs, hc'.spared.structs]
  have hknown : ∀ r, p.store.structs.find? d.span = some r → p.store.Known r.type := fun r hr =>
    hc.ready.known_struct (List.mem_of_getElem? hd) hr
  generalize p.store.structs.find? d.span = o at hrecords hknown
  generalize p'.store.structs.find? d'.span = o' at hrecords
  cases hrecords with
  | none => exact .none
  | @some r r' heq =>
    subst heq
    obtain ⟨e, e', he, he', hmatch, hclosed⟩ := hstores.types ⟨rfl, hknown r rfl⟩
    refine .some ⟨e, e', hc.spared.closed he hclosed, hc'.spared.closed he' (hmatch.closed hclosed), ?_⟩
    exact (hmatch.imp (hstores.finer (le_refl _) hc.ready.resting.sound hc.spared.toGrowsTo hc'.spared.toGrowsTo)).imp
      (finer hm i _ _)

/-- The same is known about all functions, also about the one whose body differs. -/
private theorem same_functions {i : Nat} {f f' : FunctionDecl} (hf : decls[i]? = some (.function f))
    (hf' : decls'[i]? = some (.function f')) :
    (q.store.function f.header.span).Alike (textMatching m q.store q'.store) (q'.store.function f'.header.span) := by
  have hstores := h.renumbered hm hparsed hlocated hlocated' hc hc' i
  have hkey : (m.restrict (InHeads place place')).span f.header.span f'.header.span := by
    have hheads := rel_getElem? (h.heads_inHeads hparsed hlocated hlocated') i
    rw [hf, hf'] at hheads
    cases hheads with | some hhead => cases hhead with | function hheader => exact hheader.span
  have halike := (hstores.functions ⟨hkey.1, hkey.2.atBody i⟩).kept (hc.spared.kept _ hkey.2.2)
    (hc'.spared.kept _ (hkey.2.1 ▸ hkey.2.2))
  exact (halike.imp (hstores.finer (le_refl _) hc.ready.resting.sound hc.spared.toGrowsTo hc'.spared.toGrowsTo)).imp
    (finer hm i _ _)

/-- What is made of two modules that are the same but for a body is the same but for the body. -/
private theorem isolated :
    Isolated m k decls decls' (moduleRefusals options decls) (moduleRefusals options decls') items₁ items₁'
    q.store q'.store := by
  obtain ⟨hfailed, -, hlog⟩ := h.prepared hm hparsed hlocated hlocated' hc hc'
  have hrefusals : List.Forall₂ (Refusal.Matches m) ((moduleRefusals options decls).filter fun r => !r.isBody k)
      ((moduleRefusals options decls').filter fun r => !r.isBody k) := by
    rw [hc.log, hc'.log, List.filter_append, List.filter_append, List.filter_flatMap, List.filter_flatMap]
    refine List.rel_append (filter_isBody hlog) (List.rel_flatMap (rel_zipIdx hfailed.length_eq) ?_)
    rintro ⟨item, i⟩ ⟨item', i'⟩ ⟨heq, hitem, hitem'⟩
    obtain rfl : i' = i := heq
    by_cases hi : i' = k
    · have hnone :
          ∀ {decls : List Decl} {place : Span → Nat} {s : Store} {store : Nat → Store} {item : Item} {q : Progress},
          Inspected options decls place s store i' item q →
          ((Phase.bodies.refusalsAt options i' item (store i')).filter fun r => !r.isBody k) = [] := fun hat => by
        refine List.filter_eq_nil_iff.mpr fun r hr => ?_
        obtain ⟨hphase, hindex, -⟩ := hat.known r hr
        simp [Refusal.isBody, hphase, hindex, hi]
      simp only [hnone (hc.inspected i' item hitem), hnone (hc'.inspected i' item' hitem')]
      exact .nil
    · exact filter_isBody (h.other_bodies hm hparsed hlocated hlocated' hc hc' hi hitem hitem').2
  refine ⟨hrefusals, problemsBut_related hrefusals, fun i hi => ?_, fun i d d' hd hd' => ?_, fun i f f' hf hf' => ?_⟩
  · have hat : ∀ {items : List Item} {store : Nat → Store},
        (items.zipIdx.map fun r => Phase.bodies.itemAt options r.1 (store r.2))[i]? =
          items[i]?.map fun item => Phase.bodies.itemAt options item (store i) := by
      intro items store
      rw [List.getElem?_map, List.getElem?_zipIdx, Option.map_map]
      simp [Function.comp_def]
    have hitems := rel_getElem? hfailed i
    rw [hc.items_eq, hc'.items_eq, hat, hat]
    cases hitem : items[i]? with
    | none =>
      rw [hitem] at hitems
      generalize items'[i]? = o at hitems
      cases hitems
      exact .none
    | some item =>
      cases hitem' : items'[i]? with
      | none =>
        rw [hitem, hitem'] at hitems
        cases hitems
      | some item' => exact .some (h.other_bodies hm hparsed hlocated hlocated' hc hc' hi hitem hitem').1
  · exact h.same_structs hm hparsed hlocated hlocated' hc hc' hd hd'
  · exact h.same_functions hm hparsed hlocated hlocated' hc hc' hf hf'

end SameButBody

end

/--
Function bodies are isolated.  Two files whose modules are the same but for spans and the body of
one function are compiled to the same, but for this body, if the compilation goes on behind
problems: all other declarations have failed in both or in none, they contribute the same problems
to the list in the same order, at spans that correspond, and all texts of types are the same
(`Isolated`).
-/
theorem SourceFile.compile_isolated (file file' : SourceFile) (options : Options)
    (hcontinue : options.continueOnError = true)
    (decls decls' : List Decl) (hdecls : file.declarations = .ok decls) (hdecls' : file'.declarations = .ok decls')
    (m : Matching) (hm : m.Exact) (k : Nat) (h : SameButBody m k decls decls') :
    ∃ items p u items' p' u',
      Phase.runAll options Phase.all (decls.map ({ decl := · })) { store := {} } = .ok (items, p) ∧
      file.compile options = .ok u ∧ u.module = some ⟨file, items.map (·.decl), p.store⟩ ∧
      u.errors = ((moduleRefusals options decls).filter fun r => !r.known).map (·.problem) ∧
      Phase.runAll options Phase.all (decls'.map ({ decl := · })) { store := {} } = .ok (items', p') ∧
      file'.compile options = .ok u' ∧ u'.module = some ⟨file', items'.map (·.decl), p'.store⟩ ∧
      u'.errors = ((moduleRefusals options decls').filter fun r => !r.known).map (·.problem) ∧
      Isolated m k decls decls' (moduleRefusals options decls) (moduleRefusals options decls') items items' p.store
        p'.store := by
  obtain ⟨place, hlocated⟩ := file.located hdecls
  obtain ⟨place', hlocated'⟩ := file'.located hdecls'
  have hparsed := file.parsed_of_declarations hdecls
  obtain ⟨items, p, store, items₁, q, hc⟩ := exists_compiled hcontinue hparsed hlocated
  obtain ⟨items', p', store', items₁', q', hc'⟩ :=
    exists_compiled hcontinue (file'.parsed_of_declarations hdecls') hlocated'
  obtain ⟨u, hu, hmodule, herrors⟩ := hc.compile hdecls
  obtain ⟨u', hu', hmodule', herrors'⟩ := hc'.compile hdecls'
  exact ⟨items₁, q, u, items₁', q', u', hc.run, hu, hmodule, herrors, hc'.run, hu', hmodule', herrors',
    h.isolated hm hparsed hlocated hlocated' hc hc'⟩

/-- Two modules of which the second one is shorter by a given number in front of a place, and the
same before another one. -/
def cutAt (stop start shorter : Int) : Matching where
  span a a' := a' = a ∧ a.start < stop ∨ start ≤ a.start ∧ a'.start + shorter = a.start ∧ a'.stop + shorter = a.stop
  type := Eq
  frame := Eq
  problem d d' := (d'.span = d.span ∧ d.span.start < stop ∨ start ≤ d.span.start ∧
    d'.span.start + shorter = d.span.start ∧ d'.span.stop + shorter = d.span.stop) ∧ d'.cause = d.cause

private theorem cutAt_exact {stop start shorter : Int} (hstop : stop ≤ start) (hshorter : stop + shorter ≤ start) :
    (cutAt stop start shorter).Exact where
  span := by
    have hext : ∀ a b : Span, a = b ↔ a.start = b.start ∧ a.stop = b.stop := fun a b => by
      cases a
      cases b
      simp
    rintro a a' b b' (⟨rfl, ha⟩ | ⟨ha, ha₁, ha₂⟩) (⟨rfl, hb⟩ | ⟨hb, hb₁, hb₂⟩)
    · exact Iff.rfl
    · rw [hext, hext]
      omega
    · rw [hext, hext]
      omega
    · rw [hext, hext]
      omega
  type := rfl
  frame := rfl
  problem := Iff.rfl

/-- A function without parameters that stands at a place, with some names of one letter as statements. -/
def namingFunction (name : String) (place : Nat) (names : List String) : Decl :=
  .function ⟨{ span := .ofLength (place + 3) 1 }, ⟨name, .ofLength (place + 3) 1, false, [], none⟩,
    { info := { span := .ofLength (place + 6) (2 * names.length + 2) }, frame := none, tail := none,
      stmts := names.zipIdx.map fun r => .identifier { span := .ofLength (place + 7 + 2 * r.2) 1 } r.1 none }⟩

/-- The tokens of such a function. -/
def namingTokens (name : String) (place : Nat) (names : List String) : List Token :=
  [⟨.keyword .fnWord, .ofLength place 2, "fn"⟩, ⟨.identifier, .ofLength (place + 3) 1, name⟩,
    ⟨.leftParen, .ofLength (place + 4) 1, "("⟩, ⟨.rightParen, .ofLength (place + 5) 1, ")"⟩,
    ⟨.leftBrace, .ofLength (place + 6) 1, .ofList ['{']⟩] ++
  (names.zipIdx.flatMap fun r =>
    [⟨.identifier, .ofLength (place + 7 + 2 * r.2) 1, r.1⟩, ⟨.semicolon, .ofLength (place + 8 + 2 * r.2) 1, ";"⟩]) ++
  [⟨.rightBrace, .ofLength (place + 7 + 2 * names.length) 1, .ofList ['}']⟩]

/-- A function whose body has a problem, and another one with a problem of its own. -/
def twoProblems : SourceFile := ⟨"two", "fn f(){x;}fn g(){h;}".toList⟩

/-- The same functions, where the body of the first one is empty. -/
def otherProblem : SourceFile := ⟨"other", "fn f(){}fn g(){h;}".toList⟩

theorem SourceFile.compile_isolated_problems : ∃ file file' : SourceFile, ∃ decls decls' items p u items' p' u',
    file = twoProblems ∧ file' = otherProblem ∧
      file.declarations = .ok decls ∧ file'.declarations = .ok decls' ∧ SameButBody (cutAt 6 10 2) 0 decls decls' ∧
      Phase.runAll {} Phase.all (decls.map ({ decl := · })) { store := {} } = .ok (items, p) ∧
      file.compile {} = .ok u ∧ u.module = some ⟨file, items.map (·.decl), p.store⟩ ∧
      u.errors = ((moduleRefusals {} decls).filter fun r => !r.known).map (·.problem) ∧
      Phase.runAll {} Phase.all (decls'.map ({ decl := · })) { store := {} } = .ok (items', p') ∧
      file'.compile {} = .ok u' ∧ u'.module = some ⟨file', items'.map (·.decl), p'.store⟩ ∧
      u'.errors = ((moduleRefusals {} decls').filter fun r => !r.known).map (·.problem) ∧
      u.errors.map (fun d => (d.span, d.message)) =
        [(.ofLength 7 1, "unknown symbol x"), (.ofLength 17 1, "unknown symbol h")] ∧
      u'.errors.map (fun d => (d.span, d.message)) = [(.ofLength 15 1, "unknown symbol h")] ∧
      Isolated (cutAt 6 10 2) 0 decls decls' (moduleRefusals {} decls) (moduleRefusals {} decls') items items' p.store
        p'.store := by
  have htokens : twoProblems.tokens =
      .ok (namingTokens "f" 0 ["x"] ++ namingTokens "g" 10 ["h"] ++ [⟨.endOfInput, .ofLength 20 0, ""⟩]) := by
    decide +kernel
  have htokens' : otherProblem.tokens =
      .ok (namingTokens "f" 0 [] ++ namingTokens "g" 8 ["h"] ++ [⟨.endOfInput, .ofLength 18 0, ""⟩]) := by
    decide +kernel
  have hleft : twoProblems.declarations = .ok [namingFunction "f" 0 ["x"], namingFunction "g" 10 ["h"]] := by
    rw [SourceFile.declarations, htokens]
    rfl
  have hright : otherProblem.declarations = .ok [namingFunction "f" 0 [], namingFunction "g" 8 ["h"]] := by
    rw [SourceFile.declarations, htokens']
    rfl
  have hinfo : ∀ {n n' l : Nat}, (cutAt 6 10 2).span (.ofLength n l) (.ofLength n' l) →
      Info.Matches (cutAt 6 10 2) { span := .ofLength n l } { span := .ofLength n' l } :=
    fun ha => ⟨ha, .none, rfl, rfl, rfl, rfl⟩
  have hbehind : ∀ {n l : Nat}, 8 ≤ n → (cutAt 6 10 2).span (.ofLength (n + 2) l) (.ofLength n l) := fun hn =>
    .inr (by simp only [Span.ofLength]; omega)
  have hg : Decl.Matches (cutAt 6 10 2) (namingFunction "g" 10 ["h"]) (namingFunction "g" 8 ["h"]) := by
    refine .function ⟨hinfo (hbehind (by decide)), ⟨rfl, hbehind (by decide), rfl, .nil, .none⟩, ?_⟩
    exact .block (hinfo (hbehind (by decide))) .none
      (.cons (.identifier (hinfo (hbehind (by decide))) .none) .nil) .none
  have hf : Decl.HeadMatches (cutAt 6 10 2) (namingFunction "f" 0 ["x"]) (namingFunction "f" 0 []) :=
    .function ⟨rfl, .inl ⟨rfl, by decide⟩, rfl, .nil, .none⟩
  have hsame : SameButBody (cutAt 6 10 2) 0 [namingFunction "f" 0 ["x"], namingFunction "g" 10 ["h"]]
      [namingFunction "f" 0 [], namingFunction "g" 8 ["h"]] := by
    refine ⟨.cons hf (.cons hg.head .nil), fun i d d' hi hd hd' => ?_⟩
    have hlt : i < 2 := (List.getElem?_eq_some_iff.mp hd).1
    obtain rfl : i = 1 := by omega
    cases hd
    cases hd'
    exact hg
  obtain ⟨items, p, u, items', p', u', hall, hu, hm, herrors, hall', hu', hm', herrors', hisolated⟩ :=
    SourceFile.compile_isolated _ _ {} rfl _ _ hleft hright (cutAt 6 10 2) (cutAt_exact (by decide) (by decide)) 0 hsame
  have hproblems : (twoProblems.compile {}).toOption.map (fun u => u.errors.map fun d => (d.span, d.message)) =
      some [(.ofLength 7 1, "unknown symbol x"), (.ofLength 17 1, "unknown symbol h")] := by
    decide +kernel
  have hproblems' : (otherProblem.compile {}).toOption.map (fun u => u.errors.map fun d => (d.span, d.message)) =
      some [(.ofLength 15 1, "unknown symbol h")] := by
    decide +kernel
  rw [hu] at hproblems
  rw [hu'] at hproblems'
  exact ⟨_, _, _, _, items, p, u, items', p', u', rfl, rfl, hleft, hright, hsame, hall, hu, hm,
    herrors, hall', hu', hm',
    herrors', Option.some.inj hproblems, Option.some.inj hproblems', hisolated⟩

end RainCheck

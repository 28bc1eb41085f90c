import RainCheck.Proofs.Readying

/-!
# Bodies on stores that differ by numbers

The bodies of two modules are checked one after the other, each on a store that spares the one
before the first body (`bodies_spare`).  So a function is treated alike in both modules if the
stores before the bodies differ by numbers as far as the function is concerned, whatever the other
bodies are (`Inspected.related`).
* What is found out about the nodes of a function has the same text in both modules (`textMatching`).
* A body is refused for a problem in itself, unless the problem is on record and lies in another declaration.
-/

namespace RainCheck

open RainCheck.Action

/-! ### Texts -/

/-- Types with the same text in two stores match, and frames are not told apart. -/
def textMatching (m : Matching) (s s' : Store) : Matching :=
  { m with
    type := fun t t' => ∃ text, s.types.text t = .ok text ∧ s'.types.text t' = .ok text
    frame := fun _ _ => True }

section

variable {m n : Matching} {s s' t t' : Store}

/-- Types that match in stores that differ by numbers have the same text there and in all stores behind. -/
private theorem Store.Renumbered.same_text {L : Listing} (h : s.Renumbered m s') (hs : s.Sound L) (hg : s.GrowsTo t)
    (hg' : s'.GrowsTo t') {u u' : TypeId} (hu : m.type u u') :
    ∃ text, t.types.text u = .ok text ∧ t'.types.text u' = .ok text := by
  obtain ⟨text, htext⟩ := hs.types.text (h.lt_size hu).1
  have hsame := h.text hu
  rw [htext] at hsame
  obtain ⟨text', htext', rfl⟩ := hsame.exists_ok
  exact ⟨text, hg.text htext, hg'.text htext'⟩

theorem Store.Renumbered.finer {L : Listing} (h : s.Renumbered n s') (hle : m ≤ n) (hs : s.Sound L) (hg : s.GrowsTo t)
    (hg' : s'.GrowsTo t') : n.Finer (textMatching m t t') where
  span _ _ ha := hle.span ▸ ha
  type _ _ hu := h.same_text hs hg hg' hu
  frame _ _ _ := trivial
  problem _ _ hd := hle.problem ▸ hd

end

/-! ### One body -/

section

variable {m : Matching} {s s' : Store}

/-- A body is treated alike on stores that differ by numbers. -/
private theorem Store.Renumbered.treats (h : s.Renumbered m s') (options : Options) {item item' : Item}
    (hitem : item.Related (Decl.Matches m) item') (i i' : Nat) :
    ∃ n, m ≤ n ∧
      Store.Renumbered n (Phase.bodies.storeAt options item s) (Phase.bodies.storeAt options item' s') ∧
      (Phase.bodies.itemAt options item s).Related (Decl.Matches n) (Phase.bodies.itemAt options item' s') ∧
      List.Forall₂ (fun r r' => m.problem r.problem r'.problem) (Phase.bodies.refusalsAt options i item s)
        (Phase.bodies.refusalsAt options i' item' s') := by
  obtain ⟨d, failed⟩ := item
  obtain ⟨d', failed'⟩ := item'
  obtain ⟨hd, hfailed⟩ := hitem
  obtain rfl : failed' = failed := hfailed
  unfold Phase.storeAt Phase.itemAt Phase.refusalsAt
  cases failed' with
  | true => exact ⟨m, le_refl m, h, ⟨hd, rfl⟩, .nil⟩
  | false =>
    cases (show d.Matches m d' from hd) with
    | struct hstruct => exact ⟨m, le_refl m, h, ⟨.struct hstruct, rfl⟩, .nil⟩
    | @function f f' hf =>
      obtain ⟨n, hle, hchecked, hresult, hstores⟩ := checkBody_inStep renumbered_simulation options hf h
      refine ⟨n, hle, hstores, ?_⟩
      simp only [Phase.apply, Bool.false_eq_true, if_false]
      generalize Phase.checkBody options FrameId.module f s = r at hchecked hresult
      generalize Phase.checkBody options FrameId.module f' s' = r' at hchecked hresult
      obtain ⟨g, result, t⟩ := r
      obtain ⟨g', result', t'⟩ := r'
      dsimp only at hchecked hresult ⊢
      cases hresult with
      | ok => exact ⟨⟨.function hchecked, rfl⟩, .nil⟩
      | error hwhy =>
        refine ⟨⟨.function hchecked, rfl⟩, ?_⟩
        cases hwhy with
        | fault => exact .nil
        | refused hwhy => exact .cons (hle.problem ▸ hwhy) .nil

end

/-! ### All bodies -/

section

variable {options : Options} {decls : List Decl} {done rest items : List Item} {item : Item}
  {p q : Progress} {s : Store}
  {place : Span → Nat} {store : Nat → Store} {i : Nat}

private theorem Sparing.sound (hcontinue : options.continueOnError = true)
    (h : Sparing options decls place s done rest p) :
    p.store.Sound (moduleListing decls) :=
  (h.inspecting.checked.1.resting (h.running hcontinue)).sound

/-- The problem that a body is refused for is on record just if it does not lie in the function itself. -/
private theorem Sparing.known (hcontinue : options.continueOnError = true) (hparsed : Parsed decls)
    (hlocated : Located place decls)
    (h : Sparing options decls place s done (item :: rest) p) {r : Refusal}
    (hr : r ∈ Phase.bodies.refusalsAt options done.length item p.store) :
    r.phase = .bodies ∧ r.index = done.length ∧ r.known = decide (place r.problem.span / 2 ≠ done.length) := by
  unfold Phase.refusalsAt at hr
  cases hfailed : item.failed with
  | true =>
    rw [hfailed] at hr
    cases hr
  | false =>
    rw [hfailed, if_neg Bool.false_ne_true] at hr
    cases hdecl : item.decl with
    | struct d =>
      rw [hdecl] at hr
      cases hr
    | function f =>
      have htells := h.inspecting.tells hparsed hlocated.placed (h.running hcontinue) hfailed hdecl
      unfold Phase.Tells at htells
      rw [hdecl] at hr
      rcases happly : Phase.bodies.apply options (.function f) p.store with ⟨g, ⟨(why | fault) | u, t⟩⟩ <;>
        rw [happly] at hr htells
      · obtain rfl := List.mem_singleton.mp hr
        refine ⟨rfl, rfl, ?_⟩
        obtain ⟨-, hcaught, -⟩ := htells
        -- what is on record lies in declarations that have failed, and the function has not
        obtain ⟨log, hreported⟩ := h.reported
        have hnumber : decls[done.length]? = some (.function f) := hdecl ▸ h.inspecting.number
        obtain ⟨hopen, hwhole⟩ : ¬Failed (done ++ item :: rest) done.length ∧ ¬p.store.Breaks decls done.length :=
          function_open hnumber hfailed
        have hiff : why ∈ p.store.recorded ↔ place why.span / 2 ≠ done.length := by
          refine ⟨fun hrecorded heq => ?_, fun hne => hcaught.resolve_right hne⟩
          rcases hreported.accounted hrecorded with hother | hother
          · exact hopen (heq ▸ hother)
          · exact hwhole (heq ▸ hother)
        simp only [← hiff, List.contains_eq_mem]
      · cases hr
      · cases hr

/-- The declaration with a number while bodies are checked, on a store that spares the one before the first body. -/
structure Inspected (options : Options) (decls : List Decl) (place : Span → Nat) (s : Store) (store : Nat → Store)
    (i : Nat) (item : Item) (q : Progress) : Prop where
  spared : s.Spares (fun key => ∀ j < i, place key ≠ 2 * j + 1) (store i)
  sound : (Phase.bodies.storeAt options item (store i)).Sound (moduleListing decls)
  behind : (Phase.bodies.storeAt options item (store i)).Spares (fun key => ∀ j, i < j → place key ≠ 2 * j + 1) q.store
  known : ∀ r ∈ Phase.bodies.refusalsAt options i item (store i),
    r.phase = .bodies ∧ r.index = i ∧ r.known = decide (place r.problem.span / 2 ≠ i)

/-- All bodies are checked, each on a store that spares the one before the first of them. -/
theorem bodies_spare (hcontinue : options.continueOnError = true) (hparsed : Parsed decls)
    (hlocated : Located place decls)
    (hready : p.store.Ready decls) (h : Inspecting options decls [] items p)
    (hreported : ∃ log, Reported options (fun a => place a / 2) decls log items p) :
    ∃ (store : Nat → Store) (items' : List Item) (q : Progress), Phase.bodies.run options items p = .ok (items', q) ∧
      Sparing options decls place p.store items' [] q ∧
      items' = items.zipIdx.map (fun r => Phase.bodies.itemAt options r.1 (store r.2)) ∧
      Phase.bodies.refusals options 0 items p =
        items.zipIdx.flatMap (fun r => Phase.bodies.refusalsAt options r.2 r.1 (store r.2)) ∧
      ∀ i item, items[i]? = some item → Inspected options decls place p.store store i item q := by
  have hstep : ∀ done item rest q, Sparing options decls place p.store done (item :: rest) q → q.halted = false ∧
      ∃ item' q', Phase.bodies.step options item q = .ok (item', q') ∧
        Sparing options decls place p.store (done ++ [item']) rest q' ∧
        q.store.Spares (fun key => ∀ j, done.length ≤ j → place key ≠ 2 * j + 1) q'.store := by
    intro done item rest q hK
    obtain ⟨hhalted, item', q', hitem', hK', hspares⟩ := hK.step hcontinue hparsed hlocated
    exact ⟨hhalted, item', q', hitem', hK',
      { hspares with kept := fun key hkey => hspares.kept key (hkey _ (le_refl _)) }⟩
  have hstart : Sparing options decls place p.store [] items p :=
    ⟨h, hreported, .refl hready.resting.sound.types.ordered⟩
  let G (n : Nat) (s t : Store) : Prop := s.Spares (fun key => ∀ j, n ≤ j → place key ≠ 2 * j + 1) t
  have htrans : ∀ n s t u, G n s t → G (n + 1) t u → G n s u := fun n s t u h h' =>
    h.trans h' fun _ hkey => ⟨hkey, fun j hj => hkey j (Nat.le_of_succ_le hj)⟩
  obtain ⟨store, items', q, hrun, hK, hitems, hrefusals, hat⟩ :=
    Phase.run_stores _ G hstep (fun _ _ hK => .refl hK.spared.ordered) htrans hstart
  refine ⟨store, items', q, hrun, hK, hitems, hrefusals, fun i item hitem => ?_⟩
  obtain ⟨hspares, done, rest, p₁, hK₁, rfl, hstore⟩ := hat i item hitem
  obtain ⟨hhalted, item', p₂, hitem', hK₂, -⟩ := hstep _ _ _ _ hK₁
  obtain ⟨-, hbehind, -⟩ := Phase.step_at hhalted hitem' 0
  rw [hstore] at hbehind
  exact ⟨hstore ▸ hK₁.spared, hbehind ▸ hK₂.sound hcontinue, hspares,
    hstore ▸ fun r hr => hK₁.known hcontinue hparsed hlocated hr⟩

end

/-! ### A body in two modules -/

section

variable {m : Matching} {options : Options} {decls decls' : List Decl} {item item' : Item}
  {q q' : Progress} {s s' : Store}
  {place place' : Span → Nat} {store store' : Nat → Store} {i i' : Nat}

section

variable (h : Inspected options decls place s store i item q)
  (h' : Inspected options decls' place' s' store' i' item' q')
  (hs : s.Renumbered m s')
  (hkeys : ∀ key key', m.span key key' → (∀ j < i, place key ≠ 2 * j + 1) ∧ ∀ j < i', place' key' ≠ 2 * j + 1)
  (hitem : item.Related (Decl.Matches m) item')

include h h' hs hkeys hitem

/-- A function is treated alike in two modules whose stores differ by numbers, as far as the function is concerned. -/
theorem Inspected.related :
    (Phase.bodies.itemAt options item (store i)).Related (Decl.Matches (textMatching m q.store q'.store))
        (Phase.bodies.itemAt options item' (store' i')) ∧
      List.Forall₂ (fun r r' => m.problem r.problem r'.problem) (Phase.bodies.refusalsAt options i item (store i))
        (Phase.bodies.refusalsAt options i' item' (store' i')) := by
  obtain ⟨n, hle, hstores, hrelated, hrefusals⟩ := (hs.spare h.spared h'.spared hkeys).treats options hitem i i'
  have hfiner := hstores.finer hle h.sound h.behind.toGrowsTo h'.behind.toGrowsTo
  exact ⟨⟨hrelated.decl.imp hfiner, hrelated.failed⟩, hrefusals⟩

/-- At the end the same is known about functions that stand in the bodies, or in no body behind them. -/
theorem Inspected.function_alike {key key' : Span} (hkey : m.span key key')
    (hbehind : ∀ j, i < j → place key ≠ 2 * j + 1)
    (hbehind' : ∀ j, i' < j → place' key' ≠ 2 * j + 1) :
    (q.store.function key).Alike (textMatching m q.store q'.store) (q'.store.function key') := by
  obtain ⟨n, hle, hstores, -⟩ := (hs.spare h.spared h'.spared hkeys).treats options hitem i i'
  have halike := hstores.functions (show n.span key key' from hle.span ▸ hkey)
  exact (halike.kept (h.behind.kept key hbehind) (h'.behind.kept key' hbehind')).imp
    (hstores.finer hle h.sound h.behind.toGrowsTo h'.behind.toGrowsTo)

end

end

/-! ### Whole compilations -/

section

variable {options : Options} {decls : List Decl} {place : Span → Nat}

/-- A compilation up to the first body, and what is behind it. -/
structure Compiled (options : Options) (decls : List Decl) (place : Span → Nat) (items : List Item) (p : Progress)
    (store : Nat → Store) (items' : List Item) (q : Progress) : Prop where
  prepared : Phase.runAll options Phase.preparation (decls.map ({ decl := · })) { store := {} } = .ok (items, p)
  decls_eq : items.map (·.decl) = decls
  ready : p.store.Ready decls
  run : Phase.runAll options Phase.all (decls.map ({ decl := · })) { store := {} } = .ok (items', q)
  log : moduleRefusals options decls =
    Phase.refusalsAll options Phase.preparation (decls.map ({ decl := · })) { store := {} } ++
      items.zipIdx.flatMap fun r => Phase.bodies.refusalsAt options r.2 r.1 (store r.2)
  errors : q.errors = ((moduleRefusals options decls).filter fun r => !r.known).map (·.problem)
  items_eq : items' = items.zipIdx.map fun r => Phase.bodies.itemAt options r.1 (store r.2)
  spared : p.store.Spares (fun key => place key % 2 = 0) q.store
  inspected : ∀ i item, items[i]? = some item → Inspected options decls place p.store store i item q

theorem exists_compiled (hcontinue : options.continueOnError = true) (hparsed : Parsed decls)
    (hlocated : Located place decls) :
    ∃ items p store items' q, Compiled options decls place items p store items' q := by
  obtain ⟨items, p, hprepared, -, hinspecting, hreported⟩ := preparation_reports options hparsed hlocated.placed
  have hready := hinspecting.ready hcontinue hparsed hprepared
  obtain ⟨store, items', q, hrun, hsparing, hitems, hrefusals, hat⟩ :=
    bodies_spare hcontinue hparsed hlocated hready hinspecting ⟨_, hreported⟩
  obtain ⟨hall, hlog⟩ := runAll_of_preparation hprepared hrun
  obtain ⟨items₁, q₁, hall₁, -, hreported₁⟩ := runAll_reports options hparsed hlocated.placed
  cases hall.symm.trans hall₁
  refine ⟨items, p, store, items', q, hprepared, ?_, hready, hall, hlog.trans (by rw [hrefusals]),
    hreported₁.errors, hitems,
    ?_, hat⟩
  · simpa using hinspecting.behind.symm
  · have hspared := hsparing.spared
    exact { hspared with kept := fun key hkey => hspared.kept key fun j _ => by omega }

/-- The compiled file. -/
theorem Compiled.compile {file : SourceFile} {items items' : List Item} {p q : Progress} {store : Nat → Store}
    (h : Compiled options decls place items p store items' q) (hdecls : file.declarations = .ok decls) :
    ∃ u, file.compile options = .ok u ∧ u.module = some ⟨file, items'.map (·.decl), q.store⟩ ∧
      u.errors = ((moduleRefusals options decls).filter fun r => !r.known).map (·.problem) := by
  have hcompile : Module.compile options { file, decls } =
      .ok ({ file, decls := items'.map (·.decl), store := q.store }, q.errors) := by
    unfold Module.compile
    rw [h.run]
    rfl
  exact ⟨_, file.compile_of_module hdecls hcompile, rfl, h.errors⟩

end

end RainCheck

import RainCheck.Proofs.Renumbering
import RainCheck.Proofs.Reporting

/-!
# What a body leaves alone

The check of a body adds to the store.  What was decided before stays as it was (`Store.Spares`).
* (types) No entry changes, as all structs are decided before bodies are checked.
* (frames) The frames of the module and those of other bodies stay the same: everything is declared in new frames.
* (functions) Of the functions, only those that stand in the body may be known better behind it.
So each body of a module is checked on a store that spares the one before the first of them (`bodies_spare`), and stores
that differ by numbers do so wherever both are spared (`Store.Renumbered.spare`).
-/

namespace RainCheck

open RainCheck.Action

/-! ### Stores that are spared -/

/-- A record of which no more is known than before. -/
structure FunctionRecord.Kept (r r' : FunctionRecord) : Prop where
  variableType : r'.variableType = r.variableType
  signature : r'.signature = r.signature
  failure : r.signature = none → r'.failure = r.failure

/-- A store in which more is known, but nothing else of what was decided, nor of the functions with the given keys. -/
structure Store.Spares (keys : Span → Prop) (s t : Store) : Prop extends s.GrowsTo t where
  ordered : t.types.Ordered
  frames_eq : ∀ fr f, s.frame? fr = some f → t.frame? fr = some f
  kept : ∀ key, keys key → (s.function key).Kept (t.function key)

section

variable {m : Matching} {r r' q q' : FunctionRecord}

private theorem FunctionRecord.Kept.refl (r : FunctionRecord) : r.Kept r := ⟨rfl, rfl, fun _ => rfl⟩

private theorem FunctionRecord.Kept.trans (h : r.Kept r') (h' : r'.Kept q) : r.Kept q where
  variableType := h'.variableType.trans h.variableType
  signature := h'.signature.trans h.signature
  failure hnone := (h'.failure (h.signature.trans hnone)).trans (h.failure hnone)

theorem FunctionRecord.Alike.kept (h : r.Alike m r') (hq : r.Kept q) (hq' : r'.Kept q') : q.Alike m q' where
  variableType := by
    rw [hq.variableType, hq'.variableType]
    exact h.variableType
  signature := by
    rw [hq.signature, hq'.signature]
    exact h.signature
  failure hnone := by
    have hnone : r.signature = none := hq.signature ▸ hnone
    have hnone' : r'.signature = none := by
      have hsignature := h.signature
      rw [hnone] at hsignature
      generalize r'.signature = o at hsignature
      cases hsignature
      rfl
    rw [hq.failure hnone, hq'.failure hnone']
    exact h.failure hnone

/-- What matches is decided in both stores. -/
theorem TypeEntry.Matches.closed {e e' : TypeEntry} (h : e.Matches m e') (hclosed : e.Closed) : e'.Closed := by
  rintro decl state rfl
  cases h with
  | struct hd hstate =>
    rcases hclosed _ _ rfl with ⟨fields, rfl⟩ | ⟨why, rfl⟩
    · cases hstate with | resolved hfields => exact .inl ⟨_, rfl⟩
    · cases hstate with | failed hwhy => exact .inr ⟨_, rfl⟩

end

namespace Store

variable {keys keys' : Span → Prop} {m : Matching} {s s' t t' : Store}

/-- A type that is decided stays as it is. -/
theorem GrowsTo.closed (h : s.GrowsTo t) {id : TypeId} {e : TypeEntry}
    (he : s.typeAt? id = some e) (hclosed : e.Closed) :
    t.typeAt? id = some e := by
  cases e with
  | struct decl state =>
    rcases hclosed decl state rfl with ⟨fields, rfl⟩ | ⟨why, rfl⟩
    · exact h.resolved he
    · exact h.failed he
  | primitive | reference | function => exact h.same he rfl

theorem Spares.refl (hs : s.types.Ordered) : s.Spares keys s :=
  ⟨.refl s, hs, fun _ _ hf => hf, fun _ _ => .refl _⟩

theorem Spares.trans {keys'' : Span → Prop} (h : s.Spares keys s') (h' : s'.Spares keys' t)
    (hkeys : ∀ key, keys'' key → keys key ∧ keys' key) : s.Spares keys'' t where
  toGrowsTo := h.toGrowsTo.trans h'.toGrowsTo
  ordered := h'.ordered
  frames_eq fr f hf := h'.frames_eq fr f (h.frames_eq fr f hf)
  kept key hkey := (h.kept key (hkeys key hkey).1).trans (h'.kept key (hkeys key hkey).2)

/-- Stores that differ by numbers do so behind what leaves both alone. -/
theorem Renumbered.spare (h : s.Renumbered m s') (ht : s.Spares keys t) (ht' : s'.Spares keys' t')
    (hkeys : ∀ key key', m.span key key' → keys key ∧ keys' key') : t.Renumbered m t' :=
  { h with
    ordered := ⟨ht.ordered, ht'.ordered⟩
    types := fun hid => by
      obtain ⟨e, e', he, he', hmatch, hclosed⟩ := h.types hid
      exact ⟨e, e', ht.closed he hclosed, ht'.closed he' (hmatch.closed hclosed), hmatch, hclosed⟩
    frames := fun hfr => by
      obtain ⟨f, f', hf, hf', hff'⟩ := h.frames hfr
      exact ⟨f, f', ht.frames_eq _ f hf, ht'.frames_eq _ f' hf', hff'⟩
    functions := fun hkey => by
      obtain ⟨hleft, hright⟩ := hkeys _ _ hkey
      exact (h.functions hkey).kept (ht.kept _ hleft) (ht'.kept _ hright) }

/-- What is decided about a function does not change. -/
private theorem GrowsTo.kept {L : Listing} (h : s.GrowsTo t) (hs : s.Sound L) (ht : t.Sound L) {key : Span}
    (hdecided : (s.function key).Decided) (hregistered : (s.function key).variableType.isSome = true) :
    (s.function key).Kept (t.function key) := by
  obtain ⟨holder, hholder⟩ := Option.isSome_iff_exists.mp hregistered
  obtain ⟨holder', hholder', -⟩ := (h.functions key).variableType holder hholder
  cases hsignature : (s.function key).signature with
  | some sig =>
    have hsignature' := (h.functions key).signature sig hsignature
    refine ⟨?_, hsignature'.trans hsignature.symm, fun hnone => by cases hsignature.symm.trans hnone⟩
    rcases hs.functions.variableType key holder hholder with ⟨-, hnone⟩ | ⟨sig₁, rfl, hsig₁⟩
    · cases hsignature.symm.trans hnone
    rcases ht.functions.variableType key holder' hholder' with ⟨-, hnone⟩ | ⟨sig₂, rfl, hsig₂⟩
    · cases hsignature'.symm.trans hnone
    cases hsignature.symm.trans hsig₁
    cases hsignature'.symm.trans hsig₂
    rw [hholder, hholder']
  | none =>
    obtain ⟨why, hwhy⟩ : ∃ why, (s.function key).failure = some why := by
      rcases hdecided with hsome | hsome
      · rw [hsignature] at hsome
        cases hsome
      · exact Option.isSome_iff_exists.mp hsome
    obtain ⟨hsignature', hwhy'⟩ := (h.functions key).failure why hsignature hwhy
    refine ⟨?_, hsignature'.trans hsignature.symm, fun _ => hwhy'.trans hwhy.symm⟩
    rcases hs.functions.variableType key holder hholder with ⟨rfl, -⟩ | ⟨sig₁, -, hsig₁⟩
    · rcases ht.functions.variableType key holder' hholder' with ⟨rfl, -⟩ | ⟨sig₂, -, hsig₂⟩
      · rw [hholder, hholder']
      · cases hsignature'.symm.trans hsig₂
    · cases hsignature.symm.trans hsig₁

end Store

/-! ### One body -/

section

variable {options : Options} {decls todo done : List Decl} {items : List Item} {item : Item} {p : Progress} {s : Store}
  {f : FunctionDecl} {place : Span → Nat}

/-- Whatever becomes of the check of a body, it only adds to the store: frames, and functions that stand in the body. -/
private theorem Resting.body_moves {fr : FrameId} (options : Options) (hparsed : Parsed decls)
    (h : Resting decls todo s)
    (hf : (Decl.function f).Owns decls) (htodo : .function f ∈ todo) (hfr : fr < 3) :
    s.Moves (moduleListing decls) fr (Expr.mentionsBlock f.body)
      (Phase.bodies.apply options (.function f) s).2.store := by
  have hwalks := h.walks options hparsed hf htodo hfr
  obtain ⟨r, st, hrun⟩ : ∃ r st, (Check.functionWith options FrameId.module f.info f.header f.body
    fun c frame => Check.block c frame f.body).run { store := s } = (r, st) := ⟨_, _, rfl⟩
  have hmoves := ((Check.walks_iff hrun).mp hwalks).1.moves
  simpa only [Phase.apply, Phase.checkBody, check_of_run hrun] using hmoves

/-- The check of a body spares what was before, apart from the functions that stand in it. -/
private theorem Resting.spares_body {known : Diagnostic → Prop} {n : Nat} (options : Options) (hparsed : Parsed decls)
    (h : Resting decls todo s) (hfit : s.Fit known fun _ => False) (hf : (Decl.function f).Owns decls)
    (htodo : .function f ∈ todo) (hlies : (Expr.block f.body).Lies (place · = n)) :
    s.Spares (place · ≠ n) (Phase.bodies.apply options (.function f) s).2.store := by
  have hexported := h.body_moves options hparsed hf htodo (show FrameId.exported < 3 by decide)
  have hmodule := h.body_moves options hparsed hf htodo (show FrameId.module < 3 by decide)
  refine ⟨hexported.toGrowsTo, hexported.sound.types.ordered, fun fr x hx => ?_, fun key hplace => ?_⟩
  · by_cases hfr : fr = FrameId.module
    · exact hexported.leaves fr x (by rw [hfr]; decide) hx
    · exact hmodule.leaves fr x hfr hx
  · by_cases hnone : (s.function key).variableType = none
    · have hown : ∀ g, .function g ∈ Expr.mentionsBlock f.body → g.span ≠ key := by
        rintro g hg rfl
        exact hplace (hlies.mentions (.function g) hg)
      rw [hexported.unregistered key hown hnone]
      exact .refl _
    · have hregistered := Option.isSome_iff_ne_none.mpr hnone
      exact hexported.toGrowsTo.kept h.sound hexported.sound
        ((hfit.registered key hregistered).resolve_left id) hregistered

end

/-! ### All bodies -/

namespace Phase

variable {phase : Phase} {options : Options} {items items' : List Item} {item item' : Item} {p q : Progress}

/-- What a phase makes of a declaration on a store. -/
def itemAt (phase : Phase) (options : Options) (item : Item) (s : Store) : Item :=
  if item.failed then item
  else
    match phase.apply options item.decl s with
    | (decl, ⟨.ok (), _⟩) => { item with decl }
    | (decl, ⟨.error _, _⟩) => ⟨decl, true⟩

/-- The store behind a declaration. -/
def storeAt (phase : Phase) (options : Options) (item : Item) (s : Store) : Store :=
  if item.failed then s else (phase.apply options item.decl s).2.store

/-- The refusal of a declaration on a store, if it is refused. -/
def refusalsAt (phase : Phase) (options : Options) (n : Nat) (item : Item) (s : Store) : List Refusal :=
  if item.failed then []
  else
    match (phase.apply options item.decl s).2.result with
    | .error (.refused d) => [⟨phase, n, item.decl, s, d, s.recorded.contains d⟩]
    | _ => []

/-- A step that is taken, told by the store that it is taken on. -/
theorem step_at (hhalted : p.halted = false) (hstep : phase.step options item p = .ok (item', q)) (n : Nat) :
    item' = phase.itemAt options item p.store ∧ q.store = phase.storeAt options item p.store ∧
      (phase.refusal? options item p).toList.map
          (fun d => (⟨phase, n, item.decl, p.store, d, p.store.recorded.contains d⟩ : Refusal)) =
        phase.refusalsAt options n item p.store := by
  unfold itemAt storeAt refusalsAt refusal?
  cases hfailed : item.failed with
  | true =>
    rw [step_skip (.inr hfailed)] at hstep
    cases hstep
    simp
  | false =>
    rcases happly : phase.apply options item.decl p.store with ⟨d, ⟨(why | g) | u, s⟩⟩
    · rw [step_of_refused hhalted hfailed happly] at hstep
      cases hstep
      simp [hhalted]
    · rw [step, hhalted, hfailed, happly] at hstep
      cases hstep
    · rw [step_of_ok hhalted hfailed happly] at hstep
      cases hstep
      simp [hhalted]

/--
A phase that goes on behind problems, told by the stores that it treats the declarations on.  `K` tells the declarations
that are done from those behind, and `G` what becomes of a store from a declaration on.
-/
theorem run_stores (K : List Item → List Item → Progress → Prop) (G : Nat → Store → Store → Prop)
    (hstep : ∀ done item rest p, K done (item :: rest) p → p.halted = false ∧
      ∃ item' p', phase.step options item p = .ok (item', p') ∧ K (done ++ [item']) rest p' ∧
      G done.length p.store p'.store)
    (hend : ∀ done p, K done [] p → G done.length p.store p.store)
    (htrans : ∀ n s t u, G n s t → G (n + 1) t u → G n s u) (hK : K [] items p) :
    ∃ (store : Nat → Store) (items' : List Item) (q : Progress), phase.run options items p =
      .ok (items', q) ∧ K items' [] q ∧
      items' = items.zipIdx.map (fun r => phase.itemAt options r.1 (store r.2)) ∧
      phase.refusals options 0 items p = items.zipIdx.flatMap (fun r => phase.refusalsAt options r.2 r.1 (store r.2)) ∧
      ∀ i item, items[i]? = some item → G (i + 1) (phase.storeAt options item (store i)) q.store ∧
        ∃ done rest p, K done (item :: rest) p ∧ done.length = i ∧ p.store = store i := by
  suffices hbehind : ∀ done, K done items p → ∃ (store : Nat → Store) (items' : List Item) (q : Progress),
      phase.run options items p = .ok (items', q) ∧ K (done ++ items') [] q ∧ G done.length p.store q.store ∧
      items' = (items.zipIdx done.length).map (fun r => phase.itemAt options r.1 (store r.2)) ∧
      phase.refusals options done.length items p =
        (items.zipIdx done.length).flatMap (fun r => phase.refusalsAt options r.2 r.1 (store r.2)) ∧
      ∀ r ∈ items.zipIdx done.length, G (r.2 + 1) (phase.storeAt options r.1 (store r.2)) q.store ∧
        ∃ before rest p, K before (r.1 :: rest) p ∧ before.length = r.2 ∧ p.store = store r.2 by
    obtain ⟨store, items', q, hrun, hK', -, hitems, hrefusals, hat⟩ := hbehind [] hK
    refine ⟨store, items', q, hrun, hK', hitems, hrefusals, fun i item hitem => hat (item, i) ?_⟩
    exact List.mk_mem_zipIdx_iff_getElem?.mpr hitem
  clear hK
  induction items generalizing p with
  | nil => exact fun done hK => ⟨fun _ => p.store, [], p, rfl, by simpa using hK, hend done p hK, rfl, rfl, by simp⟩
  | cons item rest ih =>
    intro done hK
    obtain ⟨hhalted, item', p', hitem, hK', hgrows⟩ := hstep done item rest p hK
    obtain ⟨hitem', hstore, hrefusals⟩ := step_at hhalted hitem done.length
    obtain ⟨store, rest', q, hrest, hKq, hgrows', hitems, hbehind, hat⟩ := ih _ hK'
    rw [List.length_append, List.length_singleton] at hgrows' hitems hbehind hat
    -- the stores behind are those of the induction
    let store' : Nat → Store := fun i => if i = done.length then p.store else store i
    have hown : store' done.length = p.store := if_pos rfl
    have hlater : ∀ r ∈ rest.zipIdx (done.length + 1), store' r.2 = store r.2 := fun r hr =>
      if_neg (Nat.ne_of_gt (List.le_snd_of_mem_zipIdx hr))
    refine ⟨store', item' :: rest', q, ?_, by simpa using hKq, htrans _ _ _ _ hgrows hgrows', ?_, ?_, ?_⟩
    · rw [run_cons, hitem, ok_bind]
      dsimp only
      rw [hrest]
      rfl
    · rw [List.zipIdx_cons, List.map_cons, hown, ← hitem', hitems]
      exact congrArg _ (List.map_congr_left fun r hr => by rw [hlater r hr])
    · rw [refusals, hitem, List.zipIdx_cons, List.flatMap_cons, hown, ← hrefusals]
      dsimp only
      rw [hbehind]
      exact congrArg _ (List.flatMap_congr fun r hr => by rw [hlater r hr])
    · intro r hr
      rw [List.zipIdx_cons] at hr
      rcases List.mem_cons.mp hr with rfl | hr
      · refine ⟨?_, done, rest, p, hK, rfl, hown.symm⟩
        dsimp only
        rw [hown, ← hstore]
        exact hgrows'
      · rw [hlater r hr]
        exact hat r hr

end Phase

/-- What holds while bodies are checked: the store before the first of them is spared. -/
structure Sparing (options : Options) (decls : List Decl) (place : Span → Nat) (s : Store) (done rest : List Item)
    (p : Progress) : Prop where
  inspecting : Inspecting options decls done rest p
  reported : ∃ log, Reported options (fun a => place a / 2) decls log (done ++ rest) p
  spared : s.Spares (fun key => ∀ i < done.length, place key ≠ 2 * i + 1) p.store

section

variable {options : Options} {decls : List Decl} {done rest items : List Item} {item : Item} {p : Progress} {s : Store}
  {place : Span → Nat}

theorem Sparing.running (hcontinue : options.continueOnError = true) (h : Sparing options decls place s done rest p) :
    p.halted = false :=
  h.inspecting.checked.1.accounted.running hcontinue

theorem Sparing.step (hcontinue : options.continueOnError = true) (hparsed : Parsed decls)
    (hlocated : Located place decls)
    (h : Sparing options decls place s done (item :: rest) p) :
    p.halted = false ∧ ∃ item' p', Phase.bodies.step options item p = .ok (item', p') ∧
      Sparing options decls place s (done ++ [item']) rest p' ∧
      p.store.Spares (place · ≠ 2 * done.length + 1) p'.store := by
  have hhalted := h.running hcontinue
  obtain ⟨item', p', hstep, hinspecting⟩ := h.inspecting.step hparsed hlocated.placed
  obtain ⟨log, hreported⟩ := h.reported
  have hreported' : ∃ log, Reported options (fun a => place a / 2) decls log (done ++ [item'] ++ rest) p' :=
    ⟨_, by simpa using hreported.step hstep fun hhalted hfailed =>
      ⟨h.inspecting.separates hparsed hlocated.placed hreported.linked hhalted hfailed,
        h.inspecting.forgets hparsed hlocated.placed hreported hhalted hfailed⟩⟩
  -- what is spared by the step is spared by all steps so far
  suffices hown : p.store.Spares (place · ≠ 2 * done.length + 1) p'.store by
    refine ⟨hhalted, item', p', hstep, ⟨hinspecting, hreported', h.spared.trans hown fun key hkey => ?_⟩, hown⟩
    exact ⟨fun i hi => hkey i (by simp; omega), hkey _ (by simp)⟩
  obtain ⟨-, hstore, -⟩ := Phase.step_at hhalted hstep 0
  have hsame : p'.store = p.store → p.store.Spares (place · ≠ 2 * done.length + 1) p'.store := fun heq => by
    rw [heq]
    exact .refl h.spared.ordered
  cases hfailed : item.failed with
  | true => exact hsame (by rw [hstore, Phase.storeAt, if_pos hfailed])
  | false =>
    rw [Phase.storeAt, hfailed, if_neg Bool.false_ne_true] at hstore
    cases hdecl : item.decl with
    | struct d =>
      rw [hdecl] at hstore
      exact hsame hstore
    | function f =>
      rw [hdecl] at hstore
      have hnumber : decls[done.length]? = some (.function f) := by
        have hhead := congrArg List.head? h.inspecting.behind
        rwa [List.head?_drop, List.map_cons, List.head?_cons, hdecl] at hhead
      have howns := hdecl ▸ h.inspecting.checked.1.owns hhalted item List.mem_cons_self hfailed
      have hresting := h.inspecting.checked.1.resting hhalted
      have hbody := hresting.spares_body options hparsed (h.inspecting.fit hhalted) howns
        (List.mem_map.mpr ⟨item, List.mem_cons_self, hdecl⟩) (FunctionDecl.Lies.body (hlocated _ _ hnumber))
      rwa [← hstore] at hbody

end

end RainCheck

import RainCheck.Proofs.Compilation

/-!
# Modules without problems

What is known of a module if its compilation reports no problem (`SourceFile.flawless`): no name is taken twice, the
store is sound, and the fields of all structs and the types of all functions are resolved.
-/

namespace RainCheck

variable {options : Options} {decls : List Decl} {done rest items items' : List Item} {item : Item} {p q : Progress}

/-- If every declaration has its name, no name is taken twice. -/
private theorem Parsed.nodup_of_owns (h : Parsed decls) (howns : ∀ d ∈ decls, d.Owns decls) :
    (decls.map Decl.name).Nodup := by
  suffices hdone : ∀ done behind, decls = done ++ behind → (done.map Decl.name).Nodup from hdone decls [] (by simp)
  intro done
  induction done using List.reverseRecOn with
  | nil => exact fun _ _ => List.nodup_nil
  | append_singleton done d ih =>
    intro behind hdecls
    rw [List.append_assoc, List.singleton_append] at hdecls
    subst hdecls
    rw [List.map_append, List.map_singleton, List.nodup_append]
    refine ⟨ih _ rfl, List.nodup_singleton _, ?_⟩
    rintro _ hname name hmem rfl
    obtain rfl := List.mem_singleton.mp hmem
    obtain ⟨e, he, hname⟩ := List.mem_map.mp hname
    -- the first declaration of the name stands in front of `d`, and is `d`
    obtain ⟨f, hf⟩ : ∃ f, done.find? (·.name = d.name) = some f :=
      Option.isSome_iff_exists.mp (List.find?_isSome.mpr ⟨e, he, decide_eq_true hname⟩)
    have hfirst : (done ++ d :: behind).find? (·.name = d.name) = some f := by rw [List.find?_append, hf]; rfl
    have howned : (done ++ d :: behind).find? (·.name = d.name) = some d := howns d (by simp)
    obtain rfl : f = d := Option.some.inj (hfirst.symm.trans howned)
    exact h.span_ne (List.mem_of_find?_eq_some hf) rfl

/-- Without problems nothing has failed. -/
private theorem Accounted.flawless {L : Listing} {uses : List Use} (h : Accounted L uses options items p)
    (herrors : p.errors = []) :
    p.halted = false ∧ ∀ i ∈ items, i.failed = false := by
  refine ⟨?_, fun i hi => ?_⟩
  · by_contra hhalted
    exact (h.halted (by simpa using hhalted)).1 herrors
  · by_contra hfailed
    exact h.failed i hi (by simpa using hfailed) herrors

/-- A phase behind which there is no problem met none. -/
private theorem Phase.errors_nil {phase : Phase} (hrun : phase.run options items p = .ok (items', q))
    (herrors : q.errors = []) :
    p.errors = [] :=
  List.subset_nil.mp (herrors ▸ Phase.run_errors hrun)

private theorem Store.GrowsTo.hasSignature {s s' : Store} (hg : s.GrowsTo s') {key : Span}
    (h : (s.function key).signature.isSome = true) : (s'.function key).signature.isSome = true := by
  obtain ⟨sig, hsig⟩ := Option.isSome_iff_exists.mp h
  rw [(hg.functions key).signature sig hsig]
  rfl

/-- What holds during a phase that learns about types: without problems, `P` holds of all declarations that are done. -/
structure Settling (P : Bool → Decl → Store → Prop) (options : Options) (decls : List Decl) (done rest : List Item)
    (p : Progress) : Prop where
  underway : Underway options decls (done ++ rest) p
  items : (done ++ rest).map (·.decl) = decls
  settled : p.errors = [] → ∀ i ∈ done, P false i.decl p.store

section

variable {phase : Phase} {P : Bool → Decl → Store → Prop}

private theorem Settling.step (hphase : phase.Studies options decls P)
    (hgrow : ∀ d s s', Store.GrowsTo s s' → P false d s → P false d s')
    (h : Settling P options decls done (item :: rest) p) :
    ∃ item' p', phase.step options item p = .ok (item', p') ∧ Settling P options decls (done ++ [item']) rest p' := by
  obtain ⟨item', p', hstep, hdecl, hunderway, hg, hP⟩ := hphase.step h.underway
  refine ⟨item', p', hstep, hunderway, by simpa [hdecl] using h.items, fun herrors i hi => ?_⟩
  have herrors' : p.errors = [] := List.subset_nil.mp (herrors ▸ Phase.step_errors hstep)
  rcases List.mem_append.mp hi with hi | hi
  · exact hgrow _ _ _ hg.toGrowsTo (h.settled herrors' i hi)
  · obtain rfl := List.mem_singleton.mp hi
    have hbefore := h.underway.accounted.flawless herrors'
    have hdone := (hunderway.accounted.flawless herrors).2 i (by simp)
    rw [hdecl]
    exact hdone ▸ hP hbefore.1 (hbefore.2 item (by simp))

/-- Behind a phase that learns about types, `P` holds of all declarations if there are no problems. -/
private theorem Phase.Studies.settles (hphase : phase.Studies options decls P)
    (hgrow : ∀ d s s', Store.GrowsTo s s' → P false d s → P false d s') (h : Underway options decls items p)
    (hitems : items.map (·.decl) = decls) :
    ∃ items' p', phase.run options items p = .ok (items', p') ∧ items'.map (·.decl) = decls ∧
      Underway options decls items' p' ∧ p.store.GrowsTo p'.store ∧
      (p'.errors = [] → ∀ d ∈ decls, P false d p'.store) := by
  obtain ⟨items', p', hrun, h'⟩ := Phase.run_ends (Settling P options decls) (fun _ _ _ _ => Settling.step hphase hgrow)
    ⟨h, hitems, by simp⟩
  have hunderway := h'.underway
  have hitems' := h'.items
  rw [List.append_nil] at hunderway hitems'
  obtain ⟨_, _, hrun', -, -, hg⟩ := hphase.run h
  cases hrun.symm.trans hrun'
  refine ⟨items', p', hrun, hitems', hunderway, hg.toGrowsTo, fun herrors d hd => ?_⟩
  obtain ⟨i, hi, rfl⟩ := List.mem_map.mp (hitems' ▸ hd)
  exact h'.settled herrors i hi

end

/-- Without problems no name is taken twice, the store is sound, all declarations are registered, and the fields of all
structs and the types of all functions are resolved. -/
theorem SourceFile.flawless {file : SourceFile} {u : CompiledUnit} (hcompile : file.compile options = .ok u)
    (herrors : u.errors = []) :
    ∃ m decls, u.module = some m ∧ file.declarations = .ok decls ∧ (decls.map Decl.name).Nodup ∧
      m.store.Sound (moduleListing decls) ∧ (∀ d, .struct d ∈ decls → m.store.Decided false d) ∧
      (∀ d ∈ decls, d.Noted m.store) ∧
      ∀ f, .function f ∈ decls → (m.store.function f.header.span).signature.isSome = true := by
  rcases file.declarations_parsed with ⟨decls, hdecls, hparsed⟩ | ⟨d, hrefused⟩
  · obtain ⟨items₁, p₁, hrun₁, hitems₁, h₁, -⟩ := registration_ends options hparsed
    obtain ⟨items₂, p₂, hrun₂, hitems₂, h₂, -, hdecided⟩ := (studies_structs options decls).settles
      (fun _ _ _ hg hd e he => hg.decided (hd e he)) h₁ hitems₁
    obtain ⟨items₃, p₃, hrun₃, -, h₃, hg₃, hsignatures⟩ := (studies_signatures options hparsed).settles
      (fun _ _ _ hg hd _ f hf => hg.hasSignature (hd rfl f hf)) h₂ hitems₂
    obtain ⟨items₄, p₄, hrun₄, ⟨h₄, -⟩, hg₄⟩ := bodies_end hparsed h₃
    have hprepared : Phase.runAll options Phase.preparation (decls.map ({ decl := · })) { store := {} } =
        .ok (items₃, p₃) := by
      simp only [Phase.preparation, Phase.runAll, hrun₁, ok_bind, hrun₂, hrun₃]
    rw [file.compile_of_module hdecls (compile_of_prepared hprepared hrun₄)] at hcompile
    cases hcompile
    -- problems are only added, so there was none behind an earlier phase
    have herrors₃ := Phase.errors_nil hrun₄ herrors
    have herrors₂ := Phase.errors_nil hrun₃ herrors₃
    have herrors₁ := Phase.errors_nil hrun₂ herrors₂
    have howns : ∀ d ∈ decls, d.Owns decls := fun d hd => by
      obtain ⟨i, hi, rfl⟩ := List.mem_map.mp (hitems₁ ▸ hd)
      obtain ⟨hhalted, hfailed⟩ := h₁.accounted.flawless herrors₁
      exact h₁.owns hhalted i hi (hfailed i hi)
    have hrest := h₄.resting (h₄.accounted.flawless herrors).1
    refine ⟨_, decls, rfl, hdecls, hparsed.nodup_of_owns howns, hrest.sound, fun d hd => ?_,
      fun d hd => hrest.noted (howns d hd), fun f hf => ?_⟩
    · exact hg₄.decided (hg₃.decided (hdecided herrors₂ _ hd d rfl))
    · exact hg₄.hasSignature (hsignatures herrors₃ _ hf rfl f rfl)
  · rw [file.compile_of_refused options hrefused] at hcompile
    cases hcompile
    cases herrors

end RainCheck

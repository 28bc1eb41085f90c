import RainCheck.Proofs.Compilation

/-!
# States of structs

What the first two phases of a compilation find out about structs, told by the graph of structs alone: the fields of a
struct are resolved exactly when it is not doomed.
-/

namespace RainCheck

variable {options : Options} {decls : List Decl} {done rest : List Item} {item : Item} {p : Progress}

/-- What holds while structs are resolved, if no name is taken twice. -/
structure Deciding (options : Options) (decls : List Decl) (done rest : List Item) (p : Progress) : Prop where
  underway : Underway options decls (done ++ rest) p
  items : (done ++ rest).map (·.decl) = decls
  untried : ∀ i ∈ rest, i.failed = false
  decided : ∀ i ∈ done, ∀ d, i.decl = .struct d → p.store.Decided i.failed d

theorem Deciding.step (hcontinue : options.continueOnError = true) (h : Deciding options decls done (item :: rest) p) :
    ∃ item' p', Phase.structs.step options item p = .ok (item', p') ∧
      Deciding options decls (done ++ [item']) rest p' := by
  obtain ⟨item', p', hstep, hdecl, hunderway, hg, hdecided⟩ := (studies_structs options decls).step h.underway
  refine ⟨item', p', hstep, hunderway, ?_, fun i hi => h.untried i (List.mem_cons_of_mem _ hi), fun i hi d hd => ?_⟩
  · simpa [hdecl] using h.items
  · rcases List.mem_append.mp hi with hi | hi
    · exact hg.decided (h.decided i hi d hd)
    · obtain rfl := List.mem_singleton.mp hi
      exact hdecided (h.underway.accounted.running hcontinue) (h.untried item List.mem_cons_self) d (hdecl ▸ hd)

/--
Behind the first two phases every struct is resolved or has failed, and it has failed exactly when it reaches one that
lies on a cycle, repeats a field or names an unknown type.
-/
theorem struct_failed_iff_doomed (file : SourceFile) (options : Options) (decls : List Decl)
    (hdecls : file.declarations = .ok decls) (hdistinct : (decls.map Decl.name).Nodup)
    (hcontinue : options.continueOnError = true) :
    ∃ items p,
      Phase.runAll options [.registration, .structs] (decls.map ({ decl := · })) { store := {} } = .ok (items, p) ∧
        ∀ d, .struct d ∈ decls → ∃ t state, p.store.structs.find? d.span = some ⟨t, FrameId.module⟩ ∧
          p.store.typeAt? t = some (.struct d state) ∧
          ((∃ fields, state = .resolved fields) ∨ ∃ why, state = .failed why) ∧
          ((∃ why, state = .failed why) ↔ d.Doomed (moduleScope decls)) := by
  have hparsed := file.parsed_of_declarations hdecls
  obtain ⟨items₁, p₁, hrun₁, hitems₁, h₁, huntried⟩ := registration_ends options hparsed
  obtain ⟨items₂, p₂, hrun₂, h₂⟩ := Phase.run_ends (Deciding options decls) (fun _ _ _ _ => Deciding.step hcontinue)
    ⟨h₁, hitems₁, huntried hdistinct, by simp⟩
  have hsound := (h₂.underway.resting (h₂.underway.accounted.running hcontinue)).sound
  refine ⟨items₂, p₂, ?_, fun d hd => ?_⟩
  · simp only [Phase.runAll, hrun₁, ok_bind, hrun₂]
  · have hitems := h₂.items
    rw [List.append_nil] at hitems
    obtain ⟨i, hi, hdecl⟩ := List.mem_map.mp (hitems ▸ hd)
    obtain ⟨t, state, hr, he, hstate⟩ := h₂.decided i hi d hdecl
    cases hfailed : i.failed with
    | false =>
      rw [hfailed] at hstate
      obtain ⟨fields, rfl⟩ : ∃ fields, state = .resolved fields := hstate
      refine ⟨t, _, hr, he, .inl ⟨fields, rfl⟩, by simp, fun hdoomed => ?_⟩
      exact absurd hdoomed ((hsound.types.resolved t d fields he).2.2.2 trivial)
    | true =>
      rw [hfailed] at hstate
      obtain ⟨why, rfl⟩ : ∃ why, state = .failed why := hstate
      exact ⟨t, _, hr, he, .inr ⟨why, rfl⟩, fun _ => (hsound.types.failed t d why he).2 trivial, fun _ => ⟨why, rfl⟩⟩

/-- Two structs of which only one contains the other by value, and one that contains itself. -/
theorem struct_failed_iff_doomed_cycle : ∃ decls items p,
    SourceFile.declarations ⟨"cycle", "struct A{b:B} struct B{a:&A} struct C{c:C}".toList⟩ = .ok decls ∧
      decls.map Decl.name = ["A", "B", "C"] ∧
      Phase.runAll {} [.registration, .structs] (decls.map ({ decl := · })) { store := {} } = .ok (items, p) ∧
        ∀ d, .struct d ∈ decls → ∃ t state, p.store.structs.find? d.span = some ⟨t, FrameId.module⟩ ∧
          p.store.typeAt? t = some (.struct d state) ∧
          ((∃ fields, state = .resolved fields) ∨ ∃ why, state = .failed why) ∧
          ((∃ why, state = .failed why) ↔ d.Doomed (moduleScope decls)) := by
  have hrun : (SourceFile.declarations
      ⟨"cycle", "struct A{b:B} struct B{a:&A} struct C{c:C}".toList⟩).toOption.map
        (·.map Decl.name) = some ["A", "B", "C"] := by
    decide +kernel
  cases hdecls : SourceFile.declarations
      ⟨"cycle", "struct A{b:B} struct B{a:&A} struct C{c:C}".toList⟩ with
  | error why =>
    rw [hdecls] at hrun
    cases hrun
  | ok decls =>
    rw [hdecls] at hrun
    have hnames : decls.map Decl.name = ["A", "B", "C"] := Option.some.inj hrun
    obtain ⟨items, p, hphases, hstates⟩ :=
      struct_failed_iff_doomed _ {} decls hdecls (by rw [hnames]; decide) rfl
    exact ⟨decls, items, p, rfl, hnames, hphases, hstates⟩

end RainCheck
